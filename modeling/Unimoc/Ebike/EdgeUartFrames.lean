import Mathlib.Data.List.Chain
import Unimoc.Ebike.EdgeUart

/-! Bytes sent as frames of eight bits without parity, whose edges are seen late or early, and the
decoder that follows them. -/
namespace Unimoc.Ebike

open BoundedLoop CountedRing WrappingClock

/-- A byte on the line. The edge in front of bit `k` is seen within half a bit of its place. -/
structure SentFrame (bitTicks : ℕ) where
  byte : UInt8
  start : ℤ
  edge : ℕ → ℤ
  jitter : ∀ k, 1 ≤ k → k ≤ 9 → 2 * (edge k - (start + k * bitTicks)).natAbs < bitTicks

namespace SentFrame

variable {bitTicks : ℕ}

/-- The level of bit `k`: the start bit, the data from the lowest on, the stop bit. -/
def level (frame : SentFrame bitTicks) (k : ℕ) : Bool :=
  if k = 0 then false else if k ≤ 8 then frame.byte.toBitVec.getLsbD (k - 1) else true

def change (frame : SentFrame bitTicks) (k : ℕ) : Option (ℤ × Bool) :=
  if frame.level k = frame.level (k - 1) then none else some (frame.edge k, frame.level k)

/-- The edges behind bit `k`: only a bit of another level has one. -/
def changes (frame : SentFrame bitTicks) (k : ℕ) : List (ℤ × Bool) :=
  (List.range' (k + 1) (9 - k)).filterMap frame.change

def edges (frame : SentFrame bitTicks) : List (ℤ × Bool) := (frame.start, false) :: frame.changes 0

def sampleTime (frame : SentFrame bitTicks) (k : ℕ) : ℤ := EdgeUartDecoder.sampleTime bitTicks frame.start k

/-- From after here the byte is complete. -/
def stop (frame : SentFrame bitTicks) : ℤ := frame.sampleTime 9

/-- Back to back or with a gap: the start edge too may be seen half a bit early. -/
def Apart (earlier later : SentFrame bitTicks) : Prop := 19 * (bitTicks : ℤ) < 2 * (later.start - earlier.start)

variable (frame : SentFrame bitTicks)

theorem changes_step {k : ℕ} (inside : k < 9) :
    frame.changes k = (frame.change (k + 1)).toList ++ frame.changes (k + 1) := by
  have length : 9 - k = 9 - (k + 1) + 1 := by omega
  unfold changes
  rw [length, List.range'_succ, List.filterMap_cons]
  cases frame.change (k + 1) <;> rfl

theorem changes_cons {k : ℕ} {time : ℤ} {level : Bool} {others : List (ℤ × Bool)}
    (next : frame.changes k = (time, level) :: others) :
    ∃ later, k < later ∧ later ≤ 9 ∧ time = frame.edge later ∧ level = frame.level later ∧
      others = frame.changes later := by
  obtain ⟨left, total⟩ : ∃ left, left = 9 - k := ⟨_, rfl⟩
  induction left generalizing k with
  | zero =>
    rw [changes, ← total] at next
    cases next
  | succ left ih =>
    rw [frame.changes_step (by omega), change] at next
    split at next
    · obtain ⟨later, behind, rest⟩ := ih next (by omega)
      exact ⟨later, by omega, rest⟩
    · obtain ⟨first, same⟩ := List.cons.inj next
      obtain ⟨rfl, rfl⟩ := Prod.mk.inj first
      exact ⟨k + 1, by omega, by omega, rfl, rfl, same.symm⟩

/-! ### When its bits are sampled -/

theorem sampleTime_bounds (k : ℕ) :
    2 * frame.sampleTime k ≤ 2 * (frame.start + k * bitTicks) + bitTicks ∧
      2 * (frame.start + k * bitTicks) + bitTicks ≤ 2 * frame.sampleTime k + 1 := by
  have expand : (2 * k + 1) * bitTicks = 2 * (k * bitTicks) + bitTicks := by rw [Nat.add_mul, Nat.mul_assoc, Nat.one_mul]
  unfold sampleTime EdgeUartDecoder.sampleTime
  rw [expand]
  push_cast
  omega

theorem edge_le_sampleTime {k : ℕ} (first : 1 ≤ k) (last : k ≤ 9) : frame.edge k ≤ frame.sampleTime k := by
  have near := frame.jitter k first last
  have middle := frame.sampleTime_bounds k
  omega

theorem sampleTime_lt_edge {k : ℕ} (last : k + 1 ≤ 9) : frame.sampleTime k < frame.edge (k + 1) := by
  have near := frame.jitter (k + 1) (by omega) last
  have middle := frame.sampleTime_bounds k
  push_cast [Int.add_mul] at near
  omega

theorem start_le_sampleTime (k : ℕ) : frame.start ≤ frame.sampleTime k := by
  have least := Int.natCast_nonneg ((2 * k + 1) * bitTicks / 2)
  unfold sampleTime EdgeUartDecoder.sampleTime
  omega

theorem sampleTime_le {j k : ℕ} (order : j ≤ k) : frame.sampleTime j ≤ frame.sampleTime k :=
  EdgeUartDecoder.sampleTime_mono order

theorem stop_le : 2 * frame.stop ≤ 2 * frame.start + 19 * bitTicks := by
  have bounds := frame.sampleTime_bounds 9
  unfold stop
  push_cast at bounds
  omega

variable {frame}

theorem Apart.stop_lt {later : SentFrame bitTicks} (apart : frame.Apart later) : frame.stop < later.start := by
  have bounds := frame.stop_le
  unfold Apart at apart
  omega

end SentFrame

/-! ### The decoder within a frame -/

namespace EdgeUartDecoder

variable {bitTicks : ℕ}

/-- The bits of the frame in front of bit `k` are sampled and its edges up to bit `j` are heard. -/
structure Inside (frame : SentFrame bitTicks) (k j : ℕ) (decoder : EdgeUartDecoder) : Prop where
  ticksPerBit : decoder.ticksPerBit = UInt32.ofNat bitTicks
  inFrame : decoder.inFrame = true
  startTicks : decoder.startTicks = stamp frame.start
  bit : decoder.bit = UInt32.ofNat k
  last : k ≤ 9
  data : ∀ i < 8, decoder.data.toBitVec.getLsbD i = (decide (i + 1 < k) && frame.byte.toBitVec.getLsbD i)
  level : decoder.level = frame.level j
  heard : j = k ∨ j + 1 = k

/-- The line is high and no frame is open. -/
structure Idle (bitTicks : ℕ) (decoder : EdgeUartDecoder) : Prop where
  ticksPerBit : decoder.ticksPerBit = UInt32.ofNat bitTicks
  inFrame : decoder.inFrame = false
  level : decoder.level = true

variable {frame : SentFrame bitTicks} {k j : ℕ} {decoder : EdgeUartDecoder}

theorem Inside.due_iff (inside : decoder.Inside frame k j) (fits : 19 * bitTicks < 2 ^ 31) {now : ℤ}
    (near : Near (frame.sampleTime k) now) : decoder.due (stamp now) = true ↔ frame.sampleTime k < now :=
  due_stamp fits inside.last inside.ticksPerBit inside.inFrame inside.startTicks inside.bit near

theorem dataBit_getLsbD {k : ℕ} (first : 1 ≤ k) (last : k ≤ 8) (level : Bool) {i : ℕ} (bit : i < 8) :
    ((if level then 1 else 0 : UInt32) <<< (UInt32.ofNat k - 1)).toUInt8.toBitVec.getLsbD i =
      (decide (i + 1 = k) && level) := by
  interval_cases k <;> interval_cases i <;> cases level <;> rfl

theorem Inside.sample (inside : decoder.Inside frame k j) (level : decoder.level = frame.level k) :
    (k < 9 ∧ decoder.sample.Inside frame (k + 1) k ∧ decoder.sample.waiting = decoder.waiting) ∨
      k = 9 ∧ decoder.sample = { decoder with inFrame := false }.store frame.byte := by
  obtain ⟨ticksPerBit, inFrame, startTicks, bit, last, data, -, -⟩ := inside
  have next : decoder.bit + 1 = UInt32.ofNat (k + 1) := by rw [bit, UInt32.ofNat_add]; rfl
  obtain rfl | ⟨first, within⟩ | rfl : k = 0 ∨ (1 ≤ k ∧ k ≤ 8) ∨ k = 9 := by omega
  · have start : decoder.sample = { decoder with bit := decoder.bit + 1 } := by
      rw [sample_start bit, level]
      rfl
    rw [start]
    refine .inl ⟨by decide, ⟨ticksPerBit, inFrame, startTicks, next, by decide, ?_, level, .inr rfl⟩, rfl⟩
    intro i inside
    rw [data i inside]
    simp
  · rw [sample_data bit first within]
    refine .inl ⟨by omega, ⟨ticksPerBit, inFrame, startTicks, next, by omega, ?_, level, .inr rfl⟩, rfl⟩
    intro i inside
    rw [UInt8.toBitVec_or, BitVec.getLsbD_or, data i inside, bit, dataBit_getLsbD first within _ inside, level,
      SentFrame.level, if_neg (by omega), if_pos within]
    by_cases this : i + 1 = k
    · subst this
      simp
    · have same : i + 1 < k + 1 ↔ i + 1 < k := by omega
      simp [this, same]
  · have byte : decoder.data = frame.byte := by
      apply UInt8.eq_of_toBitVec_eq
      apply BitVec.eq_of_getLsbD_eq
      intro i inside
      rw [data i inside, decide_eq_true (by omega), Bool.true_and]
    have high : decoder.level = true := level
    exact .inr ⟨rfl, by rw [sample_stop bit, if_pos high, byte]⟩

/-- At the sample of a bit its edge is heard: if it has one, that lies in front of the sample. -/
theorem Inside.hears (inside : decoder.Inside frame k j) {limit : ℤ} (due : frame.sampleTime k < limit)
    (others : ∀ edge ∈ frame.changes j, limit ≤ edge.1) :
    decoder.level = frame.level k ∧ frame.changes j = frame.changes k := by
  obtain rfl | rfl := inside.heard
  · exact ⟨inside.level, rfl⟩
  have last := inside.last
  have step := frame.changes_step (k := j) (by omega)
  rw [SentFrame.change] at step
  split at step
  · rename_i same
    exact ⟨by rw [inside.level, same]; rfl, step⟩
  · have listed : (frame.edge (j + 1), frame.level (j + 1)) ∈ frame.changes j := by
      rw [step]
      exact List.mem_append_left _ (Option.mem_toList.mpr rfl)
    have early := frame.edge_le_sampleTime (Nat.succ_pos j) last
    have late := others _ listed
    exact absurd (Int.lt_of_le_of_lt early due) (Int.not_lt.mpr late)

/-- The samples taken: the frame goes on with one that is not before `now`, or its byte is stored. -/
def Advances (frame : SentFrame bitTicks) (j : ℕ) (now limit : ℤ) (decoder after : EdgeUartDecoder) : Prop :=
  (∃ next heard, after.Inside frame next heard ∧ now ≤ frame.sampleTime next ∧
      frame.changes heard = frame.changes j ∧ after.waiting = decoder.waiting) ∨
    after.Idle bitTicks ∧ frame.stop < limit ∧ frame.changes j = [] ∧ after.waiting = decoder.waiting ++ [frame.byte]

theorem Advances.sample {after : EdgeUartDecoder} {now limit : ℤ} (advances : Advances frame j now limit decoder after)
    (ringed : after.Ringed) (others : ∀ edge ∈ frame.changes j, limit ≤ edge.1)
    (room : frame.stop < limit → decoder.count < fifoSize)
    (due : ∀ next heard, after.Inside frame next heard → now ≤ frame.sampleTime next → frame.sampleTime next < limit)
    (opened : after.inFrame = true) : Advances frame j now limit decoder after.sample := by
  obtain ⟨bit, heard, inside, waits, same, waiting⟩ | ⟨idle, -⟩ := advances
  · have passed := due bit heard inside waits
    obtain ⟨level, current⟩ := inside.hears passed (by rw [same]; exact others)
    obtain ⟨_, next, kept⟩ | ⟨rfl, stored⟩ := inside.sample level
    · have rises := frame.sampleTime_le (Nat.le_succ bit)
      exact .inl ⟨bit + 1, bit, next, waits.trans rises, current.symm.trans same, kept.trans waiting⟩
    · have space : after.count < fifoSize := by
        rw [← length_waiting, waiting, length_waiting]
        exact room passed
      have closed : Ringed { after with inFrame := false } := ⟨ringed.slots, ringed.inside, ringed.room⟩
      have high : after.level = true := level
      refine .inr ⟨?_, passed, same.symm.trans current, ?_⟩
      · rw [stored, store, if_neg (Nat.ne_of_lt space)]
        exact ⟨inside.ticksPerBit, rfl, high⟩
      · rw [stored, closed.waiting_store space, ← waiting]
        rfl
  · rw [idle.inFrame] at opened
    cases opened

/-- Up to a time that is not behind its next edge a frame goes on, or its byte is stored. -/
theorem Inside.sampleUntil (inside : decoder.Inside frame k j) (ringed : decoder.Ringed)
    (fits : 19 * bitTicks < 2 ^ 31) {now limit : ℤ} (begun : frame.start ≤ now) (waits : now ≤ frame.sampleTime k)
    (order : now ≤ limit) (soon : limit < now + 2 ^ 31) (others : ∀ edge ∈ frame.changes j, limit ≤ edge.1)
    (room : frame.stop < limit → decoder.count < fifoSize) :
    Advances frame j limit limit decoder (decoder.sampleUntil (stamp limit)) := by
  have dueIff : ∀ {after : EdgeUartDecoder} {next heard}, after.Inside frame next heard → now ≤ frame.sampleTime next →
      (after.due (stamp limit) = true ↔ frame.sampleTime next < limit) := by
    intro after next heard inside waits
    have last := frame.sampleTime_le inside.last
    have span := frame.stop_le
    unfold SentFrame.stop at span
    exact inside.due_iff fits ⟨by omega, by omega⟩
  have reached : (decoder.sampleUntil (stamp limit)).Ringed ∧
      Advances frame j now limit decoder (decoder.sampleUntil (stamp limit)) := by
    apply loop_induct (P := fun after => after.Ringed ∧ Advances frame j now limit decoder after)
    · rintro after ⟨ringed, advances⟩ due
      have opened : after.inFrame = true := ((Bool.and_eq_true ..).mp due).1
      exact ⟨ringed.sample,
        advances.sample ringed others room (fun _ _ inside waits => (dueIff inside waits).mp due) opened⟩
    · exact ⟨ringed, .inl ⟨k, j, inside, waits, rfl, rfl⟩⟩
  obtain ⟨-, ⟨next, heard, inside, waits, kept⟩ | done⟩ := reached
  · refine .inl ⟨next, heard, inside, ?_, kept⟩
    have taken := sampleUntil_due (stamp limit) decoder
    by_contra passed
    rw [(dueIff inside waits).mpr (by omega)] at taken
    cases taken
  · exact .inr done

/-! ### The decoder along the frames -/

/-- At a time, the frames that have not ended and the edges that are to come. -/
inductive Tracks (now : ℤ) (decoder : EdgeUartDecoder) : List (SentFrame bitTicks) → List (ℤ × Bool) → Prop
  | idle (later : List (SentFrame bitTicks)) (idle : decoder.Idle bitTicks) :
      Tracks now decoder later (later.flatMap SentFrame.edges)
  | inside (frame : SentFrame bitTicks) (later : List (SentFrame bitTicks)) (k j : ℕ)
      (inside : decoder.Inside frame k j) (begun : frame.start ≤ now) (waits : now ≤ frame.sampleTime k) :
      Tracks now decoder (frame :: later) (frame.changes j ++ later.flatMap SentFrame.edges)

theorem le_stop_of_edges {later : List (SentFrame bitTicks)} {limit : ℤ}
    (others : ∀ edge ∈ later.flatMap SentFrame.edges, limit ≤ edge.1) : ∀ frame ∈ later, limit ≤ frame.stop := by
  intro frame listed
  have starts : (frame.start, false) ∈ later.flatMap SentFrame.edges :=
    List.mem_flatMap.mpr ⟨frame, listed, List.mem_cons_self⟩
  exact (others _ starts).trans (frame.start_le_sampleTime 9)

/-- Up to a time that is not behind the next edge the frames whose stop bits were sampled are stored. -/
theorem Tracks.sampleUntil {frames : List (SentFrame bitTicks)} {rest : List (ℤ × Bool)} {now limit : ℤ}
    (tracks : Tracks now decoder frames rest) (ringed : decoder.Ringed) (fits : 19 * bitTicks < 2 ^ 31)
    (order : now ≤ limit) (soon : limit < now + 2 ^ 31) (others : ∀ edge ∈ rest, limit ≤ edge.1)
    (room : decoder.count + (frames.filter (·.stop < limit)).length ≤ fifoSize) :
    ∃ ended running, frames = ended ++ running ∧ (∀ frame ∈ ended, frame.stop < limit) ∧
      (∀ frame ∈ running, limit ≤ frame.stop) ∧ Tracks limit (decoder.sampleUntil (stamp limit)) running rest ∧
      (decoder.sampleUntil (stamp limit)).waiting = decoder.waiting ++ ended.map SentFrame.byte := by
  cases tracks with
  | idle _ idle =>
    rw [sampleUntil_closed idle.inFrame]
    exact ⟨[], frames, rfl, List.forall_mem_nil _, le_stop_of_edges others, .idle frames idle,
      (List.append_nil _).symm⟩
  | inside frame later k j inside begun waits =>
    obtain ⟨own, behind⟩ := List.forall_mem_append.mp others
    have space : frame.stop < limit → decoder.count < fifoSize := by
      intro passed
      have counted : 0 < ((frame :: later).filter (·.stop < limit)).length :=
        List.length_pos_of_mem (List.mem_filter.mpr ⟨List.mem_cons_self, decide_eq_true passed⟩)
      omega
    obtain ⟨next, heard, goes_on, waits, same, waiting⟩ | ⟨idle, passed, none, waiting⟩ :=
      inside.sampleUntil ringed fits begun waits order soon own space
    · refine ⟨[], frame :: later, rfl, List.forall_mem_nil _, ?_, ?_, by rw [waiting]; exact (List.append_nil _).symm⟩
      · exact List.forall_mem_cons.mpr ⟨waits.trans (frame.sampleTime_le goes_on.last), le_stop_of_edges behind⟩
      · rw [← same]
        exact .inside frame later next heard goes_on (begun.trans order) waits
    · refine ⟨[frame], later, rfl, List.forall_mem_singleton.mpr passed, le_stop_of_edges behind, ?_, waiting⟩
      rw [none]
      exact .idle later idle

theorem Tracks.push {frames : List (SentFrame bitTicks)} {rest : List (ℤ × Bool)} {now : ℤ} {level : Bool}
    (tracks : Tracks now (decoder.sampleUntil (stamp now)) frames ((now, level) :: rest))
    (apart : frames.IsChain SentFrame.Apart) : Tracks now (decoder.push ⟨stamp now, level⟩) frames rest := by
  generalize edges : (now, level) :: rest = all at tracks
  cases tracks with
  | idle _ idle =>
    cases frames with
    | nil => cases edges
    | cons frame later =>
      obtain ⟨first, rfl⟩ := List.cons.inj edges
      obtain ⟨rfl, rfl⟩ := Prod.mk.inj first
      rw [@push_opens ⟨stamp frame.start, false⟩ decoder (by rw [idle.inFrame, idle.level]; rfl)]
      refine .inside frame later 0 0 ⟨idle.ticksPerBit, rfl, rfl, rfl, Nat.zero_le _, ?_, rfl, .inl rfl⟩ le_rfl
        (frame.start_le_sampleTime 0)
      intro i _
      exact (BitVec.getLsbD_zero ..).trans (Bool.false_and _).symm
  | inside frame later k j inside begun waits =>
    cases own : frame.changes j with
    | nil =>
      rw [own] at edges
      cases later with
      | nil => cases edges
      | cons next later =>
        obtain ⟨first, -⟩ := List.cons.inj edges
        obtain ⟨rfl, -⟩ := Prod.mk.inj first
        have gap := ((List.isChain_cons_cons.mp apart).1).stop_lt
        have last := frame.sampleTime_le inside.last
        exact absurd (gap.trans_le waits) (Int.not_lt.mpr last)
    | cons edge others =>
      rw [own] at edges
      obtain ⟨rfl, rfl⟩ := List.cons.inj edges
      obtain ⟨bit, behind, last, time, same, rest⟩ := frame.changes_cons own
      have here : bit = k := by
        have heard := inside.heard
        by_contra other
        have before : frame.sampleTime k < frame.edge bit := by
          obtain ⟨previous, rfl⟩ := Nat.exists_eq_succ_of_ne_zero (Nat.ne_zero_of_lt behind)
          exact (frame.sampleTime_le (by omega)).trans_lt (frame.sampleTime_lt_edge last)
        omega
      subst here
      rw [@push_stays ⟨stamp now, level⟩ decoder (by rw [inside.inFrame]; rfl), rest]
      exact .inside frame later bit bit ⟨inside.ticksPerBit, inside.inFrame, inside.startTicks, inside.bit,
        inside.last, inside.data, same, .inl rfl⟩ begun waits

theorem Tracks.pop {frames : List (SentFrame bitTicks)} {rest : List (ℤ × Bool)} {now : ℤ}
    (tracks : Tracks now decoder frames rest) : Tracks now decoder.pop.2 frames rest := by
  unfold EdgeUartDecoder.pop
  split
  · exact tracks
  cases tracks with
  | idle _ idle => exact .idle frames ⟨idle.ticksPerBit, idle.inFrame, idle.level⟩
  | inside frame later k j inside begun waits =>
    exact .inside frame later k j ⟨inside.ticksPerBit, inside.inFrame, inside.startTicks, inside.bit, inside.last,
      inside.data, inside.level, inside.heard⟩ begun waits

end EdgeUartDecoder

/-! ### Calls in time order -/

inductive TimedCall
  | push (time : ℤ) (level : Bool)
  | poll (time : ℤ)
  | pop
deriving DecidableEq, Repr

namespace TimedCall

def stamped : TimedCall → UartCall
  | .push time level => .push ⟨stamp time, level⟩
  | .poll time => .poll (stamp time)
  | .pop => .pop

def time : TimedCall → Option ℤ
  | .push time _ => some time
  | .poll time => some time
  | .pop => none

def edge : TimedCall → Option (ℤ × Bool)
  | .push time level => some (time, level)
  | _ => none

def times (calls : List TimedCall) : List ℤ := calls.filterMap time

/-- Less than `2 ^ 31` ticks later. -/
def Soon (earlier later : ℤ) : Prop := earlier ≤ later ∧ later < earlier + 2 ^ 31

instance (earlier later : ℤ) : Decidable (Soon earlier later) := inferInstanceAs (Decidable (_ ∧ _))

variable {bitTicks : ℕ}

/-- The frames whose stop bits are sampled by these calls. -/
def complete (calls : List TimedCall) (frames : List (SentFrame bitTicks)) : List (SentFrame bitTicks) :=
  frames.filter fun frame => (times calls).any (frame.stop < ·)

end TimedCall

namespace UartRun

open TimedCall EdgeUartDecoder

variable {bitTicks : ℕ}

/-- Delivered or waiting, oldest first. -/
def bytes (run : UartRun) : List UInt8 := run.popped ++ run.decoder.waiting

end UartRun

open TimedCall UartRun

def heardFrom (bitTicks : ℕ) (calls : List TimedCall) : UartRun :=
  (start (UInt32.ofNat bitTicks)).steps (calls.map stamped)

end Unimoc.Ebike
