import Mathlib.Data.List.Infix
import Unimoc.Ebike.EdgeUartFrames

/-! The decoder in true time. What it makes of a line does not rest on when it is polled. -/
namespace Unimoc.Ebike

open BoundedLoop WrappingClock TimedCall

structure LineFrame where
  start : ℤ
  bit : ℕ
  data : UInt8

/-- The decoder without a counter and with room for every byte. -/
structure LineDecoder where
  level : Bool
  frame : Option LineFrame
  bytes : List UInt8

namespace LineDecoder

variable (bitTicks : ℕ)

def idle : LineDecoder := ⟨true, none, []⟩

def due (now : ℤ) (line : LineDecoder) : Bool :=
  line.frame.any fun frame => EdgeUartDecoder.sampleTime bitTicks frame.start frame.bit < now

def sample (line : LineDecoder) : LineDecoder :=
  match line.frame with
  | none => line
  | some ⟨start, bit, data⟩ =>
    if bit = 0 then { line with frame := if line.level then none else some ⟨start, 1, data⟩ }
    else if bit < 9 then
      let taken := ((if line.level then 1 else 0 : UInt32) <<< (UInt32.ofNat bit - 1)).toUInt8
      { line with frame := some ⟨start, bit + 1, data ||| taken⟩ }
    else { line with frame := none, bytes := if line.level then line.bytes ++ [data] else line.bytes }

section Sample

variable (level : Bool) (start : ℤ) (data : UInt8) (bytes : List UInt8)

theorem sample_start : sample ⟨level, some ⟨start, 0, data⟩, bytes⟩ =
    ⟨level, if level then none else some ⟨start, 1, data⟩, bytes⟩ := rfl

theorem sample_data {bit : ℕ} (first : 1 ≤ bit) (last : bit ≤ 8) : sample ⟨level, some ⟨start, bit, data⟩, bytes⟩ =
    ⟨level, some ⟨start, bit + 1,
      data ||| ((if level then 1 else 0 : UInt32) <<< (UInt32.ofNat bit - 1)).toUInt8⟩, bytes⟩ := by
  unfold sample
  simp only [if_neg (Nat.ne_of_gt first), if_pos (Nat.lt_succ_of_le last)]

theorem sample_stop : sample ⟨level, some ⟨start, 9, data⟩, bytes⟩ =
    ⟨level, none, if level then bytes ++ [data] else bytes⟩ := rfl

end Sample

def sampleUntil (now : ℤ) (line : LineDecoder) : LineDecoder := loop (due bitTicks now) sample 10 line

def hear (time : ℤ) (level : Bool) (line : LineDecoder) : LineDecoder :=
  let line := line.sampleUntil bitTicks time
  { line with
    level := level
    frame := if line.frame.isNone && line.level && !level then some ⟨time, 0, 0⟩ else line.frame }

def step (line : LineDecoder) : TimedCall → LineDecoder
  | .push time level => line.hear bitTicks time level
  | .poll time => line.sampleUntil bitTicks time
  | .pop => line

def steps (calls : List TimedCall) : LineDecoder := calls.foldl (step bitTicks) idle

def heard (edges : List (ℤ × Bool)) : LineDecoder :=
  edges.foldl (fun line edge => line.hear bitTicks edge.1 edge.2) idle

variable {bitTicks}

/-! ### Polling makes no difference -/

def samplesLeft (line : LineDecoder) : ℕ := (line.frame.map fun frame => 9 - frame.bit + 1).getD 0

theorem fewer_left (now : ℤ) (line : LineDecoder) (due : line.due bitTicks now = true) :
    line.sample.samplesLeft < line.samplesLeft := by
  obtain ⟨level, frame, bytes⟩ := line
  cases frame with
  | none => cases due
  | some frame =>
    unfold sample samplesLeft
    dsimp only
    split
    · split
      · exact Nat.succ_pos _
      · simp_all
    · split
      · simp only [Option.map_some, Option.getD_some]
        omega
      · exact Nat.succ_pos _

theorem samplesLeft_le (line : LineDecoder) : line.samplesLeft ≤ 10 := by
  unfold samplesLeft
  cases line.frame with
  | none => exact Nat.zero_le _
  | some frame =>
    simp only [Option.map_some, Option.getD_some]
    omega

theorem due_later {earlier later : ℤ} (order : earlier ≤ later) (line : LineDecoder)
    (due : line.due bitTicks earlier = true) : line.due bitTicks later = true := by
  unfold LineDecoder.due at due ⊢
  cases frame : line.frame with
  | none =>
    rw [frame] at due
    cases due
  | some frame =>
    simp_all only [Option.any_some, decide_eq_true_eq]
    omega

theorem sampleUntil_sampleUntil {earlier later : ℤ} (order : earlier ≤ later) (line : LineDecoder) :
    (line.sampleUntil bitTicks earlier).sampleUntil bitTicks later = line.sampleUntil bitTicks later :=
  loop_loop (fewer_left later) (due_later order) line.samplesLeft_le

/-- Up to a time the calls come to the same as their edges alone. -/
theorem steps_eq_heard {calls : List TimedCall} (order : (times calls).Pairwise (· ≤ ·)) {now : ℤ}
    (later : ∀ time ∈ times calls, time ≤ now) :
    (steps bitTicks calls).sampleUntil bitTicks now =
      (heard bitTicks (calls.filterMap edge)).sampleUntil bitTicks now := by
  induction calls using List.reverseRecOn generalizing now with
  | nil => rfl
  | append_singleton calls call ih =>
    rw [times, List.filterMap_append] at order later
    obtain ⟨before, -, behind⟩ := List.pairwise_append.mp order
    obtain ⟨older, newest⟩ := List.forall_mem_append.mp later
    rw [steps, List.foldl_append, List.filterMap_append]
    change (step bitTicks (steps bitTicks calls) call).sampleUntil bitTicks now = _
    cases call with
    | pop =>
      have none : [TimedCall.pop].filterMap edge = [] := rfl
      rw [none, List.append_nil]
      exact ih before older
    | poll time =>
      have none : [TimedCall.poll time].filterMap edge = [] := rfl
      rw [none, List.append_nil]
      exact (sampleUntil_sampleUntil (newest time List.mem_cons_self) _).trans (ih before older)
    | push time level =>
      have same : (steps bitTicks calls).sampleUntil bitTicks time = _ :=
        ih before fun older listed => behind older listed time List.mem_cons_self
      rw [(rfl : [TimedCall.push time level].filterMap edge = [(time, level)]), heard, List.foldl_append]
      change ((steps bitTicks calls).hear bitTicks time level).sampleUntil bitTicks now =
        ((heard bitTicks (calls.filterMap edge)).hear bitTicks time level).sampleUntil bitTicks now
      rw [hear, hear, same]

/-! ### The decoder follows the line -/

/-- The decoder, the bytes it has delivered before, and the line in true time. -/
structure Follows (bitTicks : ℕ) (popped : List UInt8) (line : LineDecoder) (decoder : EdgeUartDecoder) : Prop where
  ticksPerBit : decoder.ticksPerBit = UInt32.ofNat bitTicks
  ringed : decoder.Ringed
  level : decoder.level = line.level
  bytes : popped ++ decoder.waiting = line.bytes
  closed : line.frame = none → decoder.inFrame = false
  opened : ∀ frame ∈ line.frame, decoder.inFrame = true ∧ decoder.startTicks = stamp frame.start ∧
    decoder.bit = UInt32.ofNat frame.bit ∧ frame.bit ≤ 9 ∧ decoder.data = frame.data

/-- A time that the counter tells from the next sample. -/
def Recent (bitTicks : ℕ) (now : ℤ) (line : LineDecoder) : Prop :=
  ∀ frame ∈ line.frame, frame.start ≤ now ∧
    now < EdgeUartDecoder.sampleTime bitTicks frame.start frame.bit + 2 ^ 31

section Follows

open EdgeUartDecoder

variable {popped : List UInt8} {line : LineDecoder} {decoder : EdgeUartDecoder} {now : ℤ}

theorem sampleTime_bounds {start : ℤ} {bit : ℕ} (last : bit ≤ 9) :
    start ≤ EdgeUartDecoder.sampleTime bitTicks start bit ∧
      2 * EdgeUartDecoder.sampleTime bitTicks start bit ≤ 2 * start + 19 * bitTicks := by
  have products : (2 * bit + 1) * bitTicks ≤ 19 * bitTicks := Nat.mul_le_mul_right _ (by omega)
  unfold EdgeUartDecoder.sampleTime
  omega

theorem Follows.due_eq (follows : Follows bitTicks popped line decoder) (fits : 19 * bitTicks < 2 ^ 31)
    (recent : Recent bitTicks now line) : decoder.due (stamp now) = line.due bitTicks now := by
  unfold LineDecoder.due
  cases current : line.frame with
  | none => exact due_false (follows.closed current) _
  | some frame =>
    obtain ⟨opened, startTicks, bit, last, -⟩ := follows.opened frame current
    obtain ⟨begun, soon⟩ := recent frame current
    obtain ⟨-, span⟩ := @sampleTime_bounds bitTicks frame.start frame.bit last
    have same := @due_stamp decoder bitTicks frame.bit frame.start now fits last follows.ticksPerBit opened startTicks
      bit ⟨by omega, by omega⟩
    rw [Option.any_some]
    exact Bool.eq_iff_iff.mpr (same.trans decide_eq_true_iff.symm)

theorem Follows.sample (follows : Follows bitTicks popped line decoder) (room : decoder.count < fifoSize)
    (active : line.frame ≠ none) :
    Follows bitTicks popped line.sample decoder.sample ∧
      (line.sample.frame ≠ none → decoder.sample.count < fifoSize) := by
  obtain ⟨level, frame, bytes⟩ := line
  obtain ⟨ticksPerBit, ringed, rfl, rfl, -, opened⟩ := follows
  cases frame with
  | none => exact absurd rfl active
  | some frame =>
    obtain ⟨start, bit, data⟩ := frame
    obtain ⟨inFrame, startTicks, sampled, last, rfl⟩ := opened _ rfl
    have next : decoder.bit + 1 = UInt32.ofNat (bit + 1) := by rw [show decoder.bit = _ from sampled, UInt32.ofNat_add]; rfl
    have still := ringed.sample
    obtain rfl | ⟨first, within⟩ | rfl : bit = 0 ∨ (1 ≤ bit ∧ bit ≤ 8) ∨ bit = 9 := by
      change bit ≤ 9 at last
      omega
    · rw [EdgeUartDecoder.sample_start sampled] at still ⊢
      by_cases high : decoder.level = true
      · rw [if_pos high] at still ⊢
        rw [LineDecoder.sample_start, if_pos high]
        exact ⟨⟨ticksPerBit, still, rfl, rfl, fun _ => rfl, by rintro _ ⟨⟩⟩, absurd rfl⟩
      · rw [if_neg high] at still ⊢
        rw [LineDecoder.sample_start, if_neg high]
        refine ⟨⟨ticksPerBit, still, rfl, rfl, by rintro ⟨⟩, ?_⟩, fun _ => room⟩
        rintro _ ⟨⟩
        exact ⟨inFrame, startTicks, next, (by decide : 1 ≤ 9), rfl⟩
    · rw [EdgeUartDecoder.sample_data sampled first within] at still ⊢
      rw [LineDecoder.sample_data _ _ _ _ first within]
      refine ⟨⟨ticksPerBit, still, rfl, rfl, by rintro ⟨⟩, ?_⟩, fun _ => room⟩
      rintro _ ⟨⟩
      refine ⟨inFrame, startTicks, next, Nat.succ_le_succ within, ?_⟩
      rw [show decoder.bit = _ from sampled]
    · rw [EdgeUartDecoder.sample_stop sampled] at still ⊢
      by_cases high : decoder.level = true
      · have closed : Ringed { decoder with inFrame := false } := ⟨ringed.slots, ringed.inside, ringed.room⟩
        have stored := closed.waiting_store room decoder.data
        rw [if_pos high] at still ⊢
        rw [LineDecoder.sample_stop, if_pos high]
        refine ⟨⟨(ticksPerBit_store ..).trans ticksPerBit, still, level_store .., ?_, fun _ => inFrame_store .., ?_⟩,
          absurd rfl⟩
        · rw [stored, ← List.append_assoc]
          rfl
        · rintro _ ⟨⟩
      · rw [if_neg high] at still ⊢
        rw [LineDecoder.sample_stop, if_neg high]
        exact ⟨⟨ticksPerBit, still, rfl, rfl, fun _ => rfl, by rintro _ ⟨⟩⟩, absurd rfl⟩

theorem Recent.sample (recent : Recent bitTicks now line) : Recent bitTicks now line.sample := by
  obtain ⟨level, frame, bytes⟩ := line
  cases frame with
  | none => exact recent
  | some frame =>
    obtain ⟨begun, soon⟩ := recent frame rfl
    have later := @EdgeUartDecoder.sampleTime_mono bitTicks frame.start _ _ (Nat.le_succ frame.bit)
    have reached := soon.trans_le (Int.add_le_add_right later (2 ^ 31))
    unfold LineDecoder.sample
    dsimp only
    split
    · rename_i first
      split
      · rintro _ ⟨⟩
      · rintro _ ⟨⟩
        rw [first] at reached
        exact ⟨begun, reached⟩
    · split
      · rintro _ ⟨⟩
        exact ⟨begun, reached⟩
      · rintro _ ⟨⟩

theorem Follows.sampleUntil (follows : Follows bitTicks popped line decoder) (fits : 19 * bitTicks < 2 ^ 31)
    (recent : Recent bitTicks now line) (room : decoder.count < fifoSize) :
    Follows bitTicks popped (line.sampleUntil bitTicks now) (decoder.sampleUntil (stamp now)) := by
  have related := @loop_related EdgeUartDecoder LineDecoder (EdgeUartDecoder.due (stamp now)) EdgeUartDecoder.sample 10
    (LineDecoder.due bitTicks now) LineDecoder.sample
    (fun decoder line => Follows bitTicks popped line decoder ∧ Recent bitTicks now line ∧
      (line.frame ≠ none → decoder.count < fifoSize))
  refine (related ?_ ?_ ⟨follows, recent, fun _ => room⟩).1
  · exact fun decoder line ⟨follows, recent, _⟩ => follows.due_eq fits recent
  · intro decoder line ⟨follows, recent, room⟩ due
    have active : line.frame ≠ none := by
      intro closed
      rw [due_false (follows.closed closed)] at due
      cases due
    obtain ⟨after, room⟩ := follows.sample (room active) active
    exact ⟨after, recent.sample, room⟩

def Settled (bitTicks : ℕ) (now : ℤ) (line : LineDecoder) : Prop :=
  ∀ frame ∈ line.frame, frame.start ≤ now ∧ now ≤ EdgeUartDecoder.sampleTime bitTicks frame.start frame.bit

theorem Settled.recent {earlier : ℤ} (settled : Settled bitTicks earlier line) (soon : Soon earlier now) :
    Recent bitTicks now line := by
  intro frame opened
  obtain ⟨begun, waits⟩ := settled frame opened
  obtain ⟨order, near⟩ := soon
  exact ⟨begun.trans order, by omega⟩

theorem Settled.sampleUntil_eq (settled : Settled bitTicks now line) : line.sampleUntil bitTicks now = line := by
  apply loop_stops
  unfold LineDecoder.due
  cases current : line.frame with
  | none => rfl
  | some frame => exact decide_eq_false (Int.not_lt.mpr (settled frame current).2)

theorem settled_sampleUntil (recent : Recent bitTicks now line) :
    Settled bitTicks now (line.sampleUntil bitTicks now) := by
  have after : Recent bitTicks now (line.sampleUntil bitTicks now) := loop_induct (fun _ recent _ => recent.sample) recent
  have taken : (line.sampleUntil bitTicks now).due bitTicks now = false :=
    loop_done (LineDecoder.fewer_left now) line.samplesLeft_le
  intro frame opened
  refine ⟨(after frame opened).1, ?_⟩
  unfold LineDecoder.due at taken
  rw [Option.mem_def.mp opened, Option.any_some, decide_eq_false_iff_not] at taken
  exact Int.not_lt.mp taken

theorem settled_hear (recent : Recent bitTicks now line) (level : Bool) :
    Settled bitTicks now (line.hear bitTicks now level) := by
  have settled := settled_sampleUntil recent
  unfold hear
  intro frame opened
  dsimp only at opened
  split at opened
  · cases opened
    exact ⟨le_rfl, (sampleTime_bounds (Nat.zero_le 9)).1⟩
  · exact settled frame opened

theorem Follows.hear (follows : Follows bitTicks popped line decoder) (fits : 19 * bitTicks < 2 ^ 31)
    (recent : Recent bitTicks now line) (room : decoder.count < fifoSize) (level : Bool) :
    Follows bitTicks popped (line.hear bitTicks now level) (decoder.push ⟨stamp now, level⟩) := by
  have sampled := follows.sampleUntil fits recent room
  have ringed := follows.ringed.push ⟨stamp now, level⟩
  have closed : (!(decoder.sampleUntil (stamp now)).inFrame) = (line.sampleUntil bitTicks now).frame.isNone := by
    cases current : (line.sampleUntil bitTicks now).frame with
    | none => rw [sampled.closed current]; rfl
    | some frame => rw [(sampled.opened frame current).1]; rfl
  unfold LineDecoder.hear
  dsimp only
  rw [← closed, ← sampled.level]
  split
  · rename_i opens
    rw [@push_opens ⟨stamp now, level⟩ decoder opens] at ringed ⊢
    refine ⟨sampled.ticksPerBit, ringed, rfl, sampled.bytes, by rintro ⟨⟩, ?_⟩
    rintro _ ⟨⟩
    exact ⟨rfl, rfl, rfl, Nat.zero_le _, rfl⟩
  · rename_i stays
    rw [@push_stays ⟨stamp now, level⟩ decoder (Bool.not_eq_true _ ▸ stays)] at ringed ⊢
    exact ⟨sampled.ticksPerBit, ringed, rfl, sampled.bytes, sampled.closed, sampled.opened⟩

theorem Follows.pop (follows : Follows bitTicks popped line decoder) :
    Follows bitTicks (popped ++ decoder.pop.1.toList) line decoder.pop.2 := by
  obtain ⟨ringed, taken⟩ := follows.ringed.pop
  have bytes : popped ++ decoder.pop.1.toList ++ decoder.pop.2.waiting = line.bytes := by
    rw [List.append_assoc, ← taken]
    exact follows.bytes
  revert ringed bytes
  unfold EdgeUartDecoder.pop
  split
  · exact fun ringed bytes => ⟨follows.ticksPerBit, ringed, follows.level, bytes, follows.closed, follows.opened⟩
  · exact fun ringed bytes => ⟨follows.ticksPerBit, ringed, follows.level, bytes, follows.closed, follows.opened⟩

end Follows

section Calls

open EdgeUartDecoder

/-- Nothing is due at the newest time. -/
def SettledAt (bitTicks : ℕ) (times : List ℤ) (line : LineDecoder) : Prop :=
  line.frame ≠ none → ∃ now ∈ times.getLast?, Settled bitTicks now line

/-- No push and no poll finds the FIFO full. -/
def Roomy (bitTicks : ℕ) (calls : List TimedCall) : Prop :=
  ∀ heard call, heard ++ [call] <+: calls → call ≠ .pop → (heardFrom bitTicks heard).decoder.count < fifoSize

theorem Roomy.before {calls : List TimedCall} {call : TimedCall} (room : Roomy bitTicks (calls ++ [call])) :
    Roomy bitTicks calls :=
  fun heard next listed => room heard next (listed.trans (List.prefix_append ..))

theorem Roomy.append {calls : List TimedCall} (room : Roomy bitTicks calls) {call : TimedCall}
    (space : call ≠ .pop → (heardFrom bitTicks calls).decoder.count < fifoSize) : Roomy bitTicks (calls ++ [call]) := by
  intro heard next listed
  rcases List.prefix_concat_iff.mp listed with whole | older
  · obtain ⟨rfl, rfl⟩ := List.append_singleton_inj.mp whole
    exact space
  · exact room heard next older

theorem roomy_of_inits {calls : List TimedCall}
    (space : ∀ heard ∈ calls.inits, (heardFrom bitTicks heard).decoder.count < fifoSize) : Roomy bitTicks calls :=
  fun heard _ listed _ => space heard ((List.mem_inits ..).mpr ((List.prefix_append ..).trans listed))

theorem heardFrom_append (calls : List TimedCall) (call : TimedCall) :
    heardFrom bitTicks (calls ++ [call]) = (heardFrom bitTicks calls).step call.stamped := by
  rw [heardFrom, UartRun.steps, List.map_append, List.foldl_append]
  rfl

theorem times_append (calls : List TimedCall) (call : TimedCall) :
    times (calls ++ [call]) = times calls ++ call.time.toList := by
  rw [times, List.filterMap_append]
  cases call <;> rfl

theorem SettledAt.recent {line : LineDecoder} {earlier : List ℤ} {now : ℤ} (settled : SettledAt bitTicks earlier line)
    (soon : ∀ time ∈ earlier.getLast?, Soon time now) : Recent bitTicks now line := by
  intro frame opened
  obtain ⟨time, newest, settled⟩ := settled (by rw [Option.mem_def.mp opened]; rintro ⟨⟩)
  exact settled.recent (soon time newest) frame opened

theorem follows_steps (fits : 19 * bitTicks < 2 ^ 31) {calls : List TimedCall}
    (timely : (times calls).IsChain Soon) (room : Roomy bitTicks calls) :
    Follows bitTicks (heardFrom bitTicks calls).popped (steps bitTicks calls) (heardFrom bitTicks calls).decoder ∧
      SettledAt bitTicks (times calls) (steps bitTicks calls) := by
  induction calls using List.reverseRecOn with
  | nil =>
    refine ⟨⟨rfl, ringed_create _, rfl, rfl, fun _ => rfl, by rintro _ ⟨⟩⟩, absurd rfl⟩
  | append_singleton calls call ih =>
    rw [times_append] at timely ⊢
    obtain ⟨before, -, spaced⟩ := List.isChain_append.mp timely
    obtain ⟨follows, settled⟩ := ih before room.before
    have space := room calls call List.prefix_rfl
    have line : steps bitTicks (calls ++ [call]) = (steps bitTicks calls).step bitTicks call := by
      rw [steps, List.foldl_append]
      rfl
    rw [heardFrom_append, line]
    cases call with
    | pop =>
      have same : times calls ++ TimedCall.pop.time.toList = times calls := List.append_nil _
      rw [same]
      exact ⟨follows.pop, settled⟩
    | poll time =>
      have recent := settled.recent fun older newest => spaced older newest time rfl
      exact ⟨follows.sampleUntil fits recent (space (by rintro ⟨⟩)),
        fun _ => ⟨time, List.getLast?_concat, settled_sampleUntil recent⟩⟩
    | push time level =>
      have recent := settled.recent fun older newest => spaced older newest time rfl
      exact ⟨follows.hear fits recent (space (by rintro ⟨⟩)) level,
        fun _ => ⟨time, List.getLast?_concat, settled_hear recent level⟩⟩

theorem le_newest {times : List ℤ} (order : times.Pairwise (· ≤ ·)) : ∀ time ∈ times, time ≤ times.getLast?.getD 0 := by
  rcases List.eq_nil_or_concat' times with rfl | ⟨before, now, rfl⟩
  · exact List.forall_mem_nil _
  · rw [List.getLast?_concat, Option.getD_some]
    obtain ⟨-, -, below⟩ := List.pairwise_append.mp order
    exact List.forall_mem_append.mpr
      ⟨fun time listed => below time listed now List.mem_cons_self, List.forall_mem_singleton.mpr le_rfl⟩

/-- The bytes are those of the edges: it does not matter when the decoder is polled in between. -/
theorem bytes_eq (fits : 19 * bitTicks < 2 ^ 31) {first second : List TimedCall} (timely : (times first).IsChain Soon)
    (timely' : (times second).IsChain Soon) (room : Roomy bitTicks first) (room' : Roomy bitTicks second)
    (edges : first.filterMap edge = second.filterMap edge) (newest : (times first).getLast? = (times second).getLast?) :
    (heardFrom bitTicks first).bytes = (heardFrom bitTicks second).bytes := by
  have sampled : ∀ {calls : List TimedCall}, (times calls).IsChain Soon → Roomy bitTicks calls →
      (heardFrom bitTicks calls).bytes =
        ((heard bitTicks (calls.filterMap edge)).sampleUntil bitTicks ((times calls).getLast?.getD 0)).bytes := by
    intro calls timely room
    obtain ⟨follows, settled⟩ := follows_steps fits timely room
    have order : (times calls).Pairwise (· ≤ ·) :=
      List.isChain_iff_pairwise.mp (timely.imp fun _ _ soon => soon.1)
    have here : Settled bitTicks ((times calls).getLast?.getD 0) (steps bitTicks calls) := by
      intro frame opened
      obtain ⟨now, listed, settled⟩ := settled (by rw [Option.mem_def.mp opened]; rintro ⟨⟩)
      rw [Option.mem_def.mp listed]
      exact settled frame opened
    rw [← steps_eq_heard order (le_newest order), here.sampleUntil_eq]
    exact follows.bytes
  rw [sampled timely room, sampled timely' room', edges, newest]

end Calls

end LineDecoder

end Unimoc.Ebike
