import Mathlib.Data.List.Induction
import Mathlib.Tactic.IntervalCases
import Unimoc.Lib.BoundedLoop
import Unimoc.Lib.CountedRing
import Unimoc.Lib.WrappingClock

/-! Serial bytes from the edges of a line: each frame is sampled in the middle of its bits, timed
from its own start edge. -/
namespace Unimoc.Ebike

open BoundedLoop CountedRing WrappingClock

/-- The level is that after the edge; the counter wraps. -/
structure UartEdge where
  ticks : UInt32
  level : Bool
deriving DecidableEq, Repr

structure EdgeUartDecoder where
  /-- Counter rate through baud rate. -/
  ticksPerBit : UInt32
  level : Bool
  inFrame : Bool
  startTicks : UInt32
  bit : UInt32
  data : UInt8
  fifo : List UInt8
  read : Nat
  count : Nat
  framingErrors : UInt32
  overruns : UInt32
deriving DecidableEq, Repr

namespace EdgeUartDecoder

def fifoSize : Nat := 32

def stopBit : UInt32 := 9

def create (ticksPerBit : UInt32) : EdgeUartDecoder :=
  ⟨ticksPerBit, true, false, 0, 0, 0, List.replicate fifoSize 0, 0, 0, 0, 0⟩

def store (byte : UInt8) (decoder : EdgeUartDecoder) : EdgeUartDecoder :=
  if decoder.count = fifoSize then { decoder with overruns := decoder.overruns + 1 }
  else
    { decoder with
      fifo := decoder.fifo.set ((decoder.read + decoder.count) % fifoSize) byte
      count := decoder.count + 1 }

/-- The middle of the bit. -/
def sampleAt (decoder : EdgeUartDecoder) : UInt32 :=
  decoder.startTicks + (2 * decoder.bit + 1) * decoder.ticksPerBit / 2

def due (now : UInt32) (decoder : EdgeUartDecoder) : Bool :=
  decoder.inFrame && 0 < (now - decoder.sampleAt).toInt32

/-- Takes a sample. A start bit that is not low in its middle is a glitch. -/
def sample (decoder : EdgeUartDecoder) : EdgeUartDecoder :=
  if decoder.bit = 0 then
    if decoder.level then { decoder with inFrame := false }
    else { decoder with bit := decoder.bit + 1 }
  else if decoder.bit < stopBit then
    { decoder with
      data := decoder.data ||| ((if decoder.level then 1 else 0 : UInt32) <<< (decoder.bit - 1)).toUInt8
      bit := decoder.bit + 1 }
  else if decoder.level then { decoder with inFrame := false }.store decoder.data
  else { decoder with inFrame := false, framingErrors := decoder.framingErrors + 1 }

/-- Takes the samples of the open frame that are due; a frame has ten. -/
def sampleUntil (now : UInt32) (decoder : EdgeUartDecoder) : EdgeUartDecoder := loop (due now) sample 10 decoder

def push (edge : UartEdge) (decoder : EdgeUartDecoder) : EdgeUartDecoder :=
  let decoder := decoder.sampleUntil edge.ticks
  let decoder :=
    if !decoder.inFrame && decoder.level && !edge.level then
      { decoder with inFrame := true, startTicks := edge.ticks, bit := 0, data := 0 }
    else decoder
  { decoder with level := edge.level }

def poll (now : UInt32) (decoder : EdgeUartDecoder) : EdgeUartDecoder := decoder.sampleUntil now

def pop (decoder : EdgeUartDecoder) : Option UInt8 × EdgeUartDecoder :=
  if decoder.count = 0 then (none, decoder)
  else
    (decoder.fifo[decoder.read]?,
      { decoder with read := (decoder.read + 1) % fifoSize, count := decoder.count - 1 })

theorem push_opens {edge : UartEdge} {decoder : EdgeUartDecoder}
    (opens : (!(decoder.sampleUntil edge.ticks).inFrame && (decoder.sampleUntil edge.ticks).level && !edge.level) = true) :
    decoder.push edge =
      { decoder.sampleUntil edge.ticks with
        level := edge.level, inFrame := true, startTicks := edge.ticks, bit := 0, data := 0 } := by
  unfold push
  simp only [opens, if_true]

theorem push_stays {edge : UartEdge} {decoder : EdgeUartDecoder}
    (stays : (!(decoder.sampleUntil edge.ticks).inFrame && (decoder.sampleUntil edge.ticks).level && !edge.level) =
      false) : decoder.push edge = { decoder.sampleUntil edge.ticks with level := edge.level } := by
  unfold push
  simp only [stays, Bool.false_eq_true, if_false]

/-! ### The loop ends -/

def samplesLeft (decoder : EdgeUartDecoder) : Nat :=
  if decoder.inFrame then 9 - decoder.bit.toNat + 1 else 0

theorem due_false {decoder : EdgeUartDecoder} (closed : decoder.inFrame = false) (now : UInt32) :
    decoder.due now = false := by
  rw [due, closed, Bool.false_and]

/-- The middle of a bit in true time. -/
def sampleTime (bitTicks : ℕ) (start : ℤ) (bit : ℕ) : ℤ := start + ((2 * bit + 1) * bitTicks / 2 : ℕ)

theorem sampleTime_mono {bitTicks : ℕ} {start : ℤ} {first second : ℕ} (order : first ≤ second) :
    sampleTime bitTicks start first ≤ sampleTime bitTicks start second := by
  have products : (2 * first + 1) * bitTicks ≤ (2 * second + 1) * bitTicks := Nat.mul_le_mul_right _ (by omega)
  have halves := Nat.div_le_div_right (c := 2) products
  unfold sampleTime
  omega

theorem sampleAt_stamp {decoder : EdgeUartDecoder} {bitTicks bit : ℕ} {start : ℤ} (fits : 19 * bitTicks < 2 ^ 31)
    (last : bit ≤ 9) (ticksPerBit : decoder.ticksPerBit = UInt32.ofNat bitTicks)
    (startTicks : decoder.startTicks = stamp start) (sampled : decoder.bit = UInt32.ofNat bit) :
    decoder.sampleAt = stamp (sampleTime bitTicks start bit) := by
  have within : (2 * bit + 1) * bitTicks < 2 ^ 32 :=
    Nat.lt_of_le_of_lt (Nat.mul_le_mul_right bitTicks (by omega : 2 * bit + 1 ≤ 19)) (by omega)
  have offset : (2 * decoder.bit + 1) * decoder.ticksPerBit / 2 = UInt32.ofNat ((2 * bit + 1) * bitTicks / 2) := by
    rw [sampled, ticksPerBit, UInt32.ofNat_div within (by decide), UInt32.ofNat_mul, UInt32.ofNat_add, UInt32.ofNat_mul]
    rfl
  rw [sampleAt, startTicks, offset, sampleTime, ← stamp_natCast]
  exact (UInt32.ofInt_add ..).symm

theorem due_stamp {decoder : EdgeUartDecoder} {bitTicks bit : ℕ} {start now : ℤ} (fits : 19 * bitTicks < 2 ^ 31)
    (last : bit ≤ 9) (ticksPerBit : decoder.ticksPerBit = UInt32.ofNat bitTicks) (opened : decoder.inFrame = true)
    (startTicks : decoder.startTicks = stamp start) (sampled : decoder.bit = UInt32.ofNat bit)
    (near : Near (sampleTime bitTicks start bit) now) :
    decoder.due (stamp now) = true ↔ sampleTime bitTicks start bit < now := by
  rw [due, opened, Bool.true_and, decide_eq_true_iff, sampleAt_stamp fits last ticksPerBit startTicks sampled,
    Int32.lt_iff_toInt_lt, Int32.toInt_zero, toInt_sub near]
  omega

@[simp] theorem inFrame_store (byte : UInt8) (decoder : EdgeUartDecoder) :
    (decoder.store byte).inFrame = decoder.inFrame := by
  unfold store
  split <;> rfl

@[simp] theorem level_store (byte : UInt8) (decoder : EdgeUartDecoder) : (decoder.store byte).level = decoder.level := by
  unfold store
  split <;> rfl

@[simp] theorem ticksPerBit_store (byte : UInt8) (decoder : EdgeUartDecoder) :
    (decoder.store byte).ticksPerBit = decoder.ticksPerBit := by
  unfold store
  split <;> rfl

section Sample

variable {decoder : EdgeUartDecoder}

theorem sample_start (first : decoder.bit = 0) :
    decoder.sample = if decoder.level then { decoder with inFrame := false } else { decoder with bit := decoder.bit + 1 } :=
  if_pos first

theorem sample_data {bit : ℕ} (sampled : decoder.bit = UInt32.ofNat bit) (first : 1 ≤ bit) (last : bit ≤ 8) :
    decoder.sample =
      { decoder with
        data := decoder.data ||| ((if decoder.level then 1 else 0 : UInt32) <<< (decoder.bit - 1)).toUInt8
        bit := decoder.bit + 1 } := by
  have later : decoder.bit ≠ 0 := by
    rw [sampled]
    interval_cases bit <;> decide
  have before : decoder.bit < stopBit := by
    rw [sampled]
    interval_cases bit <;> decide
  rw [sample, if_neg later, if_pos before]

theorem sample_stop (stop : decoder.bit = stopBit) :
    decoder.sample =
      if decoder.level then { decoder with inFrame := false }.store decoder.data
      else { decoder with inFrame := false, framingErrors := decoder.framingErrors + 1 } := by
  rw [sample, if_neg (by rw [stop]; decide), if_neg (by rw [stop]; decide)]

end Sample

theorem sample_cases {decoder : EdgeUartDecoder} :
    (decoder.bit < stopBit ∧ decoder.sample.bit = decoder.bit + 1 ∧ decoder.sample.inFrame = decoder.inFrame) ∨
      decoder.sample.inFrame = false := by
  unfold sample
  split
  · rename_i first
    split
    · exact .inr rfl
    · rw [first]
      exact .inl ⟨by decide, rfl, rfl⟩
  · split
    · rename_i inside
      exact .inl ⟨inside, rfl, rfl⟩
    · right
      split
      · exact inFrame_store ..
      · rfl

theorem samplesLeft_sample {decoder : EdgeUartDecoder} (opened : decoder.inFrame = true) :
    decoder.sample.samplesLeft < decoder.samplesLeft := by
  obtain ⟨inside, next, same⟩ | closed := @sample_cases decoder
  · have small : decoder.bit.toNat < 9 := UInt32.lt_iff_toNat_lt.mp inside
    have number : (decoder.bit + 1).toNat = decoder.bit.toNat + 1 := by
      rw [UInt32.toNat_add]
      exact Nat.mod_eq_of_lt (by change decoder.bit.toNat + 1 < _; omega)
    unfold samplesLeft
    rw [same, opened, next, number]
    simp only [if_true]
    omega
  · unfold samplesLeft
    rw [closed, opened]
    exact Nat.succ_pos _

theorem fewer_left (now : UInt32) (decoder : EdgeUartDecoder) (due : decoder.due now = true) :
    decoder.sample.samplesLeft < decoder.samplesLeft :=
  samplesLeft_sample ((Bool.and_eq_true ..).mp due).1

theorem sampleUntil_due (now : UInt32) (decoder : EdgeUartDecoder) : (decoder.sampleUntil now).due now = false := by
  apply loop_done (fewer_left now)
  unfold samplesLeft
  split <;> omega

theorem sampleUntil_closed {decoder : EdgeUartDecoder} (closed : decoder.inFrame = false) (now : UInt32) :
    decoder.sampleUntil now = decoder :=
  loop_stops (due_false closed now)

/-! ### The ring of received bytes -/

structure Ringed (decoder : EdgeUartDecoder) : Prop where
  slots : decoder.fifo.length = fifoSize
  inside : decoder.read < fifoSize
  room : decoder.count ≤ fifoSize

/-- The bytes that wait, oldest first. -/
def waiting (decoder : EdgeUartDecoder) : List UInt8 := contents 0 decoder.fifo decoder.read decoder.count

theorem length_waiting (decoder : EdgeUartDecoder) : decoder.waiting.length = decoder.count := by
  simp [waiting, contents]

theorem Ringed.store {decoder : EdgeUartDecoder} (ringed : decoder.Ringed) (byte : UInt8) :
    (decoder.store byte).Ringed := by
  have room := ringed.room
  unfold EdgeUartDecoder.store
  split
  · exact ⟨ringed.slots, ringed.inside, room⟩
  · refine ⟨(List.length_set ..).trans ringed.slots, ringed.inside, ?_⟩
    change decoder.count + 1 ≤ fifoSize
    omega

theorem Ringed.waiting_store {decoder : EdgeUartDecoder} (ringed : decoder.Ringed) (room : decoder.count < fifoSize)
    (byte : UInt8) : (decoder.store byte).waiting = decoder.waiting ++ [byte] := by
  have slots := ringed.slots
  rw [EdgeUartDecoder.store, if_neg (Nat.ne_of_lt room), ← slots]
  exact contents_store (by omega) byte

theorem Ringed.sample {decoder : EdgeUartDecoder} (ringed : decoder.Ringed) : decoder.sample.Ringed := by
  have kept : ∀ after : EdgeUartDecoder, after.fifo = decoder.fifo → after.read = decoder.read →
      after.count = decoder.count → after.Ringed := by
    intro after fifo read count
    exact ⟨by rw [fifo, ringed.slots], by rw [read]; exact ringed.inside, by rw [count]; exact ringed.room⟩
  unfold EdgeUartDecoder.sample
  split
  · split <;> exact kept _ rfl rfl rfl
  split
  · exact kept _ rfl rfl rfl
  have closed : Ringed { decoder with inFrame := false } := kept _ rfl rfl rfl
  split
  · exact closed.store _
  · exact kept _ rfl rfl rfl

theorem Ringed.sampleUntil {decoder : EdgeUartDecoder} (ringed : decoder.Ringed) (now : UInt32) :
    (decoder.sampleUntil now).Ringed :=
  loop_induct (fun _ ringed _ => ringed.sample) ringed

theorem Ringed.push {decoder : EdgeUartDecoder} (ringed : decoder.Ringed) (edge : UartEdge) :
    (decoder.push edge).Ringed := by
  have sampled := ringed.sampleUntil edge.ticks
  unfold EdgeUartDecoder.push
  dsimp only
  split
  · exact ⟨sampled.slots, sampled.inside, sampled.room⟩
  · exact ⟨sampled.slots, sampled.inside, sampled.room⟩

theorem Ringed.pop {decoder : EdgeUartDecoder} (ringed : decoder.Ringed) :
    decoder.pop.2.Ringed ∧ decoder.waiting = decoder.pop.1.toList ++ decoder.pop.2.waiting := by
  have inside := ringed.inside
  rw [← ringed.slots] at inside
  unfold EdgeUartDecoder.pop
  split
  · exact ⟨ringed, rfl⟩
  rename_i some
  obtain ⟨count, more⟩ := Nat.exists_eq_succ_of_ne_zero some
  refine ⟨⟨ringed.slots, Nat.mod_lt _ (by decide), Nat.le_trans (Nat.sub_le _ _) ringed.room⟩, ?_⟩
  rw [waiting, more, contents_take inside, ringed.slots, List.getD_eq_getElem?_getD, List.getElem?_eq_getElem inside]
  rfl

theorem ringed_create (ticksPerBit : UInt32) : (create ticksPerBit).Ringed :=
  ⟨rfl, Nat.succ_pos _, Nat.zero_le _⟩

/-! ### How frames end -/

end EdgeUartDecoder

/-- How a frame ends. -/
inductive FrameEnd
  | glitch
  | stored
  | overrun
  | framingError
deriving DecidableEq, Repr

namespace EdgeUartDecoder

def endOf (before after : EdgeUartDecoder) : Option FrameEnd :=
  if before.inFrame && !after.inFrame then
    if after.bit = 0 then some .glitch
    else if before.count < after.count then some .stored
    else if before.overruns ≠ after.overruns then some .overrun
    else some .framingError
  else none

/-- What a frame's end counts. -/
def Counts (before after : EdgeUartDecoder) : FrameEnd → Prop
  | .glitch => after.count = before.count ∧ after.overruns = before.overruns ∧
      after.framingErrors = before.framingErrors
  | .stored => after.count = before.count + 1 ∧ after.overruns = before.overruns ∧
      after.framingErrors = before.framingErrors
  | .overrun => after.count = before.count ∧ after.overruns = before.overruns + 1 ∧
      after.framingErrors = before.framingErrors
  | .framingError => after.count = before.count ∧ after.overruns = before.overruns ∧
      after.framingErrors = before.framingErrors + 1

/-- A sample leaves the frame open and counts nothing, or it ends the frame in exactly one way. -/
theorem sample_end {decoder : EdgeUartDecoder} (opened : decoder.inFrame = true) :
    (decoder.sample.inFrame = true ∧ Counts decoder decoder.sample .glitch) ∨
      decoder.sample.inFrame = false ∧
        ∃ ending, endOf decoder decoder.sample = some ending ∧ Counts decoder decoder.sample ending := by
  unfold sample
  split
  · rename_i first
    split
    · exact .inr ⟨rfl, .glitch, by simp [endOf, opened, first], rfl, rfl, rfl⟩
    · exact .inl ⟨opened, rfl, rfl, rfl⟩
  rename_i later
  split
  · exact .inl ⟨opened, rfl, rfl, rfl⟩
  right
  split
  · refine ⟨inFrame_store .., ?_⟩
    unfold store
    split
    · exact ⟨.overrun, by simp [endOf, opened, later], rfl, rfl, rfl⟩
    · exact ⟨.stored, by simp [endOf, opened, later], rfl, rfl, rfl⟩
  · exact ⟨rfl, .framingError, by simp [endOf, opened, later], rfl, rfl, rfl⟩

theorem Counts.after {first second third : EdgeUartDecoder} {ending : FrameEnd} (nothing : Counts first second .glitch)
    (ends : Counts second third ending) : Counts first third ending := by
  obtain ⟨count, overruns, framingErrors⟩ := nothing
  cases ending <;> simpa only [Counts, count, overruns, framingErrors] using ends

/-- Up to a time a frame stays open and counts nothing, or it ends in exactly one way. -/
theorem sampleUntil_end (now : UInt32) (decoder : EdgeUartDecoder) :
    ((decoder.sampleUntil now).inFrame = decoder.inFrame ∧ endOf decoder (decoder.sampleUntil now) = none ∧
      Counts decoder (decoder.sampleUntil now) .glitch) ∨
    decoder.inFrame = true ∧ (decoder.sampleUntil now).inFrame = false ∧
      ∃ ending, endOf decoder (decoder.sampleUntil now) = some ending ∧
        Counts decoder (decoder.sampleUntil now) ending := by
  apply loop_induct (P := fun after =>
    (after.inFrame = decoder.inFrame ∧ endOf decoder after = none ∧ Counts decoder after .glitch) ∨
      decoder.inFrame = true ∧ after.inFrame = false ∧
        ∃ ending, endOf decoder after = some ending ∧ Counts decoder after ending)
  · intro after so_far due
    have opened : after.inFrame = true := ((Bool.and_eq_true ..).mp due).1
    obtain ⟨same, -, nothing⟩ | ⟨-, closed, -⟩ := so_far
    · rw [opened] at same
      obtain ⟨goes, counts⟩ | ⟨closes, ending, ends, counts⟩ := sample_end opened
      · refine .inl ⟨goes.trans same, ?_, nothing.after counts⟩
        simp [endOf, goes]
      · refine .inr ⟨same.symm, closes, ending, ?_, nothing.after counts⟩
        obtain ⟨count, overruns, -⟩ := nothing
        rw [← ends, endOf, endOf, ← same, opened, count, overruns]
    · rw [closed] at opened
      cases opened
  · refine .inl ⟨rfl, ?_, rfl, rfl, rfl⟩
    simp [endOf]

theorem push_after (edge : UartEdge) (decoder : EdgeUartDecoder) :
    ((decoder.sampleUntil edge.ticks).inFrame = true → (decoder.push edge).inFrame = true) ∧
      Counts (decoder.sampleUntil edge.ticks) (decoder.push edge) .glitch := by
  unfold push
  dsimp only
  split
  · exact ⟨fun _ => rfl, rfl, rfl, rfl⟩
  · exact ⟨id, rfl, rfl, rfl⟩

theorem pop_keeps (decoder : EdgeUartDecoder) :
    decoder.pop.2.inFrame = decoder.inFrame ∧ decoder.pop.2.overruns = decoder.overruns ∧
      decoder.pop.2.framingErrors = decoder.framingErrors := by
  unfold pop
  split <;> exact ⟨rfl, rfl, rfl⟩

end EdgeUartDecoder

/-! ### Runs -/

inductive UartCall
  | push (edge : UartEdge)
  | poll (now : UInt32)
  | pop
deriving DecidableEq, Repr

/-- A decoder in use, with the bytes it has delivered, the frames it has opened and how they have
ended. -/
structure UartRun where
  decoder : EdgeUartDecoder
  popped : List UInt8
  opened : Nat
  ends : List FrameEnd
deriving DecidableEq, Repr

namespace UartRun

def start (ticksPerBit : UInt32) : UartRun := ⟨.create ticksPerBit, [], 0, []⟩

def step (run : UartRun) : UartCall → UartRun
  | .push edge =>
    let sampled := run.decoder.sampleUntil edge.ticks
    let decoder := run.decoder.push edge
    { run with
      decoder := decoder
      opened := run.opened + if !sampled.inFrame && decoder.inFrame then 1 else 0
      ends := run.ends ++ (run.decoder.endOf sampled).toList }
  | .poll now =>
    let decoder := run.decoder.poll now
    { run with decoder := decoder, ends := run.ends ++ (run.decoder.endOf decoder).toList }
  | .pop =>
    let (byte, decoder) := run.decoder.pop
    { run with decoder := decoder, popped := run.popped ++ byte.toList }

def steps (run : UartRun) (calls : List UartCall) : UartRun := calls.foldl step run

/-- Every frame that was opened is still open or has ended in exactly one way, which is counted. -/
structure Balanced (run : UartRun) : Prop where
  ringed : run.decoder.Ringed
  frames : run.opened = run.ends.length + if run.decoder.inFrame then 1 else 0
  stored : run.popped.length + run.decoder.count = run.ends.count .stored
  overruns : run.decoder.overruns = UInt32.ofNat (run.ends.count .overrun)
  framingErrors : run.decoder.framingErrors = UInt32.ofNat (run.ends.count .framingError)

/-- The run after the samples up to a time. -/
def sampled (now : UInt32) (run : UartRun) : UartRun :=
  { run with
    decoder := run.decoder.sampleUntil now
    ends := run.ends ++ (run.decoder.endOf (run.decoder.sampleUntil now)).toList }

theorem Balanced.sampled {run : UartRun} (balanced : run.Balanced) (now : UInt32) : (run.sampled now).Balanced := by
  have ringed := balanced.ringed.sampleUntil now
  obtain ⟨-, frames, stored, overruns, framingErrors⟩ := balanced
  obtain ⟨same, none, count, overrun, framing⟩ | ⟨opened, closed, ending, ends, counts⟩ :=
    EdgeUartDecoder.sampleUntil_end now run.decoder
  · have goes_on : run.sampled now = { run with decoder := run.decoder.sampleUntil now } := by
      simp [UartRun.sampled, none]
    rw [goes_on]
    exact ⟨ringed, by rw [same]; exact frames, by rw [count]; exact stored, overrun.trans overruns,
      framing.trans framingErrors⟩
  · have ended : run.sampled now =
        { run with decoder := run.decoder.sampleUntil now, ends := run.ends ++ [ending] } := by
      simp [UartRun.sampled, ends]
    rw [opened] at frames
    rw [ended]
    refine ⟨ringed, ?_, ?_, ?_, ?_⟩
    · simp [closed, frames]
    all_goals
      cases ending <;> obtain ⟨count, overrun, framing⟩ := counts
      all_goals simp [List.count_append, *]
    all_goals omega

theorem Balanced.step {run : UartRun} (balanced : run.Balanced) (call : UartCall) : (run.step call).Balanced := by
  cases call with
  | poll now => exact balanced.sampled now
  | push edge =>
    obtain ⟨-, frames, stored, overruns, framingErrors⟩ := balanced.sampled edge.ticks
    obtain ⟨opens, count, overrun, framing⟩ := run.decoder.push_after edge
    refine ⟨balanced.ringed.push edge, ?_, ?_, overrun.trans overruns, framing.trans framingErrors⟩
    · change run.opened + _ = _
      rw [show run.opened = _ from frames, Nat.add_assoc]
      refine congrArg (_ + ·) ?_
      change (if (run.decoder.sampleUntil edge.ticks).inFrame then 1 else 0) + _ = _
      cases sampled : (run.decoder.sampleUntil edge.ticks).inFrame
      · simp [UartRun.step]
      · simp [UartRun.step, opens sampled]
    · change run.popped.length + (run.decoder.push edge).count = _
      rw [count]
      exact stored
  | pop =>
    obtain ⟨ringed, frames, stored, overruns, framingErrors⟩ := balanced
    obtain ⟨after, taken⟩ := ringed.pop
    have total := congrArg List.length taken
    rw [List.length_append, EdgeUartDecoder.length_waiting, EdgeUartDecoder.length_waiting] at total
    obtain ⟨same, overrun, framing⟩ := run.decoder.pop_keeps
    refine ⟨after, ?_, ?_, overrun.trans overruns, framing.trans framingErrors⟩
    · change run.opened = run.ends.length + if run.decoder.pop.2.inFrame then 1 else 0
      rw [same]
      exact frames
    · change (run.popped ++ run.decoder.pop.1.toList).length + run.decoder.pop.2.count = run.ends.count .stored
      rw [List.length_append]
      omega

end UartRun

end Unimoc.Ebike
