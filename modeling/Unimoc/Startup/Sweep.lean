import Unimoc.Lib.FirstLeast
import Unimoc.Startup.Counting
import Unimoc.Startup.Samples
import Unimoc.Startup.Verdicts

/-! The alignment sweep: its samples with the trigger offsets they are taken with, and what it
makes of them. -/
namespace Unimoc.Startup

open CurrentControl Firmware

/-- A sample of the sweep: where it counts, the trigger offset in force, the current of phase A. -/
structure SweepSample (F : Type) where
  position : Nat
  triggerOffset : UInt32
  current : F

variable {F : Type} [Arithmetic F]

theorem HwStartup.reached_steady {fsm : HwStartup F} {b : Board F} (steady : Steady fsm.ocLimit (taken b))
    (active : fsm.isActive = true) (ready : b.preempt.isr.samplesReady = true) :
    fsm.reached b = some (taken b) := by
  unfold reached
  rw [takeSamplesReady_calm steady.calm ready]
  simp only [Bool.not_true, Bool.false_eq_true, ↓reduceIte, stageLost_steady steady active, active,
    readIsr_calm steady.calm, checkMotorOc, steady.within, Option.isSome_none]

/-- The sample a spin adds to the sweep. -/
def HwStartup.swept (fsm : HwStartup F) (b : Board F) : Option (SweepSample F) :=
  match fsm.reached b with
  | none => none
  | some found =>
    if fsm.state ≠ .phaseAdcAlignment ∨ fsm.stepDone = true ∨ nSweepSteps ≤ fsm.sweepPos then none
    else
      let isr := (fsm.enterSweep (HwStartup.injectAlphaCurrent found)).2.readIsr.1
      some ⟨fsm.sweepPos, isr.adcTriggerOffset, isr.rawPhaseCurrents.a⟩

/-- The aid with the samples of its sweep, newest first. -/
structure Sweep (F : Type) [Arithmetic F] where
  fsm : HwStartup F
  board : Board F
  samples : List (SweepSample F)

namespace Sweep

def spin (s : Sweep F) (interrupts : List (List (Interrupt F))) : Sweep F :=
  let b := { s.board with interrupts := interrupts }
  let after := s.fsm.runOnce b
  ⟨after.1, after.2, (s.fsm.swept b).toList ++ s.samples⟩

def run (s : Sweep F) (spins : List (List (List (Interrupt F)))) : Sweep F := spins.foldl spin s

end Sweep

/-! ### The noise of a position -/

section Noise

variable (samples : List (SweepSample F)) (position : Nat)

omit [Arithmetic F] in
def samplesAt : List (SweepSample F) := samples.filter (·.position = position)

def sumOf : Arithmetic.Wide F :=
  samples.foldr (fun sample sum => sum + Arithmetic.widen sample.current) Scalar.zero

def sumOfSquares : Arithmetic.Wide F :=
  samples.foldr (fun sample sum =>
    sum + Arithmetic.widen sample.current * Arithmetic.widen sample.current) Scalar.zero

/-- The noise measured at a position. -/
def noiseAt : F :=
  HwStartup.rms (sumOf (samplesAt samples position)) (sumOfSquares (samplesAt samples position)) nAlignSamples

variable {samples position} {sample : SweepSample F}

omit [Arithmetic F] in
theorem samplesAt_here (here : sample.position = position) :
    samplesAt (sample :: samples) position = sample :: samplesAt samples position :=
  List.filter_cons_of_pos (decide_eq_true here)

omit [Arithmetic F] in
theorem samplesAt_elsewhere (elsewhere : sample.position ≠ position) :
    samplesAt (sample :: samples) position = samplesAt samples position :=
  List.filter_cons_of_neg (by simpa using elsewhere)

omit [Arithmetic F] in
theorem samplesAt_ahead (behind : ∀ sample ∈ samples, sample.position < position) :
    samplesAt samples position = [] := by
  refine List.filter_eq_nil_iff.mpr fun sample found here => ?_
  exact absurd (of_decide_eq_true here) (Nat.ne_of_lt (behind sample found))

theorem noiseAt_elsewhere (elsewhere : sample.position ≠ position) :
    noiseAt (sample :: samples) position = noiseAt samples position := by
  unfold noiseAt
  rw [samplesAt_elsewhere elsewhere]

end Noise

/-- The first position is measured with the trigger offset found, the others with their own. -/
def offsetAt (base : UInt32) (position : Nat) : UInt32 :=
  if position = 0 then base else HwStartup.sweepTicks base position

/-! ### The sweep on its way -/

namespace Sweep

/-- All samples of the positions behind are taken and their noise is measured. -/
structure Log (base : UInt32) (fsm : HwStartup F) (samples : List (SweepSample F)) : Prop where
  count : (samplesAt samples fsm.sweepPos).length = fsm.sampleCount.toNat
  sum : fsm.accumA = sumOf (samplesAt samples fsm.sweepPos)
  squares : fsm.accumSqA = sumOfSquares (samplesAt samples fsm.sweepPos)
  noise (j : Fin nSweepSteps) (behind : j.val < fsm.sweepPos) : fsm.sweepNoiseA.get j = noiseAt samples j
  full (j : Nat) (behind : j < fsm.sweepPos) : (samplesAt samples j).length = nAlignSamples.toNat
  reached : ∀ sample ∈ samples, sample.position ≤ fsm.sweepPos
  offsets : ∀ sample ∈ samples, sample.triggerOffset = offsetAt base sample.position

/-- A position is being measured. -/
structure Sweeping (base : UInt32) (s : Sweep F) : Prop where
  state : s.fsm.state = .phaseAdcAlignment
  unmeasured : s.fsm.stepDone = false
  unasked : s.fsm.nextStepRequested = false
  inForce : s.board.isr.adcTriggerOffset = offsetAt base s.fsm.sweepPos
  known : ¬(s.fsm.sweepPos = 0 ∧ s.fsm.sampleCount = 0) → s.fsm.baseTriggerOffset = base
  below : s.fsm.sampleCount < nAlignSamples
  log : Log base s.fsm s.samples

/-- The sweep is over: the result belongs to the quietest position. -/
structure Finished (base : UInt32) (s : Sweep F) : Prop where
  state : s.fsm.state = .phaseAdcAlignment ∨ s.fsm.state = .fault
  measured : s.fsm.stepDone = true
  unasked : s.fsm.nextStepRequested = false
  result : s.fsm.results.adcTriggerOffsetOptimal = HwStartup.sweepTicks base
    (HwStartup.quietestPosition (Vector.ofFn fun j : Fin nSweepSteps => noiseAt s.samples j)).1
  full (j : Nat) (inside : j < nSweepSteps) : (samplesAt s.samples j).length = nAlignSamples.toNat
  offsets : ∀ sample ∈ s.samples, sample.triggerOffset = offsetAt base sample.position

inductive Swept (base : UInt32) (s : Sweep F) : Prop
  | sweeping (sweeping : Sweeping base s)
  | stopped (state : s.fsm.state = .fault) (unmeasured : s.fsm.stepDone = false)
  | finished (finished : Finished base s)

open HwStartup

variable {base : UInt32} {s : Sweep F}

section Log

variable {fsm : HwStartup F} {samples : List (SweepSample F)}

theorem Log.sampled (log : Log base fsm samples) (below : fsm.sampleCount < nAlignSamples)
    {sample : SweepSample F} (position : sample.position = fsm.sweepPos)
    (offset : sample.triggerOffset = offsetAt base fsm.sweepPos) {currents : ThreePhase F}
    (current : sample.current = currents.a) : Log base (fsm.addSample currents) (sample :: samples) := by
  have here : samplesAt (sample :: samples) fsm.sweepPos = sample :: samplesAt samples fsm.sweepPos :=
    samplesAt_here position
  have apart (j : Nat) (behind : j < fsm.sweepPos) : sample.position ≠ j := by
    rw [position]
    exact Nat.ne_of_gt behind
  have small : fsm.sampleCount.toNat < 256 := UInt32.lt_iff_toNat_lt.mp below
  constructor
  · show (samplesAt (sample :: samples) fsm.sweepPos).length = (fsm.sampleCount + 1).toNat
    rw [here, List.length_cons, log.count, succ_toNat (by omega)]
  · show fsm.accumA + Arithmetic.widen currents.a = sumOf (samplesAt (sample :: samples) fsm.sweepPos)
    rw [here, ← current, log.sum]
    rfl
  · show fsm.accumSqA + Arithmetic.widen currents.a * Arithmetic.widen currents.a =
      sumOfSquares (samplesAt (sample :: samples) fsm.sweepPos)
    rw [here, ← current, log.squares]
    rfl
  · intro j behind
    rw [noiseAt_elsewhere (apart j behind)]
    exact log.noise j behind
  · intro j behind
    rw [samplesAt_elsewhere (apart j behind)]
    exact log.full j behind
  · intro taken found
    rcases List.mem_cons.mp found with rfl | older
    · exact Nat.le_of_eq position
    · exact log.reached taken older
  · intro taken found
    rcases List.mem_cons.mp found with rfl | older
    · rw [position]
      exact offset
    · exact log.offsets taken older

theorem Log.advanced (log : Log base fsm samples) (all : fsm.sampleCount = nAlignSamples) :
    Log base fsm.advanceSweep samples := by
  have ahead : samplesAt samples (fsm.sweepPos + 1) = [] :=
    samplesAt_ahead fun sample found => Nat.lt_succ_of_le (log.reached sample found)
  constructor
  · show (samplesAt samples (fsm.sweepPos + 1)).length = 0
    rw [ahead]
    rfl
  · show Scalar.zero = sumOf (samplesAt samples (fsm.sweepPos + 1))
    rw [ahead]
    rfl
  · show Scalar.zero = sumOfSquares (samplesAt samples (fsm.sweepPos + 1))
    rw [ahead]
    rfl
  · intro j behind
    show (fsm.sweepNoiseA.setIfInBounds fsm.sweepPos (rms fsm.accumA fsm.accumSqA nAlignSamples))[j.val] = _
    rw [Vector.getElem_setIfInBounds]
    split
    · rename_i here
      rw [← here, log.sum, log.squares]
      rfl
    · rename_i apart
      exact log.noise j (Nat.lt_of_le_of_ne (Nat.le_of_lt_succ behind) (Ne.symm apart))
  · intro j behind
    rcases Nat.lt_or_eq_of_le (Nat.le_of_lt_succ behind) with earlier | rfl
    · exact log.full j earlier
    · rw [log.count, all]
  · exact fun sample found => Nat.le_succ_of_le (log.reached sample found)
  · exact log.offsets

end Log

theorem Sweeping.entered (sweeping : Sweeping base s) {b : Board F}
    (inForce : b.isr.adcTriggerOffset = offsetAt base s.fsm.sweepPos) :
    (s.fsm.enterSweep b).1.baseTriggerOffset = base ∧
      Sweeping base ⟨(s.fsm.enterSweep b).1, (s.fsm.enterSweep b).2, s.samples⟩ := by
  unfold enterSweep
  by_cases first : s.fsm.sweepPos = 0 ∧ s.fsm.sampleCount = 0
  · rw [if_pos (by simp [first.1, first.2])]
    have offset := (Undisturbed.preempt b).triggerOffset.trans inForce
    have found : b.readIsr.1.adcTriggerOffset = base := by
      show b.preempt.isr.adcTriggerOffset = base
      rw [offset, offsetAt, if_pos first.1]
    refine ⟨found, sweeping.state, sweeping.unmeasured, sweeping.unasked, offset, fun _ => found, sweeping.below, ?_⟩
    obtain ⟨count, sum, squares, noise, full, reached, offsets⟩ := sweeping.log
    exact ⟨count, sum, squares, noise, full, reached, offsets⟩
  · rw [if_neg (by simpa using first)]
    exact ⟨sweeping.known first, sweeping.state, sweeping.unmeasured, sweeping.unasked, inForce, sweeping.known,
      sweeping.below, sweeping.log⟩

theorem Sweeping.finishes (sweeping : Sweeping base s) (known : s.fsm.baseTriggerOffset = base)
    (all : nSweepSteps ≤ s.fsm.sweepPos) (b : Board F) :
    Finished base ⟨(s.fsm.sweep b).1, (s.fsm.sweep b).2, s.samples⟩ := by
  have noise : s.fsm.sweepNoiseA = Vector.ofFn fun j : Fin nSweepSteps => noiseAt s.samples j := by
    refine Vector.ext fun j inside => ?_
    rw [Vector.getElem_ofFn]
    exact sweeping.log.noise ⟨j, inside⟩ (Nat.lt_of_lt_of_le inside all)
  unfold sweep
  rw [if_pos all]
  constructor
  · exact .inl sweeping.state
  · rfl
  · exact sweeping.unasked
  · rw [← noise, ← known]
    rfl
  · exact fun j inside => sweeping.log.full j (Nat.lt_of_lt_of_le inside all)
  · exact sweeping.log.offsets

theorem sweep_collects {fsm : HwStartup F} (more : fsm.sweepPos < nSweepSteps) (b : Board F) :
    fsm.sweep b =
      let collecting := fsm.addSample b.readIsr.1.rawPhaseCurrents
      if nAlignSamples ≤ fsm.sampleCount + 1 then
        (collecting.advanceSweep,
          b.preempt.setAdcTriggerOffset (sweepTicks fsm.baseTriggerOffset (fsm.sweepPos + 1)))
      else (collecting, b.preempt) := by
  have collects : fsm.collectSample nAlignSamples b =
      (decide (nAlignSamples ≤ fsm.sampleCount + 1), fsm.addSample b.readIsr.1.rawPhaseCurrents, b.preempt) := rfl
  unfold sweep
  rw [if_neg (Nat.not_le_of_lt more), collects]
  simp only [decide_eq_true_eq]
  rfl

theorem last_sample {count : UInt32} (below : count < nAlignSamples) (all : nAlignSamples ≤ count + 1) :
    count + 1 = nAlignSamples := by
  have small : count.toNat < 256 := UInt32.lt_iff_toNat_lt.mp below
  have least : 256 ≤ (count + 1).toNat := UInt32.le_iff_toNat_le.mp all
  rw [succ_toNat (by omega)] at least
  rw [← UInt32.toNat_inj, succ_toNat (by omega)]
  exact Nat.le_antisymm small least

theorem Sweeping.collects (sweeping : Sweeping base s) (known : s.fsm.baseTriggerOffset = base)
    (more : s.fsm.sweepPos < nSweepSteps) :
    Sweeping base ⟨(s.fsm.sweep s.board).1, (s.fsm.sweep s.board).2,
      ⟨s.fsm.sweepPos, s.board.readIsr.1.adcTriggerOffset, s.board.readIsr.1.rawPhaseCurrents.a⟩ :: s.samples⟩ := by
  have looked := Undisturbed.preempt s.board
  have offset := looked.triggerOffset.trans sweeping.inForce
  have log : Log base (s.fsm.addSample s.board.readIsr.1.rawPhaseCurrents)
      (⟨s.fsm.sweepPos, s.board.readIsr.1.adcTriggerOffset, s.board.readIsr.1.rawPhaseCurrents.a⟩ :: s.samples) :=
    sweeping.log.sampled sweeping.below rfl offset rfl
  rw [sweep_collects more]
  dsimp only
  by_cases all : nAlignSamples ≤ s.fsm.sampleCount + 1
  · rw [if_pos all]
    refine ⟨sweeping.state, sweeping.unmeasured, sweeping.unasked, ?_, fun _ => known, ?_,
      log.advanced (last_sample sweeping.below all)⟩
    · show HwStartup.sweepTicks s.fsm.baseTriggerOffset (s.fsm.sweepPos + 1) = offsetAt base (s.fsm.sweepPos + 1)
      rw [known, offsetAt, if_neg (Nat.succ_ne_zero _)]
    · show (0 : UInt32) < nAlignSamples
      decide
  · rw [if_neg all]
    exact ⟨sweeping.state, sweeping.unmeasured, sweeping.unasked, offset, fun _ => known, UInt32.not_le.mp all, log⟩

/-! ### A spin -/

theorem Sweeping.spin_reached (sweeping : Sweeping base s) {interrupts : List (List (Interrupt F))} {found : Board F}
    (reached : s.fsm.reached { s.board with interrupts := interrupts } = some found) :
    s.spin interrupts =
      let entered := s.fsm.enterSweep (injectAlphaCurrent found)
      let after := entered.1.sweep entered.2
      let isr := entered.2.readIsr.1
      ⟨after.1, after.2,
        if s.fsm.sweepPos < nSweepSteps then
          ⟨s.fsm.sweepPos, isr.adcTriggerOffset, isr.rawPhaseCurrents.a⟩ :: s.samples
        else s.samples⟩ := by
  have step : s.fsm.runStep found = (s.fsm.enterSweep (injectAlphaCurrent found)).1.sweep
      (s.fsm.enterSweep (injectAlphaCurrent found)).2 := by
    unfold runStep
    rw [sweeping.state]
    unfold runPhaseAdcAlignment
    rw [if_neg (by simp [sweeping.unmeasured])]
  unfold Sweep.spin swept
  dsimp only
  rw [runOnce_reached reached, step, reached]
  simp only [sweeping.state, sweeping.unmeasured, ne_eq, not_true_eq_false, Bool.false_eq_true, false_or]
  by_cases more : s.fsm.sweepPos < nSweepSteps
  · rw [if_neg (Nat.not_le_of_lt more), if_pos more]
    rfl
  · rw [if_pos (Nat.le_of_not_lt more), if_neg more]
    rfl

theorem enterSweep_position (fsm : HwStartup F) (b : Board F) :
    (fsm.enterSweep b).1.sweepPos = fsm.sweepPos ∧ (fsm.enterSweep b).1.sampleCount = fsm.sampleCount ∧
      (fsm.enterSweep b).1.ocLimit = fsm.ocLimit := by
  unfold enterSweep
  split <;> exact ⟨rfl, rfl, rfl⟩

theorem Sweeping.spin (sweeping : Sweeping base s) (interrupts : List (List (Interrupt F))) :
    Swept base (s.spin interrupts) := by
  have calm : Undisturbed s.board { s.board with interrupts := interrupts } := ⟨rfl, rfl⟩
  cases reached : s.fsm.reached { s.board with interrupts := interrupts } with
  | none =>
    unfold Sweep.spin swept
    dsimp only
    rw [reached]
    rcases runOnce_unreached reached with waits | ⟨reason, board, halts⟩
    · rw [waits]
      have offset := (calm.trans (.takeSamplesReady _)).triggerOffset
      exact .sweeping ⟨sweeping.state, sweeping.unmeasured, sweeping.unasked, offset.trans sweeping.inForce,
        sweeping.known, sweeping.below, sweeping.log⟩
    · rw [halts]
      exact .stopped rfl sweeping.unmeasured
  | some found =>
    have injected : Undisturbed s.board (injectAlphaCurrent found) :=
      (calm.trans (reached_undisturbed reached)).trans (.injectAlphaCurrent found)
    obtain ⟨known, entered⟩ := sweeping.entered (injected.triggerOffset.trans sweeping.inForce)
    rw [sweeping.spin_reached reached, ← (enterSweep_position s.fsm (injectAlphaCurrent found)).1]
    dsimp only
    by_cases more : (s.fsm.enterSweep (injectAlphaCurrent found)).1.sweepPos < nSweepSteps
    · rw [if_pos more]
      exact .sweeping (entered.collects known more)
    · rw [if_neg more]
      exact .finished (entered.finishes known (Nat.le_of_not_lt more) _)

theorem swept_none (settled : s.fsm.stepDone = true ∨ s.fsm.state ≠ .phaseAdcAlignment) (b : Board F) :
    s.fsm.swept b = none := by
  unfold swept
  split
  · rfl
  · rw [if_pos]
    rcases settled with measured | state
    · exact .inr (.inl measured)
    · exact .inl state

theorem Finished.spin (finished : Finished base s) (interrupts : List (List (Interrupt F))) :
    Finished base (s.spin interrupts) := by
  unfold Sweep.spin
  dsimp only
  rw [swept_none (.inl finished.measured)]
  generalize { s.board with interrupts := interrupts } = b
  obtain ⟨state, measured, unasked, result, full, offsets⟩ := finished
  cases reached : s.fsm.reached b with
  | none =>
    rcases runOnce_unreached reached with waits | ⟨reason, board, halts⟩
    · rw [waits]
      exact ⟨state, measured, unasked, result, full, offsets⟩
    · rw [halts]
      exact ⟨.inr rfl, measured, unasked, result, full, offsets⟩
  | some found =>
    have step : (s.fsm.runStep found).1 = s.fsm := by
      unfold runStep
      rcases state with state | state
      · rw [state]
        unfold runPhaseAdcAlignment
        rw [if_pos measured]
        exact congrArg Prod.fst (continueWhenAsked_unasked unasked _)
      · rw [state]
    rw [runOnce_reached reached, step]
    exact ⟨state, measured, unasked, result, full, offsets⟩

theorem Swept.spin (swept : Swept base s) (interrupts : List (List (Interrupt F))) :
    Swept base (s.spin interrupts) := by
  cases swept with
  | sweeping sweeping => exact sweeping.spin interrupts
  | stopped state unmeasured =>
    have inactive : s.fsm.isActive = false := by
      rw [isActive, state]
      rfl
    have still := runOnce_inactive inactive { s.board with interrupts := interrupts }
    refine .stopped ?_ ?_
    · exact (congrArg HwStartup.state still).trans state
    · exact (congrArg HwStartup.stepDone still).trans unmeasured
  | finished finished => exact .finished (finished.spin interrupts)

theorem Swept.run (swept : Swept base s) (spins : List (List (List (Interrupt F)))) :
    Swept base (s.run spins) := by
  induction spins generalizing s with
  | nil => exact swept
  | cons interrupts rest ih => exact ih (swept.spin interrupts)

/-! ### From the first spin on -/

end Sweep

/-- The aid as it enters the sweep. -/
structure HwStartup.Entered (fsm : HwStartup F) : Prop where
  state : fsm.state = .phaseAdcAlignment
  unmeasured : fsm.stepDone = false
  unasked : fsm.nextStepRequested = false
  position : fsm.sweepPos = 0
  count : fsm.sampleCount = 0
  sum : fsm.accumA = Scalar.zero
  squares : fsm.accumSqA = Scalar.zero

namespace Sweep

theorem sweeping_start {fsm : HwStartup F} (entered : fsm.Entered) (board : Board F) :
    Sweeping board.isr.adcTriggerOffset ⟨fsm, board, []⟩ := by
  obtain ⟨state, unmeasured, unasked, position, count, sum, squares⟩ := entered
  refine ⟨state, unmeasured, unasked, ?_, fun begun => absurd ⟨position, count⟩ begun, ?_, ?_⟩
  · show board.isr.adcTriggerOffset = offsetAt board.isr.adcTriggerOffset fsm.sweepPos
    rw [position]
    rfl
  · show fsm.sampleCount < nAlignSamples
    rw [count]
    decide
  · constructor
    · show 0 = fsm.sampleCount.toNat
      rw [count]
      rfl
    · exact sum
    · exact squares
    · exact fun j behind => absurd (position ▸ behind) (Nat.not_lt_zero _)
    · exact fun j behind => absurd (position ▸ behind) (Nat.not_lt_zero _)
    · exact nofun
    · exact nofun

theorem run_finished {fsm : HwStartup F} (entered : fsm.Entered) (board : Board F)
    (spins : List (List (List (Interrupt F)))) (measured : (run ⟨fsm, board, []⟩ spins).fsm.stepDone = true) :
    Finished board.isr.adcTriggerOffset (run ⟨fsm, board, []⟩ spins) := by
  cases Swept.run (.sweeping (sweeping_start entered board)) spins with
  | sweeping sweeping => exact absurd measured (by simp [sweeping.unmeasured])
  | stopped _ unmeasured => exact absurd measured (by simp [unmeasured])
  | finished finished => exact finished

end Sweep

end Unimoc.Startup
