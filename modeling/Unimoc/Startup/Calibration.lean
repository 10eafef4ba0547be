import Unimoc.Startup.Samples
import Unimoc.Startup.Verdicts
import Unimoc.Units.Exact

/-! What a finished run commits: the calibration maps the mean samples to the readings. -/
namespace Unimoc.Startup

open CurrentControl Firmware Settings

/-! ### The samples and readings of a run -/

section Record

variable {F : Type} [Arithmetic F]

/-- The samples the voltage step and the current calibration have taken in the present run, newest first,
and the readings of their last unmeasured spins. -/
structure Record (F : Type) where
  voltages : List F
  currents : List (ThreePhase F)
  voltageReading : F
  currentReading : F

namespace Record

def empty : Record F := ⟨[], [], Scalar.zero, Scalar.zero⟩

def sampled (fsm : HwStartup F) (found : Board F) (r : Record F) : Record F :=
  if fsm.stepDone then r
  else
    match fsm.state with
    | .dcLinkVoltageCheck =>
      { r with
        voltages :=
          if fsm.sampleCount < nCal then (HwStartup.neutral found).readIsr.1.rawVdc :: r.voltages
          else r.voltages
        voltageReading := fsm.extVdc }
    | .currentSenseCalibration =>
      { r with
        currents :=
          if fsm.sampleCount < nCal then
            (HwStartup.injectAlphaCurrent found).readIsr.1.rawPhaseCurrents :: r.currents
          else r.currents
        currentReading := fsm.extCurrent }
    | _ => r

def next (s : Session F) (step : Step F) (r : Record F) : Record F :=
  match step.call with
  | .requestRun => if s.fsm.isActive then r else empty
  | .runOnce =>
    match s.fsm.reached (step.meets s.board) with
    | some found => r.sampled s.fsm found
    | none => r
  | _ => r

def after (s : Session F) (r : Record F) : List (Step F) → Record F
  | [] => r
  | step :: rest => after (s.next step) (r.next s step) rest

end Record

end Record

/-! ### Steps that leave the gain of the DC link alone -/

namespace HwStartup

section Moves

variable {F : Type} [Arithmetic F]

/-- The gain of the DC link and its verdict. -/
structure Kept (before after : HwStartup F) : Prop where
  gain : after.results.gainVdc = before.results.gainVdc
  verdict : after.results.passed.get FsmState.dcLinkVoltageCheck.index =
    before.results.passed.get FsmState.dcLinkVoltageCheck.index

theorem Kept.refl (fsm : HwStartup F) : Kept fsm fsm := ⟨rfl, rfl⟩

theorem Kept.trans {before between after : HwStartup F} (first : Kept before between) (second : Kept between after) :
    Kept before after := ⟨second.gain.trans first.gain, second.verdict.trans first.verdict⟩

omit [Arithmetic F] in
theorem pass_other (results : StartupResults F) {step : FsmState} (other : step ≠ .dcLinkVoltageCheck)
    (verdict : Bool) : (results.pass step verdict).passed.get FsmState.dcLinkVoltageCheck.index =
      results.passed.get FsmState.dcLinkVoltageCheck.index := by
  have apart : step.index ≠ FsmState.dcLinkVoltageCheck.index := by
    revert other
    cases step <;> decide
  exact Vector.getElem_set_ne step.index.isLt FsmState.dcLinkVoltageCheck.index.isLt fun same =>
    apart (Fin.ext same)

inductive Moves (before : HwStartup F) : HwStartup F → Prop
  | stays {after : HwStartup F} (state : after.state = before.state)
      (done : before.stepDone = true → after.stepDone = true) (kept : Kept before after) : Moves before after
  | advances {between : HwStartup F} (kept : Kept before between) (state : between.state = before.state)
      (b : Board F) : Moves before (between.advanceToNextState b).1
  | faults {after : HwStartup F} (state : after.state = .fault) : Moves before after

variable {fsm : HwStartup F}

theorem continueWhenAsked_moves {between : HwStartup F} (kept : Kept fsm between)
    (state : between.state = fsm.state) (done : fsm.stepDone = true → between.stepDone = true) (b : Board F) :
    Moves fsm (between.continueWhenAsked b).1 := by
  unfold continueWhenAsked
  split
  · exact .advances kept state b
  · exact .stays state done kept

theorem runPwmDisable_moves (b : Board F) : Moves fsm (fsm.runPwmDisable b).1 := by
  unfold runPwmDisable
  dsimp only
  split
  · have kept : Kept fsm { fsm with stepDone := true, results := fsm.results.pass .pwmDisable true } :=
      ⟨rfl, pass_other fsm.results (by decide) true⟩
    exact .advances kept rfl _
  · exact .stays rfl (fun _ => rfl) ⟨rfl, rfl⟩

theorem runCalibration_moves (finish : HwStartup F → HwStartup F)
    (finishes : ∀ collecting, (finish collecting).state = collecting.state ∧ Kept collecting (finish collecting) ∧
      (finish collecting).stepDone = true) (b : Board F) : Moves fsm (fsm.runCalibration finish b).1 := by
  unfold runCalibration
  dsimp only
  split
  · exact continueWhenAsked_moves (.refl fsm) rfl id _
  · have collecting : Kept fsm (fsm.collectSample nCal (neutral b)).2.1 := ⟨rfl, rfl⟩
    obtain ⟨state, kept, done⟩ := finishes (fsm.collectSample nCal (neutral b)).2.1
    split
    · exact continueWhenAsked_moves (collecting.trans kept) state (fun _ => done) _
    · exact continueWhenAsked_moves collecting rfl id _

theorem runDutyForce_moves (other : fsm.state ≠ .dcLinkVoltageCheck) (duty : F) (b : Board F) :
    Moves fsm (fsm.runDutyForce duty b).1 := by
  unfold runDutyForce
  dsimp only
  split
  · exact continueWhenAsked_moves (.refl fsm) rfl id _
  · split
    · exact .stays rfl id ⟨rfl, rfl⟩
    · have kept : Kept fsm { fsm with results := fsm.results.pass fsm.state true, stepDone := true } :=
        ⟨rfl, pass_other fsm.results other true⟩
      exact continueWhenAsked_moves kept rfl (fun _ => rfl) _

theorem runGateDriverEnableCheck_moves (b : Board F) : Moves fsm (fsm.runGateDriverEnableCheck b).1 := by
  unfold runGateDriverEnableCheck
  split
  · exact continueWhenAsked_moves (.refl fsm) rfl id _
  · split
    · dsimp only
      split
      · exact .stays rfl id ⟨rfl, rfl⟩
      · exact .stays rfl id ⟨rfl, rfl⟩
    · dsimp only
      split
      · exact .stays rfl (fun _ => rfl) ⟨rfl, pass_other _ (by decide) _⟩
      · exact .stays rfl id ⟨rfl, rfl⟩

theorem runConnectMotorWait_moves (b : Board F) : Moves fsm (fsm.runConnectMotorWait b).1 := by
  have entered : (fsm.enterBarrier (neutral b)).1.state = fsm.state ∧
      (fsm.enterBarrier (neutral b)).1.stepDone = true ∧ Kept fsm (fsm.enterBarrier (neutral b)).1 := by
    unfold enterBarrier
    cases measured : fsm.stepDone with
    | true => exact ⟨rfl, measured, .refl fsm⟩
    | false => exact ⟨rfl, rfl, ⟨rfl, pass_other _ (by decide) _⟩⟩
  obtain ⟨state, done, kept⟩ := entered
  unfold runConnectMotorWait
  dsimp only
  split
  · unfold releaseMotor
    dsimp only
    split
    · split
      · exact .faults rfl
      · exact .advances kept state _
    · split
      · exact .faults rfl
      · exact .advances kept state _
  · exact .stays state (fun _ => done) kept

theorem runPhaseAdcAlignment_moves (b : Board F) : Moves fsm (fsm.runPhaseAdcAlignment b).1 := by
  unfold runPhaseAdcAlignment
  dsimp only
  split
  · exact continueWhenAsked_moves (.refl fsm) rfl id _
  · have entered : (fsm.enterSweep (injectAlphaCurrent b)).1.state = fsm.state ∧
        (fsm.enterSweep (injectAlphaCurrent b)).1.stepDone = fsm.stepDone ∧
        Kept fsm (fsm.enterSweep (injectAlphaCurrent b)).1 := by
      unfold enterSweep
      split
      · exact ⟨rfl, rfl, rfl, rfl⟩
      · exact ⟨rfl, rfl, rfl, rfl⟩
    generalize fsm.enterSweep (injectAlphaCurrent b) = sweeping at entered
    obtain ⟨sweeping, board⟩ := sweeping
    obtain ⟨state, done, kept⟩ := entered
    dsimp only at state done kept ⊢
    unfold sweep
    split
    · have finished : Kept sweeping sweeping.finishPhaseAdcAlignment := ⟨rfl, pass_other _ (by decide) _⟩
      exact .stays state (fun _ => rfl) (kept.trans finished)
    · dsimp only
      split
      · exact .stays state done.trans ⟨kept.gain, kept.verdict⟩
      · exact .stays state done.trans ⟨kept.gain, kept.verdict⟩

/-- Not one of the two steps that take the samples, or one that has measured. -/
def Settled (fsm : HwStartup F) : Prop :=
  fsm.stepDone = true ∨ fsm.state ≠ .dcLinkVoltageCheck ∧ fsm.state ≠ .currentSenseCalibration

theorem runStep_moves (settled : fsm.Settled) (b : Board F) : Moves fsm (fsm.runStep b).1 := by
  unfold runStep
  cases state : fsm.state with
  | idle | done | fault => exact .stays rfl id ⟨rfl, rfl⟩
  | pwmDisable => exact runPwmDisable_moves b
  | adcOffsetCal =>
    exact runCalibration_moves finishAdcOffsetCal (fun _ => ⟨rfl, ⟨rfl, pass_other _ (by decide) _⟩, rfl⟩) b
  | adcNoiseFloor =>
    exact runCalibration_moves finishAdcNoiseFloor (fun _ => ⟨rfl, ⟨rfl, pass_other _ (by decide) _⟩, rfl⟩) b
  | dutyForceLow | dutyForceMid | dutyForceHigh => exact runDutyForce_moves (by rw [state]; decide) _ b
  | gateDriverEnableCheck => exact runGateDriverEnableCheck_moves b
  | connectMotor => exact runConnectMotorWait_moves b
  | phaseAdcAlignment => exact runPhaseAdcAlignment_moves b
  | dcLinkVoltageCheck =>
    have measured : fsm.stepDone = true := settled.resolve_right fun other => other.1 state
    unfold runDcLinkVoltageCheck
    rw [if_pos measured]
    exact continueWhenAsked_moves (.refl fsm) rfl id _
  | currentSenseCalibration =>
    have measured : fsm.stepDone = true := settled.resolve_right fun other => other.2 state
    unfold runCurrentSenseCalibration
    rw [if_pos measured]
    exact continueWhenAsked_moves (.refl fsm) rfl id _

end Moves

end HwStartup

/-! ### The record and the state of the aid -/

noncomputable section Exact

def meanOf (samples : List ℝ) : ℝ := samples.sum / samples.length

def total : Nat := nCal.toNat

/-- The sums of the samples so far; a prompt may have bumped the count. -/
structure Voltages (fsm : HwStartup ℝ) (r : Record ℝ) : Prop where
  sum : fsm.accumA = r.voltages.sum
  count : r.voltages.length = min fsm.sampleCount.toNat total

structure Currents (fsm : HwStartup ℝ) (r : Record ℝ) : Prop where
  sumA : fsm.accumA = (r.currents.map ThreePhase.a).sum
  sumB : fsm.accumB = (r.currents.map ThreePhase.b).sum
  sumC : fsm.accumC = (r.currents.map ThreePhase.c).sum
  count : r.currents.length = min fsm.sampleCount.toNat total

/-- The voltage step has measured: the gain is the mean over the reading. -/
structure VoltageGain (results : StartupResults ℝ) (r : Record ℝ) : Prop where
  whole : r.voltages.length = total
  reading : 1 < r.voltageReading
  gain : results.gainVdc = meanOf r.voltages / r.voltageReading
  passed : results.passed.get FsmState.dcLinkVoltageCheck.index = true → 1e-4 < results.gainVdc

/-- The gain of a phase: the mean less the offset, over the current the phase carries. -/
def PhaseGain (gain offset mean current : ℝ) : Prop := 1e-4 < gain ∧ gain = (mean - offset) / current

/-- The current calibration has measured. -/
structure PhaseGains (results : StartupResults ℝ) (r : Record ℝ) : Prop where
  whole : r.currents.length = total
  reading : 0 < r.currentReading
  passed : results.passed.get FsmState.currentSenseCalibration.index = true →
    PhaseGain results.gainA results.adcOffsetA (meanOf (r.currents.map ThreePhase.a)) r.currentReading ∧
    PhaseGain results.gainB results.adcOffsetB (meanOf (r.currents.map ThreePhase.b)) (-r.currentReading / 2) ∧
    PhaseGain results.gainC results.adcOffsetC (meanOf (r.currents.map ThreePhase.c)) (-r.currentReading / 2)

theorem VoltageGain.kept {r : Record ℝ} {results results' : StartupResults ℝ} (gain : VoltageGain results r)
    (same : results'.gainVdc = results.gainVdc)
    (verdict : results'.passed.get FsmState.dcLinkVoltageCheck.index =
      results.passed.get FsmState.dcLinkVoltageCheck.index) : VoltageGain results' r := by
  constructor
  · exact gain.whole
  · exact gain.reading
  · rw [same]
    exact gain.gain
  · rw [same, verdict]
    exact gain.passed

/-- Between the voltage step and the current calibration. -/
def between (fsm : HwStartup ℝ) : Prop :=
  fsm.state = .dcLinkVoltageCheck ∧ fsm.stepDone = true ∨ fsm.state = .gateDriverEnableCheck ∨
    fsm.state = .connectMotor ∨ fsm.state = .phaseAdcAlignment

/-- The record fits the state of the aid. -/
inductive Recorded (fsm : HwStartup ℝ) (r : Record ℝ) : Prop
  | resting (state : fsm.state = .idle ∨ fsm.state = .fault)
  | early (active : fsm.isActive = true) (early : fsm.state.index < FsmState.dcLinkVoltageCheck.index)
      (voltages : r.voltages = []) (currents : r.currents = [])
  | voltage (state : fsm.state = .dcLinkVoltageCheck) (unmeasured : fsm.stepDone = false)
      (totals : Voltages fsm r) (currents : r.currents = [])
  | between (state : between fsm) (gain : VoltageGain fsm.results r) (currents : r.currents = [])
  | current (state : fsm.state = .currentSenseCalibration) (unmeasured : fsm.stepDone = false)
      (gain : VoltageGain fsm.results r) (totals : Currents fsm r)
  | measured (state : fsm.state = .currentSenseCalibration ∧ fsm.stepDone = true ∨ fsm.state = .done)
      (gain : VoltageGain fsm.results r) (gains : PhaseGains fsm.results r)

namespace Recorded

open HwStartup

variable {fsm after : HwStartup ℝ} {r : Record ℝ}

theorem same (recorded : Recorded fsm r) (state : after.state = fsm.state) (done : after.stepDone = fsm.stepDone)
    (results : after.results = fsm.results) (count : after.sampleCount = fsm.sampleCount)
    (sumA : after.accumA = fsm.accumA) (sumB : after.accumB = fsm.accumB) (sumC : after.accumC = fsm.accumC) :
    Recorded after r := by
  cases recorded with
  | resting place => exact .resting (by rw [state]; exact place)
  | early active early voltages currents =>
    exact .early (by rw [isActive, state]; exact active) (by rw [state]; exact early) voltages currents
  | voltage place unmeasured totals currents =>
    refine .voltage (state.trans place) (done.trans unmeasured) ⟨sumA.trans totals.sum, ?_⟩ currents
    rw [count]
    exact totals.count
  | between place gain currents =>
    refine .between ?_ (results ▸ gain) currents
    unfold Startup.between
    rw [state, done]
    exact place
  | current place unmeasured gain totals =>
    refine .current (state.trans place) (done.trans unmeasured) (results ▸ gain)
      ⟨sumA.trans totals.sumA, sumB.trans totals.sumB, sumC.trans totals.sumC, ?_⟩
    rw [count]
    exact totals.count
  | measured place gain gains =>
    refine .measured ?_ (results ▸ gain) (results ▸ gains)
    rw [state, done]
    exact place

theorem advanced (goesOn : fsm.state.next ≠ .done) (b : Board ℝ) :
    (fsm.advanceToNextState b).1 =
      { fsm with nextStepRequested := false, completed := fsm.completed ||| bit fsm.state }.transitionTo
        fsm.state.next := by
  unfold advanceToNextState
  rw [if_neg goesOn]

theorem early_moves (active : fsm.isActive = true) (early : fsm.state.index < FsmState.dcLinkVoltageCheck.index)
    (voltages : r.voltages = []) (currents : r.currents = []) (moves : Moves fsm after) : Recorded after r := by
  cases moves with
  | stays state =>
    exact .early (by rw [isActive, state]; exact active) (by rw [state]; exact early) voltages currents
  | @advances between kept state b =>
    have goesOn : between.state.next ≠ .done := by
      rw [state]
      intro last
      cases place : fsm.state <;> rw [place] at early last <;>
        first | exact absurd last (by decide) | exact absurd early (by decide)
    rw [advanced goesOn]
    by_cases enters : between.state.next = .dcLinkVoltageCheck
    · refine .voltage enters rfl ⟨?_, ?_⟩ currents
      · rw [voltages]
        exact Scalar.zero_exact
      · rw [voltages]
        rfl
    · rw [state] at enters goesOn ⊢
      have running := FsmState.next_active active goesOn
      refine .early running ?_ voltages currents
      show fsm.state.next.index < FsmState.dcLinkVoltageCheck.index
      cases place : fsm.state <;> rw [place] at early enters <;>
        first | decide | exact absurd rfl enters | exact absurd early (by decide)
  | faults state => exact .resting (.inr state)

theorem between_moves (place : Startup.between fsm) (gain : VoltageGain fsm.results r) (currents : r.currents = [])
    (moves : Moves fsm after) : Recorded after r := by
  cases moves with
  | stays state done kept =>
    refine .between ?_ (gain.kept kept.gain kept.verdict) currents
    unfold Startup.between
    rw [state]
    exact place.imp_left fun measured => ⟨measured.1, done measured.2⟩
  | @advances between kept state b =>
    have gain : VoltageGain { between.results with currentState := between.state.next } r :=
      gain.kept kept.gain kept.verdict
    have goesOn : between.state.next ≠ .done := by
      rw [state]
      rcases place with ⟨place, -⟩ | place | place | place <;> rw [place] <;> decide
    rw [advanced goesOn]
    rcases place with ⟨place, -⟩ | place | place | place
    · exact .between (.inr (.inl (by rw [state, place]; rfl))) gain currents
    · exact .between (.inr (.inr (.inl (by rw [state, place]; rfl)))) gain currents
    · exact .between (.inr (.inr (.inr (by rw [state, place]; rfl)))) gain currents
    · refine .current (by rw [state, place]; rfl) rfl gain ⟨?_, ?_, ?_, ?_⟩
      · rw [currents]
        exact Scalar.zero_exact
      · rw [currents]
        exact Scalar.zero_exact
      · rw [currents]
        exact Scalar.zero_exact
      · rw [currents]
        rfl
  | faults state => exact .resting (.inr state)

/-! ### The voltage step -/

theorem count_more {count : UInt32} {n : Nat} (counted : n = min count.toNat total) (more : count < nCal) :
    n + 1 = min (count + 1).toNat total := by
  have below : count.toNat < 1024 := UInt32.lt_iff_toNat_lt.mp more
  have whole : total = 1024 := rfl
  have succ : (count + 1).toNat = count.toNat + 1 := by
    rw [UInt32.toNat_add]
    exact Nat.mod_eq_of_lt (by show count.toNat + 1 < 4294967296; omega)
  omega

theorem count_total {count : UInt32} {n : Nat} (counted : n = min count.toNat total) (all : ¬count < nCal) :
    n = total := by
  have above : total ≤ count.toNat := UInt32.le_iff_toNat_le.mp (UInt32.not_lt.mp all)
  omega

theorem mean_total {samples : List ℝ} (count : samples.length = total) :
    HwStartup.mean (F := ℝ) samples.sum nCal = meanOf samples := by
  unfold meanOf
  rw [count]
  rfl

theorem above_zero {gain tolerance : ℝ} (small : tolerance ≤ 1 / 2) (near : Scalar.abs (gain - 1.0) < tolerance) :
    1e-4 < gain := by
  rw [Scalar.abs_exact] at near
  obtain ⟨low, -⟩ := abs_lt.mp near
  have one : gain - (1.0 : ℝ) = gain - 1 := by norm_num
  change -tolerance < gain - (1.0 : ℝ) at low
  rw [one] at low
  have half : (1 / 2 : ℝ) < gain := by linarith
  norm_num
  linarith

theorem evaluated (state : fsm.state = .dcLinkVoltageCheck) (unmeasured : fsm.stepDone = false)
    (totals : Voltages fsm r) (all : ¬fsm.sampleCount < nCal) (currents : r.currents = [])
    (reading : r.voltageReading = fsm.extVdc) : Recorded fsm.evaluateDcLink r := by
  have whole := count_total totals.count all
  have mean : HwStartup.mean (F := ℝ) fsm.accumA nCal = meanOf r.voltages := by
    rw [totals.sum, mean_total whole]
  unfold evaluateDcLink
  simp only [mean]
  split
  · rename_i valid
    refine .between (.inl ⟨state, rfl⟩) ⟨whole, ?_, ?_, ?_⟩ currents
    · rw [reading]
      exact lt_of_eq_of_lt (by norm_num [vdcMinValid]) valid
    · rw [reading]
      rfl
    · intro passed
      have verdict := (Vector.getElem_set_self FsmState.dcLinkVoltageCheck.index.isLt).symm.trans passed
      exact above_zero (by norm_num [vdcGainTolerance]) (of_decide_eq_true verdict)
  · split
    · rename_i prompt
      refine .voltage state unmeasured ⟨totals.sum, ?_⟩ currents
      rw [whole, prompt]
      rfl
    · exact .voltage state unmeasured totals currents

theorem voltage_step (state : fsm.state = .dcLinkVoltageCheck) (unmeasured : fsm.stepDone = false)
    (totals : Voltages fsm r) (currents : r.currents = []) (found : Board ℝ) :
    Recorded (fsm.runStep found).1 (r.sampled fsm found) := by
  have sampled : r.sampled fsm found =
      { r with
        voltages := if fsm.sampleCount < nCal then (neutral found).readIsr.1.rawVdc :: r.voltages else r.voltages
        voltageReading := fsm.extVdc } := by
    unfold Record.sampled
    rw [if_neg (by simp [unmeasured]), state]
  have step : fsm.runStep found = fsm.runDcLinkVoltageCheck found := by
    unfold runStep
    rw [state]
  rw [sampled, step]
  unfold runDcLinkVoltageCheck
  rw [if_neg (by simp [unmeasured])]
  dsimp only
  by_cases more : fsm.sampleCount < nCal
  · rw [if_pos more, if_pos more]
    have taken : Voltages
        { fsm with
          accumA := fsm.accumA + Arithmetic.widen (neutral found).readIsr.1.rawVdc
          sampleCount := fsm.sampleCount + 1 }
        { r with
          voltages := (neutral found).readIsr.1.rawVdc :: r.voltages
          voltageReading := fsm.extVdc } := by
      constructor
      · show fsm.accumA + (neutral found).readIsr.1.rawVdc = _
        rw [List.sum_cons, totals.sum, add_comm]
      · exact count_more totals.count more
    split
    · exact .voltage state unmeasured taken currents
    · rename_i all
      exact evaluated state unmeasured taken all currents rfl
  · rw [if_neg more, if_neg more]
    exact evaluated state unmeasured ⟨totals.sum, totals.count⟩ more currents rfl

/-! ### The current calibration -/

theorem phaseGain {signal offset mean current reference : ℝ} (measured : signal = mean - offset)
    (carried : current = reference)
    (above : (1e-4 : ℝ) < if (1e-4 : ℝ) < Scalar.abs signal then signal / current else Scalar.zero) :
    PhaseGain (if (1e-4 : ℝ) < Scalar.abs signal then signal / current else Scalar.zero) offset mean reference := by
  refine ⟨above, ?_⟩
  by_cases large : (1e-4 : ℝ) < Scalar.abs signal
  · rw [if_pos large, measured, carried]
  · rw [if_neg large, Scalar.zero_exact] at above
    norm_num at above

theorem finished (totals : Currents fsm r) (all : ¬fsm.sampleCount < nCal)
    (reading : r.currentReading = fsm.extCurrent) (valid : ¬fsm.extCurrent < (1e-3 : ℝ)) :
    PhaseGains fsm.finishCurrentSenseCalibration.results r := by
  have whole := count_total totals.count all
  have mean (phase : ThreePhase ℝ → ℝ) :
      HwStartup.mean (F := ℝ) (r.currents.map phase).sum nCal = meanOf (r.currents.map phase) :=
    mean_total (by rw [List.length_map, whole])
  have half : -fsm.extCurrent * (0.5 : ℝ) = -r.currentReading / 2 := by
    rw [reading]
    ring
  constructor
  · exact whole
  · rw [reading]
    exact lt_of_lt_of_le (by norm_num) (not_lt.mp valid)
  · intro passed
    have verdict := (Vector.getElem_set_self FsmState.currentSenseCalibration.index.isLt).symm.trans passed
    simp only [Bool.and_eq_true, decide_eq_true_eq] at verdict
    obtain ⟨⟨⟨aboveA, -⟩, aboveB, -⟩, aboveC, -⟩ := verdict
    have signal (phase : ThreePhase ℝ → ℝ) (sum offset : ℝ) (same : sum = (r.currents.map phase).sum) :
        HwStartup.mean (F := ℝ) sum nCal - offset = meanOf (r.currents.map phase) - offset := by
      rw [same, mean]
    refine ⟨?_, ?_, ?_⟩
    · exact phaseGain (signal _ _ _ totals.sumA) reading.symm aboveA
    · exact phaseGain (signal _ _ _ totals.sumB) half aboveB
    · exact phaseGain (signal _ _ _ totals.sumC) half aboveC

theorem ends (state : fsm.state = .currentSenseCalibration) (gain : VoltageGain fsm.results r)
    (gains : PhaseGains fsm.results r) (b : Board ℝ) : Recorded (fsm.advanceToNextState b).1 r := by
  unfold advanceToNextState
  rw [if_pos (by rw [state]; rfl)]
  unfold runDone
  dsimp only
  split
  · exact .resting (.inr rfl)
  · exact .measured (.inr rfl) (gain.kept rfl rfl) ⟨gains.whole, gains.reading, gains.passed⟩

theorem continues (state : fsm.state = .currentSenseCalibration) (measured : fsm.stepDone = true)
    (gain : VoltageGain fsm.results r) (gains : PhaseGains fsm.results r) (b : Board ℝ) :
    Recorded (fsm.continueWhenAsked b).1 r := by
  unfold continueWhenAsked
  split
  · exact ends state gain gains b
  · exact .measured (.inl ⟨state, measured⟩) gain gains

theorem awaits (state : fsm.state = .currentSenseCalibration) (unmeasured : fsm.stepDone = false)
    (gain : VoltageGain fsm.results r) (totals : Currents fsm r) (all : ¬fsm.sampleCount < nCal)
    (reading : r.currentReading = fsm.extCurrent) (b : Board ℝ) : Recorded (fsm.awaitReading b).1 r := by
  unfold awaitReading
  split
  · exact .current state unmeasured gain ⟨totals.sumA, totals.sumB, totals.sumC, totals.count⟩
  · rename_i valid
    have kept : VoltageGain fsm.finishCurrentSenseCalibration.results r :=
      gain.kept rfl (pass_other _ (by decide) _)
    have here : { fsm.finishCurrentSenseCalibration with stepDone := true }.state = .currentSenseCalibration :=
      state
    exact continues here rfl kept (finished totals all reading valid) b

theorem current_step (state : fsm.state = .currentSenseCalibration) (unmeasured : fsm.stepDone = false)
    (gain : VoltageGain fsm.results r) (totals : Currents fsm r) (found : Board ℝ) :
    Recorded (fsm.runStep found).1 (r.sampled fsm found) := by
  have sampled : r.sampled fsm found =
      { r with
        currents :=
          if fsm.sampleCount < nCal then (injectAlphaCurrent found).readIsr.1.rawPhaseCurrents :: r.currents
          else r.currents
        currentReading := fsm.extCurrent } := by
    unfold Record.sampled
    rw [if_neg (by simp [unmeasured]), state]
  have step : fsm.runStep found = fsm.runCurrentSenseCalibration found := by
    unfold runStep
    rw [state]
  have voltage (currents : List (ThreePhase ℝ)) :
      VoltageGain fsm.results { r with currents := currents, currentReading := fsm.extCurrent } :=
    ⟨gain.whole, gain.reading, gain.gain, gain.passed⟩
  have collects : fsm.collectSample nCal (injectAlphaCurrent found) =
      (decide (nCal ≤ fsm.sampleCount + 1),
        fsm.addSample (injectAlphaCurrent found).readIsr.1.rawPhaseCurrents,
        (injectAlphaCurrent found).readIsr.2) := rfl
  rw [sampled, step]
  unfold runCurrentSenseCalibration
  rw [if_neg (by simp [unmeasured])]
  by_cases more : fsm.sampleCount < nCal
  · rw [if_pos more, if_pos more, collects]
    generalize (injectAlphaCurrent found).readIsr.1.rawPhaseCurrents = currents
    generalize (injectAlphaCurrent found).readIsr.2 = board
    have here : (fsm.addSample currents).state = .currentSenseCalibration := state
    have taken : Currents (fsm.addSample currents)
        { r with currents := currents :: r.currents, currentReading := fsm.extCurrent } := by
      constructor
      · show fsm.accumA + currents.a = _
        rw [List.map_cons, List.sum_cons, totals.sumA, add_comm]
      · show fsm.accumB + currents.b = _
        rw [List.map_cons, List.sum_cons, totals.sumB, add_comm]
      · show fsm.accumC + currents.c = _
        rw [List.map_cons, List.sum_cons, totals.sumC, add_comm]
      · exact count_more totals.count more
    by_cases collected : nCal ≤ fsm.sampleCount + 1
    · rw [decide_eq_true collected]
      exact awaits here unmeasured (voltage _) taken (UInt32.not_lt.mpr collected) rfl board
    · rw [decide_eq_false collected]
      exact .current here unmeasured (voltage _) taken
  · rw [if_neg more, if_neg more]
    exact awaits state unmeasured (voltage _) ⟨totals.sumA, totals.sumB, totals.sumC, totals.count⟩ more rfl _

/-! ### The run -/

theorem unsampled (settled : fsm.Settled) (found : Board ℝ) : r.sampled fsm found = r := by
  unfold Record.sampled
  split
  · rfl
  · rename_i unmeasured
    obtain ⟨voltage, current⟩ := settled.resolve_left unmeasured
    cases state : fsm.state <;> first | rfl | exact absurd state voltage | exact absurd state current

theorem runStep (recorded : Recorded fsm r) (found : Board ℝ) :
    Recorded (fsm.runStep found).1 (r.sampled fsm found) := by
  cases recorded with
  | resting state =>
    have settled : fsm.Settled := by
      right
      rcases state with state | state <;> rw [state] <;> exact ⟨nofun, nofun⟩
    have still : (fsm.runStep found).1 = fsm := by
      unfold HwStartup.runStep
      rcases state with state | state <;> rw [state]
    rw [unsampled settled, still]
    exact .resting state
  | early active early voltages currents =>
    have settled : fsm.Settled := by
      right
      constructor <;> intro state <;> rw [state] at early <;> exact absurd early (by decide)
    rw [unsampled settled]
    exact early_moves active early voltages currents (runStep_moves settled found)
  | voltage state unmeasured totals currents => exact voltage_step state unmeasured totals currents found
  | between state gain currents =>
    have settled : fsm.Settled := by
      rcases state with ⟨-, measured⟩ | state | state | state
      · exact .inl measured
      all_goals
        right
        rw [state]
        exact ⟨nofun, nofun⟩
    rw [unsampled settled]
    exact between_moves state gain currents (runStep_moves settled found)
  | current state unmeasured gain totals => exact current_step state unmeasured gain totals found
  | measured state gain gains =>
    rcases state with ⟨state, measured⟩ | state
    · have step : fsm.runStep found = fsm.continueWhenAsked (injectAlphaCurrent found) := by
        unfold HwStartup.runStep
        rw [state]
        unfold runCurrentSenseCalibration
        rw [if_pos measured]
      rw [unsampled (.inl measured), step]
      exact continues state measured gain gains _
    · have still : (fsm.runStep found).1 = fsm := by
        unfold HwStartup.runStep
        rw [state]
      rw [unsampled (.inr (by rw [state]; exact ⟨nofun, nofun⟩)), still]
      exact .measured (.inr state) gain gains

theorem next {s : Session ℝ} (recorded : Recorded s.fsm r) (step : Step ℝ) :
    Recorded (s.next step).fsm (r.next s step) := by
  obtain ⟨meets, call⟩ := step
  cases call with
  | requestRun =>
    show Recorded (s.fsm.requestRun (meets s.board)).2.1 (if s.fsm.isActive then r else Record.empty)
    unfold requestRun
    split
    · exact recorded
    · dsimp only
      split
      · exact .resting (.inl rfl)
      · exact .early rfl (show FsmState.pwmDisable.index < FsmState.dcLinkVoltageCheck.index by decide) rfl rfl
  | requestNextStep motorConnected =>
    show Recorded (s.fsm.requestNextStep motorConnected).2 r
    rcases requestNextStep_cases motorConnected s.fsm with ⟨-, -, -, taken⟩ | ⟨answer, -, refused⟩
    · rw [taken]
      exact recorded.same rfl rfl rfl rfl rfl rfl rfl
    · rw [refused]
      exact recorded
  | requestAbort reason =>
    show Recorded (s.fsm.requestAbort reason (meets s.board)).1 r
    unfold requestAbort
    split
    · exact recorded
    · exact .resting (.inr rfl)
  | setExtCurrent current => exact recorded.same rfl rfl rfl rfl rfl rfl rfl
  | setExtVdc voltage => exact recorded.same rfl rfl rfl rfl rfl rfl rfl
  | runOnce =>
    unfold Record.next
    dsimp only
    show Recorded (s.fsm.runOnce (meets s.board)).1 _
    cases reached : s.fsm.reached (meets s.board) with
    | none =>
      rcases runOnce_unreached reached with waits | ⟨reason, board, halts⟩
      · rw [waits]
        exact recorded
      · rw [halts]
        exact .resting (.inr rfl)
    | some found =>
      rw [runOnce_reached reached]
      exact recorded.runStep found

theorem run {s : Session ℝ} (recorded : Recorded s.fsm r) (steps : List (Step ℝ)) :
    Recorded (s.run steps).fsm (r.after s steps) := by
  induction steps generalizing s r with
  | nil => exact recorded
  | cons step rest ih => exact ih (recorded.next step)

end Recorded

end Exact

end Unimoc.Startup
