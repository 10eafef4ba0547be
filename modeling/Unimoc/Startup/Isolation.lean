import Unimoc.Startup.Counting

/-! What an earlier run of the startup aid leaves behind, and that a later run reads it only
when the earlier one ended in the second half of the gate-driver check. -/
namespace Unimoc.Startup

open CurrentControl Firmware Settings

/-- The members that no start of a run clears. -/
structure Leftovers (F : Type) where
  sweepNoiseA : Vector F nSweepSteps
  baseTriggerOffset : UInt32
  gateMeanDisabled : F
  gateMeanEnabled : F

variable {F : Type} [Arithmetic F]

namespace HwStartup

variable (fsm : HwStartup F) (old : Leftovers F)

def leftovers : Leftovers F where
  sweepNoiseA := fsm.sweepNoiseA
  baseTriggerOffset := fsm.baseTriggerOffset
  gateMeanDisabled := fsm.gateMeanDisabled
  gateMeanEnabled := fsm.gateMeanEnabled

/-- The same state with other leftovers. -/
def keeping : HwStartup F :=
  { fsm with
    sweepNoiseA := old.sweepNoiseA, baseTriggerOffset := old.baseTriggerOffset
    gateMeanDisabled := old.gateMeanDisabled, gateMeanEnabled := old.gateMeanEnabled }

/-- The sweep has taken its first sample. -/
def Sweeping : Prop := fsm.sweepPos ≠ 0 ∨ fsm.state = .phaseAdcAlignment ∧ fsm.sampleCount ≠ 0

/-- What this run has written of the leftovers is the same. -/
structure Written (first second : Leftovers F) (fsm : HwStartup F) : Prop where
  gate : fsm.gatePhaseDisabled = false → second.gateMeanDisabled = first.gateMeanDisabled
  base : fsm.Sweeping → second.baseTriggerOffset = first.baseTriggerOffset
  noise : ∀ i : Fin nSweepSteps, i.val < fsm.sweepPos → second.sweepNoiseA.get i = first.sweepNoiseA.get i

/-- Nothing that depends on the leftovers has moved. -/
structure Untouched (before after : HwStartup F) : Prop where
  leftovers : after.leftovers = before.leftovers
  gate : after.gatePhaseDisabled = before.gatePhaseDisabled
  sweep : after.sweepPos = before.sweepPos
  sweeping : after.Sweeping → before.Sweeping

variable {fsm old}

theorem Written.untouched {after : HwStartup F} (written : Written fsm.leftovers old fsm)
    (untouched : Untouched fsm after) : Written after.leftovers old after where
  gate disabled := by
    rw [untouched.leftovers]
    exact written.gate (untouched.gate ▸ disabled)
  base sweeping := by
    rw [untouched.leftovers]
    exact written.base (untouched.sweeping sweeping)
  noise i done := by
    rw [untouched.leftovers]
    exact written.noise i (untouched.sweep ▸ done)

theorem Untouched.refl : Untouched fsm fsm := ⟨rfl, rfl, rfl, id⟩

theorem Untouched.trans {between after : HwStartup F} (first : Untouched fsm between)
    (second : Untouched between after) : Untouched fsm after :=
  ⟨second.leftovers.trans first.leftovers, second.gate.trans first.gate,
    second.sweep.trans first.sweep, fun sweeping => first.sweeping (second.sweeping sweeping)⟩

theorem Untouched.elsewhere {after : HwStartup F} (leftovers : after.leftovers = fsm.leftovers)
    (gate : after.gatePhaseDisabled = fsm.gatePhaseDisabled) (sweep : after.sweepPos = fsm.sweepPos)
    (state : after.state ≠ .phaseAdcAlignment ∨ after.sampleCount = 0) : Untouched fsm after :=
  ⟨leftovers, gate, sweep, fun sweeping => by
    obtain position | ⟨there, sampled⟩ := sweeping
    · exact .inl (sweep ▸ position)
    · exact absurd (state.resolve_left (not_not_intro there)) sampled⟩

/-- Two results that differ in the leftovers only, which neither has touched. -/
structure Joined (fsm : HwStartup F) (old : Leftovers F) (first second : HwStartup F × Board F) : Prop where
  same : second = (first.1.keeping old, first.2)
  untouched : Untouched fsm first.1

theorem Joined.ite {c : Prop} [Decidable c] {yes no yes' no' : HwStartup F × Board F}
    (first : c → Joined fsm old yes yes') (second : ¬c → Joined fsm old no no') :
    Joined fsm old (if c then yes else no) (if c then yes' else no') := by
  by_cases holds : c
  · simpa only [holds, ↓reduceIte] using first holds
  · simpa only [holds, ↓reduceIte] using second holds

theorem Joined.choose {c : Prop} [Decidable c] {yes no yes' no' : HwStartup F} {b : Board F}
    (first : Joined fsm old (yes, b) (yes', b)) (second : Joined fsm old (no, b) (no', b)) :
    Joined fsm old (if c then yes else no, b) (if c then yes' else no', b) := by
  by_cases holds : c
  · simpa only [holds, ↓reduceIte] using first
  · simpa only [holds, ↓reduceIte] using second

theorem Joined.after {between : HwStartup F} {first second : HwStartup F × Board F}
    (joined : Joined between old first second) (untouched : Untouched fsm between) :
    Joined fsm old first second :=
  ⟨joined.same, untouched.trans joined.untouched⟩

variable (fsm old)

theorem enterFault_joined (reason : StartupFault) (b : Board F) :
    Joined fsm old (fsm.enterFault reason b) ((fsm.keeping old).enterFault reason b) :=
  ⟨rfl, .elsewhere rfl rfl rfl (.inl (by simp [enterFault]))⟩

theorem runDone_joined (b : Board F) : Joined fsm old (fsm.runDone b) ((fsm.keeping old).runDone b) := by
  unfold runDone
  exact .ite (fun _ => enterFault_joined fsm old _ _)
    (fun _ => ⟨rfl, .elsewhere rfl rfl rfl (.inl (by simp))⟩)

theorem advanceToNextState_joined (b : Board F) :
    Joined fsm old (fsm.advanceToNextState b) ((fsm.keeping old).advanceToNextState b) := by
  unfold advanceToNextState
  refine .ite (fun _ => ?_) (fun _ => ⟨rfl, .elsewhere rfl rfl rfl (.inr rfl)⟩)
  exact (runDone_joined { fsm with
    nextStepRequested := false, completed := fsm.completed ||| bit fsm.state } old b).after
    ⟨rfl, rfl, rfl, id⟩

theorem continueWhenAsked_joined (b : Board F) :
    Joined fsm old (fsm.continueWhenAsked b) ((fsm.keeping old).continueWhenAsked b) := by
  unfold continueWhenAsked
  exact .ite (fun _ => advanceToNextState_joined fsm old b) (fun _ => ⟨rfl, .refl⟩)

theorem runPwmDisable_joined (b : Board F) :
    Joined fsm old (fsm.runPwmDisable b) ((fsm.keeping old).runPwmDisable b) := by
  unfold runPwmDisable
  refine .ite (fun _ => ?_) (fun _ => ⟨rfl, ⟨rfl, rfl, rfl, id⟩⟩)
  exact (advanceToNextState_joined { fsm with
    stepDone := true, results := fsm.results.pass .pwmDisable true } old (neutral b)).after
    ⟨rfl, rfl, rfl, id⟩

theorem runCalibration_joined (finish : HwStartup F → HwStartup F)
    (same : ∀ collecting : HwStartup F, finish (collecting.keeping old) = (finish collecting).keeping old)
    (kept : ∀ collecting : HwStartup F, Untouched collecting (finish collecting))
    (state : fsm.state ≠ .phaseAdcAlignment) (b : Board F) :
    Joined fsm old (fsm.runCalibration finish b) ((fsm.keeping old).runCalibration finish b) := by
  unfold runCalibration
  refine .ite (fun _ => continueWhenAsked_joined fsm old _) (fun _ => ?_)
  have adding (currents : ThreePhase F) : Untouched fsm (fsm.addSample currents) :=
    .elsewhere rfl rfl rfl (.inl state)
  have finishing (all : Bool) (collecting : HwStartup F) (untouched : Untouched fsm collecting)
      (b : Board F) :
      Joined fsm old ((if all then finish collecting else collecting).continueWhenAsked b)
        ((if all then finish (collecting.keeping old) else collecting.keeping old).continueWhenAsked b) := by
    cases all with
    | true =>
      rw [if_pos rfl, if_pos rfl, same]
      exact (continueWhenAsked_joined (finish collecting) old b).after (untouched.trans (kept collecting))
    | false => exact (continueWhenAsked_joined collecting old b).after untouched
  exact finishing _ (fsm.addSample (neutral b).readIsr.1.rawPhaseCurrents) (adding _) _

theorem runDutyForce_joined (state : fsm.state ≠ .phaseAdcAlignment) (duty : F) (b : Board F) :
    Joined fsm old (fsm.runDutyForce duty b) ((fsm.keeping old).runDutyForce duty b) := by
  unfold runDutyForce
  refine .ite (fun _ => continueWhenAsked_joined fsm old _) (fun _ => .ite (fun _ => ?_) (fun _ => ?_))
  · exact ⟨rfl, .elsewhere rfl rfl rfl (.inl state)⟩
  · exact (continueWhenAsked_joined { fsm with
      results := fsm.results.pass fsm.state true, stepDone := true } old _).after ⟨rfl, rfl, rfl, id⟩

theorem evaluateDcLink_joined (state : fsm.state ≠ .phaseAdcAlignment) (b : Board F) :
    Joined fsm old (fsm.evaluateDcLink, b) ((fsm.keeping old).evaluateDcLink, b) := by
  unfold evaluateDcLink
  exact .choose ⟨rfl, ⟨rfl, rfl, rfl, id⟩⟩
    (.choose ⟨rfl, .elsewhere rfl rfl rfl (.inl state)⟩ ⟨rfl, .refl⟩)

theorem runDcLinkVoltageCheck_joined (state : fsm.state ≠ .phaseAdcAlignment) (b : Board F) :
    Joined fsm old (fsm.runDcLinkVoltageCheck b) ((fsm.keeping old).runDcLinkVoltageCheck b) := by
  unfold runDcLinkVoltageCheck
  refine .ite (fun _ => continueWhenAsked_joined fsm old _) (fun _ => .ite (fun _ => ?_) (fun _ => ?_))
  · refine .ite (fun _ => ⟨rfl, .elsewhere rfl rfl rfl (.inl state)⟩) (fun _ => ?_)
    exact (evaluateDcLink_joined { fsm with
      accumA := fsm.accumA + Arithmetic.widen (neutral b).readIsr.1.rawVdc
      sampleCount := fsm.sampleCount + 1 } old state _).after (.elsewhere rfl rfl rfl (.inl state))
  · exact evaluateDcLink_joined fsm old state _

theorem enterBarrier_joined (b : Board F) :
    Joined fsm old (fsm.enterBarrier b) ((fsm.keeping old).enterBarrier b) := by
  unfold enterBarrier
  exact .ite (fun _ => ⟨rfl, ⟨rfl, rfl, rfl, id⟩⟩) (fun _ => ⟨rfl, .refl⟩)

theorem releaseMotor_joined (b : Board F) :
    Joined fsm old (fsm.releaseMotor b) ((fsm.keeping old).releaseMotor b) := by
  unfold releaseMotor
  exact .ite (fun _ => enterFault_joined fsm old _ _) (fun _ => advanceToNextState_joined fsm old _)

theorem runConnectMotorWait_joined (b : Board F) :
    Joined fsm old (fsm.runConnectMotorWait b) ((fsm.keeping old).runConnectMotorWait b) := by
  unfold runConnectMotorWait
  obtain ⟨same, untouched⟩ := enterBarrier_joined fsm old (neutral b)
  rw [same]
  exact (Joined.ite (fun _ => releaseMotor_joined _ old _) (fun _ => ⟨rfl, .refl⟩)).after untouched

theorem awaitReading_joined (b : Board F) :
    Joined fsm old (fsm.awaitReading b) ((fsm.keeping old).awaitReading b) := by
  unfold awaitReading
  refine .ite (fun _ => ⟨rfl, ⟨rfl, rfl, rfl, id⟩⟩) (fun _ => ?_)
  exact (continueWhenAsked_joined { fsm.finishCurrentSenseCalibration with stepDone := true } old b).after
    ⟨rfl, rfl, rfl, id⟩

theorem runCurrentSenseCalibration_joined (state : fsm.state ≠ .phaseAdcAlignment) (b : Board F) :
    Joined fsm old (fsm.runCurrentSenseCalibration b)
      ((fsm.keeping old).runCurrentSenseCalibration b) := by
  unfold runCurrentSenseCalibration
  refine .ite (fun _ => continueWhenAsked_joined fsm old _) (fun _ => .ite (fun _ => ?_) (fun _ => ?_))
  · have adding : Untouched fsm (fsm.addSample (injectAlphaCurrent b).readIsr.1.rawPhaseCurrents) :=
      .elsewhere rfl rfl rfl (.inl state)
    exact .ite (fun _ => ⟨rfl, adding⟩) (fun _ => (awaitReading_joined _ old _).after adding)
  · exact awaitReading_joined fsm old _

/-! ### The steps that write leftovers -/

/-- States that differ only in leftovers the run has not written. -/
structure Alike (first second : HwStartup F) : Prop where
  same : second = first.keeping second.leftovers
  written : Written first.leftovers second.leftovers first

/-- Alike states on the same board. -/
structure Twins (first second : HwStartup F × Board F) : Prop where
  alike : Alike first.1 second.1
  board : second.2 = first.2

variable {fsm old}

theorem Joined.twins {first second : HwStartup F × Board F} (joined : Joined fsm old first second)
    (written : Written fsm.leftovers old fsm) : Twins first second := by
  rw [joined.same]
  exact ⟨⟨rfl, written.untouched joined.untouched⟩, rfl⟩

theorem Twins.ite {c : Prop} [Decidable c] {yes no yes' no' : HwStartup F × Board F}
    (first : c → Twins yes yes') (second : ¬c → Twins no no') :
    Twins (if c then yes else no) (if c then yes' else no') := by
  by_cases holds : c
  · simpa only [holds, ↓reduceIte] using first holds
  · simpa only [holds, ↓reduceIte] using second holds

theorem Twins.choose {c : Prop} [Decidable c] {yes no yes' no' : HwStartup F} {b : Board F}
    (first : Alike yes yes') (second : Alike no no') :
    Twins (if c then yes else no, b) (if c then yes' else no', b) := by
  by_cases holds : c
  · simpa only [holds, ↓reduceIte] using ⟨first, rfl⟩
  · simpa only [holds, ↓reduceIte] using ⟨second, rfl⟩

theorem finishGateDriverEnableCheck_alike (written : Written fsm.leftovers old fsm)
    (first : old.gateMeanDisabled = fsm.gateMeanDisabled) :
    Alike fsm.finishGateDriverEnableCheck (fsm.keeping old).finishGateDriverEnableCheck where
  same := by simp only [finishGateDriverEnableCheck, keeping, leftovers, first]
  written := ⟨fun _ => first, written.base, written.noise⟩

theorem runGateDriverEnableCheck_twins (written : Written fsm.leftovers old fsm)
    (state : fsm.state ≠ .phaseAdcAlignment) (b : Board F) :
    Twins (fsm.runGateDriverEnableCheck b) ((fsm.keeping old).runGateDriverEnableCheck b) := by
  have adding (currents : ThreePhase F) : Untouched fsm (fsm.addSample currents) :=
    .elsewhere rfl rfl rfl (.inl state)
  unfold runGateDriverEnableCheck
  refine .ite (fun _ => (continueWhenAsked_joined fsm old _).twins written) (fun _ =>
    .ite (fun _ => ?_) (fun enabled => ?_))
  · refine .ite (fun _ => ?_) (fun _ => ?_)
    · refine ⟨⟨rfl, fun _ => rfl, fun sweeping => ?_, written.noise⟩, rfl⟩
      exact written.base (.inl (sweeping.resolve_right fun there => there.2 rfl))
    · exact (show Joined fsm old _ _ from ⟨rfl, adding _⟩).twins written
  · have first : old.gateMeanDisabled = fsm.gateMeanDisabled := written.gate (by simpa using enabled)
    have collecting (currents : ThreePhase F) : Written (fsm.addSample currents).leftovers old
        (fsm.addSample currents) := written.untouched (adding currents)
    exact .choose (finishGateDriverEnableCheck_alike (collecting _) first) ⟨rfl, collecting _⟩

theorem finishPhaseAdcAlignment_alike (written : Written fsm.leftovers old fsm)
    (base : old.baseTriggerOffset = fsm.baseTriggerOffset) (swept : nSweepSteps ≤ fsm.sweepPos) :
    Alike fsm.finishPhaseAdcAlignment (fsm.keeping old).finishPhaseAdcAlignment := by
  have noise : old.sweepNoiseA = fsm.sweepNoiseA :=
    Vector.ext fun i inside => written.noise ⟨i, inside⟩ (Nat.lt_of_lt_of_le inside swept)
  refine ⟨?_, written.gate, written.base, written.noise⟩
  simp only [finishPhaseAdcAlignment, keeping, leftovers, noise, base]

theorem advanceSweep_alike (written : Written fsm.leftovers old fsm)
    (base : old.baseTriggerOffset = fsm.baseTriggerOffset) :
    Alike fsm.advanceSweep (fsm.keeping old).advanceSweep := by
  refine ⟨rfl, written.gate, fun _ => base, fun i done => ?_⟩
  have position (noise : Vector F nSweepSteps) (value : F) :
      (noise.setIfInBounds fsm.sweepPos value)[i.val] = if fsm.sweepPos = i then value else noise[i.val] :=
    Vector.getElem_setIfInBounds i.isLt
  refine (position _ _).trans (Eq.trans ?_ (position _ _).symm)
  split
  · rfl
  · rename_i other
    exact written.noise i (Nat.lt_of_le_of_ne (Nat.le_of_lt_succ done) fun last => other last.symm)

theorem sweep_twins (written : Written fsm.leftovers old fsm)
    (base : old.baseTriggerOffset = fsm.baseTriggerOffset) (b : Board F) :
    Twins (fsm.sweep b) ((fsm.keeping old).sweep b) := by
  have collecting (currents : ThreePhase F) : Written (fsm.addSample currents).leftovers old
      (fsm.addSample currents) := ⟨written.gate, fun _ => base, written.noise⟩
  unfold sweep
  refine .ite (fun swept => ?_) (fun _ => .ite (fun _ => ?_) (fun _ => ⟨⟨rfl, collecting _⟩, rfl⟩))
  · have alike := finishPhaseAdcAlignment_alike written base swept
    exact ⟨alike, by rw [alike.same]; rfl⟩
  · have alike := advanceSweep_alike (collecting b.readIsr.1.rawPhaseCurrents) base
    refine ⟨alike, ?_⟩
    show Board.setAdcTriggerOffset (sweepTicks old.baseTriggerOffset _) _ = _
    rw [base]
    rfl

theorem enterSweep_first {fsm : HwStartup F} (first : (fsm.sweepPos = 0 && fsm.sampleCount = 0) = true)
    (b : Board F) : fsm.enterSweep b =
      ({ fsm with baseTriggerOffset := b.readIsr.1.adcTriggerOffset }, b.readIsr.2) :=
  if_pos first

theorem enterSweep_later {fsm : HwStartup F} (later : ¬(fsm.sweepPos = 0 && fsm.sampleCount = 0) = true)
    (b : Board F) : fsm.enterSweep b = (fsm, b) :=
  if_neg later

/-- Both runs take the trigger offset in force at the first sample of the sweep. -/
theorem runPhaseAdcAlignment_twins (written : Written fsm.leftovers old fsm)
    (state : fsm.state = .phaseAdcAlignment) (b : Board F) :
    Twins (fsm.runPhaseAdcAlignment b) ((fsm.keeping old).runPhaseAdcAlignment b) := by
  unfold runPhaseAdcAlignment
  refine .ite (fun _ => (continueWhenAsked_joined fsm old _).twins written) (fun _ => ?_)
  by_cases first : (fsm.sweepPos = 0 && fsm.sampleCount = 0) = true
  · rw [enterSweep_first first, enterSweep_first (by exact first)]
    generalize (injectAlphaCurrent b).readIsr = read
    have taken : Written { fsm with baseTriggerOffset := read.1.adcTriggerOffset }.leftovers
        { old with baseTriggerOffset := read.1.adcTriggerOffset }
        { fsm with baseTriggerOffset := read.1.adcTriggerOffset } :=
      ⟨written.gate, fun _ => rfl, written.noise⟩
    exact sweep_twins taken rfl read.2
  · rw [enterSweep_later first, enterSweep_later (by exact first)]
    refine sweep_twins written (written.base ?_) _
    by_cases position : fsm.sweepPos = 0
    · exact .inr ⟨state, fun none => first (by simp [position, none])⟩
    · exact .inl position

theorem runStep_twins (written : Written fsm.leftovers old fsm) (b : Board F) :
    Twins (fsm.runStep b) ((fsm.keeping old).runStep b) := by
  have stays (b : Board F) : Twins (fsm, b) (fsm.keeping old, b) := ⟨⟨rfl, written⟩, rfl⟩
  have there : (fsm.keeping old).state = fsm.state := rfl
  unfold runStep
  rw [there]
  cases state : fsm.state with
  | idle => exact stays b
  | pwmDisable => exact (runPwmDisable_joined fsm old b).twins written
  | adcOffsetCal =>
    exact (runCalibration_joined fsm old finishAdcOffsetCal (fun _ => rfl) (fun _ => ⟨rfl, rfl, rfl, id⟩)
      (by simp [state]) b).twins written
  | adcNoiseFloor =>
    exact (runCalibration_joined fsm old finishAdcNoiseFloor (fun _ => rfl) (fun _ => ⟨rfl, rfl, rfl, id⟩)
      (by simp [state]) b).twins written
  | dutyForceLow => exact (runDutyForce_joined fsm old (by simp [state]) _ b).twins written
  | dutyForceMid => exact (runDutyForce_joined fsm old (by simp [state]) _ b).twins written
  | dutyForceHigh => exact (runDutyForce_joined fsm old (by simp [state]) _ b).twins written
  | dcLinkVoltageCheck => exact (runDcLinkVoltageCheck_joined fsm old (by simp [state]) b).twins written
  | gateDriverEnableCheck => exact runGateDriverEnableCheck_twins written (by simp [state]) b
  | connectMotor => exact (runConnectMotorWait_joined fsm old b).twins written
  | phaseAdcAlignment => exact runPhaseAdcAlignment_twins written state b
  | currentSenseCalibration =>
    exact (runCurrentSenseCalibration_joined fsm old (by simp [state]) b).twins written
  | done => exact stays b
  | fault => exact stays b

theorem runOnce_twins (written : Written fsm.leftovers old fsm) (b : Board F) :
    Twins (fsm.runOnce b) ((fsm.keeping old).runOnce b) := by
  have stage (b : Board F) : (fsm.keeping old).stageLost b = fsm.stageLost b := rfl
  have measures (b : Board F) :
      Twins
        (if fsm.isActive then
          if fsm.checkMotorOc b.readIsr.1.rawPhaseCurrents then fsm.enterFault .overcurrent b.readIsr.2
          else fsm.runStep b.readIsr.2
        else fsm.runStep b)
        (if (fsm.keeping old).isActive then
          if (fsm.keeping old).checkMotorOc b.readIsr.1.rawPhaseCurrents then
            (fsm.keeping old).enterFault .overcurrent b.readIsr.2
          else (fsm.keeping old).runStep b.readIsr.2
        else (fsm.keeping old).runStep b) :=
    .ite (fun _ => .ite (fun _ => (enterFault_joined fsm old .overcurrent _).twins written)
      (fun _ => runStep_twins written _)) (fun _ => runStep_twins written _)
  unfold runOnce
  generalize b.takeSamplesReady = taken
  obtain ⟨ready, b⟩ := taken
  cases ready with
  | false => exact ⟨⟨rfl, written⟩, rfl⟩
  | true =>
    simp only [Bool.not_true, Bool.false_eq_true, ↓reduceIte, stage]
    generalize fsm.stageLost b = lost
    obtain ⟨lost, b⟩ := lost
    cases lost with
    | some reason => exact (enterFault_joined fsm old reason b).twins written
    | none => exact measures b

/-- What a request clears before it asks for the outputs. -/
def cleared (capabilities : HardwareCapabilities F) (fsm : HwStartup F) : HwStartup F :=
  { fsm with
    state := .idle, results := .empty, sampleCount := 0, sweepPos := 0, stepDone := false
    nextStepRequested := false, extCurrent := Scalar.zero, extVdc := Scalar.zero
    readingPrompted := false, completed := 0, fault := .none
    ocLimit := capabilities.maxPhaseCurrent * ocFraction }

theorem requestRun_inactive {fsm : HwStartup F} (inactive : ¬fsm.isActive = true) (b : Board F) :
    fsm.requestRun b =
      if !(prepareRun b).enable.1 then
        (.notReleased, fsm.cleared b.store.capabilities,
          (prepareRun b).enable.2.releaseForceDuty.record .startRefused)
      else
        (.started, { fsm.cleared b.store.capabilities with started := true }.transitionTo .pwmDisable,
          (prepareRun b).enable.2.record .runStarted) :=
  if_neg inactive

theorem cleared_written (gate : fsm.gatePhaseDisabled = false → old.gateMeanDisabled = fsm.gateMeanDisabled)
    (capabilities : HardwareCapabilities F) :
    Written (fsm.cleared capabilities).leftovers old (fsm.cleared capabilities) where
  gate := gate
  base sweeping := by simp [Sweeping, cleared] at sweeping
  noise i done := absurd done (Nat.not_lt_zero _)

theorem requestRun_twins (written : Written fsm.leftovers old fsm) (b : Board F) :
    ((fsm.keeping old).requestRun b).1 = (fsm.requestRun b).1 ∧
      Twins (fsm.requestRun b).2 ((fsm.keeping old).requestRun b).2 := by
  by_cases active : fsm.isActive = true
  · have again : (fsm.keeping old).isActive = true := active
    simp only [requestRun, active, again, ↓reduceIte, true_and]
    exact ⟨⟨rfl, written⟩, rfl⟩
  · have again : ¬(fsm.keeping old).isActive = true := active
    have inside := cleared_written written.gate b.store.capabilities
    rw [requestRun_inactive active, requestRun_inactive again]
    cases (prepareRun b).enable.1 with
    | false => exact ⟨rfl, ⟨rfl, inside⟩, rfl⟩
    | true =>
      exact ⟨rfl, ⟨rfl, inside.gate, fun sweeping => absurd sweeping (by simp [Sweeping, transitionTo, clearSamples, cleared]), inside.noise⟩, rfl⟩

theorem requestNextStep_alike (written : Written fsm.leftovers old fsm) (motorConnected : Bool) :
    ((fsm.keeping old).requestNextStep motorConnected).1 = (fsm.requestNextStep motorConnected).1 ∧
      Alike (fsm.requestNextStep motorConnected).2 ((fsm.keeping old).requestNextStep motorConnected).2 := by
  have active : (fsm.keeping old).isActive = fsm.isActive := rfl
  have needs : (fsm.keeping old).needs = fsm.needs := rfl
  have done : (fsm.keeping old).stepDone = fsm.stepDone := rfl
  unfold requestNextStep
  rw [active, needs, done]
  cases fsm.isActive <;> cases fsm.needs <;> cases motorConnected <;> cases fsm.stepDone <;>
    exact ⟨rfl, rfl, written.gate, written.base, written.noise⟩

theorem call_twins {first second : HwStartup F} (alike : Alike first second) (call : Call F) (b : Board F) :
    (second.call call b).1 = (first.call call b).1 ∧
      Twins (first.call call b).2 (second.call call b).2 := by
  obtain ⟨same, written⟩ := alike
  generalize second.leftovers = old at same written
  subst same
  cases call with
  | requestRun =>
    obtain ⟨answer, twins⟩ := requestRun_twins written b
    exact ⟨congrArg Answer.start answer, twins⟩
  | requestNextStep motorConnected =>
    obtain ⟨answer, alike⟩ := requestNextStep_alike written motorConnected
    exact ⟨congrArg Answer.next answer, alike, rfl⟩
  | requestAbort reason =>
    exact ⟨rfl, .ite (fun _ => ⟨⟨rfl, written⟩, rfl⟩)
      (fun _ => (enterFault_joined first old reason b).twins written)⟩
  | setExtCurrent current => exact ⟨rfl, ⟨⟨rfl, written.gate, written.base, written.noise⟩, rfl⟩⟩
  | setExtVdc voltage => exact ⟨rfl, ⟨⟨rfl, written.gate, written.base, written.noise⟩, rfl⟩⟩
  | runOnce => exact ⟨rfl, runOnce_twins written b⟩

/-- The gate-driver check starts in the same half, and its second half with the same mean. -/
structure SameGate (first second : HwStartup F) : Prop where
  half : second.gatePhaseDisabled = first.gatePhaseDisabled
  mean : first.gatePhaseDisabled = false → second.gateMeanDisabled = first.gateMeanDisabled

theorem started_inactive {b : Board F} (started : (fsm.requestRun b).1 = .started) :
    ¬fsm.isActive = true := by
  intro active
  simp [requestRun, active] at started

/-- Runs that start on one board are twins, whatever came before them. -/
theorem started_twins {first second : HwStartup F} (gate : SameGate first second) {b : Board F}
    (one : (first.requestRun b).1 = .started) (other : (second.requestRun b).1 = .started) :
    Twins (first.requestRun b).2 (second.requestRun b).2 := by
  have inside : Written (first.cleared b.store.capabilities).leftovers second.leftovers
      (first.cleared b.store.capabilities) := cleared_written gate.mean _
  have inactive := started_inactive one
  rw [requestRun_inactive inactive] at one ⊢
  rw [requestRun_inactive (started_inactive other)]
  cases released : (prepareRun b).enable.1 with
  | false => simp [released] at one
  | true =>
    refine ⟨⟨?_, inside.gate, fun sweeping => ?_, inside.noise⟩, rfl⟩
    · simp only [Bool.not_true, Bool.false_eq_true, ↓reduceIte, transitionTo, clearSamples, cleared,
        keeping, leftovers, gate.half]
    · simp [Sweeping, transitionTo, clearSamples, cleared] at sweeping

end HwStartup

/-- What a run shows of itself with a call. -/
def Moment.shown (moment : Moment F) : Answer × StartupStatus × StartupResults F :=
  (moment.answer, moment.after.status, moment.after.results)

namespace Session

open HwStartup

/-- The aid that a history leaves, on a board of its own. -/
def onward (s : Session F) (board : Board F) : Session F := ⟨s.fsm, board, []⟩

/-- The same run, for everything but what it has not read. -/
structure Matches (one other : Session F) : Prop where
  alike : Alike one.fsm other.fsm
  board : other.board = one.board
  shown : other.past.map Moment.shown = one.past.map Moment.shown

theorem shown_alike {first second : HwStartup F} (alike : Alike first second) :
    second.status = first.status ∧ second.results = first.results := by
  rw [alike.same]
  exact ⟨rfl, rfl⟩

theorem matches_next {one other : Session F} (matched : Matches one other) (step : Step F) :
    Matches (one.next step) (other.next step) := by
  obtain ⟨answer, alike, board⟩ := call_twins matched.alike step.call (step.meets one.board)
  unfold next
  rw [matched.board]
  refine ⟨alike, board, ?_⟩
  simp only [List.map_cons, matched.shown, Moment.shown, answer, shown_alike alike]

theorem matches_run {one other : Session F} (matched : Matches one other) (steps : List (Step F)) :
    Matches (one.run steps) (other.run steps) := by
  induction steps generalizing one other with
  | nil => exact matched
  | cons step rest ih => exact ih (matches_next matched step)

/-- The run that a history and a request on this board start, with its steps. -/
def runAfter (boardThen : Board F) (history : List (Step F)) (board : Board F) (steps : List (Step F)) :
    Session F :=
  (((start boardThen).run history).onward board).run (⟨id, .requestRun⟩ :: steps)

/-- Whatever two histories did, the runs that follow cannot be told apart as long as the
gate-driver check starts alike in both. -/
theorem runs_isolated (firstThen secondThen : Board F) (first second : List (Step F)) (board : Board F)
    (steps : List (Step F))
    (one : (((start firstThen).run first).fsm.requestRun board).1 = .started)
    (other : (((start secondThen).run second).fsm.requestRun board).1 = .started)
    (gate : SameGate ((start firstThen).run first).fsm ((start secondThen).run second).fsm) :
    (runAfter secondThen second board steps).board = (runAfter firstThen first board steps).board ∧
      (runAfter secondThen second board steps).past.map Moment.shown =
        (runAfter firstThen first board steps).past.map Moment.shown := by
  obtain ⟨alike, same⟩ := started_twins gate one other
  have started : Matches ((((start firstThen).run first).onward board).next ⟨id, .requestRun⟩)
      ((((start secondThen).run second).onward board).next ⟨id, .requestRun⟩) := by
    refine ⟨alike, same, ?_⟩
    have shown := shown_alike alike
    simp only [next, onward, HwStartup.call, List.map_cons, List.map_nil, Moment.shown, one, other,
      shown, id]
  have matched := matches_run started steps
  exact ⟨matched.board, matched.shown⟩

def shortRun : List (Step Binary32) :=
  [plain .requestRun, sample, plain (.setExtVdc 24.0), plain (.requestAbort .aborted)]

theorem runs_isolated_bench :
    (runAfter benchBoard shortRun benchBoard [sample]).board = (runAfter benchBoard [] benchBoard [sample]).board ∧
      (runAfter benchBoard shortRun benchBoard [sample]).past.map Moment.shown =
        (runAfter benchBoard [] benchBoard [sample]).past.map Moment.shown := by
  have half : ((start benchBoard).run shortRun).fsm.gatePhaseDisabled = true := by decide +kernel
  exact runs_isolated benchBoard benchBoard [] shortRun benchBoard [sample] (by decide)
    (by decide +kernel) ⟨half, fun second => by cases second⟩

section Bench

/-- A released controller without trips, as it is powered on. -/
structure BenchRuns (b : Board Binary32) : Prop where
  calm : b.interrupts = []
  released : b.stage.getState = .enabled
  hardware : b.isr.hardware = true
  current : b.isr.overcurrentTripped = false
  voltage : b.isr.overvoltageTripped = false
  calibration : b.isr.calibration = (CurrentControlIsr.powerOn : CurrentControlIsr Binary32).calibration
  overcurrentLimit : b.isr.overcurrentLimit = Scalar.infinity
  dcLinkTrip : b.isr.dcLinkTrip = Scalar.infinity
  dutyMin : b.isr.dutyMin = 0.05
  dutyMax : b.isr.dutyMax = 0.95

def benchLimit : Binary32 := (simCapabilities : HardwareCapabilities Binary32).maxPhaseCurrent * ocFraction

theorem quiet_within :
    let samples := CurrentControlIsr.calibrated quietSamples
      (CurrentControlIsr.powerOn : CurrentControlIsr Binary32).calibration
    (samples.overcurrent || samples.phaseCurrents.any fun currents => currents.exceeds Scalar.infinity) = false ∧
      samples.dcLink < Scalar.infinity := by
  decide +kernel

theorem BenchRuns.quiet {b : Board Binary32} (bench : BenchRuns b) :
    b.isr.onControlCycle quietSamples .zero =
      (false, (b.isr.takeInputs quietSamples).finishCycle .zero) := by
  have current : (b.isr.takeInputs quietSamples).overcurrent quietSamples = false := by
    simp only [CurrentControlIsr.overcurrent, CurrentControlIsr.takeInputs, bench.calibration,
      bench.overcurrentLimit, quiet_within.1, Bool.and_false]
  have voltage : (b.isr.takeInputs quietSamples).overvoltage quietSamples = false := by
    simp only [CurrentControlIsr.overvoltage, CurrentControlIsr.takeInputs, bench.calibration,
      bench.dcLinkTrip, quiet_within.2, decide_true, Bool.not_true, Bool.and_false]
  unfold CurrentControlIsr.onControlCycle
  rw [if_neg (by simp [bench.hardware])]
  simp only [current, Bool.or_false, Bool.false_or]
  rw [show CurrentControlIsr.overvoltage quietSamples _ = false from voltage]
  simp only [Bool.or_false]

theorem BenchRuns.cycle {b : Board Binary32} (bench : BenchRuns b) : (sample.meets b).preempt =
    { b with interrupts := [], isr := (b.isr.takeInputs quietSamples).finishCycle .zero } := by
  show Board.interrupt { b with interrupts := [] } (.controlCycle quietSamples .zero) = _
  unfold Board.interrupt
  dsimp only
  rw [bench.quiet]
  rfl

theorem bench_samples : Samples benchLimit BenchRuns sample := by
  refine ⟨rfl, fun b bench => ?_, fun b bench => ?_, fun b bench => ?_, fun b da db dc bench => ?_⟩
  · rw [bench.cycle]
    rfl
  · unfold taken
    rw [bench.cycle]
    refine ⟨rfl, bench.released, ?_⟩
    show quietSamples.phaseCurrents.back.exceeds benchLimit = false
    decide
  · unfold taken
    rw [bench.cycle]
    obtain ⟨calm, released, hardware, current, voltage, calibration, limit, trip, least, most⟩ := bench
    exact ⟨rfl, released, hardware, current, voltage, calibration, limit, trip, least, most⟩
  · obtain ⟨calm, released, hardware, current, voltage, calibration, limit, trip, least, most⟩ := bench
    unfold Board.forceDuty
    rw [preempt_calm calm]
    exact ⟨calm, released, hardware, current, voltage, calibration, limit, trip, least, most⟩

/-- A request on the bench, and the reading of the DC link. -/
def benchStart : List (Step Binary32) := [plain .requestRun, plain (.setExtVdc 24.0)]

theorem bench_released : (prepareRun benchBoard).enable.1 = true := by decide

def releasedBench : Board Binary32 := (prepareRun benchBoard).enable.2.record .runStarted

theorem releasedBench_runs : BenchRuns releasedBench := by
  constructor
  case calibration => rfl
  all_goals decide

theorem bench_start {fsm : HwStartup Binary32} (inactive : ¬fsm.isActive = true) :
    let after := (⟨fsm, benchBoard, []⟩ : Session Binary32).run benchStart
    (fsm.requestRun benchBoard).1 = .started ∧
      In benchLimit 24.0 BenchRuns fsm.gatePhaseDisabled false .pwmDisable after ∧
      after.fsm.stepDone = false ∧ after.fsm.sampleCount = 0 := by
  have request := requestRun_inactive inactive benchBoard
  rw [if_neg (by simp [bench_released])] at request
  simp only [benchStart, run, List.foldl_cons, List.foldl_nil, next, plain, HwStartup.call, id, request]
  exact ⟨trivial, ⟨rfl, rfl, rfl, rfl, rfl, releasedBench_runs⟩, rfl, rfl⟩

def beforeGate : List FsmState :=
  [.pwmDisable, .adcOffsetCal, .adcNoiseFloor, .dutyForceLow, .dutyForceMid, .dutyForceHigh,
    .dcLinkVoltageCheck]

theorem beforeGate_consecutive : Consecutive .pwmDisable beforeGate :=
  ⟨rfl, rfl, rfl, rfl, rfl, rfl, rfl, rfl, rfl, rfl, rfl, rfl, rfl, rfl, trivial⟩

theorem bench_gate {fsm : HwStartup Binary32} (inactive : ¬fsm.isActive = true) :
    let after := (⟨fsm, benchBoard, []⟩ : Session Binary32).run (benchStart ++ through sample beforeGate)
    In benchLimit 24.0 BenchRuns fsm.gatePhaseDisabled false .gateDriverEnableCheck after ∧
      after.fsm.stepDone = false ∧ after.fsm.sampleCount = 0 := by
  obtain ⟨-, inside, unmeasured, fresh⟩ := bench_start inactive
  rw [run_append]
  exact run_through bench_samples (by decide) (by decide) beforeGate_consecutive
    inside unmeasured fresh

theorem initial_inactive : ¬(initial : HwStartup Binary32).isActive = true := by decide

def aborted : List (Step Binary32) :=
  benchStart ++ through sample beforeGate ++ List.replicate nGate.toNat sample ++
    [plain (.requestAbort .aborted)]

theorem abort_leaves {s : Session Binary32}
    (inside : In benchLimit 24.0 BenchRuns false false .gateDriverEnableCheck s) :
    let after := s.run [plain (.requestAbort .aborted)]
    after.fsm.isActive = false ∧ after.fsm.gatePhaseDisabled = false := by
  have active : s.fsm.isActive = true := by
    rw [isActive, inside.state]
    rfl
  have stopped : s.fsm.requestAbort .aborted s.board = s.fsm.enterFault .aborted s.board := by
    unfold requestAbort
    rw [if_neg (by simp [active])]
  show (s.fsm.requestAbort .aborted s.board).1.isActive = false ∧
    (s.fsm.requestAbort .aborted s.board).1.gatePhaseDisabled = false
  rw [stopped]
  exact ⟨rfl, inside.half⟩

theorem aborted_leaves : ((start benchBoard).run aborted).fsm.isActive = false ∧
    ((start benchBoard).run aborted).fsm.gatePhaseDisabled = false := by
  obtain ⟨inside, unmeasured, fresh⟩ := bench_gate initial_inactive
  have second := run_firstHalf bench_samples inside unmeasured fresh
  unfold aborted
  rw [run_append, run_append]
  exact abort_leaves second

theorem BenchRuns.forced {b : Board Binary32} (bench : BenchRuns b) (da db dc : Binary32) :
    (b.forceDuty da db dc).isr.forcedDuties =
      ⟨Scalar.clamp da 0.05 0.95, Scalar.clamp db 0.05 0.95, Scalar.clamp dc 0.05 0.95⟩ := by
  simp only [Board.forceDuty, preempt_calm bench.calm, Board.record, CurrentControlIsr.forceDuty,
    bench.dutyMin, bench.dutyMax]

theorem runAfter_bench (boardThen : Board Binary32) (history steps : List (Step Binary32)) :
    runAfter boardThen history benchBoard (plain (.setExtVdc 24.0) :: (steps ++ [sample])) =
      ((⟨((start boardThen).run history).fsm, benchBoard, []⟩ : Session Binary32).run
        (benchStart ++ steps)).next sample :=
  run_append _ (benchStart ++ steps) [sample]

theorem gate_duties {boardThen : Board Binary32} {history : List (Step Binary32)}
    (inactive : ¬((start boardThen).run history).fsm.isActive = true) :
    (runAfter boardThen history benchBoard
        (plain (.setExtVdc 24.0) :: (through sample beforeGate ++ [sample]))).board.isr.forcedDuties =
      if ((start boardThen).run history).fsm.gatePhaseDisabled then ⟨0.5, 0.5, 0.5⟩
      else ⟨0.55, 0.45, 0.45⟩ := by
  obtain ⟨inside, unmeasured, fresh⟩ := bench_gate inactive
  rw [runAfter_bench]
  have bench := bench_samples.bench _ inside.board
  cases half : ((start boardThen).run history).fsm.gatePhaseDisabled with
  | true =>
    rw [half] at inside
    rw [(next_firstHalf bench_samples inside unmeasured).1, bench.forced]
    decide
  | false =>
    rw [half] at inside
    rw [next_secondHalf bench_samples inside unmeasured, bench.forced]
    decide

/-- The gate check of a run after an aborted one starts with the duties of its second half. -/
theorem second_half_inherited :
    let gate : List (Step Binary32) := plain (.setExtVdc 24.0) :: (through sample beforeGate ++ [sample])
    (((start benchBoard).run []).fsm.requestRun benchBoard).1 = .started ∧
      (((start benchBoard).run aborted).fsm.requestRun benchBoard).1 = .started ∧
      (runAfter benchBoard [] benchBoard gate).board.isr.forcedDuties = ⟨0.5, 0.5, 0.5⟩ ∧
      (runAfter benchBoard aborted benchBoard gate).board.isr.forcedDuties = ⟨0.55, 0.45, 0.45⟩ := by
  obtain ⟨ended, half⟩ := aborted_leaves
  have inactive : ¬((start benchBoard).run aborted).fsm.isActive = true := by
    rw [ended]
    exact Bool.false_ne_true
  refine ⟨(bench_start initial_inactive).1, (bench_start inactive).1, gate_duties initial_inactive, ?_⟩
  have duties := gate_duties inactive
  rwa [half] at duties

end Bench

end Session

end Unimoc.Startup
