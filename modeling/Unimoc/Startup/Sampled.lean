import Unimoc.Startup.Session

/-! What one sample can do to a run of the startup aid. -/
namespace Unimoc.Startup

open CurrentControl Firmware

variable {F : Type} [Arithmetic F]

theorem next_index {state : FsmState} (active : state.active = true) :
    state.next.index.val = state.index.val + 1 := by
  cases state <;> first | rfl | exact absurd active (by decide)

namespace HwStartup

/-- The check of a step on the values it has measured; the steps that only force duties
have none. -/
def check (fsm : HwStartup F) : FsmState → Bool
  | .adcOffsetCal =>
    Scalar.abs fsm.results.adcOffsetA < offsetThreshold &&
      Scalar.abs fsm.results.adcOffsetB < offsetThreshold &&
      Scalar.abs fsm.results.adcOffsetC < offsetThreshold
  | .adcNoiseFloor =>
    fsm.results.adcNoiseRmsA < noiseThreshold && fsm.results.adcNoiseRmsB < noiseThreshold
  | .dcLinkVoltageCheck => Scalar.abs (fsm.results.gainVdc - 1.0) < vdcGainTolerance
  | .gateDriverEnableCheck =>
    (2.0 : F) * fsm.results.adcNoiseRmsA < Scalar.abs (fsm.gateMeanEnabled - fsm.gateMeanDisabled)
  | .phaseAdcAlignment =>
    (quietestPosition fsm.sweepNoiseA).2 < (2.0 : F) * fsm.results.adcNoiseRmsA
  | .currentSenseCalibration =>
    let within (gain : F) : Bool := 1e-4 < gain && Scalar.abs (gain - 1.0) < gainTolerance
    within fsm.results.gainA && within fsm.results.gainB && within fsm.results.gainC
  | _ => true

/-- A request waits for a measured step only. -/
def Asked (fsm : HwStartup F) : Prop := fsm.nextStepRequested = true → fsm.stepDone = true

/-- The step goes on; what earlier steps have measured stays. -/
structure Within (before after : HwStartup F) : Prop where
  state : after.state = before.state
  completed : after.completed = before.completed
  fault : after.fault = before.fault
  requested : after.nextStepRequested = before.nextStepRequested
  started : after.started = before.started
  checks : ∀ step : FsmState, step.index < before.state.index → after.check step = before.check step

/-- A measured step is over, as asked for. -/
structure Left (before after : HwStartup F) : Prop where
  active : before.isActive = true
  measured : before.stepDone = true
  asked : before.nextStepRequested = true
  unasked : after.nextStepRequested = false
  completed : after.completed = before.completed ||| bit before.state
  started : after.started = before.started
  passed : after.results.passed =
    if before.state = .pwmDisable then (before.results.pass .pwmDisable true).passed
    else before.results.passed
  checks : ∀ step, after.check step = before.check step

/-- The run stops where it is. -/
structure Stopped (before after : HwStartup F) : Prop where
  active : before.isActive = true
  state : after.state = .fault
  requested : after.nextStepRequested = before.nextStepRequested
  measured : after.stepDone = before.stepDone
  completed : after.completed = before.completed
  started : after.started = before.started
  passed : after.results.passed = before.results.passed
  checks : ∀ step : FsmState, step.index < before.state.index → after.check step = before.check step

inductive Sampled (before : HwStartup F) : HwStartup F → Prop
  | same : Sampled before before
  | working {after : HwStartup F} (unmeasured : before.stepDone = false)
      (still : after.stepDone = false) (within : Within before after)
      (passed : after.results.passed = before.results.passed) : Sampled before after
  | measured {after : HwStartup F} (unmeasured : before.stepDone = false)
      (done : after.stepDone = true) (within : Within before after)
      (passed : after.results.passed =
        if before.state = .pwmDisable then before.results.passed
        else (before.results.pass before.state (after.check before.state)).passed) :
      Sampled before after
  | barred {after : HwStartup F} (state : before.state = .connectMotor)
      (stopped : Stopped before after) : Sampled before after
  | advanced {after : HwStartup F} (left : Left before after) (goesOn : before.state.next ≠ .done)
      (state : after.state = before.state.next) (fresh : after.stepDone = false)
      (fault : after.fault = before.fault) : Sampled before after
  | ended {after : HwStartup F} (left : Left before after) (last : before.state.next = .done)
      (state : after.state = .done ∨ after.state = .fault) : Sampled before after

/-! ### The end of a step -/

section Steps

variable {fsm : HwStartup F}

theorem continueWhenAsked_unasked (unasked : fsm.nextStepRequested = false) (b : Board F) :
    fsm.continueWhenAsked b = (fsm, b) := by
  simp [continueWhenAsked, unasked]

theorem enterFault_stopped (active : fsm.isActive = true) (reason : StartupFault) (b : Board F) :
    Stopped fsm (fsm.enterFault reason b).1 :=
  ⟨active, rfl, rfl, rfl, rfl, rfl, rfl, fun step _ => by cases step <;> rfl⟩

/-- The verdicts a step leaves behind: `PWM_DISABLE` passes by being left. -/
def leavingVerdicts (fsm : HwStartup F) : Vector Bool numStartupSteps :=
  if fsm.state = .pwmDisable then (fsm.results.pass .pwmDisable true).passed else fsm.results.passed

theorem advanceToNextState_sampled (active : fsm.isActive = true) (measured : fsm.stepDone = true)
    (asked : fsm.nextStepRequested = true) (b : Board F) :
    Sampled fsm ({ fsm with
      results := { fsm.results with passed := fsm.leavingVerdicts } }.advanceToNextState b).1 := by
  unfold advanceToNextState
  dsimp only
  split
  · rename_i last
    unfold runDone
    dsimp only
    split
    · exact .ended ⟨active, measured, asked, rfl, rfl, rfl, rfl, fun step => by cases step <;> rfl⟩
        last (.inr rfl)
    · exact .ended ⟨active, measured, asked, rfl, rfl, rfl, rfl, fun step => by cases step <;> rfl⟩
        last (.inl rfl)
  · rename_i goesOn
    exact .advanced ⟨active, measured, asked, rfl, rfl, rfl, rfl, fun step => by cases step <;> rfl⟩
      goesOn rfl rfl rfl

theorem continueWhenAsked_sampled (active : fsm.isActive = true) (measured : fsm.stepDone = true)
    (checked : fsm.state ≠ .pwmDisable) (b : Board F) :
    Sampled fsm (fsm.continueWhenAsked b).1 := by
  unfold continueWhenAsked
  split
  · rename_i asked
    simp only [Bool.and_eq_true] at asked
    have advanced := advanceToNextState_sampled active measured asked.1.2 b
    simpa only [leavingVerdicts, checked, ↓reduceIte] using advanced
  · exact .same

/-! ### The steps -/

theorem Asked.unasked (asked : fsm.Asked) (unmeasured : fsm.stepDone = false) :
    fsm.nextStepRequested = false := by
  cases requested : fsm.nextStepRequested with
  | false => rfl
  | true => exact absurd (asked requested) (by simp [unmeasured])

theorem Within.trans {before between after : HwStartup F} (first : Within before between)
    (second : Within between after) : Within before after where
  state := second.state.trans first.state
  completed := second.completed.trans first.completed
  fault := second.fault.trans first.fault
  requested := second.requested.trans first.requested
  started := second.started.trans first.started
  checks step lower := (second.checks step (first.state ▸ lower)).trans (first.checks step lower)

theorem runPwmDisable_sampled (asked : fsm.Asked) (state : fsm.state = .pwmDisable) (b : Board F) :
    Sampled fsm (fsm.runPwmDisable b).1 := by
  have active : fsm.isActive = true := by simp [isActive, FsmState.active, state]
  cases measured : fsm.stepDone with
  | false =>
    have unasked := asked.unasked measured
    simp only [runPwmDisable, unasked, Bool.false_and, Bool.false_eq_true, ↓reduceIte]
    exact .measured measured rfl
      ⟨rfl, rfl, rfl, unasked.symm, rfl, fun step _ => by cases step <;> rfl⟩ (by simp [state])
  | true =>
    have done (results : StartupResults F) :
        { fsm with results := results } = { fsm with stepDone := true, results := results } := by
      rw [measured]
    simp only [runPwmDisable]
    split
    · rename_i going
      have leaving : fsm.leavingVerdicts = (fsm.results.pass .pwmDisable true).passed := if_pos state
      have advanced := advanceToNextState_sampled active measured
        (Bool.and_eq_true _ _ |>.mp going).1 (neutral b)
      rw [leaving, done] at advanced
      exact advanced
    · rw [← measured]
      exact .same

theorem collectSample_cases (samples : UInt32) (b : Board F) :
    ∃ all collecting b', fsm.collectSample samples b = (all, collecting, b') ∧
      Within fsm collecting ∧ collecting.stepDone = fsm.stepDone ∧
        collecting.results = fsm.results :=
  ⟨_, _, _, rfl, ⟨rfl, rfl, rfl, rfl, rfl, fun step _ => by cases step <;> rfl⟩, rfl, rfl⟩

theorem runCalibration_sampled (finish : HwStartup F → HwStartup F) (asked : fsm.Asked)
    (active : fsm.isActive = true) (checked : fsm.state ≠ .pwmDisable)
    (finishes : ∀ collecting : HwStartup F, collecting.state = fsm.state →
      (finish collecting).stepDone = true ∧ Within collecting (finish collecting) ∧
        (finish collecting).results.passed =
          (collecting.results.pass fsm.state ((finish collecting).check fsm.state)).passed)
    (b : Board F) : Sampled fsm (fsm.runCalibration finish b).1 := by
  unfold runCalibration
  dsimp only
  split
  · rename_i measured
    exact continueWhenAsked_sampled active measured checked _
  · rename_i unmeasured
    have unmeasured : fsm.stepDone = false := by simpa using unmeasured
    have unasked := asked.unasked unmeasured
    obtain ⟨all, collecting, b', collected, adding, still, kept⟩ := collectSample_cases nCal (neutral b)
    rw [collected]
    obtain ⟨done, finishing, passed⟩ := finishes collecting adding.state
    cases all with
    | true =>
      dsimp only
      rw [if_pos rfl, continueWhenAsked_unasked (finishing.requested.trans (adding.requested.trans unasked))]
      refine .measured unmeasured done (adding.trans finishing) ?_
      rw [passed, if_neg checked, kept]
    | false =>
      dsimp only
      rw [if_neg Bool.false_ne_true, continueWhenAsked_unasked (adding.requested.trans unasked)]
      exact .working unmeasured (still.trans unmeasured) adding (by rw [kept])

theorem runAdcOffsetCal_sampled (asked : fsm.Asked) (state : fsm.state = .adcOffsetCal) (b : Board F) :
    Sampled fsm (fsm.runAdcOffsetCal b).1 := by
  refine runCalibration_sampled finishAdcOffsetCal asked (by simp [isActive, FsmState.active, state])
    (by simp [state]) (fun collecting same =>
      ⟨rfl, ⟨rfl, rfl, rfl, rfl, rfl, fun step lower => ?_⟩, by rw [state]; rfl⟩) b
  rw [same, state] at lower
  cases step <;> first | rfl | exact absurd lower (by decide)

theorem runAdcNoiseFloor_sampled (asked : fsm.Asked) (state : fsm.state = .adcNoiseFloor) (b : Board F) :
    Sampled fsm (fsm.runAdcNoiseFloor b).1 := by
  refine runCalibration_sampled finishAdcNoiseFloor asked (by simp [isActive, FsmState.active, state])
    (by simp [state]) (fun collecting same =>
      ⟨rfl, ⟨rfl, rfl, rfl, rfl, rfl, fun step lower => ?_⟩, by rw [state]; rfl⟩) b
  rw [same, state] at lower
  cases step <;> first | rfl | exact absurd lower (by decide)

theorem runDutyForce_sampled (asked : fsm.Asked)
    (state : fsm.state = .dutyForceLow ∨ fsm.state = .dutyForceMid ∨ fsm.state = .dutyForceHigh)
    (duty : F) (b : Board F) : Sampled fsm (fsm.runDutyForce duty b).1 := by
  have active : fsm.isActive = true := by
    rcases state with state | state | state <;> simp [isActive, FsmState.active, state]
  have checked : fsm.state ≠ .pwmDisable := by
    rcases state with state | state | state <;> simp [state]
  unfold runDutyForce
  dsimp only
  split
  · rename_i measured
    exact continueWhenAsked_sampled active measured checked _
  · rename_i unmeasured
    have unmeasured : fsm.stepDone = false := by simpa using unmeasured
    have unasked := asked.unasked unmeasured
    split
    · exact .working unmeasured unmeasured
        ⟨rfl, rfl, rfl, rfl, rfl, fun step _ => by cases step <;> rfl⟩ rfl
    · rw [continueWhenAsked_unasked (by exact unasked)]
      refine .measured unmeasured rfl
        ⟨rfl, rfl, rfl, rfl, rfl, fun step _ => by cases step <;> rfl⟩ ?_
      rw [if_neg checked]
      rcases state with state | state | state <;> rw [state] <;> rfl

theorem Sampled.after_working {before between after : HwStartup F}
    (unmeasured : before.stepDone = false) (still : between.stepDone = false)
    (within : Within before between) (passed : between.results.passed = before.results.passed)
    (sampled : Sampled between after) : Sampled before after := by
  cases sampled with
  | same => exact .working unmeasured still within passed
  | working _ done next kept => exact .working unmeasured done (within.trans next) (kept.trans passed)
  | measured _ done next verdict =>
    refine .measured unmeasured done (within.trans next) (verdict.trans ?_)
    rw [within.state]
    simp only [StartupResults.pass, passed]
  | barred state stopped =>
    exact .barred (within.state ▸ state)
      { active := by simpa [isActive, within.state] using stopped.active
        state := stopped.state
        requested := stopped.requested.trans within.requested
        measured := stopped.measured.trans (still.trans unmeasured.symm)
        completed := stopped.completed.trans within.completed
        started := stopped.started.trans within.started
        passed := stopped.passed.trans passed
        checks := fun step lower =>
          (stopped.checks step (within.state ▸ lower)).trans (within.checks step lower) }
  | advanced left => exact absurd left.measured (by simp [still])
  | ended left => exact absurd left.measured (by simp [still])

theorem evaluateDcLink_sampled (unmeasured : fsm.stepDone = false)
    (state : fsm.state = .dcLinkVoltageCheck) : Sampled fsm fsm.evaluateDcLink := by
  unfold evaluateDcLink
  dsimp only
  split
  · refine .measured unmeasured rfl ⟨rfl, rfl, rfl, rfl, rfl, fun step lower => ?_⟩ ?_
    · rw [state] at lower
      cases step <;> first | rfl | exact absurd lower (by decide)
    · rw [state]
      rfl
  · split
    · exact .working unmeasured unmeasured
        ⟨rfl, rfl, rfl, rfl, rfl, fun step _ => by cases step <;> rfl⟩ rfl
    · exact .same

theorem runDcLinkVoltageCheck_sampled (state : fsm.state = .dcLinkVoltageCheck)
    (b : Board F) : Sampled fsm (fsm.runDcLinkVoltageCheck b).1 := by
  unfold runDcLinkVoltageCheck
  dsimp only
  split
  · rename_i measured
    exact continueWhenAsked_sampled (by simp [isActive, FsmState.active, state]) measured
      (by simp [state]) _
  · rename_i unmeasured
    have unmeasured : fsm.stepDone = false := by simpa using unmeasured
    split
    · generalize (neutral b).readIsr.1.rawVdc = rawVdc
      have adding : Within fsm
          { fsm with
            accumA := fsm.accumA + Arithmetic.widen rawVdc, sampleCount := fsm.sampleCount + 1 } :=
        ⟨rfl, rfl, rfl, rfl, rfl, fun step _ => by cases step <;> rfl⟩
      split
      · exact .working unmeasured unmeasured adding rfl
      · exact .after_working unmeasured (by exact unmeasured) adding rfl
          (evaluateDcLink_sampled (by exact unmeasured) state)
    · exact evaluateDcLink_sampled unmeasured state

theorem finishGateDriverEnableCheck_sampled (unmeasured : fsm.stepDone = false)
    (state : fsm.state = .gateDriverEnableCheck) : Sampled fsm fsm.finishGateDriverEnableCheck := by
  refine .measured unmeasured rfl ⟨rfl, rfl, rfl, rfl, rfl, fun step lower => ?_⟩ ?_
  · rw [state] at lower
    cases step <;> first | rfl | exact absurd lower (by decide)
  · rw [state]
    rfl

theorem runGateDriverEnableCheck_sampled (state : fsm.state = .gateDriverEnableCheck) (b : Board F) :
    Sampled fsm (fsm.runGateDriverEnableCheck b).1 := by
  unfold runGateDriverEnableCheck
  split
  · rename_i measured
    exact continueWhenAsked_sampled (by simp [isActive, FsmState.active, state]) measured
      (by simp [state]) _
  · rename_i unmeasured
    have unmeasured : fsm.stepDone = false := by simpa using unmeasured
    split
    · obtain ⟨all, collecting, b', collected, adding, still, kept⟩ :=
        collectSample_cases nGate (neutral b)
      rw [collected]
      refine .after_working unmeasured (still.trans unmeasured) adding (by rw [kept]) ?_
      cases all with
      | true =>
        refine .working (still.trans unmeasured) (still.trans unmeasured)
          ⟨rfl, rfl, rfl, rfl, rfl, fun step lower => ?_⟩ rfl
        rw [adding.state, state] at lower
        cases step <;> first | rfl | exact absurd lower (by decide)
      | false => exact .same
    · obtain ⟨all, collecting, b', collected, adding, still, kept⟩ :=
        collectSample_cases nGate (b.forceDuty 0.55 0.45 0.45)
      rw [collected]
      refine .after_working unmeasured (still.trans unmeasured) adding (by rw [kept]) ?_
      cases all with
      | true =>
        exact finishGateDriverEnableCheck_sampled (still.trans unmeasured) (adding.state.trans state)
      | false => exact .same

theorem enterBarrier_cases (state : fsm.state = .connectMotor) (b : Board F) :
    ∃ b', (fsm.stepDone = true ∧ fsm.enterBarrier b = (fsm, b')) ∨
      ∃ after, fsm.stepDone = false ∧ fsm.enterBarrier b = (after, b') ∧ after.stepDone = true ∧
        Within fsm after ∧ after.results.passed = (fsm.results.pass fsm.state true).passed := by
  unfold enterBarrier
  cases measured : fsm.stepDone with
  | true => exact ⟨_, .inl ⟨rfl, rfl⟩⟩
  | false =>
    exact ⟨_, .inr ⟨_, rfl, rfl, rfl, ⟨rfl, rfl, rfl, rfl, rfl, fun step _ => by cases step <;> rfl⟩,
      by rw [state]⟩⟩

theorem releaseMotor_sampled (measured : fsm.stepDone = true) (asked : fsm.nextStepRequested = true)
    (state : fsm.state = .connectMotor) (b : Board F) : Sampled fsm (fsm.releaseMotor b).1 := by
  have active : fsm.isActive = true := by simp [isActive, FsmState.active, state]
  have ends (released : Bool) (b : Board F) :
      Sampled fsm (if !released then fsm.enterFault .enableLost b
        else fsm.advanceToNextState (b.record .motorReleased)).1 := by
    cases released with
    | false => exact .barred state (enterFault_stopped active _ _)
    | true =>
      have leaving : fsm.leavingVerdicts = fsm.results.passed := if_neg (by simp [state])
      have advanced := advanceToNextState_sampled active measured asked (b.record .motorReleased)
      rwa [leaving] at advanced
  exact ends _ _

theorem runConnectMotorWait_sampled (asked : fsm.Asked) (state : fsm.state = .connectMotor)
    (b : Board F) : Sampled fsm (fsm.runConnectMotorWait b).1 := by
  unfold runConnectMotorWait
  obtain ⟨b', ⟨measured, entered⟩ | ⟨after, unmeasured, entered, done, entering, passed⟩⟩ :=
    enterBarrier_cases state (neutral b)
  · rw [entered]
    dsimp only
    split
    · rename_i going
      simp only [Bool.and_eq_true] at going
      exact releaseMotor_sampled measured going.1.2 state b'
    · exact .same
  · rw [entered]
    have unasked := entering.requested.trans (asked.unasked unmeasured)
    simp only [unasked, Bool.and_false, Bool.false_and, Bool.false_eq_true, ↓reduceIte]
    refine .measured unmeasured done entering ?_
    rw [passed, state]
    rfl

theorem finishPhaseAdcAlignment_sampled (unmeasured : fsm.stepDone = false)
    (state : fsm.state = .phaseAdcAlignment) : Sampled fsm fsm.finishPhaseAdcAlignment := by
  refine .measured unmeasured rfl
    ⟨rfl, rfl, rfl, rfl, rfl, fun step _ => by cases step <;> rfl⟩ ?_
  rw [state]
  rfl

theorem enterSweep_cases (b : Board F) :
    ∃ after b', fsm.enterSweep b = (after, b') ∧ Within fsm after ∧ after.stepDone = fsm.stepDone ∧
      after.results = fsm.results := by
  unfold enterSweep
  split
  · exact ⟨_, _, rfl, ⟨rfl, rfl, rfl, rfl, rfl, fun step _ => by cases step <;> rfl⟩, rfl, rfl⟩
  · exact ⟨_, _, rfl, ⟨rfl, rfl, rfl, rfl, rfl, fun _ _ => rfl⟩, rfl, rfl⟩

theorem sweep_sampled (unmeasured : fsm.stepDone = false) (state : fsm.state = .phaseAdcAlignment)
    (b : Board F) : Sampled fsm (fsm.sweep b).1 := by
  unfold sweep
  split
  · exact finishPhaseAdcAlignment_sampled unmeasured state
  · obtain ⟨all, collecting, b', collected, adding, still, kept⟩ :=
      collectSample_cases nAlignSamples b
    rw [collected]
    refine .after_working unmeasured (still.trans unmeasured) adding (by rw [kept]) ?_
    cases all with
    | true =>
      refine .working (still.trans unmeasured) (still.trans unmeasured)
        ⟨rfl, rfl, rfl, rfl, rfl, fun step lower => ?_⟩ rfl
      rw [adding.state, state] at lower
      cases step <;> first | rfl | exact absurd lower (by decide)
    | false => exact .same

theorem runPhaseAdcAlignment_sampled (state : fsm.state = .phaseAdcAlignment) (b : Board F) :
    Sampled fsm (fsm.runPhaseAdcAlignment b).1 := by
  unfold runPhaseAdcAlignment
  dsimp only
  split
  · rename_i measured
    exact continueWhenAsked_sampled (by simp [isActive, FsmState.active, state]) measured
      (by simp [state]) _
  · rename_i unmeasured
    have unmeasured : fsm.stepDone = false := by simpa using unmeasured
    obtain ⟨after, b', entered, entering, still, kept⟩ := enterSweep_cases (injectAlphaCurrent b)
    rw [entered]
    exact .after_working unmeasured (still.trans unmeasured) entering (by rw [kept])
      (sweep_sampled (still.trans unmeasured) (entering.state.trans state) b')

theorem awaitReading_sampled (asked : fsm.Asked) (unmeasured : fsm.stepDone = false)
    (state : fsm.state = .currentSenseCalibration) (b : Board F) :
    Sampled fsm (fsm.awaitReading b).1 := by
  unfold awaitReading
  split
  · exact .working unmeasured unmeasured
      ⟨rfl, rfl, rfl, rfl, rfl, fun step _ => by cases step <;> rfl⟩ rfl
  · rw [continueWhenAsked_unasked (by exact asked.unasked unmeasured)]
    refine .measured unmeasured rfl ⟨rfl, rfl, rfl, rfl, rfl, fun step lower => ?_⟩ ?_
    · rw [state] at lower
      cases step <;> first | rfl | exact absurd lower (by decide)
    · rw [state]
      rfl

theorem runCurrentSenseCalibration_sampled (asked : fsm.Asked)
    (state : fsm.state = .currentSenseCalibration) (b : Board F) :
    Sampled fsm (fsm.runCurrentSenseCalibration b).1 := by
  unfold runCurrentSenseCalibration
  dsimp only
  split
  · rename_i measured
    exact continueWhenAsked_sampled (by simp [isActive, FsmState.active, state]) measured
      (by simp [state]) _
  · rename_i unmeasured
    have unmeasured : fsm.stepDone = false := by simpa using unmeasured
    split
    · obtain ⟨all, collecting, b', collected, adding, still, kept⟩ :=
        collectSample_cases nCal (injectAlphaCurrent b)
      rw [collected]
      refine .after_working unmeasured (still.trans unmeasured) adding (by rw [kept]) ?_
      cases all with
      | true =>
        refine awaitReading_sampled (fun requested => ?_) (still.trans unmeasured)
          (adding.state.trans state) b'
        exact still.trans (asked (adding.requested ▸ requested))
      | false => exact .same
    · exact awaitReading_sampled asked unmeasured state _

end Steps

theorem runStep_sampled {fsm : HwStartup F} (asked : fsm.Asked) (b : Board F) :
    Sampled fsm (fsm.runStep b).1 := by
  unfold runStep
  cases state : fsm.state with
  | idle => exact .same
  | pwmDisable => exact runPwmDisable_sampled asked state b
  | adcOffsetCal => exact runAdcOffsetCal_sampled asked state b
  | adcNoiseFloor => exact runAdcNoiseFloor_sampled asked state b
  | dutyForceLow => exact runDutyForce_sampled asked (.inl state) _ b
  | dutyForceMid => exact runDutyForce_sampled asked (.inr (.inl state)) _ b
  | dutyForceHigh => exact runDutyForce_sampled asked (.inr (.inr state)) _ b
  | dcLinkVoltageCheck => exact runDcLinkVoltageCheck_sampled state b
  | gateDriverEnableCheck => exact runGateDriverEnableCheck_sampled state b
  | connectMotor => exact runConnectMotorWait_sampled asked state b
  | phaseAdcAlignment => exact runPhaseAdcAlignment_sampled state b
  | currentSenseCalibration => exact runCurrentSenseCalibration_sampled asked state b
  | done => exact .same
  | fault => exact .same

theorem stageLost_active {fsm : HwStartup F} {b : Board F} {reason : StartupFault}
    (lost : (fsm.stageLost b).1 = some reason) : fsm.isActive = true := by
  unfold stageLost at lost
  split at lost
  · rename_i running
    exact (Bool.and_eq_true _ _ |>.mp running).1
  · cases lost

/-- A sample that finds the stage lost or a current above the limit ends the run. -/
def halts (fsm : HwStartup F) (b : Board F) : Bool :=
  let (ready, b) := b.takeSamplesReady
  let (lost, b) := fsm.stageLost b
  ready && (lost.isSome || fsm.isActive && fsm.checkMotorOc b.readIsr.1.rawPhaseCurrents)

theorem runOnce_sampled {fsm : HwStartup F} (asked : fsm.Asked) (b : Board F) :
    fsm.halts b = true ∧ Stopped fsm (fsm.runOnce b).1 ∨ Sampled fsm (fsm.runOnce b).1 := by
  unfold runOnce halts
  dsimp only
  cases b.takeSamplesReady.1 with
  | false => exact .inr .same
  | true =>
    rw [if_neg (by decide)]
    split
    · rename_i lost
      exact .inl ⟨by simp [lost], enterFault_stopped (stageLost_active lost) _ _⟩
    · split
      · rename_i active
        split
        · rename_i exceeded
          exact .inl ⟨by simp [active, exceeded], enterFault_stopped active _ _⟩
        · exact .inr (runStep_sampled asked _)
      · exact .inr (runStep_sampled asked _)

end HwStartup

end Unimoc.Startup
