import Unimoc.Startup.Calibration
import Unimoc.Startup.StepOrder

/-! The calibration a finished run commits, against the samples and the readings of the run. -/
namespace Unimoc.Startup

open CurrentControl Firmware Settings

section Commit

variable {F : Type} [Arithmetic F]

/-- The calibration a run hands to the settings at its end. -/
def committed (results : StartupResults F) : AdcCalibration F where
  offsetA := results.adcOffsetA
  offsetB := results.adcOffsetB
  offsetC := results.adcOffsetC
  gainA := HwStartup.correction results.gainA
  gainB := HwStartup.correction results.gainB
  gainC := HwStartup.correction results.gainC
  gainVdc := HwStartup.correction results.gainVdc

/-- The run has ended in `done`, and the settings have taken its calibration. -/
structure Commits (results : StartupResults F) (b : Board F) (after : HwStartup F × Board F) : Prop where
  kept : after.1.results = { results with currentState := .done }
  settings : after.2.store.settings = SettingsStore.withAdcCalibration (committed results) b.store.settings

theorem Commits.since {results : StartupResults F} {b c : Board F} {after : HwStartup F × Board F}
    (commits : Commits results c after) (undisturbed : Undisturbed b c) : Commits results b after := by
  constructor
  · exact commits.kept
  · rw [commits.settings, undisturbed.store]

theorem Undisturbed.disable (b : Board F) : Undisturbed b b.disable := (preempt b).trans ⟨rfl, rfl⟩

theorem Undisturbed.releaseForceDuty (b : Board F) : Undisturbed b b.releaseForceDuty :=
  (preempt b).trans ⟨rfl, rfl⟩

namespace HwStartup

variable {fsm : HwStartup F} {b : Board F}

theorem runDone_commits (ended : (fsm.runDone b).1.state = .done) : Commits fsm.results b (fsm.runDone b) := by
  have released := (Undisturbed.disable b).trans (.releaseForceDuty b.disable)
  unfold runDone at ended ⊢
  dsimp only at ended ⊢
  generalize b.disable.releaseForceDuty = off at released ended ⊢
  obtain taken | ⟨status, refused, unchanged⟩ :=
    off.store.commit_cases (SettingsStore.withAdcCalibration (committed fsm.results) off.store.settings)
  · have applied : off.store.applyAdcCalibration (committed fsm.results) = _ := taken
    unfold committed at applied
    rw [applied]
    constructor
    · rfl
    · rw [← released.store]
      rfl
  · have applied : off.store.applyAdcCalibration (committed fsm.results) = _ := unchanged
    unfold committed at applied
    rw [applied] at ended
    cases status with
    | success => exact absurd rfl refused
    | _ => cases ended

theorem continueWhenAsked_commits (last : fsm.state = .currentSenseCalibration)
    (ended : (fsm.continueWhenAsked b).1.state = .done) : Commits fsm.results b (fsm.continueWhenAsked b) := by
  unfold continueWhenAsked at ended ⊢
  split at ended
  · rename_i goesOn
    rw [if_pos goesOn]
    unfold advanceToNextState at ended ⊢
    have next : fsm.state.next = .done := by
      rw [last]
      rfl
    rw [if_pos next] at ended ⊢
    exact runDone_commits ended
  · exact absurd (last.symm.trans ended) nofun

theorem call_ended (call : Call F) (asked : fsm.Asked) (running : fsm.state ≠ .done)
    (ended : (fsm.call call b).2.1.state = .done) :
    call = .runOnce ∧ fsm.isActive = true ∧ fsm.nextStepRequested = true ∧ fsm.state.next = .done := by
  have moved := call_moved asked call b
  generalize (fsm.call call b).2.1 = after at moved ended
  generalize (fsm.call call b).1 = answer at moved
  cases moved with
  | stays _ _ state => exact absurd (state.symm.trans ended) running
  | accepted _ _ state => exact absurd (state.symm.trans ended) running
  | started _ state =>
    cases state.symm.trans ended
  | stopped _ _ state =>
    rcases state with state | ⟨-, state⟩
    · cases state.symm.trans ended
    · cases state.symm.trans ended
  | advanced sampled active requested state => exact ⟨sampled, active, requested, state.symm.trans ended⟩

theorem runOnce_commits (asked : fsm.Asked) (running : fsm.state ≠ .done)
    (ended : (fsm.runOnce b).1.state = .done) :
    fsm.state = .currentSenseCalibration ∧ fsm.stepDone = true ∧ Commits fsm.results b (fsm.runOnce b) := by
  obtain ⟨-, active, requested, last⟩ := call_ended .runOnce asked running ended
  have state := last_step active last
  have measured := asked requested
  refine ⟨state, measured, ?_⟩
  cases reached : fsm.reached b with
  | none =>
    rcases runOnce_unreached reached with waits | ⟨reason, board, halts⟩
    · rw [waits] at ended
      exact absurd ended running
    · rw [halts] at ended
      cases ended
  | some found =>
    have step : fsm.runStep found = fsm.continueWhenAsked (injectAlphaCurrent found) := by
      unfold runStep
      rw [state]
      unfold runCurrentSenseCalibration
      rw [if_pos measured]
    rw [runOnce_reached reached, step] at ended ⊢
    have injected := (reached_undisturbed reached).trans (.injectAlphaCurrent found)
    exact (continueWhenAsked_commits state ended).since injected

end HwStartup

/-- The calibration as the settings store it. -/
def stored (calibration : AdcCalibration F) : AdcCalibration F where
  offsetA := Arithmetic.ofReal32 (Arithmetic.toReal32 calibration.offsetA)
  offsetB := Arithmetic.ofReal32 (Arithmetic.toReal32 calibration.offsetB)
  offsetC := Arithmetic.ofReal32 (Arithmetic.toReal32 calibration.offsetC)
  gainA := Arithmetic.ofReal32 (Arithmetic.toReal32 calibration.gainA)
  gainB := Arithmetic.ofReal32 (Arithmetic.toReal32 calibration.gainB)
  gainC := Arithmetic.ofReal32 (Arithmetic.toReal32 calibration.gainC)
  gainVdc := Arithmetic.ofReal32 (Arithmetic.toReal32 calibration.gainVdc)

/-- The control cycle loads what was committed. -/
theorem calibrationOf_committed (calibration : AdcCalibration F) (settings : NvmSettings) :
    calibrationOf (SettingsStore.withAdcCalibration calibration settings) = stored calibration := rfl

/-- Every step of the run has passed. -/
def allPassed (results : StartupResults F) : Prop :=
  ∀ step : FsmState, step.active = true → results.passed.get step.index = true

end Commit

/-! ### The samples and what the instruments read -/

noncomputable section Exact

namespace Record

/-- A control cycle that samples the means of the run. -/
def means (r : Record ℝ) (overcurrent : Bool) : ControlCycleSamples ℝ where
  phaseCurrents := Vector.replicate numSubSteps
    ⟨meanOf (r.currents.map ThreePhase.a), meanOf (r.currents.map ThreePhase.b),
      meanOf (r.currents.map ThreePhase.c)⟩
  dcLink := meanOf r.voltages
  overcurrent := overcurrent

/-- The clamp meter is on phase A; half of its current comes back in B and C each. -/
def readings (r : Record ℝ) (overcurrent : Bool) : ControlCycleSamples ℝ where
  phaseCurrents := Vector.replicate numSubSteps
    ⟨r.currentReading, -r.currentReading * 0.5, -r.currentReading * 0.5⟩
  dcLink := r.voltageReading
  overcurrent := overcurrent

end Record

theorem PhaseGain.corrects {gain offset mean current : ℝ} (measured : PhaseGain gain offset mean current) :
    (mean - offset) * HwStartup.correction gain = current := by
  obtain ⟨above, gain_eq⟩ := measured
  have positive : (0 : ℝ) < gain := lt_trans (by norm_num) above
  have apart : (mean - offset) / current ≠ 0 := by
    rw [← gain_eq]
    exact ne_of_gt positive
  obtain ⟨signal, carried⟩ := div_ne_zero_iff.mp apart
  have inverse : HwStartup.correction gain = 1 / gain := by
    unfold HwStartup.correction
    rw [if_pos above]
    norm_num
  rw [inverse, gain_eq]
  field_simp

/-- The correction takes the mean samples of a run to its readings. -/
theorem calibrated_means {results : StartupResults ℝ} {r : Record ℝ} (voltage : VoltageGain results r)
    (current : PhaseGains results r) (passed : allPassed results) (overcurrent : Bool) :
    CurrentControlIsr.calibrated (r.means overcurrent) (committed results) = r.readings overcurrent := by
  obtain ⟨gainA, gainB, gainC⟩ := current.passed (passed .currentSenseCalibration rfl)
  have link : PhaseGain results.gainVdc 0 (meanOf r.voltages) r.voltageReading := by
    refine ⟨voltage.passed (passed .dcLinkVoltageCheck rfl), ?_⟩
    rw [sub_zero]
    exact voltage.gain
  have linkCorrects : meanOf r.voltages * HwStartup.correction results.gainVdc = r.voltageReading := by
    simpa using link.corrects
  have half (x : ℝ) : x * 0.5 = x / 2 := by norm_num [div_eq_mul_inv]
  unfold CurrentControlIsr.calibrated Record.means Record.readings committed
  simp only [Vector.map_replicate, gainA.corrects, gainB.corrects, gainC.corrects, linkCorrects, half]

/-! ### The end of a run -/

/-- If the step ends a run with every step of it passed, the settings take a calibration that corrects the
mean samples of the run to its readings. -/
def CommitsConsistently (s : Session ℝ) (r : Record ℝ) (last : Step ℝ) : Prop :=
  let after := s.next last
  let taken := r.next s last
  s.fsm.state ≠ .done → after.fsm.state = .done → allPassed after.fsm.results →
    taken.voltages.length = total ∧ taken.currents.length = total ∧
    after.board.store.settings = SettingsStore.withAdcCalibration (committed after.fsm.results)
      (last.meets s.board).store.settings ∧
    ∀ overcurrent, CurrentControlIsr.calibrated (taken.means overcurrent) (committed after.fsm.results) =
      taken.readings overcurrent

theorem Recorded.commitsConsistently {s : Session ℝ} {r : Record ℝ} (recorded : Recorded s.fsm r)
    (asked : s.fsm.Asked) (last : Step ℝ) : CommitsConsistently s r last := by
  obtain ⟨meets, call⟩ := last
  intro running ended passed
  obtain ⟨rfl, -⟩ := HwStartup.call_ended _ asked running ended
  obtain ⟨state, measured, commits⟩ := HwStartup.runOnce_commits asked running ended
  have same : r.next s ⟨meets, .runOnce⟩ = r := by
    unfold Record.next
    dsimp only
    split
    · exact Recorded.unsampled (.inl measured) _
    · rfl
  have results : (s.next ⟨meets, .runOnce⟩).fsm.results = { s.fsm.results with currentState := .done } :=
    commits.kept
  rw [same, results]
  rw [results] at passed
  cases recorded with
  | measured _ gain gains =>
    have corrected : ∀ overcurrent, CurrentControlIsr.calibrated (r.means overcurrent)
        (committed s.fsm.results) = r.readings overcurrent := calibrated_means gain gains passed
    exact ⟨gain.whole, gains.whole, commits.settings, corrected⟩
  | resting place => rcases place with place | place <;> cases state.symm.trans place
  | early _ early => exact absurd early (by rw [state]; decide)
  | voltage place => cases state.symm.trans place
  | between place => rcases place with ⟨place, -⟩ | place | place | place <;> cases state.symm.trans place
  | current _ unmeasured => cases measured.symm.trans unmeasured

theorem calibration_consistent (board : Board ℝ) (steps : List (Step ℝ)) (last : Step ℝ) :
    CommitsConsistently ((Session.start board).run steps) (Record.empty.after (.start board) steps) last := by
  have recorded : Recorded ((Session.start board).run steps).fsm (Record.empty.after (.start board) steps) :=
    Recorded.run (.resting (.inl rfl)) steps
  exact recorded.commitsConsistently ((Ordered.start board).run steps).asked last

end Exact

end Unimoc.Startup
