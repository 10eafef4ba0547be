import Unimoc.Settings.ExactValidation
import Unimoc.Startup.PassingSteps

/-! A run on the bench passes every step and commits its calibration. -/
namespace Unimoc.Startup

open CurrentControl Firmware Settings

noncomputable section

namespace Passing

open HwStartup

variable {m : Meters} {on : Bool} {b : Board ℝ} {fsm : HwStartup ℝ} {s : Session ℝ} {state : FsmState}

/-! ### The calibration at the end -/

theorem default_finite (r : Register) : (NvmSettings.default.real r : Binary32).isFinite = true := by
  cases r <;> decide

section Calibration

variable {F : Type} [Arithmetic F] {calibration : AdcCalibration F} {settings : NvmSettings}

/-- A calibration that reads as the one before leaves the validation as it is. -/
theorem validate_calibrated
    (same : calibrationOf (SettingsStore.withAdcCalibration calibration settings) =
      (calibrationOf settings : AdcCalibration F)) (limits : HardwareCapabilities F) :
    validate (SettingsStore.withAdcCalibration calibration settings) limits = validate settings limits := by
  have registers (r : Register) : r ∈ SettingsStore.adcRegisters ∨
      SettingsStore.withAdcCalibration calibration settings r = settings r := by
    by_cases loaded : r ∈ SettingsStore.adcRegisters
    · exact .inl loaded
    · exact .inr (SettingsStore.withAdcCalibration_other calibration settings loaded)
  simp only [SettingsStore.adcRegisters, List.mem_cons, List.not_mem_nil, or_false] at registers
  refine validate_congr (fun r => ?_) (fun r => ?_) (fun r => ?_) limits
  · rcases registers r with (rfl | rfl | rfl | rfl | rfl | rfl | rfl) | kept
    · exact congrArg AdcCalibration.offsetA same
    · exact congrArg AdcCalibration.offsetB same
    · exact congrArg AdcCalibration.offsetC same
    · exact congrArg AdcCalibration.gainA same
    · exact congrArg AdcCalibration.gainB same
    · exact congrArg AdcCalibration.gainC same
    · exact congrArg AdcCalibration.gainVdc same
    · exact NvmSettings.real_congr kept
  · rcases registers r with loaded | kept
    · rcases loaded with rfl | rfl | rfl | rfl | rfl | rfl | rfl <;> rfl
    · unfold NvmSettings.natural8
      rw [kept]
  · rcases registers r with loaded | kept
    · rcases loaded with rfl | rfl | rfl | rfl | rfl | rfl | rfl <;> rfl
    · unfold NvmSettings.natural16
      rw [kept]

end Calibration

theorem zero_stored : (Binary32.ofBits (NvmSettings.pattern 0.0).toNat).value = 0 :=
  (@Stands.literal 0 _ 0 0 (by decide) (by norm_num)).value

theorem one_stored : (Binary32.ofBits (NvmSettings.pattern 1.0).toNat).value = 1 :=
  (@Stands.literal 1 _ 8388608 (-23) (by decide) (by norm_num)).value

/-- The calibration the bench measures is that of the settings. -/
theorem commits (calibration : AdcCalibration ℝ) (offsetA : calibration.offsetA = 0)
    (offsetB : calibration.offsetB = 0) (offsetC : calibration.offsetC = 0) (gainA : calibration.gainA = 1)
    (gainB : calibration.gainB = 1) (gainC : calibration.gainC = 1) (gainVdc : calibration.gainVdc = 1) :
    (store.applyAdcCalibration calibration).1 = .success := by
  have zero {x : ℝ} (measured : x = 0) : (Arithmetic.ofReal32 (Arithmetic.toReal32 x) : ℝ) =
      Arithmetic.ofReal32 (NvmSettings.pattern 0.0) := by
    rw [measured]
    exact (nearestReal32_value zero_stored).trans zero_stored.symm
  have one {x : ℝ} (measured : x = 1) : (Arithmetic.ofReal32 (Arithmetic.toReal32 x) : ℝ) =
      Arithmetic.ofReal32 (NvmSettings.pattern 1.0) := by
    rw [measured]
    exact (nearestReal32_value one_stored).trans one_stored.symm
  have same : calibrationOf (SettingsStore.withAdcCalibration calibration NvmSettings.default) =
      (calibrationOf NvmSettings.default : AdcCalibration ℝ) := by
    rw [calibrationOf_committed]
    unfold stored
    rw [zero offsetA, zero offsetB, zero offsetC, one gainA, one gainB, one gainC, one gainVdc]
    rfl
  have accepted : validate NvmSettings.default simCapabilities = .success := by decide
  have stand : StandLimits capabilities simCapabilities := by
    refine ⟨?_, ?_, ?_, ?_, ?_⟩
    · exact @Stands.literal _ _ 15728640 (-18) (by decide) (by norm_num [capabilities])
    · exact @Stands.literal _ _ 13107200 (-18) (by decide) (by norm_num [capabilities])
    · exact @Stands.literal _ _ 13107200 (-18) (by decide) (by norm_num [capabilities])
    · exact @Stands.literal _ _ 10485760 (-19) (by decide) (by norm_num [capabilities])
    · exact @Stands.literal _ _ 15728640 (-18) (by decide) (by norm_num [capabilities])
  have valid : validate (SettingsStore.withAdcCalibration calibration NvmSettings.default) capabilities = .success := by
    rw [validate_calibrated same, validate_value default_finite stand, accepted]
  show (store.commit (SettingsStore.withAdcCalibration calibration NvmSettings.default)).1 = .success
  unfold SettingsStore.commit
  rw [show store.capabilities = capabilities from rfl, valid]

theorem correction_one {gain : ℝ} (one : gain = 1) : HwStartup.correction gain = 1 := by
  unfold HwStartup.correction
  rw [one, if_pos (by norm_num)]
  norm_num

theorem Measured.ends (measured : Measured m .currentSenseCalibration fsm) (bench : Bench on b) :
    ((asking fsm).advanceToNextState b).1.state = .done ∧
      ((asking fsm).advanceToNextState b).1.results.passed = fsm.results.passed := by
  have good := measured.good
  have off : b.disable.releaseForceDuty.store = store :=
    ((Undisturbed.disable b).trans (.releaseForceDuty b.disable)).store.trans bench.store
  have taken : (b.disable.releaseForceDuty.store.applyAdcCalibration (committed fsm.results)).1 = .success := by
    rw [off]
    exact commits _ good.offsetA good.offsetB good.offsetC (correction_one good.gainA) (correction_one good.gainB)
      (correction_one good.gainC) (correction_one good.gainVdc)
  have last : (asking fsm).state.next = .done := by
    show fsm.state.next = .done
    rw [measured.state]
    rfl
  obtain ⟨after, applied⟩ : ∃ after,
      b.disable.releaseForceDuty.store.applyAdcCalibration (committed (asking fsm).results) = (.success, after) :=
    ⟨_, Prod.ext taken rfl⟩
  unfold advanceToNextState
  dsimp only
  rw [if_pos last]
  unfold runDone
  dsimp only
  unfold committed at applied
  rw [applied]
  exact ⟨rfl, rfl⟩

/-- The run ends with every step of it passed. -/
theorem At.ended (place : At true fsm s) (measured : Measured m .currentSenseCalibration fsm)
    (reading : fsm.extCurrent = m.current) :
    let before := s.next ⟨id, .requestNextStep false⟩
    before.fsm.state ≠ .done ∧ (before.next (sampling m .zero)).fsm.state = .done ∧
      allPassed (before.next (sampling m .zero)).fsm.results := by
  have asked : At true (asking fsm) (s.next ⟨id, .requestNextStep false⟩) :=
    place.asked measured.state rfl measured.measured
  have running : Runs true (asking fsm) := by
    refine ⟨?_, measured.limit, .inr rfl⟩
    show fsm.state.active = true
    rw [measured.state]
    rfl
  have valid : (asking fsm).validateCurrentState = true := by
    have read : (asking fsm).extCurrent = m.current := reading
    have here : (asking fsm).state = .currentSenseCalibration := measured.state
    unfold validateCurrentState
    rw [here, read, if_neg (fun low => m.readable low.2), if_neg (fun other => by cases other.1)]
  have working (b : Board ℝ) : (asking fsm).runStep b = (asking fsm).advanceToNextState (injectAlphaCurrent b) := by
    have done : (asking fsm).stepDone = true := measured.measured
    have step : (asking fsm).runStep b = (asking fsm).runCurrentSenseCalibration b := by
      unfold runStep
      rw [show (asking fsm).state = .currentSenseCalibration from measured.state]
    rw [step]
    unfold runCurrentSenseCalibration continueWhenAsked
    rw [if_pos done, valid, done]
    rfl
  dsimp only
  generalize s.next ⟨id, .requestNextStep false⟩ = before at asked ⊢
  obtain ⟨same, bench⟩ := asked
  have finds := bench.found m small_zero
  have ran : (before.next (sampling m .zero)).fsm =
      (before.fsm.runOnce ((sampling m .zero).meets before.board)).1 := rfl
  rw [same, runOnce_found m bench small_zero running, working] at ran
  have injected : Bench true (injectAlphaCurrent (found m .zero before.board)) := (finds.forceDuty _ _ _).toBench
  obtain ⟨ended, passed⟩ := measured.ends injected
  refine ⟨?_, ?_, ?_⟩
  · rw [same]
    show fsm.state ≠ .done
    rw [measured.state]
    decide
  · rw [ran]
    exact ended
  · intro step active
    rw [ran, passed]
    refine measured.good.passed step active ?_
    cases step <;> first | exact absurd active (by decide) | decide

/-! ### The whole run -/

def noisy : ThreePhase ℝ := ⟨0.05, 0.05, 0.0⟩

def opposite : ThreePhase ℝ := ⟨-0.05, -0.05, 0.0⟩

theorem small_noisy : Small noisy ∧ Small opposite := by
  have positive : |(0.05 : ℝ)| ≤ 6.0 := by norm_num
  have negative : |(-0.05 : ℝ)| ≤ 6.0 := by norm_num [abs_of_pos]
  have zero : |(0.0 : ℝ)| ≤ 6.0 := by norm_num
  exact ⟨⟨positive, positive, zero⟩, negative, negative, zero⟩

/-- The samples of a step. -/
def measures (m : Meters) : FsmState → List (Step ℝ)
  | .pwmDisable | .connectMotor => [sampling m .zero]
  | .adcOffsetCal => halves m .zero .zero
  | .adcNoiseFloor => halves m noisy opposite
  | .dutyForceLow | .dutyForceMid | .dutyForceHigh => List.replicate (holdSamples.toNat + 1) (sampling m .zero)
  | .dcLinkVoltageCheck => List.replicate nCal.toNat (sampling m .zero)
  | .gateDriverEnableCheck =>
    List.replicate nGate.toNat (sampling m .zero) ++ List.replicate nGate.toNat (sampling m m.driven)
  | .phaseAdcAlignment => List.replicate (nSweepSteps * 256 + 1) (sampling m .zero)
  | .currentSenseCalibration => ⟨id, .setExtCurrent m.current⟩ :: List.replicate nCal.toNat (sampling m m.driven)
  | .idle | .done | .fault => []

theorem At.offset (place : At true fsm s) (begins : Begins m .adcOffsetCal fsm) :
    ∃ after, Measured m .adcOffsetCal after ∧ At true after (s.run (measures m .adcOffsetCal)) := by
  obtain ⟨amid, place⟩ := place.averaged begins (.inl rfl) small_zero small_zero
  have sums := (begins.sums.added .zero 512).added .zero 512
  have zero : (0 : ℝ) + (512 : Nat) * (Scalar.zero : ℝ) + (512 : Nat) * (Scalar.zero : ℝ) = 0 := by
    simp [Scalar.zero_exact]
  exact ⟨_, amid.offset ⟨sums.a.trans zero, sums.b.trans zero, sums.c.trans zero, sums.squareA, sums.squareB⟩, place⟩

theorem At.noise (place : At true fsm s) (begins : Begins m .adcNoiseFloor fsm) :
    ∃ after, Measured m .adcNoiseFloor after ∧ At true after (s.run (measures m .adcNoiseFloor)) := by
  obtain ⟨amid, place⟩ := place.averaged begins (.inr rfl) small_noisy.1 small_noisy.2
  have sums := (begins.sums.added noisy 512).added opposite 512
  have even : (0 : ℝ) + (512 : Nat) * 0.05 + (512 : Nat) * (-0.05) = 0 := by norm_num
  have squares : (0 : ℝ) + (512 : Nat) * (0.05 * 0.05) + (512 : Nat) * (-0.05 * -0.05) = 2.56 := by norm_num
  exact ⟨_, amid.noise ⟨sums.a.trans even, sums.b.trans even, sums.c, sums.squareA.trans squares,
    sums.squareB.trans squares⟩, place⟩

theorem At.measured (place : At true fsm s) (begins : Begins m state fsm) (active : state.active = true)
    (other : state ≠ .pwmDisable ∧ state ≠ .connectMotor ∧ state ≠ .currentSenseCalibration) :
    ∃ after, Measured m state after ∧ At true after (s.run (measures m state)) := by
  obtain ⟨disabling, barrier, calibrating⟩ := other
  cases state with
  | idle | done | fault => cases active
  | pwmDisable => exact absurd rfl disabling
  | connectMotor => exact absurd rfl barrier
  | currentSenseCalibration => exact absurd rfl calibrating
  | adcOffsetCal => exact place.offset begins
  | adcNoiseFloor => exact place.noise begins
  | dutyForceLow => exact place.held begins (.inl rfl) rfl
  | dutyForceMid => exact place.held begins (.inr (.inl rfl)) rfl
  | dutyForceHigh => exact place.held begins (.inr (.inr rfl)) rfl
  | dcLinkVoltageCheck => exact place.linked begins
  | gateDriverEnableCheck => exact place.gateChecked rfl begins
  | phaseAdcAlignment => exact place.aligned rfl begins

theorem At.calibrated (place : At true fsm s) (begins : Begins m .currentSenseCalibration fsm) :
    ∃ after, Measured m .currentSenseCalibration after ∧ after.extCurrent = m.current ∧
      At true after (s.run (measures m .currentSenseCalibration)) := place.sensed rfl begins

/-- The samples of a step and the request for the next one. -/
def passes (m : Meters) (state : FsmState) : List (Step ℝ) := measures m state ++ goOn m (state = .connectMotor)

theorem At.passed (place : At true fsm s) (begins : Begins m state fsm) (active : state.active = true)
    (other : state ≠ .currentSenseCalibration) :
    ∃ after, Begins m state.next after ∧ At true after (s.run (passes m state)) := by
  unfold passes
  by_cases disabling : state = .pwmDisable
  · subst disabling
    exact place.disabled begins
  rw [Session.run_append]
  by_cases barrier : state = .connectMotor
  · subst barrier
    obtain ⟨measured, place⟩ := place.barred begins
    exact place.connected measured
  · obtain ⟨after, measured, place⟩ := place.measured begins active ⟨disabling, barrier, other⟩
    exact place.goesOn measured active ⟨disabling, barrier, other⟩

/-- The next `n` steps from `state` on. -/
def following (m : Meters) : Nat → FsmState → List (Step ℝ)
  | 0, _ => []
  | n + 1, state => passes m state ++ following m n state.next

theorem At.followed {n : Nat} (place : At true fsm s) (begins : Begins m state fsm) (active : state.active = true)
    (within : state.index.val + n ≤ FsmState.currentSenseCalibration.index.val) :
    ∃ after, Begins m (FsmState.next^[n] state) after ∧ At true after (s.run (following m n state)) := by
  induction n generalizing state fsm s with
  | zero => exact ⟨fsm, begins, place⟩
  | succ n ih =>
    have other : state ≠ .currentSenseCalibration := by
      rintro rfl
      omega
    have goesOn : state.next ≠ .done := by
      intro last
      exact other (last_step active last)
    obtain ⟨after, begins, place⟩ := place.passed begins active other
    unfold following
    rw [Session.run_append, Function.iterate_succ_apply]
    refine ih place begins (FsmState.next_active active goesOn) ?_
    rw [next_index active]
    omega

def start (m : Meters) : List (Step ℝ) := [⟨id, .requestRun⟩, ⟨id, .setExtVdc m.voltage⟩]

theorem started (m : Meters) : Begins m .pwmDisable ((Session.start board).run (start m)).fsm ∧
    At true ((Session.start board).run (start m)).fsm ((Session.start board).run (start m)) := by
  have one : (1.0 : ℝ) = 1 := by norm_num
  refine ⟨⟨⟨rfl, rfl, rfl, rfl, rfl, rfl, fun _ => ⟨rfl, ?_⟩, ?_⟩, rfl⟩, rfl, ?_⟩
  · exact congrArg (Vector.replicate nSweepSteps) Scalar.zero_exact
  · refine ⟨Scalar.zero_exact, Scalar.zero_exact, Scalar.zero_exact, one, one, one, one,
      fun late => absurd late (by decide), fun step active below => ?_⟩
    cases step <;> first | exact absurd active (by decide) | exact absurd below (by decide)
  · exact ⟨rfl, rfl, rfl, rfl, rfl, rfl, rfl, rfl, rfl⟩

/-- A run up to the request for its end. -/
def script (m : Meters) : List (Step ℝ) :=
  start m ++ (following m 10 .pwmDisable ++ (measures m .currentSenseCalibration ++ [⟨id, .requestNextStep false⟩]))

/-- Whatever the instruments read, the run ends with every step passed. -/
theorem script_passes (m : Meters) :
    let s := (Session.start board).run (script m)
    s.fsm.state ≠ .done ∧ (s.next (sampling m .zero)).fsm.state = .done ∧
      allPassed (s.next (sampling m .zero)).fsm.results := by
  obtain ⟨begins, place⟩ := started m
  obtain ⟨before, begins, place⟩ := place.followed (n := 10) begins rfl (by decide)
  obtain ⟨after, measured, reading, place⟩ := place.calibrated begins
  have last (s : Session ℝ) (step : Step ℝ) : s.run [step] = s.next step := rfl
  unfold script
  rw [Session.run_append, Session.run_append, Session.run_append, last]
  exact place.ended measured reading

def bench : Meters := ⟨24.0, 1.0, by norm_num, by norm_num, by norm_num, by norm_num⟩

theorem calibration_consistent_passed :
    let s := (Session.start board).run (script bench)
    let after := s.next (sampling bench .zero)
    let taken := (Record.empty.after (.start board) (script bench)).next s (sampling bench .zero)
    after.fsm.state = .done ∧ allPassed after.fsm.results ∧ taken.voltages.length = total ∧
      taken.currents.length = total ∧
      after.board.store.settings = SettingsStore.withAdcCalibration (committed after.fsm.results)
        ((sampling bench .zero).meets s.board).store.settings ∧
      CurrentControlIsr.calibrated (taken.means false) (committed after.fsm.results) = taken.readings false := by
  obtain ⟨running, ended, passed⟩ := script_passes bench
  obtain ⟨voltages, currents, settings, consistent⟩ :=
    calibration_consistent board (script bench) (sampling bench .zero) running ended passed
  exact ⟨ended, passed, voltages, currents, settings, consistent false⟩

end Passing

end

end Unimoc.Startup
