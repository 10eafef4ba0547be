import Unimoc.CurrentControl.ControlLoop
import Unimoc.Settings.ExactValues
import Unimoc.Settings.Factory

/-! The control cycle in exact arithmetic: where it divides, and the range of its duties. -/
namespace Unimoc.CurrentControl

open Settings

/-- The division of the number format. -/
def plainDivision {F : Type} [Arithmetic F] (dividend divisor : F) : Id F := dividend / divisor

/-- No result for a zero divisor. -/
noncomputable def exactDivision (dividend divisor : ℝ) : Option ℝ :=
  open Classical in if divisor = 0 then none else some (dividend / divisor)

theorem exactDivision_nonzero {divisor : ℝ} (nonzero : divisor ≠ 0) (dividend : ℝ) :
    exactDivision dividend divisor = some (plainDivision dividend divisor) :=
  if_neg nonzero

theorem exactDivision_zero (dividend : ℝ) : exactDivision dividend 0 = none :=
  if_pos rfl

namespace DeadTimeCompensation

variable (dtc : DeadTimeCompensation ℝ) (iAb : Stator ℝ)

theorem calculate_exact (threshold : dtc.iThreshold ≠ 0) :
    dtc.calculate exactDivision iAb = some (dtc.calculate plainDivision iAb) := by
  unfold calculate softSign
  simp only [exactDivision_nonzero threshold, Option.bind_eq_bind, Option.bind_some, Option.pure_def]
  rfl

theorem calculate_stuck (threshold : dtc.iThreshold = 0) : dtc.calculate exactDivision iAb = none := by
  unfold calculate softSign
  simp only [threshold, exactDivision_zero, Option.bind_eq_bind, Option.bind_none]

end DeadTimeCompensation

namespace CurrentController

/-- The vector is scaled only when it is outside the circle, so it has a length. -/
theorem limited_exact (raw : Rotor ℝ) (limit : ℝ) :
    limited exactDivision raw limit = some (limited plainDivision raw limit) := by
  unfold limited
  by_cases outside : limit * limit < raw.d * raw.d + raw.q * raw.q
  · have positive : 0 < raw.d * raw.d + raw.q * raw.q := (mul_self_nonneg limit).trans_lt outside
    have length : Scalar.sqrt (raw.d * raw.d + raw.q * raw.q) ≠ 0 := (Real.sqrt_pos.mpr positive).ne'
    simp only [outside, ↓reduceIte, exactDivision_nonzero length, Option.bind_eq_bind, Option.bind_some,
      Option.pure_def]
    rfl
  · simp only [outside, ↓reduceIte]
    rfl

theorem update_exact (cc : CurrentController ℝ) (iRef iMeas : Rotor ℝ) (omega dt vDc : ℝ)
    (gains : CurrentGains ℝ) :
    cc.update exactDivision iRef iMeas omega dt vDc gains =
      some (cc.update plainDivision iRef iMeas omega dt vDc gains) := by
  unfold update
  simp only [limited_exact, Option.bind_eq_bind, Option.bind_some, Option.pure_def]
  rfl

end CurrentController

namespace Svm

theorem inverseDcLinkVoltage_exact (dcLinkVoltage : ℝ) :
    inverseDcLinkVoltage exactDivision dcLinkVoltage =
      some (inverseDcLinkVoltage plainDivision dcLinkVoltage) := by
  have floored : Scalar.max dcLinkVoltage 1.0 ≠ 0 := by
    unfold Scalar.max
    split_ifs with below
    · norm_num
    · intro zero
      norm_num [zero] at below
  exact exactDivision_nonzero floored 1.0

theorem clamp_within {value lower upper : ℝ} (ordered : lower ≤ upper) :
    lower ≤ Scalar.clamp value lower upper ∧ Scalar.clamp value lower upper ≤ upper := by
  unfold Scalar.clamp Scalar.min Scalar.max
  constructor <;> split_ifs <;> linarith

end Svm

/-- All phases in the range of the modulator. -/
structure InRange (dutyMin dutyMax : ℝ) (duties : ThreePhase ℝ) : Prop where
  a : dutyMin ≤ duties.a ∧ duties.a ≤ dutyMax
  b : dutyMin ≤ duties.b ∧ duties.b ≤ dutyMax
  c : dutyMin ≤ duties.c ∧ duties.c ≤ dutyMax

theorem Svm.calculate_inRange {dutyMin dutyMax : ℝ} (ordered : dutyMin ≤ dutyMax) (ratios : ThreePhase ℝ) :
    InRange dutyMin dutyMax (Svm.calculate dutyMin dutyMax ratios) :=
  ⟨clamp_within ordered, clamp_within ordered, clamp_within ordered⟩

namespace ControlLoop

variable (loop : ControlLoop ℝ) (isr : CurrentControlIsr ℝ) (samples : ControlCycleSamples ℝ)
  (angles : AngleSet ℝ)

theorem run_exact (threshold : loop.dtc.iThreshold ≠ 0) :
    loop.run exactDivision samples angles isr = some (loop.run plainDivision samples angles isr) := by
  unfold run
  simp only [CurrentController.update_exact, DeadTimeCompensation.calculate_exact _ _ threshold,
    Svm.inverseDcLinkVoltage_exact, Option.bind_eq_bind, Option.bind_some, Option.pure_def]
  rfl

theorem run_stuck (threshold : loop.dtc.iThreshold = 0) :
    loop.run exactDivision samples angles isr = none := by
  unfold run
  simp only [CurrentController.update_exact, DeadTimeCompensation.calculate_stuck _ _ threshold,
    Option.bind_eq_bind, Option.bind_some, Option.bind_none]

theorem run_inRange (ordered : isr.dutyMin ≤ isr.dutyMax) (k : Fin numSubSteps) :
    InRange isr.dutyMin isr.dutyMax (loop.run plainDivision samples angles isr).1.duties[k] := by
  show InRange _ _ (angles.scOut.mapFinIdx _)[k.val]
  rw [Vector.getElem_mapFinIdx]
  exact Svm.calculate_inRange ordered _

end ControlLoop

section Loaded

variable {F : Type} [Arithmetic F]

/-- What the loop and its modulator work with are the values of the settings. -/
structure Loaded (settings : NvmSettings) (isr : CurrentControlIsr F) (loop : ControlLoop F) : Prop where
  dtc : loop.dtc = .init settings
  dutyMin : isr.dutyMin = settings.real .svmDutyMin
  dutyMax : isr.dutyMax = settings.real .svmDutyMax

theorem loaded_init {settings : NvmSettings} (timing : pwmHertz F settings ≠ 0) (timerClock : UInt32)
    (isr : CurrentControlIsr F) (loop : ControlLoop F) :
    Loaded settings (isr.init settings timerClock) (loop.init settings) := by
  unfold CurrentControlIsr.init ControlLoop.init
  simp only [timing, ↓reduceIte]
  exact ⟨rfl, rfl, rfl⟩

theorem loaded_cycle {settings : NvmSettings} {isr : CurrentControlIsr F} {loop : ControlLoop F}
    (loaded : Loaded settings isr loop) (raw : ControlCycleSamples F) (angles : AngleSet F) :
    let result : CurrentControlIsr.CycleResult F := isr.controlCycle plainDivision raw angles loop
    Loaded settings result.isr result.loop := by
  obtain ⟨dtc, dutyMin, dutyMax⟩ := loaded
  unfold CurrentControlIsr.controlCycle
  cases isr.hardware with
  | false => exact ⟨dtc, dutyMin, dutyMax⟩
  | true =>
    cases tripped : (isr.latched raw).tripped with
    | true =>
      simp only [tripped, ↓reduceIte, Bool.not_true, Bool.false_eq_true]
      exact ⟨dtc, dutyMin, dutyMax⟩
    | false =>
      cases forced : (isr.latched raw).forceDutyActive <;>
        simp only [tripped, forced, ↓reduceIte, Bool.not_true, Bool.false_eq_true] <;>
        exact ⟨dtc, dutyMin, dutyMax⟩

end Loaded

theorem pwmHertz_exact {s : NvmSettings} (accepted : Accepted Binary32 s) : pwmHertz ℝ s ≠ 0 := by
  obtain ⟨least, most⟩ := accepted.frequency_exact
  have low : 16000 ≤ ⌊(s.real .pwmFrequency : ℝ)⌋₊ := Nat.le_floor (by exact_mod_cast least)
  have high : ⌊(s.real .pwmFrequency : ℝ)⌋₊ ≤ 32000 := Nat.floor_le_of_le (by exact_mod_cast most)
  intro zero
  have bits : (pwmHertz ℝ s).toNat = ⌊(s.real .pwmFrequency : ℝ)⌋₊ % 2 ^ 64 % 2 ^ 32 := rfl
  rw [zero] at bits
  have none : (0 : UInt32).toNat = 0 := rfl
  omega

section Runs

variable {isr : CurrentControlIsr ℝ} {raw : ControlCycleSamples ℝ}

theorem controlCycle_runs (runs : isr.runsLoop raw = true) (angles : AngleSet ℝ) (loop : ControlLoop ℝ) :
    isr.controlCycle exactDivision raw angles loop =
      (loop.run exactDivision (CurrentControlIsr.calibrated raw isr.calibration) angles (isr.latched raw)).map
        fun ran => ⟨(isr.latched raw).finishCycle ran.1.duties[0], ran.2, some ran.1.duties, some ran.1⟩ := by
  simp only [CurrentControlIsr.runsLoop, Bool.and_eq_true, Bool.not_eq_true'] at runs
  obtain ⟨⟨hardware, untripped⟩, unforced⟩ := runs
  have still : (isr.latched raw).forceDutyActive = false := unforced
  unfold CurrentControlIsr.controlCycle
  simp only [hardware, untripped, still, Bool.not_true, Bool.false_eq_true, ↓reduceIte]
  show (loop.run exactDivision (CurrentControlIsr.calibrated raw isr.calibration) angles
    (isr.latched raw)).bind _ = _
  cases loop.run exactDivision (CurrentControlIsr.calibrated raw isr.calibration) angles (isr.latched raw) with
  | none => rfl
  | some ran => rfl

/-- With accepted settings a cycle that runs the loop has all its quotients, and its duties
in the range of the modulator, exactly when the dead-time threshold is not zero. -/
theorem cycle_defined {s : NvmSettings} {limits : HardwareCapabilities Binary32}
    (accepted : validate s limits = .success) {loop : ControlLoop ℝ} (loaded : Loaded s isr loop)
    (runs : isr.runsLoop raw = true) (angles : AngleSet ℝ) :
    (∃ result duties, isr.controlCycle exactDivision raw angles loop = some result ∧
      result.duties = some duties ∧
      ∀ k : Fin numSubSteps, InRange (s.real .svmDutyMin) (s.real .svmDutyMax) duties[k]) ↔
      (s.real .dtcIThreshold : ℝ) ≠ 0 := by
  have threshold : loop.dtc.iThreshold = s.real .dtcIThreshold := by rw [loaded.dtc]; rfl
  rw [← threshold, controlCycle_runs runs]
  constructor
  · rintro ⟨result, duties, defined, -⟩ zero
    rw [ControlLoop.run_stuck _ _ _ _ zero] at defined
    cases defined
  · intro nonzero
    rw [ControlLoop.run_exact _ _ _ _ nonzero]
    refine ⟨_, _, rfl, rfl, fun k => ?_⟩
    have ordered : (isr.latched raw).dutyMin ≤ (isr.latched raw).dutyMax := by
      show isr.dutyMin ≤ isr.dutyMax
      rw [loaded.dutyMin, loaded.dutyMax]
      exact (validate_accepted accepted).duties_exact
    have inside := loop.run_inRange (isr.latched raw)
      (CurrentControlIsr.calibrated raw isr.calibration) angles ordered k
    rw [← loaded.dutyMin, ← loaded.dutyMax]
    exact inside

end Runs

section Bench

noncomputable def benchIsr (s : NvmSettings) : CurrentControlIsr ℝ :=
  { CurrentControlIsr.powerOn with
    hardware := true, dutyMin := s.real .svmDutyMin, dutyMax := s.real .svmDutyMax
    overcurrentLimit := 100, dcLinkTrip := 60 }

noncomputable def benchLoop (s : NvmSettings) : ControlLoop ℝ :=
  ControlLoop.init s ⟨⟨0, 0, 0, 100, 100, 0, 0, 0⟩, ⟨0, 0, 0⟩, 0, false, 0, 0⟩

noncomputable def benchSamples : ControlCycleSamples ℝ := ⟨Vector.replicate numSubSteps ⟨0, 0, 0⟩, 24, false⟩

noncomputable def benchAngles : AngleSet ℝ :=
  ⟨Vector.replicate numSubSteps ⟨0, 1⟩, Vector.replicate numSubSteps ⟨0, 1⟩⟩

theorem bench_loaded {s : NvmSettings} (accepted : Accepted Binary32 s) :
    Loaded s (benchIsr s) (benchLoop s) := by
  refine ⟨?_, rfl, rfl⟩
  unfold benchLoop ControlLoop.init
  rw [if_neg (pwmHertz_exact accepted)]

theorem bench_runs (s : NvmSettings) : (benchIsr s).runsLoop benchSamples = true := by
  have current : ((benchIsr s).takeInputs benchSamples).overcurrent benchSamples = false := by
    simp [CurrentControlIsr.overcurrent, CurrentControlIsr.calibrated, CurrentControlIsr.takeInputs,
      benchIsr, benchSamples, CurrentControlIsr.powerOn, ThreePhase.exceeds, Scalar.abs, Scalar.zero]
    norm_num
  have voltage : ((benchIsr s).takeInputs benchSamples).overvoltage benchSamples = false := by
    simp [CurrentControlIsr.overvoltage, CurrentControlIsr.calibrated, CurrentControlIsr.takeInputs,
      benchIsr, benchSamples, CurrentControlIsr.powerOn]
    norm_num
  have untripped : ((benchIsr s).latched benchSamples).tripped = false := by
    simp only [CurrentControlIsr.latched, CurrentControlIsr.tripped, current]
    exact voltage
  simp only [CurrentControlIsr.runsLoop, untripped, Bool.not_false, Bool.and_true]
  rfl

theorem cycle_defined_default :
    ∃ result duties, (benchIsr .default).controlCycle exactDivision benchSamples benchAngles
        (benchLoop .default) = some result ∧ result.duties = some duties ∧
      ∀ k : Fin numSubSteps, InRange (NvmSettings.default.real .svmDutyMin)
        (NvmSettings.default.real .svmDutyMax) duties[k] := by
  have accepted : validate NvmSettings.default simCapabilities = .success := by decide
  refine (cycle_defined accepted (bench_loaded (validate_accepted accepted)) (bench_runs _) benchAngles).mpr ?_
  have pattern : (NvmSettings.default.real .dtcIThreshold : Binary32) = .finite 13421773 (-27) := by
    decide
  rw [real_value, pattern]
  norm_num [Binary.value]

def noThreshold : NvmSettings := NvmSettings.default.set .dtcIThreshold (0 : UInt32)

/-- The validation takes a threshold of zero, and then the first cycle that runs the loop
divides by it. -/
theorem threshold_zero_accepted :
    validate noThreshold simCapabilities = .success ∧ (benchIsr noThreshold).runsLoop benchSamples = true ∧
      Loaded noThreshold (benchIsr noThreshold) (benchLoop noThreshold) ∧
      (benchIsr noThreshold).controlCycle exactDivision benchSamples benchAngles (benchLoop noThreshold) =
        none := by
  have accepted : validate noThreshold simCapabilities = .success := by decide
  have loaded := bench_loaded (validate_accepted accepted)
  have zero : (benchLoop noThreshold).dtc.iThreshold = 0 := by
    rw [loaded.dtc]
    show (noThreshold.real .dtcIThreshold : ℝ) = 0
    have pattern : (noThreshold.real .dtcIThreshold : Binary32) = .finite 0 0 := by decide
    rw [real_value, pattern]
    norm_num [Binary.value]
  refine ⟨accepted, bench_runs _, loaded, ?_⟩
  rw [controlCycle_runs (bench_runs _), ControlLoop.run_stuck _ _ _ _ zero]
  rfl

end Bench

end Unimoc.CurrentControl
