import Unimoc.CurrentControl.OuterStep
import Unimoc.CurrentControl.WellDefined
import Unimoc.Lib.Ramp

/-! The demand of the position loop in exact arithmetic: its speed limit and its slew rate. -/
namespace Unimoc.CurrentControl

open Settings

structure PositionInput (F : Type) where
  setpoint : F
  measured : F
  speed : F
  dt : F

namespace PositionController

section Steps

variable {F : Type} [Scalar F]

def next (c : PositionController F) (input : PositionInput F) : PositionController F :=
  { c with posRefRad := input.setpoint }.speedDemand input.measured input.speed input.dt

def planned (c : PositionController F) (input : PositionInput F) : F :=
  (c.next input).posRefLimited

def steady (c : PositionController F) (input : PositionInput F) : F :=
  Scalar.clamp (c.kpPos * (c.planned input - input.measured)) (-c.speedLimit) c.speedLimit

end Steps

theorem next_demand (c : PositionController ℝ) (input : PositionInput ℝ) :
    (c.next input).omegaDemandPrev =
      Ramp.follow (c.steady input) (c.accelLimit * input.dt) c.omegaDemandPrev :=
  Scalar.clamp_exact ..

theorem steady_within {c : PositionController ℝ} (limited : 0 ≤ c.speedLimit) (input : PositionInput ℝ) :
    -c.speedLimit ≤ c.steady input ∧ c.steady input ≤ c.speedLimit := by
  have order : -c.speedLimit ≤ c.speedLimit := neg_le_self limited
  unfold steady
  rw [Scalar.clamp_exact]
  exact ⟨le_min (le_max_right _ _) order, min_le_right _ _⟩

theorem next_within {c : PositionController ℝ} (limited : 0 ≤ c.speedLimit) (slewed : 0 ≤ c.accelLimit)
    (within : |c.omegaDemandPrev| ≤ c.speedLimit) {input : PositionInput ℝ} (forward : 0 < input.dt) :
    |(c.next input).omegaDemandPrev| ≤ c.speedLimit ∧
      |(c.next input).omegaDemandPrev - c.omegaDemandPrev| ≤ c.accelLimit * input.dt := by
  have room : 0 ≤ c.accelLimit * input.dt := mul_nonneg slewed forward.le
  obtain ⟨low, high⟩ := steady_within limited input
  obtain ⟨above, below⟩ := abs_le.mp within
  rw [next_demand]
  constructor
  · exact abs_le.mpr (Ramp.follow_within room low high above below)
  · exact Ramp.follow_near room

/-- The position loop of a thread that took the gains of the settings, from a reset on. -/
noncomputable def machine (s : NvmSettings) (t : OuterThread ℝ) :
    Runs.Machine (PositionController ℝ) (PositionInput ℝ) where
  start := (t.applyGains (OuterLoop.gainsFrom s)).position.reset
  next := next
  admits _ input := 0 < input.dt

section Run

variable {s : NvmSettings} {t : OuterThread ℝ}

theorem run_limits (trace : List (PositionInput ℝ)) :
    ((machine s t).replay trace).speedLimit = s.real .posSpeedLimit ∧
      ((machine s t).replay trace).accelLimit = s.real .posAccelLimit := by
  induction trace with
  | nil => exact ⟨rfl, rfl⟩
  | cons input past ih => exact ih

theorem run_within (limited : 0 ≤ (s.real .posSpeedLimit : ℝ)) (slewed : 0 ≤ (s.real .posAccelLimit : ℝ))
    {trace : List (PositionInput ℝ)} (legal : (machine s t).Legal trace) :
    |((machine s t).replay trace).omegaDemandPrev| ≤ s.real .posSpeedLimit := by
  induction trace with
  | nil =>
    show |(Scalar.zero : ℝ)| ≤ _
    rw [Scalar.zero_exact, abs_zero]
    exact limited
  | cons input past ih =>
    obtain ⟨speed, slew⟩ := run_limits (s := s) (t := t) past
    rw [← speed] at limited ih ⊢
    rw [← slew] at slewed
    exact (next_within limited slewed (ih legal.2) legal.1).1

end Run

end PositionController

/-- Every step of a run keeps to the speed limit and to the slew rate, exactly when neither limit
of the settings is negative. -/
theorem speedDemand_bounded_iff (s : NvmSettings) (t : OuterThread ℝ) (trace : List (PositionInput ℝ))
    (nonempty : trace ≠ []) (legal : (PositionController.machine s t).Legal trace) :
    Runs.Throughout (fun input past =>
      |((PositionController.machine s t).replay (input :: past)).omegaDemandPrev| ≤
          s.real .posSpeedLimit ∧
        |((PositionController.machine s t).replay (input :: past)).omegaDemandPrev -
          ((PositionController.machine s t).replay past).omegaDemandPrev| ≤
            s.real .posAccelLimit * input.dt) trace ↔
      0 ≤ (s.real .posSpeedLimit : ℝ) ∧ 0 ≤ (s.real .posAccelLimit : ℝ) := by
  constructor
  · intro bounded
    cases trace with
    | nil => exact absurd rfl nonempty
    | cons input past =>
      obtain ⟨within, near⟩ := ((Runs.throughout_cons ..).mp bounded).1
      refine ⟨(abs_nonneg _).trans within, ?_⟩
      exact nonneg_of_mul_nonneg_left ((abs_nonneg _).trans near) legal.1
  · rintro ⟨limited, slewed⟩
    clear nonempty
    induction trace with
    | nil => exact Runs.throughout_nil _
    | cons input past ih =>
      rw [Runs.throughout_cons]
      refine ⟨?_, ih legal.2⟩
      obtain ⟨speed, slew⟩ := PositionController.run_limits (s := s) (t := t) past
      have within := PositionController.run_within limited slewed legal.2
      rw [← speed] at limited within ⊢
      rw [← slew] at slewed ⊢
      exact PositionController.next_within limited slewed within legal.1

def negativeAccel : NvmSettings := NvmSettings.default.set .posAccelLimit (0xC2C80000 : UInt32)

theorem negativeAccel_value : (negativeAccel.real .posAccelLimit : ℝ) = -100 := by
  have pattern : (negativeAccel.real .posAccelLimit : Binary32) = .finite (-13107200) (-17) := by
    decide
  rw [real_value, pattern]
  norm_num [Binary.value]

noncomputable def atTarget : PositionInput ℝ := ⟨0, 0, 0, 1 / 1000⟩

/-- The validation takes an acceleration limit of -100, and the demand then changes although the
rotor stands at its target. -/
theorem negative_accel_accepted :
    validate negativeAccel simCapabilities = .success ∧
      (PositionController.machine negativeAccel .powerOn).Legal [atTarget] ∧
      ¬|((PositionController.machine negativeAccel .powerOn).replay [atTarget]).omegaDemandPrev -
          ((PositionController.machine negativeAccel .powerOn).replay []).omegaDemandPrev| ≤
        negativeAccel.real .posAccelLimit * atTarget.dt := by
  refine ⟨by decide +kernel, ⟨?_, trivial⟩, ?_⟩
  · show (0 : ℝ) < 1 / 1000
    norm_num
  · intro near
    have negative : (negativeAccel.real .posAccelLimit : ℝ) * atTarget.dt < 0 := by
      rw [negativeAccel_value]
      norm_num [atTarget]
    exact absurd ((abs_nonneg _).trans near) (not_le.mpr negative)

theorem speedDemand_bounded_default :
    |((PositionController.machine .default .powerOn).replay [atTarget]).omegaDemandPrev| ≤
      NvmSettings.default.real .posSpeedLimit := by
  have patterns : (NvmSettings.default.real .posSpeedLimit : Binary32) = .finite 13107200 (-17) ∧
      (NvmSettings.default.real .posAccelLimit : Binary32) = .finite 16384000 (-15) := by
    decide
  have limits : 0 ≤ (NvmSettings.default.real .posSpeedLimit : ℝ) ∧
      0 ≤ (NvmSettings.default.real .posAccelLimit : ℝ) := by
    rw [real_value, real_value, patterns.1, patterns.2]
    norm_num [Binary.value]
  have legal : (PositionController.machine .default .powerOn).Legal [atTarget] := by
    refine ⟨?_, trivial⟩
    show (0 : ℝ) < 1 / 1000
    norm_num
  exact ((Runs.throughout_cons ..).mp
    ((speedDemand_bounded_iff .default .powerOn [atTarget] (by simp) legal).mpr limits)).1.1

end Unimoc.CurrentControl
