import Unimoc.Settings.Accepted
import Unimoc.Units.Exact

/-! The values of accepted settings in exact arithmetic: what the number format compares is
what the real numbers say. -/
namespace Unimoc.Settings

variable {s : NvmSettings}

theorem real_value (r : Register) : (s.real r : ℝ) = (s.real r : Binary32).value := rfl

theorem finite_zero : (Scalar.zero : Binary32).isFinite = true ∧ (Scalar.zero : Binary32).value = 0 := by
  have zero : (Scalar.zero : Binary32) = .finite 0 0 := by decide
  rw [zero]
  exact ⟨rfl, by simp [Binary.value]⟩

namespace Accepted

variable (accepted : Accepted Binary32 s)
include accepted

theorem real_lt {r q : Register} (first : r ∈ finiteReals) (second : q ∈ finiteReals) :
    (s.real r : Binary32) < s.real q ↔ (s.real r : ℝ) < s.real q :=
  Binary.lt_value (accepted.finite r first) (accepted.finite q second)

theorem real_positive {r : Register} (listed : r ∈ positiveReals) : 0 < (s.real r : ℝ) := by
  have inside : r ∈ finiteReals := by
    revert r
    decide
  have above := accepted.positive r listed
  rw [← finite_zero.2]
  exact not_le.mp fun below =>
    above ((Binary.le_value (accepted.finite r inside) finite_zero.1).mpr below)

theorem omegaMin_exact : (s.real .motorOmegaMin : ℝ) ≤ 0 := by
  rw [← finite_zero.2]
  exact not_lt.mp fun above =>
    accepted.omegaMin ((Binary.lt_value finite_zero.1 (accepted.finite _ (by decide))).mpr above)

theorem omegaMax_exact : 0 ≤ (s.real .motorOmegaMax : ℝ) := by
  rw [← finite_zero.2]
  exact not_lt.mp fun below =>
    accepted.omegaMax ((Binary.lt_value (accepted.finite _ (by decide)) finite_zero.1).mpr below)

theorem duties_exact : (s.real .svmDutyMin : ℝ) ≤ s.real .svmDutyMax :=
  not_lt.mp fun crossed => accepted.duties ((accepted.real_lt (by decide) (by decide)).mpr crossed)

end Accepted

theorem eq_value {a b : Binary32} (same : Scalar.eq a b = true) (finite : b.isFinite = true) :
    a.value = b.value := by
  obtain ⟨below, above⟩ : a ≤ b ∧ b ≤ a := by simpa [Scalar.eq] using same
  have inside : a.isFinite = true := by
    cases a with
    | finite m e => rfl
    | nan => cases b <;> cases below
    | infinite negative =>
      cases b with
      | finite n f =>
        cases negative with
        | true => cases above
        | false => cases below
      | nan | infinite _ => cases finite
  exact le_antisymm ((Binary.le_value inside finite).mp below) ((Binary.le_value finite inside).mp above)

theorem frequency_values :
    (16000.0 : Binary32) = .finite 16384000 (-10) ∧ (20000.0 : Binary32) = .finite 10240000 (-9) ∧
      (24000.0 : Binary32) = .finite 12288000 (-9) ∧ (28000.0 : Binary32) = .finite 14336000 (-9) ∧
      (32000.0 : Binary32) = .finite 16384000 (-9) := by
  decide

theorem Accepted.frequency_exact (accepted : Accepted Binary32 s) :
    16000 ≤ (s.real .pwmFrequency : ℝ) ∧ (s.real .pwmFrequency : ℝ) ≤ 32000 := by
  have enums := accepted.enums
  obtain ⟨first, second, third, fourth, fifth⟩ := frequency_values
  simp only [isValidEnumValues, Bool.and_eq_true, List.any_cons, List.any_nil, Bool.or_false,
    Bool.or_eq_true, first, second, third, fourth, fifth] at enums
  have value {m e : Int} (same : Scalar.eq (s.real .pwmFrequency : Binary32) (.finite m e) = true) :
      (s.real .pwmFrequency : ℝ) = m * (2 : ℝ) ^ e := eq_value same rfl
  obtain ⟨⟨⟨⟨⟨-, selected⟩, -⟩, -⟩, -⟩, -⟩ := enums
  rcases selected with same | same | same | same | same <;> rw [value same] <;> norm_num

/-- What accepted settings say of currents, voltages and the motor. -/
structure PowerLimits (s : NvmSettings) : Prop where
  polePairs : s.natural8 .polePairs ≠ 0
  motorIMax : 0 ≤ (s.real .motorIMax : ℝ)
  driveCurrent : 0 ≤ (s.real .batteryDriveCurrentMax : ℝ)
  chargeCurrent : 0 ≤ (s.real .batteryChargeCurrentMax : ℝ)
  derating : (s.real .dcLinkRegenDerateStart : ℝ) < s.real .dcLinkTrip
  fluxPm : 0 ≤ (s.real .fluxPm : ℝ)
  batteryShare : 0 ≤ (s.real .cartBatteryShare : ℝ)

theorem validate_powerLimits {limits : HardwareCapabilities Binary32}
    (accepted : validate s limits = .success) : PowerLimits s := by
  have finite := (validate_accepted accepted).finite
  have nonneg {r : Register} (listed : r ∈ finiteReals) (refused : ¬(s.real r : Binary32) < Scalar.zero) :
      0 ≤ (s.real r : ℝ) := by
    rw [← finite_zero.2]
    exact not_lt.mp fun below => refused ((Binary.lt_value (finite r listed) finite_zero.1).mpr below)
  have order {r q : Register} (first : r ∈ finiteReals) (second : q ∈ finiteReals)
      (refused : ¬(s.real r : Binary32) ≤ s.real q) : (s.real q : ℝ) < s.real r :=
    not_le.mp fun below => refused ((Binary.le_value (finite r first) (finite q second)).mpr below)
  unfold validate at accepted
  obtain ⟨basics, accepted⟩ := passed accepted (by decide)
  obtain ⟨ratings, accepted⟩ := passed accepted (by decide)
  obtain ⟨motor, accepted⟩ := passed accepted (by decide)
  obtain ⟨-, accepted⟩ := passed accepted (by decide)
  obtain ⟨-, accepted⟩ := passed accepted (by decide)
  obtain ⟨-, accepted⟩ := passed accepted (by decide)
  obtain ⟨cart, -⟩ := passed accepted (by decide)
  simp only [Bool.or_eq_true, Bool.and_eq_true, not_or, Bool.not_eq_true, Bool.not_eq_false,
    decide_eq_true_eq, Bool.not_eq_eq_eq_not, Bool.not_true, isNotAbove, isNegative,
    isRatio] at basics ratings motor cart
  constructor
  · exact basics.2
  · exact nonneg (by decide) ratings.1.1.1.1.1.1.1.1.1.1
  · exact nonneg (by decide) ratings.1.1.1.1.1.1.1.1.2
  · exact nonneg (by decide) ratings.1.1.1.1.1.1.2
  · exact order (by decide) (by decide) ratings.1.2
  · exact nonneg (by decide) motor.1.1.1.1.1.1.1.1.1.1.1.1.1.1.1.1.1.1.2
  · rw [← finite_zero.2]
    exact (Binary.le_value finite_zero.1 (finite _ (by decide))).mp cart.2.1

end Unimoc.Settings
