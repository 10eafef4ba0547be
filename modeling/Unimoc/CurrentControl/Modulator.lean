import Unimoc.CurrentControl.WellDefined

/-! The modulator in exact arithmetic: the range of its duties, its linear range, and the voltage
that unclamped duties stand for. -/
namespace Unimoc.CurrentControl

/-- The decimal number of the source for half the square root of 3. -/
noncomputable def sqrt3By2 : ℝ := 0.86602540378443864676

namespace ThreePhase

noncomputable def greatest (phases : ThreePhase ℝ) : ℝ := max (max phases.a phases.b) phases.c

noncomputable def least (phases : ThreePhase ℝ) : ℝ := min (min phases.a phases.b) phases.c

theorem a_range (phases : ThreePhase ℝ) : phases.least ≤ phases.a ∧ phases.a ≤ phases.greatest := by
  simp [least, greatest]

theorem b_range (phases : ThreePhase ℝ) : phases.least ≤ phases.b ∧ phases.b ≤ phases.greatest := by
  simp [least, greatest]

theorem c_range (phases : ThreePhase ℝ) : phases.least ≤ phases.c ∧ phases.c ≤ phases.greatest := by
  simp [least, greatest]

/-- The same amount more in every phase. -/
def shifted (offset : ℝ) (phases : ThreePhase ℝ) : ThreePhase ℝ :=
  ⟨phases.a + offset, phases.b + offset, phases.c + offset⟩

theorem greatest_shifted (offset : ℝ) (phases : ThreePhase ℝ) :
    (phases.shifted offset).greatest = phases.greatest + offset := by
  simp only [greatest, shifted, max_add_add_right]

theorem least_shifted (offset : ℝ) (phases : ThreePhase ℝ) :
    (phases.shifted offset).least = phases.least + offset := by
  simp only [least, shifted, min_add_add_right]

theorem toStator_exact (phases : ThreePhase ℝ) :
    phases.toStator = ⟨2 / 3 * (phases.a - 1 / 2 * phases.b - 1 / 2 * phases.c),
      2 / 3 * (sqrt3By2 * phases.b - sqrt3By2 * phases.c)⟩ := by
  have twoByThree : (Arithmetic.narrow (2.0 / 3.0) : ℝ) = 2 / 3 := by
    show (2.0 / 3.0 : ℝ) = 2 / 3
    norm_num
  have half : (0.5 : ℝ) = 1 / 2 := by norm_num
  unfold toStator
  simp only [twoByThree, half]
  rfl

theorem toThreePhase_exact (vector : Stator ℝ) :
    vector.toThreePhase = ⟨vector.alpha, -(1 / 2) * vector.alpha + sqrt3By2 * vector.beta,
      -(1 / 2) * vector.alpha - sqrt3By2 * vector.beta⟩ := by
  have half : (-0.5 : ℝ) = -(1 / 2) := by norm_num
  unfold Stator.toThreePhase
  simp only [half]
  rfl

/-- A zero-sequence component is not seen by the transform. -/
theorem toStator_shifted (offset : ℝ) (phases : ThreePhase ℝ) :
    (phases.shifted offset).toStator = phases.toStator := by
  rw [toStator_exact, toStator_exact]
  unfold shifted
  congr 1
  · ring
  · ring

/-- There and back: the rounded constant stretches beta. -/
theorem toStator_toThreePhase (vector : Stator ℝ) :
    vector.toThreePhase.toStator = ⟨vector.alpha, 4 / 3 * sqrt3By2 ^ 2 * vector.beta⟩ := by
  rw [toThreePhase_exact, toStator_exact]
  congr 1
  · ring
  · ring

end ThreePhase

namespace Svm

open ThreePhase

noncomputable def centred (ratios : ThreePhase ℝ) : ThreePhase ℝ :=
  ratios.shifted (0.5 - (ratios.greatest + ratios.least) * 0.5)

theorem centred_eq (ratios : ThreePhase ℝ) :
    centred ratios = ratios.shifted (1 / 2 - (ratios.greatest + ratios.least) / 2) := by
  have half : (0.5 : ℝ) = 1 / 2 := by norm_num
  rw [centred, half, mul_one_div]

theorem calculate_exact (dutyMin dutyMax : ℝ) (ratios : ThreePhase ℝ) :
    calculate dutyMin dutyMax ratios =
      ⟨min (max (centred ratios).a dutyMin) dutyMax, min (max (centred ratios).b dutyMin) dutyMax,
        min (max (centred ratios).c dutyMin) dutyMax⟩ := by
  have half : (0.5 : ℝ) = 1 / 2 := by norm_num
  have duty (ratio : ℝ) : (1 / 2 : ℝ) + ratio + (ratios.greatest + ratios.least) * -(1 / 2) =
      ratio + (1 / 2 - (ratios.greatest + ratios.least) / 2) := by ring
  unfold calculate
  simp only [Scalar.clamp_exact, Scalar.max_exact, Scalar.min_exact, half]
  rw [centred_eq, ← greatest, ← least, duty, duty, duty]
  rfl

theorem centred_greatest (ratios : ThreePhase ℝ) :
    (centred ratios).greatest = 1 / 2 + (ratios.greatest - ratios.least) / 2 := by
  rw [centred_eq, greatest_shifted]
  ring

theorem centred_least (ratios : ThreePhase ℝ) :
    (centred ratios).least = 1 / 2 - (ratios.greatest - ratios.least) / 2 := by
  rw [centred_eq, least_shifted]
  ring

theorem calculate_unclamped {dutyMin dutyMax : ℝ} {ratios : ThreePhase ℝ}
    (linear : (ratios.greatest - ratios.least) / 2 ≤ min (dutyMax - 1 / 2) (1 / 2 - dutyMin)) :
    calculate dutyMin dutyMax ratios = centred ratios := by
  obtain ⟨up, down⟩ := le_min_iff.mp linear
  have greatest := centred_greatest ratios
  have least := centred_least ratios
  have unclamped {duty : ℝ} (range : (centred ratios).least ≤ duty ∧ duty ≤ (centred ratios).greatest) :
      min (max duty dutyMin) dutyMax = duty := by
    rw [max_eq_left (by linarith), min_eq_left (by linarith)]
  rw [calculate_exact, unclamped (a_range _), unclamped (b_range _), unclamped (c_range _)]

theorem inverse_exact {dcLinkVoltage : ℝ} (least : 1 ≤ dcLinkVoltage) :
    inverseDcLinkVoltage plainDivision dcLinkVoltage = 1 / dcLinkVoltage := by
  have one : (1.0 : ℝ) = 1 := by norm_num
  unfold inverseDcLinkVoltage plainDivision
  rw [Scalar.max_exact, one, max_eq_left least]

noncomputable def normalised (voltage : Stator ℝ) (dcLinkVoltage : ℝ) : ThreePhase ℝ :=
  Stator.toThreePhase ⟨voltage.alpha / dcLinkVoltage, voltage.beta / dcLinkVoltage⟩

noncomputable def duties (dutyMin dutyMax : ℝ) (voltage : Stator ℝ) (dcLinkVoltage : ℝ) : ThreePhase ℝ :=
  calculateWithInverseDcLinkVoltage dutyMin dutyMax voltage
    (inverseDcLinkVoltage plainDivision dcLinkVoltage) ⟨0, 0⟩

theorem duties_eq (dutyMin dutyMax : ℝ) (voltage : Stator ℝ) {dcLinkVoltage : ℝ}
    (least : 1 ≤ dcLinkVoltage) :
    duties dutyMin dutyMax voltage dcLinkVoltage =
      calculate dutyMin dutyMax (normalised voltage dcLinkVoltage) := by
  unfold duties normalised calculateWithInverseDcLinkVoltage
  rw [inverse_exact least, mul_one_div, mul_one_div, add_zero, add_zero]

end Svm

/-- The duties keep to their range; within the linear range no clamp acts; duties that no clamp has
touched are centred and stand for the voltage asked for, but for the rounded constant. -/
theorem modulator_law (dutyMin dutyMax : ℝ) (ordered : dutyMin ≤ dutyMax) (voltage : Stator ℝ)
    (dcLinkVoltage : ℝ) (least : 1 ≤ dcLinkVoltage) :
    InRange dutyMin dutyMax (Svm.duties dutyMin dutyMax voltage dcLinkVoltage) ∧
    (((Svm.normalised voltage dcLinkVoltage).greatest - (Svm.normalised voltage dcLinkVoltage).least) / 2 ≤
        min (dutyMax - 1 / 2) (1 / 2 - dutyMin) →
      Svm.duties dutyMin dutyMax voltage dcLinkVoltage =
        Svm.centred (Svm.normalised voltage dcLinkVoltage)) ∧
    (Svm.duties dutyMin dutyMax voltage dcLinkVoltage =
        Svm.centred (Svm.normalised voltage dcLinkVoltage) →
      (Svm.duties dutyMin dutyMax voltage dcLinkVoltage).toStator.alpha * dcLinkVoltage = voltage.alpha ∧
      (Svm.duties dutyMin dutyMax voltage dcLinkVoltage).toStator.beta * dcLinkVoltage =
        4 / 3 * sqrt3By2 ^ 2 * voltage.beta ∧
      (Svm.duties dutyMin dutyMax voltage dcLinkVoltage).greatest +
        (Svm.duties dutyMin dutyMax voltage dcLinkVoltage).least = 1) ∧
    |4 / 3 * sqrt3By2 ^ 2 - 1| < 1 / 10 ^ 19 := by
  have positive : dcLinkVoltage ≠ 0 := by linarith
  refine ⟨?_, ?_, ?_, ?_⟩
  · rw [Svm.duties_eq _ _ _ least]
    exact Svm.calculate_inRange ordered _
  · intro linear
    rw [Svm.duties_eq _ _ _ least]
    exact Svm.calculate_unclamped linear
  · intro unclamped
    rw [unclamped]
    have vector : (Svm.centred (Svm.normalised voltage dcLinkVoltage)).toStator =
        ⟨voltage.alpha / dcLinkVoltage, 4 / 3 * sqrt3By2 ^ 2 * (voltage.beta / dcLinkVoltage)⟩ := by
      unfold Svm.centred Svm.normalised
      rw [ThreePhase.toStator_shifted, ThreePhase.toStator_toThreePhase]
    rw [vector]
    refine ⟨?_, ?_, ?_⟩
    · exact div_mul_cancel₀ _ positive
    · rw [mul_assoc, div_mul_cancel₀ _ positive]
    · rw [Svm.centred_greatest, Svm.centred_least]
      ring
  · unfold sqrt3By2
    norm_num [abs_lt]

theorem linear_beta :
    Svm.duties (1 / 20) (19 / 20) ⟨0, 1⟩ 10 = Svm.centred (Svm.normalised ⟨0, 1⟩ 10) := by
  rw [Svm.duties_eq _ _ _ (by norm_num)]
  apply Svm.calculate_unclamped
  unfold Svm.normalised
  rw [ThreePhase.toThreePhase_exact]
  norm_num [ThreePhase.greatest, ThreePhase.least, sqrt3By2]

/-- The modulator makes a little less of it: the constant is rounded down. -/
theorem modulator_stretches :
    Svm.duties (1 / 20) (19 / 20) ⟨0, 1⟩ 10 = Svm.centred (Svm.normalised ⟨0, 1⟩ 10) ∧
      (Svm.duties (1 / 20) (19 / 20) ⟨0, 1⟩ 10).toStator.beta * 10 ≠ 1 := by
  refine ⟨linear_beta, ?_⟩
  rw [linear_beta]
  unfold Svm.centred Svm.normalised
  rw [ThreePhase.toStator_shifted, ThreePhase.toStator_toThreePhase]
  norm_num [sqrt3By2]

theorem modulator_law_beta :
    InRange (1 / 20) (19 / 20) (Svm.duties (1 / 20) (19 / 20) ⟨0, 1⟩ 10) ∧
      (Svm.duties (1 / 20) (19 / 20) ⟨0, 1⟩ 10).greatest +
        (Svm.duties (1 / 20) (19 / 20) ⟨0, 1⟩ 10).least = 1 := by
  obtain ⟨range, -, unclamped, -⟩ :=
    modulator_law (1 / 20) (19 / 20) (by norm_num) ⟨0, 1⟩ 10 (by norm_num)
  exact ⟨range, (unclamped linear_beta).2.2⟩

end Unimoc.CurrentControl
