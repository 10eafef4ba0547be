import Unimoc.Units.Exact
import Unimoc.Settings.Validate

/-! The validation over exact numbers: that of single precision on the values of the registers. -/
namespace Unimoc.Settings

/-- The validation reads the values of the registers only. -/
theorem validate_congr {F : Type} [Arithmetic F] {s t : NvmSettings} (reals : ∀ r, (s.real r : F) = t.real r)
    (bytes : ∀ r, s.natural8 r = t.natural8 r) (words : ∀ r, s.natural16 r = t.natural16 r)
    (limits : HardwareCapabilities F) : validate s limits = validate t limits := by
  have ids : (hasPortIdCollision s) = hasPortIdCollision t := by
    have same : s.natural16 = t.natural16 := funext words
    unfold hasPortIdCollision
    simp only [same, bytes]
  unfold validate isFinite isValidEnumValues isNegative isPositive isNotAbove isRatio isGain exceeds
  simp only [ids, reals, bytes, words]

/-- A number that single precision has is stored as itself. -/
theorem nearestReal32_value {x : ℝ} {bits : UInt32} (pattern : (Binary32.ofBits bits.toNat).value = x) :
    (Binary32.ofBits (nearestReal32 x).toNat).value = x := by
  have nearest : ∃ closest : UInt32, ∀ other : UInt32,
      |x - (Binary32.ofBits closest.toNat).value| ≤ |x - (Binary32.ofBits other.toNat).value| := by
    refine ⟨bits, fun other => ?_⟩
    rw [pattern, sub_self, abs_zero]
    exact abs_nonneg _
  have same := Classical.epsilon_spec nearest bits
  rw [pattern, sub_self, abs_zero] at same
  exact (sub_eq_zero.mp (abs_nonpos_iff.mp same)).symm

/-- The exact number a value of single precision stands for. -/
structure Stands (x : ℝ) (b : Binary32) : Prop where
  finite : b.isFinite = true
  value : b.value = x

namespace Stands

variable {x y : ℝ} {a b : Binary32} (first : Stands x a) (second : Stands y b)
include first second

theorem lt : decide (x < y) = decide (a < b) := by
  have order := Binary.lt_value first.finite second.finite
  rw [first.value, second.value] at order
  exact decide_eq_decide.mpr order.symm

theorem le : decide (x ≤ y) = decide (a ≤ b) := by
  have order := Binary.le_value first.finite second.finite
  rw [first.value, second.value] at order
  exact decide_eq_decide.mpr order.symm

end Stands

theorem Stands.literal {x : ℝ} {b : Binary32} {m e : Int} (digits : b = .finite m e) (value : (m : ℝ) * 2 ^ e = x) :
    Stands x b := by
  subst digits
  exact ⟨rfl, value⟩

theorem stands_zero : Stands (Scalar.zero : ℝ) Scalar.zero :=
  @Stands.literal _ _ 0 0 (by decide) (by norm_num [Scalar.zero])

theorem stands_half : Stands (0.5 : ℝ) 0.5 := @Stands.literal _ _ 8388608 (-24) (by decide) (by norm_num)

theorem stands_one : Stands (1.0 : ℝ) 1.0 := @Stands.literal _ _ 8388608 (-23) (by decide) (by norm_num)

theorem stands_four : Stands (4.0 : ℝ) 4.0 := @Stands.literal _ _ 8388608 (-21) (by decide) (by norm_num)

theorem stands_ten : Stands (10.0 : ℝ) 10.0 := @Stands.literal _ _ 10485760 (-20) (by decide) (by norm_num)

theorem stands_twenty : Stands (20.0 : ℝ) 20.0 := @Stands.literal _ _ 10485760 (-19) (by decide) (by norm_num)

theorem stands_hundred : Stands (20.0 * 5.0 : ℝ) (20.0 * 5.0) :=
  @Stands.literal _ _ 13107200 (-17) (by decide) (by norm_num)

theorem stands_thousand : Stands (1000.0 : ℝ) 1000.0 := @Stands.literal _ _ 16384000 (-14) (by decide) (by norm_num)

/-- The limits of a target, as exact numbers. -/
structure StandLimits (exact : HardwareCapabilities ℝ) (limits : HardwareCapabilities Binary32) : Prop where
  phase : Stands exact.maxPhaseCurrent limits.maxPhaseCurrent
  motor : Stands exact.maxMotorCurrent limits.maxMotorCurrent
  drive : Stands exact.maxBatteryDriveCurrent limits.maxBatteryDriveCurrent
  charge : Stands exact.maxBatteryChargeCurrent limits.maxBatteryChargeCurrent
  voltage : Stands exact.maxDcLinkVoltage limits.maxDcLinkVoltage

section Checks

variable {s : NvmSettings} (finite : ∀ r, (s.real r : Binary32).isFinite = true)
include finite

theorem stands_real (r : Register) : Stands (s.real r : ℝ) (s.real r : Binary32) := ⟨finite r, rfl⟩

theorem isNegative_value (r : Register) : isNegative ℝ s r = isNegative Binary32 s r :=
  (stands_real finite r).lt stands_zero

theorem isPositive_value (r : Register) : isPositive ℝ s r = isPositive Binary32 s r :=
  stands_zero.lt (stands_real finite r)

theorem isNotAbove_value (r : Register) : isNotAbove ℝ s r = isNotAbove Binary32 s r :=
  (stands_real finite r).le stands_zero

theorem isRatio_value (r : Register) : isRatio ℝ s r = isRatio Binary32 s r :=
  congrArg₂ and (stands_zero.le (stands_real finite r)) ((stands_real finite r).le stands_one)

theorem isGain_value (r : Register) : isGain ℝ s r = isGain Binary32 s r :=
  congrArg₂ and (stands_zero.le (stands_real finite r)) ((stands_real finite r).le stands_twenty)

theorem exceeds_value (r : Register) {limit : ℝ} {b : Binary32} (stands : Stands limit b) :
    exceeds ℝ s r limit = exceeds Binary32 s r b := stands.lt (stands_real finite r)

theorem isFinite_value : isFinite ℝ s = isFinite Binary32 s := by
  have every : isFinite Binary32 s = true := List.all_eq_true.mpr fun r _ => finite r
  rw [every]
  exact List.all_eq_true.mpr fun _ _ => rfl

theorem isValidEnumValues_value : isValidEnumValues ℝ s = isValidEnumValues Binary32 s := by
  have equal {x : ℝ} {b : Binary32} (stands : Stands x b) :
      Scalar.eq (s.real .pwmFrequency) x = Scalar.eq (s.real .pwmFrequency) b :=
    congrArg₂ and ((stands_real finite _).le stands) (stands.le (stands_real finite _))
  have sixteen : Stands (16000.0 : ℝ) 16000.0 := @Stands.literal _ _ 16384000 (-10) (by decide) (by norm_num)
  have twenty : Stands (20000.0 : ℝ) 20000.0 := @Stands.literal _ _ 10240000 (-9) (by decide) (by norm_num)
  have twentyFour : Stands (24000.0 : ℝ) 24000.0 := @Stands.literal _ _ 12288000 (-9) (by decide) (by norm_num)
  have twentyEight : Stands (28000.0 : ℝ) 28000.0 := @Stands.literal _ _ 14336000 (-9) (by decide) (by norm_num)
  have thirtyTwo : Stands (32000.0 : ℝ) 32000.0 := @Stands.literal _ _ 16384000 (-9) (by decide) (by norm_num)
  unfold isValidEnumValues
  simp only [List.any_cons, List.any_nil, equal sixteen, equal twenty, equal twentyFour, equal twentyEight,
    equal thirtyTwo]

/-- Settings with finite registers are accepted over exact numbers when they are in single precision. -/
theorem validate_value {exact : HardwareCapabilities ℝ} {limits : HardwareCapabilities Binary32}
    (stand : StandLimits exact limits) : validate s exact = validate s limits := by
  have ordered (r q : Register) : decide ((s.real r : ℝ) ≤ s.real q) = decide ((s.real r : Binary32) ≤ s.real q) :=
    (stands_real finite r).le (stands_real finite q)
  have below (r q : Register) : decide ((s.real r : ℝ) < s.real q) = decide ((s.real r : Binary32) < s.real q) :=
    (stands_real finite r).lt (stands_real finite q)
  have short (r : Register) : decide ((s.real r : ℝ) < 0.5) = decide ((s.real r : Binary32) < 0.5) :=
    (stands_real finite r).lt stands_half
  unfold validate
  simp only [isFinite_value finite, isValidEnumValues_value finite, isNegative_value finite, isPositive_value finite,
    isNotAbove_value finite, isRatio_value finite, isGain_value finite, exceeds_value finite _ stand.motor,
    exceeds_value finite _ stand.drive, exceeds_value finite _ stand.charge, exceeds_value finite _ stand.voltage,
    exceeds_value finite _ stands_thousand, exceeds_value finite _ stands_ten, exceeds_value finite _ stands_four,
    exceeds_value finite _ stands_hundred, exceeds_value finite _ (stands_real finite _), ordered, below, short]

end Checks

end Unimoc.Settings
