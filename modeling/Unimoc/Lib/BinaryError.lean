import Unimoc.Lib.BinaryExact

/-! Forward errors of a binary format: how far a result is from what it stands for. -/
namespace Binary

variable {precision : Nat} {least limit : Int}

theorem exists_multiple {grid : ℝ} (positive : 0 < grid) (y : ℝ) : ∃ j : ℤ, |y - j * grid| ≤ grid / 2 := by
  refine ⟨⌊y / grid + 1 / 2⌋, ?_⟩
  have low := Int.floor_le (y / grid + 1 / 2)
  have high := Int.lt_floor_add_one (y / grid + 1 / 2)
  have scaled : y = y / grid * grid := (div_mul_cancel₀ y positive.ne').symm
  have parts : y - ⌊y / grid + 1 / 2⌋ * grid = (y / grid - ⌊y / grid + 1 / 2⌋) * grid := by
    rw [sub_mul, ← scaled]
  rw [parts, abs_mul, abs_of_pos positive, div_eq_mul_one_div grid, mul_comm grid]
  exact mul_le_mul_of_nonneg_right (abs_le.mpr ⟨by linarith, by linarith⟩) positive.le

/-- The steps of a binade are values of the format, its end included. -/
theorem Has.multiple (digits : 0 < precision) {j unit : ℤ} (few : |j| ≤ 2 ^ precision) (fine : least ≤ unit) :
    Has precision least (j * (2 : ℝ) ^ unit) := by
  rcases few.lt_or_eq with inside | full
  · exact ⟨j, unit, inside, fine, rfl⟩
  · obtain ⟨rest, rfl⟩ : ∃ rest, precision = rest + 1 := ⟨precision - 1, by omega⟩
    obtain ⟨sign, magnitude, whole⟩ : ∃ sign : ℤ, |sign| = 1 ∧ j = sign * 2 ^ (rest + 1) := by
      rcases abs_choice j with same | opposite
      · exact ⟨1, by simp, by rw [one_mul, ← full, same]⟩
      · exact ⟨-1, by simp, by rw [neg_one_mul, ← full, opposite, neg_neg]⟩
    refine ⟨sign * 2 ^ rest, unit + 1, ?_, by omega, ?_⟩
    · rw [abs_mul, magnitude, one_mul, abs_of_pos (by positivity)]
      exact pow_lt_pow_right₀ (by norm_num) (Nat.lt_succ_self rest)
    · rw [whole, zpow_add_one₀ two_ne_zero]
      push_cast
      ring

/-- Half a unit of the last place below `2 ^ size`. -/
theorem Nearest.error {x : ℝ} {b : Binary precision least limit} (nearest : Nearest x b) (digits : 0 < precision)
    {size : ℤ} (bound : |x| ≤ 2 ^ size) (fine : least ≤ size - precision) :
    |b.value - x| ≤ 2 ^ (size - precision - 1) := by
  have grid : (0 : ℝ) < 2 ^ (size - precision) := by positivity
  have steps : (2 : ℝ) ^ precision * 2 ^ (size - precision) = 2 ^ size := by
    rw [← zpow_natCast, ← zpow_add₀ two_ne_zero, add_sub_cancel]
  have half : (2 : ℝ) ^ (size - precision - 1) = 2 ^ (size - precision) / 2 := zpow_sub_one₀ two_ne_zero _
  obtain ⟨j, close⟩ := exists_multiple grid x
  have few : |j| ≤ 2 ^ precision := by
    have real : (|j| : ℝ) * 2 ^ (size - precision) ≤ (2 ^ precision + 1 / 2) * 2 ^ (size - precision) := by
      have triangle := abs_sub_abs_le_abs_sub (j * (2 : ℝ) ^ (size - precision)) x
      rw [abs_sub_comm, abs_mul, abs_of_pos grid] at triangle
      rw [add_mul, steps]
      linarith
    have below : ((|j| : ℤ) : ℝ) < (2 ^ precision + 1 : ℤ) := by
      push_cast
      linarith [le_of_mul_le_mul_right real grid]
    exact Int.lt_add_one_iff.mp (by exact_mod_cast below)
  rw [abs_sub_comm, half]
  exact (nearest.closest (Has.multiple digits few fine)).trans close

/-- Half a unit of the last place of a number, and of the least one. -/
noncomputable def rounding (precision : Nat) (least : ℤ) (magnitude : ℝ) : ℝ :=
  magnitude / (2 ^ precision : Nat) + ((2 : Nat) : ℝ) ^ (least - 1)

theorem rounding_eq (precision : Nat) (least : ℤ) (magnitude : ℝ) :
    rounding precision least magnitude = magnitude / 2 ^ precision + 2 ^ (least - 1) := by
  norm_num [rounding]

theorem rounding_mono (precision : Nat) (least : ℤ) {first second : ℝ} (order : first ≤ second) :
    rounding precision least first ≤ rounding precision least second := by
  rw [rounding_eq, rounding_eq]
  gcongr

theorem Nearest.relative {x : ℝ} {b : Binary precision least limit} (nearest : Nearest x b) (digits : 0 < precision) :
    |b.value - x| ≤ rounding precision least |x| := by
  rw [rounding_eq]
  have tiny : (0 : ℝ) < 2 ^ (least - 1) := by positivity
  rcases le_or_gt |x| (2 ^ (least + precision)) with small | large
  · have error := nearest.error digits small (by omega)
    rw [add_sub_cancel_right] at error
    exact error.trans (le_add_of_nonneg_left (by positivity))
  · have positive : 0 < |x| := lt_trans (by positivity) large
    obtain ⟨size, low, high⟩ := exists_mem_Ioc_zpow positive (one_lt_two (α := ℝ))
    have room : least + precision < size + 1 := by
      by_contra beyond
      exact absurd (high.trans (zpow_le_zpow_right₀ one_le_two (not_lt.mp beyond))) (not_le.mpr large)
    have error := nearest.error digits high (by omega)
    have unitEq : (2 : ℝ) ^ (size + 1 - precision - 1) = 2 ^ size / 2 ^ precision := by
      rw [← zpow_natCast, ← zpow_sub₀ two_ne_zero]
      congr 1
      ring
    rw [unitEq] at error
    have share : (2 : ℝ) ^ size / 2 ^ precision ≤ |x| / 2 ^ precision := by gcongr
    linarith

/-- A finite value, so close to a number. -/
structure Within (x error : ℝ) (b : Binary precision least limit) : Prop where
  finite : b.isFinite = true
  close : |b.value - x| ≤ error

section Within

variable {x y error other : ℝ} {a b : Binary precision least limit}

theorem Within.mono (within : Within x error a) (wider : error ≤ other) : Within x other a :=
  ⟨within.finite, within.close.trans wider⟩

theorem Within.magnitude (within : Within x error a) : |a.value| ≤ |x| + error := by
  have triangle := abs_sub_abs_le_abs_sub a.value x
  linarith [within.close]

theorem Within.nonneg (within : Within x error a) : 0 ≤ error := (abs_nonneg _).trans within.close

theorem Within.exact (finite : a.isFinite = true) : Within a.value 0 a := ⟨finite, by rw [sub_self, abs_zero]⟩

theorem Within.negate (within : Within x error a) : Within (-x) error a.negate := by
  refine ⟨(negate_isFinite a).trans within.finite, ?_⟩
  rw [negate_value, neg_sub_neg, abs_sub_comm]
  exact within.close

/-- The rounded result of operands that are off. -/
theorem Rounded.within {number : ℝ} (rounded : Rounded number a) (digits : 0 < precision) (off : |number - x| ≤ error) :
    Within x (error + rounding precision least (|x| + error)) a := by
  have near := rounded.nearest.relative digits
  have magnitude : |number| ≤ |x| + error := by
    have triangle := abs_sub_abs_le_abs_sub number x
    linarith
  refine ⟨rounded.finite, ?_⟩
  calc |a.value - x| ≤ |a.value - number| + |number - x| := abs_sub_le _ _ _
    _ ≤ error + rounding precision least (|x| + error) := by linarith [rounding_mono precision least magnitude]

variable (digits : 0 < precision) (room : least + precision < limit) (first : Within x error a)
  (second : Within y other b)
include digits room first second

theorem Within.add (bound : |x + y| + (error + other) < 2 ^ (limit - 1)) :
    Within (x + y) (error + other + rounding precision least (|x + y| + (error + other))) (a.add b) := by
  have off : |(a.value + b.value) - (x + y)| ≤ error + other := by
    rw [add_sub_add_comm]
    exact (abs_add_le _ _).trans (add_le_add first.close second.close)
  have triangle := abs_sub_abs_le_abs_sub (a.value + b.value) (x + y)
  exact (add_rounded digits room first.finite second.finite (by linarith)).within digits off

theorem Within.sub (bound : |x - y| + (error + other) < 2 ^ (limit - 1)) :
    Within (x - y) (error + other + rounding precision least (|x - y| + (error + other))) (a.sub b) := by
  rw [sub_eq_add_neg] at bound ⊢
  exact Within.add digits room first second.negate bound

theorem Within.mul (bound : |x * y| + (error * (|y| + other) + |x| * other) < 2 ^ (limit - 1)) :
    Within (x * y) (error * (|y| + other) + |x| * other +
      rounding precision least (|x * y| + (error * (|y| + other) + |x| * other))) (a.mul b) := by
  have off : |a.value * b.value - x * y| ≤ error * (|y| + other) + |x| * other := by
    have parts : a.value * b.value - x * y = (a.value - x) * b.value + x * (b.value - y) := by ring
    rw [parts]
    refine (abs_add_le _ _).trans ?_
    rw [abs_mul, abs_mul]
    exact add_le_add (mul_le_mul first.close second.magnitude (abs_nonneg _) first.nonneg)
      (mul_le_mul_of_nonneg_left second.close (abs_nonneg _))
  have triangle := abs_sub_abs_le_abs_sub (a.value * b.value) (x * y)
  exact (mul_rounded digits room first.finite second.finite (by linarith)).within digits off

end Within

end Binary
