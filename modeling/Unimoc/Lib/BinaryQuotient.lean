import Mathlib.Tactic.FieldSimp
import Unimoc.Lib.BinaryError

/-! The quotient of a binary format: enough digits of it are rounded, and the last one tells whether
there are more. -/
namespace Binary

variable {precision : Nat} {least limit : Int}

/-- What is rounded for a quotient, with the digit that says it is not exact. -/
def sticky (precision n d : Nat) : Nat :=
  2 * (n * 2 ^ (precision + 3 + Nat.log2 d) / d) + if n * 2 ^ (precision + 3 + Nat.log2 d) % d = 0 then 0 else 1

theorem sticky_close {n d : Nat} (some : d ≠ 0) :
    |(sticky precision n d : ℝ) - n / d * 2 ^ (precision + 3 + Nat.log2 d + 1)| ≤
      n / d * 2 ^ (precision + 3 + Nat.log2 d + 1) / 2 ^ (precision + 3) := by
  generalize shift : precision + 3 + Nat.log2 d = digits
  have divisor : (0 : ℝ) < d := by exact_mod_cast Nat.pos_of_ne_zero some
  have number : (n : ℝ) / d * 2 ^ (digits + 1) = 2 * ((n * 2 ^ digits : Nat) / d) := by
    push_cast
    ring
  unfold sticky
  rw [shift, number]
  have divided := Nat.div_add_mod (n * 2 ^ digits) d
  have rest := Nat.mod_lt (n * 2 ^ digits) (Nat.pos_of_ne_zero some)
  split_ifs with none
  · have whole : ((n * 2 ^ digits : Nat) : ℝ) / d = (n * 2 ^ digits / d : Nat) := by
      rw [div_eq_iff divisor.ne']
      rw [none, add_zero] at divided
      rw [← Nat.cast_mul, Nat.mul_comm _ d, divided]
    rw [whole]
    push_cast
    rw [add_zero, sub_self, abs_zero]
    positivity
  · have parts : ((n * 2 ^ digits : Nat) : ℝ) / d =
        (n * 2 ^ digits / d : Nat) + (n * 2 ^ digits % d : Nat) / d := by
      rw [div_eq_iff divisor.ne', add_mul, div_mul_cancel₀ _ divisor.ne', ← Nat.cast_mul, Nat.mul_comm _ d,
        ← Nat.cast_add, divided]
    have share : ((n * 2 ^ digits % d : Nat) : ℝ) / d ≤ 1 := by
      rw [div_le_one divisor]
      exact_mod_cast rest.le
    have nonneg : 0 ≤ ((n * 2 ^ digits % d : Nat) : ℝ) / d := by positivity
    have close : |((2 * (n * 2 ^ digits / d) + 1 : Nat) : ℝ) - 2 * ((n * 2 ^ digits : Nat) / d)| ≤ 1 := by
      rw [parts, abs_le]
      push_cast
      constructor <;> linarith
    -- one unit is below the last digits that are kept
    have many : (2 : ℝ) ^ (precision + 3) ≤ 2 * ((n * 2 ^ digits : Nat) / d) := by
      have size : d < 2 ^ (Nat.log2 d + 1) := Nat.lt_log2_self
      have one : 1 ≤ n := Nat.one_le_iff_ne_zero.mpr fun zero => none (by rw [zero, Nat.zero_mul, Nat.zero_mod])
      have product : 2 ^ (precision + 3) * d ≤ 2 * (n * 2 ^ digits) := by
        calc 2 ^ (precision + 3) * d ≤ 2 ^ (precision + 3) * 2 ^ (Nat.log2 d + 1) := Nat.mul_le_mul_left _ size.le
          _ = 2 * (1 * 2 ^ digits) := by rw [← shift]; ring
          _ ≤ 2 * (n * 2 ^ digits) := by gcongr
      rw [← mul_div_assoc, le_div_iff₀ divisor]
      exact_mod_cast product
    refine close.trans ?_
    rw [le_div_iff₀ (by positivity), one_mul]
    exact many

theorem sticky_mono {n k : Nat} (order : n ≤ k) (d : Nat) : sticky precision n d ≤ sticky precision k d := by
  unfold sticky
  have scaled : n * 2 ^ (precision + 3 + Nat.log2 d) ≤ k * 2 ^ (precision + 3 + Nat.log2 d) :=
    Nat.mul_le_mul_right _ order
  generalize n * 2 ^ (precision + 3 + Nat.log2 d) = small at scaled ⊢
  generalize k * 2 ^ (precision + 3 + Nat.log2 d) = large at scaled ⊢
  have quotients : small / d ≤ large / d := Nat.div_le_div_right scaled
  rcases quotients.lt_or_eq with less | same
  · split_ifs <;> omega
  · -- with the same quotient the smaller number has the smaller rest
    have rests : small % d ≤ large % d := by
      have first := Nat.div_add_mod small d
      have second := Nat.div_add_mod large d
      rw [same] at first
      omega
    split_ifs <;> omega

theorem roundQuotient_eq (negative : Bool) (n d : Nat) (exponent : Int) :
    (roundQuotient negative n d exponent : Binary precision least limit) =
      round negative (sticky precision n d) (exponent - (precision + 3 + Nat.log2 d : Nat) - 1) := rfl

theorem roundQuotient_mono (digits : 0 < precision) (fine : least ≤ 0) {n k d : Nat} {exponent : Int} (order : n ≤ k)
    (first : (roundQuotient false n d exponent : Binary precision least limit).isFinite = true)
    (second : (roundQuotient false k d exponent : Binary precision least limit).isFinite = true) :
    (roundQuotient false n d exponent : Binary precision least limit).value ≤
      (roundQuotient false k d exponent : Binary precision least limit).value :=
  round_mono digits fine (sticky_mono order d) first second

theorem quotient_sign {m k : Int} (some : k ≠ 0) : (m : ℝ) / k < 0 ↔ m * k < 0 := by
  have nonzero : (k : ℝ) ≠ 0 := by exact_mod_cast some
  have square : (0 : ℝ) < (k : ℝ) ^ 2 := by positivity
  have real : ((m * k : Int) : ℝ) = m / k * k ^ 2 := by
    rw [Int.cast_mul]
    field_simp
  rw [← Int.cast_lt_zero (R := ℝ), real]
  exact ⟨fun negative => mul_neg_of_neg_of_pos negative square, fun negative => neg_of_mul_neg_left negative square.le⟩

/-- The number that is rounded for a quotient. -/
theorem scaled_sticky {m k : Int} (some : k ≠ 0) (exponent : Int) :
    |scaled (decide (m * k < 0)) (sticky precision m.natAbs k.natAbs)
        (exponent - (precision + 3 + Nat.log2 k.natAbs : Nat) - 1) - m / k * 2 ^ exponent| ≤
      |m / k * (2 : ℝ) ^ exponent| / 2 ^ (precision + 3) := by
  have close := @sticky_close precision m.natAbs k.natAbs (Int.natAbs_ne_zero.mpr some)
  generalize precision + 3 + Nat.log2 k.natAbs = digits at close ⊢
  have unit : (0 : ℝ) < 2 ^ (exponent - digits - 1) := by positivity
  have split : (2 : ℝ) ^ (digits + 1) * 2 ^ (exponent - digits - 1) = 2 ^ exponent := by
    rw [← zpow_natCast, ← zpow_add₀ two_ne_zero]
    congr 1
    push_cast
    ring
  have size : (m.natAbs : ℝ) / k.natAbs * 2 ^ (digits + 1) * 2 ^ (exponent - digits - 1) = |(m : ℝ) / k| * 2 ^ exponent := by
    rw [mul_assoc, split, abs_div, Nat.cast_natAbs, Nat.cast_natAbs, Int.cast_abs, Int.cast_abs]
  obtain ⟨sign, one, signed, rounded⟩ : ∃ sign : ℝ, |sign| = 1 ∧ (m : ℝ) / k = sign * |(m : ℝ) / k| ∧
      scaled (decide (m * k < 0)) (sticky precision m.natAbs k.natAbs) (exponent - digits - 1) =
        sign * (sticky precision m.natAbs k.natAbs * 2 ^ (exponent - digits - 1)) := by
    by_cases negative : m * k < 0
    · have below := (quotient_sign some).mpr negative
      refine ⟨-1, by norm_num, by rw [abs_of_neg below]; ring, ?_⟩
      rw [scaled, decide_eq_true negative, if_pos rfl, neg_one_mul, neg_mul]
    · have above := not_lt.mp (mt (quotient_sign some).mp negative)
      refine ⟨1, by norm_num, by rw [abs_of_nonneg above, one_mul], ?_⟩
      rw [scaled, decide_eq_false negative, if_neg (by decide), one_mul]
  rw [rounded, signed, mul_assoc, ← size, ← mul_sub, abs_mul, one, one_mul, abs_mul, one, one_mul, ← sub_mul, abs_mul,
    abs_of_pos unit, abs_of_nonneg (a := (m.natAbs : ℝ) / k.natAbs * 2 ^ (digits + 1) * _) (by positivity),
    mul_div_right_comm]
  exact mul_le_mul_of_nonneg_right close unit.le

theorem round_infinite {negative : Bool} {n : Nat} {exponent : Int}
    (infinite : (round negative n exponent : Binary precision least limit).isFinite = false) :
    (round negative n exponent : Binary precision least limit) = .infinite negative := by
  by_cases none : n = 0
  · subst none
    cases infinite
  · rw [round_eq none] at infinite ⊢
    dsimp only at infinite ⊢
    generalize unitOf precision least n exponent = unit at infinite ⊢
    generalize significandOf n exponent unit = significand at infinite ⊢
    split_ifs at infinite ⊢
    · cases infinite
    · rfl
    · cases infinite
    · cases infinite

theorem abs_scaled (negative : Bool) (n : Nat) (exponent : Int) : |scaled negative n exponent| = n * 2 ^ exponent := by
  have unit : (0 : ℝ) ≤ n * 2 ^ exponent := by positivity
  unfold scaled
  split_ifs
  · rw [neg_mul, abs_neg, abs_of_nonneg unit]
  · exact abs_of_nonneg unit

/-- A quotient is finite and near, or infinite because it is large. -/
theorem div_close (digits : 0 < precision) (room : least + precision < limit) {a b : Binary precision least limit}
    (first : a.isFinite = true) (second : b.isFinite = true) (nonzero : b.value ≠ 0) :
    (a.div b).isFinite = true ∧
        |(a.div b).value - a.value / b.value| ≤ |a.value / b.value| / 2 ^ (precision + 3) +
          rounding precision least (|a.value / b.value| + |a.value / b.value| / 2 ^ (precision + 3)) ∨
      (∃ negative, a.div b = .infinite negative ∧ (negative = true → a.value / b.value < 0)) ∧
        2 ^ (limit - 1) ≤ |a.value / b.value| + |a.value / b.value| / 2 ^ (precision + 3) := by
  cases a with
  | nan | infinite _ => cases first
  | finite m e =>
    cases b with
    | nan | infinite _ => cases second
    | finite k f =>
      have some : k ≠ 0 := by
        rintro rfl
        exact nonzero (by simp [value])
      have number : value (finite m e : Binary precision least limit) / value (finite k f : Binary precision least limit) =
          m / k * 2 ^ (e - f) := by
        simp only [value]
        rw [zpow_sub₀ two_ne_zero, mul_div_mul_comm]
      have close := @scaled_sticky precision m k some (e - f)
      have quotient : (div (finite m e) (finite k f) : Binary precision least limit) =
          round (m * k < 0) (sticky precision m.natAbs k.natAbs) (e - f - (precision + 3 + Nat.log2 k.natAbs : Nat) - 1) := by
        unfold div
        dsimp only
        rw [if_neg some, roundQuotient_eq]
      rw [number, quotient]
      have triangle := abs_sub_abs_le_abs_sub
        (scaled (decide (m * k < 0)) (sticky precision m.natAbs k.natAbs)
          (e - f - (precision + 3 + Nat.log2 k.natAbs : Nat) - 1)) ((m : ℝ) / k * 2 ^ (e - f))
      cases finite : (round (m * k < 0) (sticky precision m.natAbs k.natAbs)
          (e - f - (precision + 3 + Nat.log2 k.natAbs : Nat) - 1) : Binary precision least limit).isFinite with
      | true =>
        have near := (round_nearest digits finite).relative digits
        have wider := rounding_mono precision least (show
          |scaled (decide (m * k < 0)) (sticky precision m.natAbs k.natAbs)
            (e - f - (precision + 3 + Nat.log2 k.natAbs : Nat) - 1)| ≤
          |(m : ℝ) / k * 2 ^ (e - f)| + |(m : ℝ) / k * 2 ^ (e - f)| / 2 ^ (precision + 3) by linarith)
        refine .inl ⟨rfl, (abs_sub_le _ (scaled (decide (m * k < 0)) (sticky precision m.natAbs k.natAbs)
          (e - f - (precision + 3 + Nat.log2 k.natAbs : Nat) - 1)) _).trans ?_⟩
        rw [add_comm]
        exact add_le_add close (near.trans wider)
      | false =>
        refine .inr ⟨⟨_, round_infinite finite, fun negative => ?_⟩, ?_⟩
        · exact mul_neg_of_neg_of_pos ((quotient_sign some).mpr (of_decide_eq_true negative)) (by positivity)
        by_contra small
        rw [abs_scaled] at triangle
        have below : (sticky precision m.natAbs k.natAbs : ℝ) *
            2 ^ (e - f - (precision + 3 + Nat.log2 k.natAbs : Nat) - 1) < 2 ^ (limit - 1) :=
          lt_of_le_of_lt (by linarith) (not_le.mp small)
        have inside := round_isFinite room (decide (m * k < 0)) below
        rw [finite] at inside
        cases inside

end Binary
