import Mathlib.Algebra.Order.Field.Power
import Mathlib.Data.EReal.Basic
import Mathlib.Data.Real.Basic
import Unimoc.Lib.Binary

/-! The real number a finite value of a binary format stands for, and its order. -/
namespace Binary

variable {precision : Nat} {least limit : Int}

/-- 0 for what is not finite. -/
noncomputable def value : Binary precision least limit → ℝ
  | .finite m e => m * (2 : ℝ) ^ e
  | _ => 0

/-- `n * 2 ^ exponent`, with a sign. -/
noncomputable def scaled (negative : Bool) (n : Nat) (exponent : Int) : ℝ :=
  (if negative then -(n : ℝ) else n) * (2 : ℝ) ^ exponent

/-- The significand and the exponent of the number are those of the format. -/
def Has (precision : Nat) (least : Int) (x : ℝ) : Prop :=
  ∃ m e : Int, |m| < 2 ^ precision ∧ least ≤ e ∧ x = m * (2 : ℝ) ^ e

/-- Nothing with a significand and an exponent of the format is closer. -/
def Nearest (x : ℝ) (b : Binary precision least limit) : Prop :=
  ∀ m e : Int, |m| < 2 ^ precision → least ≤ e → |x - b.value| ≤ |x - m * (2 : ℝ) ^ e|

theorem align_value (m e n f : Int) :
    ((align m e n f).1 : ℝ) * 2 ^ min e f = m * (2 : ℝ) ^ e ∧
      ((align m e n f).2.1 : ℝ) * 2 ^ min e f = n * (2 : ℝ) ^ f := by
  have shift (e low : Int) (below : low ≤ e) : (2 : ℝ) ^ (e - low).toNat * 2 ^ low = 2 ^ e := by
    have exponent : ((e - low).toNat : Int) = e - low := Int.toNat_of_nonneg (by omega)
    rw [← zpow_natCast, exponent, ← zpow_add₀ (by norm_num : (2 : ℝ) ≠ 0), sub_add_cancel]
  unfold align
  push_cast
  exact ⟨by rw [mul_assoc, shift e _ (min_le_left e f)], by rw [mul_assoc, shift f _ (min_le_right e f)]⟩

theorem lt_value {a b : Binary precision least limit} (first : a.isFinite = true) (second : b.isFinite = true) :
    a.lt b = true ↔ a.value < b.value := by
  cases a with
  | finite m e =>
    cases b with
    | finite n f =>
      obtain ⟨one, other⟩ := align_value m e n f
      have positive : (0 : ℝ) < 2 ^ min e f := by positivity
      simp only [lt, value, decide_eq_true_eq]
      rw [← one, ← other, mul_lt_mul_iff_left₀ positive, Int.cast_lt]
    | nan | infinite _ => simp [isFinite] at second
  | nan | infinite _ => simp [isFinite] at first

theorem le_value {a b : Binary precision least limit} (first : a.isFinite = true) (second : b.isFinite = true) :
    a.le b = true ↔ a.value ≤ b.value := by
  cases a with
  | finite m e =>
    cases b with
    | finite n f =>
      obtain ⟨one, other⟩ := align_value m e n f
      have positive : (0 : ℝ) < 2 ^ min e f := by positivity
      simp only [le, value, decide_eq_true_eq]
      rw [← one, ← other, mul_le_mul_iff_left₀ positive, Int.cast_le]
    | nan | infinite _ => simp [isFinite] at second
  | nan | infinite _ => simp [isFinite] at first

/-- With the infinities; 0 for what is not a number. -/
noncomputable def toEReal : Binary precision least limit → EReal
  | .nan => 0
  | .infinite true => ⊥
  | .infinite false => ⊤
  | .finite m e => (value (finite m e : Binary precision least limit) : EReal)

theorem lt_toEReal {a b : Binary precision least limit} (first : a ≠ .nan) (second : b ≠ .nan) :
    a.lt b = true ↔ a.toEReal < b.toEReal := by
  cases a with
  | nan => exact absurd rfl first
  | infinite s =>
    cases b with
    | nan => exact absurd rfl second
    | infinite t => cases s <;> cases t <;> simp [lt, toEReal]
    | finite n f => cases s <;> simp [lt, toEReal]
  | finite m e =>
    cases b with
    | nan => exact absurd rfl second
    | infinite t => cases t <;> simp [lt, toEReal]
    | finite n f => exact (lt_value rfl rfl).trans EReal.coe_lt_coe_iff.symm

/-! ### Results that are numbers -/

theorem round_number (negative : Bool) (n : Nat) (exponent : Int) :
    (round negative n exponent : Binary precision least limit) ≠ .nan := by
  unfold round zero
  dsimp only
  split_ifs <;> nofun

theorem sqrt_number {x : Binary precision least limit} (positive : zero.lt x = true) : x.sqrt ≠ .nan := by
  cases x with
  | nan => cases positive
  | infinite s =>
    cases s with
    | true => cases positive
    | false => nofun
  | finite m e =>
    have above : 0 < m := by
      have value := (lt_value rfl rfl).mp positive
      simp only [zero, Binary.value, Int.cast_zero, zero_mul] at value
      have power : (0 : ℝ) < 2 ^ e := by positivity
      exact Int.cast_pos.mp (pos_of_mul_pos_left value power.le)
    unfold sqrt
    dsimp only
    rw [if_neg (not_lt.mpr above.le)]
    exact round_number _ _ _

end Binary
