import Mathlib.Analysis.SpecialFunctions.Pow.NNReal
import Unimoc.Lib.BinaryValue

/-! The real numbers with the special values of floating point: what a program computes that
never rounds. Zero carries no sign and counts as positive. -/

inductive ExtendedReal where
  | nan
  | infinite (negative : Bool)
  | real (value : ℝ)

namespace ExtendedReal

noncomputable section

open Classical

def negate : ExtendedReal → ExtendedReal
  | .nan => .nan
  | .infinite s => .infinite !s
  | .real x => .real (-x)

def add : ExtendedReal → ExtendedReal → ExtendedReal
  | .real x, .real y => .real (x + y)
  | .infinite s, .infinite t => if s = t then .infinite s else .nan
  | .infinite s, .real _ => .infinite s
  | .real _, .infinite t => .infinite t
  | _, _ => .nan

def sub (a b : ExtendedReal) : ExtendedReal := add a (negate b)

def mul : ExtendedReal → ExtendedReal → ExtendedReal
  | .real x, .real y => .real (x * y)
  | .infinite s, .infinite t => .infinite (s != t)
  | .infinite s, .real y => if y = 0 then .nan else .infinite (s != decide (y < 0))
  | .real x, .infinite t => if x = 0 then .nan else .infinite (t != decide (x < 0))
  | _, _ => .nan

def div : ExtendedReal → ExtendedReal → ExtendedReal
  | .real x, .real y =>
    if y = 0 then if x = 0 then .nan else .infinite (x < 0)
    else .real (x / y)
  | .infinite s, .real y => .infinite (s != decide (y < 0))
  | .real _, .infinite _ => .real 0
  | _, _ => .nan

def sqrt : ExtendedReal → ExtendedReal
  | .real x => if x < 0 then .nan else .real (Real.sqrt x)
  | .infinite false => .infinite false
  | _ => .nan

/-- What a function makes of a real number; no special value has a value. -/
def map (f : ℝ → ℝ) : ExtendedReal → ExtendedReal
  | .real x => .real (f x)
  | _ => .nan

end

/-- Comparisons with what is not a number are false. -/
def Lt : ExtendedReal → ExtendedReal → Prop
  | .real x, .real y => x < y
  | .infinite s, .infinite t => s = true ∧ t = false
  | .infinite s, .real _ => s = true
  | .real _, .infinite t => t = false
  | _, _ => False

def Le : ExtendedReal → ExtendedReal → Prop
  | .real x, .real y => x ≤ y
  | .infinite s, .infinite t => s = true ∨ t = false
  | .infinite s, .real _ => s = true
  | .real _, .infinite t => t = false
  | _, _ => False

def isFinite : ExtendedReal → Bool
  | .real _ => true
  | _ => false

/-- 0 for a special value. -/
noncomputable def toReal : ExtendedReal → ℝ
  | .real x => x
  | _ => 0

theorem isFinite_real {a : ExtendedReal} (finite : a.isFinite = true) : ∃ x, a = .real x := by
  cases a with
  | real x => exact ⟨x, rfl⟩
  | nan => cases finite
  | infinite s => cases finite

theorem div_real {x y : ℝ} (nonzero : y ≠ 0) : div (.real x) (.real y) = .real (x / y) := if_neg nonzero

theorem sqrt_real {x : ℝ} (nonneg : 0 ≤ x) : sqrt (.real x) = .real (Real.sqrt x) :=
  if_neg (not_lt.mpr nonneg)

theorem infinite_mul {y : ℝ} (nonzero : y ≠ 0) (s : Bool) :
    mul (.infinite s) (.real y) = .infinite (s != decide (y < 0)) := if_neg nonzero

theorem infinite_mul_zero (s : Bool) : mul (.infinite s) (.real 0) = .nan := if_pos rfl

theorem not_nan_lt (a : ExtendedReal) : ¬nan.Lt a := by
  cases a <;> exact id

theorem not_lt_nan (a : ExtendedReal) : ¬a.Lt nan := by
  cases a <;> exact id

theorem not_infinite_lt (a : ExtendedReal) : ¬(infinite false).Lt a := by
  cases a with
  | real x => exact Bool.false_ne_true
  | nan => exact id
  | infinite s => exact fun less => Bool.false_ne_true less.1

theorem div_above {bound : ℝ} (nonneg : 0 ≤ bound) {power : ExtendedReal} (above : (real bound).Lt power) :
    ∃ ratio, 0 ≤ ratio ∧ ratio ≤ 1 ∧ div (.real bound) power = .real ratio := by
  cases power with
  | nan => exact absurd above id
  | infinite s => exact ⟨0, le_refl 0, zero_le_one, rfl⟩
  | real p =>
    have positive : 0 < p := nonneg.trans_lt above
    exact ⟨bound / p, div_nonneg nonneg positive.le, (div_le_one positive).mpr (le_of_lt above),
      div_real positive.ne'⟩

theorem div_below {bound : ℝ} (nonpos : bound ≤ 0) {power : ExtendedReal} (below : power.Lt (real bound)) :
    ∃ ratio, 0 ≤ ratio ∧ ratio ≤ 1 ∧ div (.real bound) power = .real ratio := by
  cases power with
  | nan => exact absurd below id
  | infinite s => exact ⟨0, le_refl 0, zero_le_one, rfl⟩
  | real p =>
    have negative : p < 0 := lt_of_lt_of_le below nonpos
    exact ⟨bound / p, div_nonneg_of_nonpos nonpos negative.le,
      (div_le_one_of_neg negative).mpr (le_of_lt below), div_real negative.ne⟩

end ExtendedReal

/-- The number a value of a binary format stands for. -/
noncomputable def Binary.extended {precision : Nat} {least limit : Int} :
    Binary precision least limit → ExtendedReal
  | .nan => .nan
  | .infinite negative => .infinite negative
  | .finite m e => .real (Binary.finite m e : Binary precision least limit).value

theorem Binary.extended_finite {precision : Nat} {least limit : Int} {b : Binary precision least limit}
    (finite : b.isFinite = true) : b.extended = .real b.value := by
  cases b with
  | finite m e => rfl
  | nan => cases finite
  | infinite s => cases finite
