import Unimoc.Lib.ExtendedReal
import Unimoc.Units.Exact

/-! Exact arithmetic with the special values of the format: the same program over the
extended real numbers. -/
namespace Unimoc

noncomputable section

instance : Scalar ExtendedReal where
  add := ExtendedReal.add
  sub := ExtendedReal.sub
  mul := ExtendedReal.mul
  div := ExtendedReal.div
  neg := ExtendedReal.negate
  lt := ExtendedReal.Lt
  le := ExtendedReal.Le
  ofScientific mantissa negative exponent := .real (OfScientific.ofScientific mantissa negative exponent)
  decidableLt := Classical.decRel _
  decidableLe := Classical.decRel _
  isFinite := ExtendedReal.isFinite
  infinity := .infinite false
  sqrt := ExtendedReal.sqrt
  round
    | .real x => .real (Scalar.round x)
    | a => a
  ofUInt64 n := .real (Scalar.ofUInt64 n)
  toUInt64
    | .real x => Scalar.toUInt64 x
    | _ => 0

instance : Arithmetic ExtendedReal where
  Wide := ExtendedReal
  wide := inferInstance
  widen := id
  narrow := id
  ofReal32 bits := (Binary32.ofBits bits.toNat).extended
  toReal32
    | .real x => Arithmetic.toReal32 x
    | .infinite negative => UInt32.ofNat (Binary32.toBits (.infinite negative))
    | .nan => UInt32.ofNat (Binary32.toBits .nan)
  sinCos angle := (angle.map Real.sin, angle.map Real.cos)
  strtof text := ((Binary32.ofText text).1.extended, (Binary32.ofText text).2)

end

end Unimoc

namespace ExtendedReal

open Unimoc

variable (x y : ℝ)

@[simp] theorem scalar_zero : (Scalar.zero : ExtendedReal) = .real 0 := by
  change ExtendedReal.real _ = _
  norm_num

@[simp] theorem add_real : (.real x + .real y : ExtendedReal) = .real (x + y) := rfl

@[simp] theorem sub_real : (.real x - .real y : ExtendedReal) = .real (x - y) :=
  congrArg ExtendedReal.real (sub_eq_add_neg x y).symm

@[simp] theorem mul_real : (.real x * .real y : ExtendedReal) = .real (x * y) := rfl

@[simp] theorem neg_real : (-.real x : ExtendedReal) = .real (-x) := rfl

@[simp] theorem lt_real : (.real x < (.real y : ExtendedReal)) ↔ x < y := Iff.rfl

@[simp] theorem le_real : (.real x ≤ (.real y : ExtendedReal)) ↔ x ≤ y := Iff.rfl

@[simp] theorem finite_real : Scalar.isFinite (.real x : ExtendedReal) = true := rfl

theorem quotient_real {y : ℝ} (nonzero : y ≠ 0) : (.real x / .real y : ExtendedReal) = .real (x / y) :=
  div_real nonzero

@[simp] theorem max_real : Scalar.max (.real x : ExtendedReal) (.real y) = .real (max x y) := by
  unfold Scalar.max
  split_ifs with less
  · exact congrArg _ (max_eq_right (le_of_lt less)).symm
  · exact congrArg _ (max_eq_left (not_lt.mp less)).symm

@[simp] theorem min_real : Scalar.min (.real x : ExtendedReal) (.real y) = .real (min x y) := by
  unfold Scalar.min
  split_ifs with less
  · exact congrArg _ (min_eq_right (le_of_lt less)).symm
  · exact congrArg _ (min_eq_left (not_lt.mp less)).symm

@[simp] theorem clamp_real (value lower upper : ℝ) :
    Scalar.clamp (.real value : ExtendedReal) (.real lower) (.real upper) =
      .real (min (max value lower) upper) := by
  rw [Scalar.clamp, max_real, min_real]

@[simp] theorem abs_real : Scalar.abs (.real x : ExtendedReal) = .real |x| := by
  unfold Scalar.abs
  rw [scalar_zero]
  split_ifs with negative
  · exact congrArg _ (abs_of_neg negative).symm
  · exact congrArg _ (abs_of_nonneg (not_lt.mp negative)).symm

theorem hypot_real : Scalar.hypot (.real x : ExtendedReal) (.real y) = .real (Real.sqrt (x * x + y * y)) :=
  sqrt_real (add_nonneg (mul_self_nonneg x) (mul_self_nonneg y))

end ExtendedReal
