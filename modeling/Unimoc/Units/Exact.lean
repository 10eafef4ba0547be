import Mathlib.Analysis.SpecialFunctions.Trigonometric.Basic
import Mathlib.Analysis.SpecialFunctions.Pow.NNReal
import Unimoc.Lib.BinaryValue
import Unimoc.Units.Float

/-! Exact arithmetic: the same program over the real numbers, on the values the stored
patterns stand for. -/
namespace Unimoc

noncomputable section

/-- The pattern whose value is closest. -/
def nearestReal32 (x : ℝ) : UInt32 :=
  Classical.epsilon fun bits => ∀ other : UInt32,
    |x - (Binary32.ofBits bits.toNat).value| ≤ |x - (Binary32.ofBits other.toNat).value|

/-- There is no infinite real number; nothing exact works with one. -/
instance : Scalar ℝ where
  add := (· + ·)
  sub := (· - ·)
  mul := (· * ·)
  div := (· / ·)
  neg := (- ·)
  lt := (· < ·)
  le := (· ≤ ·)
  ofScientific mantissa negative exponent := OfScientific.ofScientific mantissa negative exponent
  decidableLt := Classical.decRel _
  decidableLe := Classical.decRel _
  isFinite _ := true
  infinity := 0
  sqrt := Real.sqrt
  round x := if x < 0 then -(⌊-x + 0.5⌋ : ℝ) else (⌊x + 0.5⌋ : ℝ)
  ofUInt64 n := n.toNat
  toUInt64 x := UInt64.ofNat ⌊x⌋₊

instance : Arithmetic ℝ where
  Wide := ℝ
  wide := inferInstance
  widen := id
  narrow := id
  ofReal32 bits := (Binary32.ofBits bits.toNat).value
  toReal32 := nearestReal32
  sinCos angle := (Real.sin angle, Real.cos angle)
  strtof text := ((Binary32.ofText text).1.value, (Binary32.ofText text).2)

end

namespace Scalar

theorem zero_exact : (zero : ℝ) = 0 := by norm_num [zero]

theorem min_exact (lhs rhs : ℝ) : Scalar.min lhs rhs = Min.min lhs rhs := by
  unfold Scalar.min
  split_ifs with less
  · exact (min_eq_right (le_of_lt less)).symm
  · exact (min_eq_left (not_lt.mp less)).symm

theorem max_exact (lhs rhs : ℝ) : Scalar.max lhs rhs = Max.max lhs rhs := by
  unfold Scalar.max
  split_ifs with less
  · exact (max_eq_right (le_of_lt less)).symm
  · exact (max_eq_left (not_lt.mp less)).symm

theorem clamp_exact (value lower upper : ℝ) :
    Scalar.clamp value lower upper = Min.min (Max.max value lower) upper := by
  rw [clamp, min_exact, max_exact]

theorem abs_exact (value : ℝ) : Scalar.abs value = |value| := by
  unfold Scalar.abs
  rw [zero_exact]
  split_ifs with negative
  · exact (abs_of_neg negative).symm
  · exact (abs_of_nonneg (not_lt.mp negative)).symm

end Scalar

end Unimoc
