import Mathlib.Data.Real.Basic

/-! The floating-point operations of the firmware, over an arbitrary number format.
Nothing is assumed of them: every theorem holds for the format of the target. -/
namespace Unimoc

/-- Comparisons are those of C++: false when an operand is not a number. -/
class Scalar (F : Type) extends Add F, Sub F, Mul F, Div F, Neg F, LT F, LE F, OfScientific F where
  decidableLt : ∀ a b : F, Decidable (a < b)
  decidableLe : ∀ a b : F, Decidable (a ≤ b)
  isFinite : F → Bool
  infinity : F
  sqrt : F → F
  /-- To the nearest integer, halves away from zero (`std::round`). -/
  round : F → F
  /-- Conversion of an unsigned integer. -/
  ofUInt64 : UInt64 → F
  /-- Conversion to an unsigned integer, towards zero. -/
  toUInt64 : F → UInt64

namespace Scalar

variable {F : Type} [Scalar F]

instance (a b : F) : Decidable (a < b) := decidableLt a b

instance (a b : F) : Decidable (a ≤ b) := decidableLe a b

def zero : F := 0.0

/-- `==` of C++: no value that is not a number equals itself. -/
def eq (a b : F) : Bool := a ≤ b && b ≤ a

def abs (value : F) : F := if value < zero then -value else value

def min (lhs rhs : F) : F := if rhs < lhs then rhs else lhs

def max (lhs rhs : F) : F := if lhs < rhs then rhs else lhs

/-- `std::min(std::max(value, lower), upper)`. -/
def clamp (value lower upper : F) : F := min (max value lower) upper

def hypot (first second : F) : F := sqrt (first * first + second * second)

end Scalar

/-- A format `F` (`float` of the source) with its wider companion (`double`), the
stored 32-bit representation and the sine and cosine provider. -/
class Arithmetic (F : Type) extends Scalar F where
  Wide : Type
  wide : Scalar Wide
  widen : F → Wide
  narrow : Wide → F
  /-- The value of a 32-bit pattern, as stored in a register. -/
  ofReal32 : UInt32 → F
  toReal32 : F → UInt32
  sinCos : F → F × F
  /-- The number a text starts with, and the bytes it takes (`std::strtof`). -/
  strtof : List UInt8 → F × Nat

instance {F : Type} [Arithmetic F] : Scalar (Arithmetic.Wide F) := Arithmetic.wide

end Unimoc
