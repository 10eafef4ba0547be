import Unimoc.Lib.Binary
import Unimoc.Units.Scalar

/-! The formats of the target: `float` is single precision, `double` is double precision. -/
namespace Unimoc

section Format

variable {precision : Nat} {least limit : Int}

def Binary.roundInteger : Binary precision least limit → Binary precision least limit
  | .finite m e =>
    if 0 ≤ e then .finite m e
    else Binary.round (m < 0) ((2 * m.natAbs + 2 ^ (-e).toNat) / (2 * 2 ^ (-e).toNat)) 0
  | value => value

instance : Scalar (Binary precision least limit) where
  add := Binary.add
  sub := Binary.sub
  mul := Binary.mul
  div := Binary.div
  neg := Binary.negate
  lt a b := Binary.lt a b = true
  le a b := Binary.le a b = true
  ofScientific := Binary.ofDecimal
  decidableLt a b := inferInstanceAs (Decidable (Binary.lt a b = true))
  decidableLe a b := inferInstanceAs (Decidable (Binary.le a b = true))
  isFinite := Binary.isFinite
  infinity := .infinite false
  sqrt := Binary.sqrt
  round := Binary.roundInteger
  ofUInt64 n := Binary.round false n.toNat 0
  toUInt64 x := UInt64.ofNat x.truncate

end Format

namespace Binary32

/-- Digits of a text and the value they add to. -/
def digits : List UInt8 → Nat → Nat → Nat × Nat × List UInt8
  | c :: rest, value, count =>
    if 48 ≤ c ∧ c ≤ 57 then digits rest (10 * value + (c.toNat - 48)) (count + 1)
    else (value, count, c :: rest)
  | [], value, count => (value, count, [])

/-- Decimal numbers without sign and exponent. -/
def ofText (text : List UInt8) : Binary32 × Nat :=
  let (whole, count, rest) := digits text 0 0
  match rest with
  | 46 :: tail =>
    let (value, decimals, _) := digits tail whole 0
    (Binary.ofDecimal value true decimals, count + 1 + decimals)
  | _ => (Binary.ofDecimal whole false 0, count)

end Binary32

/-- Sine and cosine are those of a small angle. -/
instance : Arithmetic Binary32 where
  Wide := Binary64
  wide := inferInstance
  widen := Binary.convert
  narrow := Binary.convert
  ofReal32 bits := Binary32.ofBits bits.toNat
  toReal32 x := UInt32.ofNat (Binary32.toBits x)
  sinCos theta := (theta, 1.0)
  strtof := Binary32.ofText

end Unimoc
