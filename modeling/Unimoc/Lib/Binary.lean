import Mathlib.Algebra.Order.Ring.Int
import Mathlib.Data.Nat.Log

/-! Binary floating point over exact integers: round to nearest, ties to even, with
gradual underflow. Zeros carry no sign. -/

/-- A format with `precision` significand bits whose finite values are multiples of
`2 ^ least` below `2 ^ limit`; a finite value is `significand * 2 ^ exponent`. -/
inductive Binary (precision : Nat) (least limit : Int) where
  | nan
  | infinite (negative : Bool)
  | finite (significand exponent : Int)
deriving DecidableEq, Repr

namespace Binary

variable {precision : Nat} {least limit : Int}

def zero : Binary precision least limit := .finite 0 0

/-- `n / 2 ^ shift`, to nearest, ties to even. -/
def roundShift (n shift : Nat) : Nat :=
  let quotient := n / 2 ^ shift
  let rest := 2 * (n % 2 ^ shift)
  if 2 ^ shift < rest then quotient + 1
  else if rest = 2 ^ shift ∧ shift ≠ 0 ∧ quotient % 2 = 1 then quotient + 1
  else quotient

/-- The nearest value of the format to `n * 2 ^ exponent`, with a sign. -/
def round (negative : Bool) (n : Nat) (exponent : Int) : Binary precision least limit :=
  if n = 0 then zero
  else
    let unit := max (exponent + (Nat.log2 n + 1 : Nat) - precision) least
    let significand :=
      if unit ≤ exponent then n * 2 ^ (exponent - unit).toNat
      else roundShift n (unit - exponent).toNat
    if significand = 0 then zero
    else if limit < unit + (Nat.log2 significand + 1 : Nat) then .infinite negative
    else .finite (if negative then -significand else significand) unit

/-- The nearest value to `n / d * 2 ^ exponent`: enough quotient bits, the last of
them set when the division is not exact. -/
def roundQuotient (negative : Bool) (n d : Nat) (exponent : Int) : Binary precision least limit :=
  let shift := precision + 3 + Nat.log2 d
  let quotient := n * 2 ^ shift / d
  let rest := n * 2 ^ shift % d
  round negative (2 * quotient + if rest = 0 then 0 else 1) (exponent - shift - 1)

/-- Integer square root, one bit a step. -/
def root (n : Nat) : Nat → Nat
  | 0 => 0
  | bits + 1 =>
    let half := 2 * root (n / 4) bits
    if (half + 1) * (half + 1) ≤ n then half + 1 else half

def negate : Binary precision least limit → Binary precision least limit
  | .nan => .nan
  | .infinite negative => .infinite !negative
  | .finite m e => .finite (-m) e

/-- Two significands brought to the smaller of the exponents. -/
def align (m e n f : Int) : Int × Int × Int :=
  let low := min e f
  (m * 2 ^ (e - low).toNat, n * 2 ^ (f - low).toNat, low)

def add : Binary precision least limit → Binary precision least limit → Binary precision least limit
  | .finite m e, .finite n f =>
    let (a, b, low) := align m e n f
    round (a + b < 0) (a + b).natAbs low
  | .infinite s, .infinite t => if s = t then .infinite s else .nan
  | .infinite s, .finite _ _ => .infinite s
  | .finite _ _, .infinite t => .infinite t
  | _, _ => .nan

def sub (a b : Binary precision least limit) : Binary precision least limit := add a (negate b)

def mul : Binary precision least limit → Binary precision least limit → Binary precision least limit
  | .finite m e, .finite n f => round (m * n < 0) (m * n).natAbs (e + f)
  | .infinite s, .infinite t => .infinite (s != t)
  | .infinite s, .finite n _ => if n = 0 then .nan else .infinite (s != decide (n < 0))
  | .finite m _, .infinite t => if m = 0 then .nan else .infinite (t != decide (m < 0))
  | _, _ => .nan

def div : Binary precision least limit → Binary precision least limit → Binary precision least limit
  | .finite m e, .finite n f =>
    if n = 0 then if m = 0 then .nan else .infinite (m < 0)
    else roundQuotient (m * n < 0) m.natAbs n.natAbs (e - f)
  | .infinite s, .finite n _ => .infinite (s != decide (n < 0))
  | .finite _ _, .infinite _ => zero
  | _, _ => .nan

def sqrt : Binary precision least limit → Binary precision least limit
  | .finite m e =>
    if m < 0 then .nan
    else
      let shift := 2 * precision + 4 + (e % 2).toNat
      let n := m.toNat * 2 ^ shift
      let s := root n (Nat.log2 n + 1)
      round false (2 * s + if s * s = n then 0 else 1) ((e - shift) / 2 - 1)
  | .infinite false => .infinite false
  | _ => .nan

def lt : Binary precision least limit → Binary precision least limit → Bool
  | .finite m e, .finite n f => let (a, b, _) := align m e n f; a < b
  | .infinite s, .infinite t => s && !t
  | .infinite s, .finite _ _ => s
  | .finite _ _, .infinite t => !t
  | _, _ => false

def le : Binary precision least limit → Binary precision least limit → Bool
  | .finite m e, .finite n f => let (a, b, _) := align m e n f; a ≤ b
  | .infinite s, .infinite t => s || !t
  | .infinite s, .finite _ _ => s
  | .finite _ _, .infinite t => !t
  | _, _ => false

def isFinite : Binary precision least limit → Bool
  | .finite _ _ => true
  | _ => false

/-- The nearest value to `mantissa * 10 ^ ±exponent`. -/
def ofDecimal (mantissa : Nat) (negativeExponent : Bool) (exponent : Nat) :
    Binary precision least limit :=
  if negativeExponent then roundQuotient false mantissa (10 ^ exponent) 0
  else round false (mantissa * 10 ^ exponent) 0

/-- The integer part of a value that is not negative, 0 for any other. -/
def truncate : Binary precision least limit → Nat
  | .finite m e => if e < 0 then m.toNat / 2 ^ (-e).toNat else m.toNat * 2 ^ e.toNat
  | _ => 0

/-- The same number in another format. -/
def convert {p : Nat} {l u : Int} : Binary precision least limit → Binary p l u
  | .nan => .nan
  | .infinite negative => .infinite negative
  | .finite m e => round (m < 0) m.natAbs e

end Binary

abbrev Binary32 := Binary 24 (-149) 128

abbrev Binary64 := Binary 53 (-1074) 1024

namespace Binary32

def ofBits (bits : Nat) : Binary32 :=
  let exponent : Nat := bits / 2 ^ 23 % 256
  let fraction : Nat := bits % 2 ^ 23
  let negative : Bool := bits / 2 ^ 31 % 2 = 1
  if exponent = 255 then if fraction = 0 then .infinite negative else .nan
  else if exponent = 0 then Binary.round negative fraction (-149)
  else Binary.round negative (2 ^ 23 + fraction) ((exponent : Int) - 150)

def toBits : Binary32 → Nat
  | .nan => 0x7FC00000
  | .infinite negative => (if negative then 2 ^ 31 else 0) + 0x7F800000
  | .finite m e =>
    let sign := if m < 0 then 2 ^ 31 else 0
    let shift := 23 - Nat.log2 m.natAbs
    if m = 0 then 0
    else if e - shift < -149 then sign + m.natAbs * 2 ^ (e + 149).toNat
    else sign + (e - shift + 150).toNat * 2 ^ 23 + (m.natAbs * 2 ^ shift - 2 ^ 23)

end Binary32

example : (Binary.add (Binary.ofDecimal 1 true 1) (Binary.ofDecimal 2 true 1) : Binary32) =
    Binary32.ofBits 0x3E99999A := by decide

example : Binary32.toBits (Binary.div (Binary.ofDecimal 1 false 0) (Binary.ofDecimal 3 false 0)) =
    0x3EAAAAAB := by decide

example : (Binary.mul (Binary.ofDecimal 1 false 20) (Binary.ofDecimal 1 false 20) : Binary32) =
    .infinite false := by decide
