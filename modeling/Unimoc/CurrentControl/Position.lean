import Unimoc.CurrentControl.MechanicalObserver

/-! The position of the shaft: the electrical angle as a fixed-point phase with a count of
revolutions, and the mechanical position relative to home. -/
namespace Unimoc

namespace Scalar

variable {F : Type} [Scalar F]

def ofInt (n : Int) : F :=
  if n < 0 then -ofUInt64 (UInt64.ofNat n.natAbs) else ofUInt64 (UInt64.ofNat n.natAbs)

def toInt (value : F) : Int :=
  if value < zero then -((toUInt64 (-value)).toNat : Int) else ((toUInt64 value).toNat : Int)

end Scalar

namespace CurrentControl

/-- Q1.31 phase and completed revolutions. -/
structure RotorAngle where
  raw : Int32
  revolutions : Int32
deriving DecidableEq

namespace RotorAngle

def countsPerRevolution : Int := 0x100000000

def countsPerHalfRevolution : Int := 0x80000000

/-- Half a revolution at most; a seam crossing counts. -/
def addRaw (delta : Int32) (angle : RotorAngle) : RotorAngle :=
  let next := angle.raw + delta
  { raw := next
    revolutions :=
      if ((angle.raw ^^^ next) &&& (delta ^^^ next)) < 0 then
        angle.revolutions + if 0 ≤ delta then 1 else -1
      else angle.revolutions }

/-- Position in counts; a negative phase in the least revolution is beyond 64 bits. -/
def absoluteRaw (angle : RotorAngle) : Int64 :=
  angle.revolutions.toInt64 * .ofInt countsPerRevolution + angle.raw.toInt64

/-- The division floors. -/
def fromAbsoluteRaw (absoluteRaw : Int64) : RotorAngle :=
  let shifted := absoluteRaw + .ofInt countsPerHalfRevolution
  let quotient := shifted / .ofInt countsPerRevolution
  let revolutions := if shifted % .ofInt countsPerRevolution < 0 then quotient - 1 else quotient
  let phase := absoluteRaw - revolutions * .ofInt countsPerRevolution
  { raw := phase.toInt32, revolutions := revolutions.toInt32 }

section Floating

variable {F : Type} [Arithmetic F]

/-- `std::numbers::pi_v<double>`. -/
def piWide : Arithmetic.Wide F := 3.141592653589793115997963468544185161590576171875

def radiansPerCount : F :=
  Arithmetic.narrow ((2.0 : Arithmetic.Wide F) * piWide / (4294967296.0 : Arithmetic.Wide F))

def revolutionsPerRadian : F :=
  Arithmetic.narrow ((1.0 : Arithmetic.Wide F) / ((2.0 : Arithmetic.Wide F) * piWide))

def roundToInt64 (value : F) : Int :=
  Scalar.toInt (if Scalar.zero ≤ value then value + 0.5 else value - 0.5)

/-- The residual stays within half a revolution. -/
def advance (offset : F) (angle : RotorAngle) : RotorAngle :=
  let revolutions := offset * revolutionsPerRadian
  let carry := Scalar.toInt revolutions
  let fraction := revolutions - Scalar.ofInt carry
  let counts := roundToInt64 (fraction * (4294967296.0 : F))
  let (counts, carry) :=
    if countsPerHalfRevolution ≤ counts then (counts - countsPerRevolution, carry + 1)
    else if counts < -countsPerHalfRevolution then (counts + countsPerRevolution, carry - 1)
    else (counts, carry)
  { angle with revolutions := angle.revolutions + Int32.ofInt carry }.addRaw (Int32.ofInt counts)

def fromAngle (angle : F) : RotorAngle := advance angle ⟨0, 0⟩

def absoluteAngle (angle : RotorAngle) : F :=
  Scalar.ofInt angle.revolutions.toInt * twoPi + Scalar.ofInt angle.raw.toInt * radiansPerCount

end Floating

end RotorAngle

structure PositionTracker (F : Type) where
  positionRad : F
  positionRev : F
  isHomed : Bool
  rawPositionRad : F
  homeOffsetRad : F

namespace PositionTracker

variable {F : Type} [Arithmetic F]

def reset : PositionTracker F := ⟨Scalar.zero, Scalar.zero, false, Scalar.zero, Scalar.zero⟩

def updatePosition (tracker : PositionTracker F) : PositionTracker F :=
  let positionRad := tracker.rawPositionRad - tracker.homeOffsetRad
  { tracker with positionRad := positionRad, positionRev := positionRad / twoPi }

def update (electricalAngle : RotorAngle) (polePairs : UInt8) (tracker : PositionTracker F) :
    PositionTracker F :=
  if polePairs = 0 then tracker
  else
    { tracker with
      rawPositionRad := electricalAngle.absoluteAngle / Scalar.ofUInt64 polePairs.toUInt64 }.updatePosition

def setHome (tracker : PositionTracker F) : PositionTracker F :=
  { tracker with homeOffsetRad := tracker.rawPositionRad, isHomed := true }.updatePosition

end PositionTracker

end CurrentControl

end Unimoc
