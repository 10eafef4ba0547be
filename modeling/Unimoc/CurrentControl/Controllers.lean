import Unimoc.CurrentControl.OuterLoop

/-! The controllers of the outer loop: the speed controller with a torque output, and the
position loop that makes a speed demand. -/
namespace Unimoc.CurrentControl

structure SpeedController (F : Type) where
  kp : F
  ki : F
  /-- 0 or less: no ramp. -/
  accelLimit : F
  torqueLimit : F
  torqueMin : F
  torqueMax : F
  reference : F
  integral : F
  output : F

namespace SpeedController

variable {F : Type} [Scalar F]

def initial : SpeedController F where
  kp := Scalar.zero
  ki := Scalar.zero
  accelLimit := Scalar.zero
  torqueLimit := Scalar.zero
  torqueMin := -Scalar.infinity
  torqueMax := Scalar.infinity
  reference := Scalar.zero
  integral := Scalar.zero
  output := Scalar.zero

def reset (start : F) (c : SpeedController F) : SpeedController F :=
  { c with reference := start, integral := Scalar.zero, output := Scalar.zero }

/-- The reference is taken as it is. The integral stops while the output is saturated in the
direction of the error. -/
def track (speedReference measured dt : F) (c : SpeedController F) : SpeedController F :=
  if !Scalar.isFinite speedReference || !Scalar.isFinite measured then c.reset c.reference
  else
    let limit := if Scalar.zero < c.torqueLimit then c.torqueLimit else Scalar.zero
    let lower := Scalar.max (-limit) c.torqueMin
    let upper := Scalar.min limit c.torqueMax
    let error := speedReference - measured
    let proportional := c.kp * error
    let integral := c.integral + proportional * (c.ki * dt)
    let unlimited := proportional + integral
    let windsUp := (upper < unlimited && Scalar.zero < error) || (unlimited < lower && error < Scalar.zero)
    let integral := if !windsUp then Scalar.clamp integral lower upper else c.integral
    { c with
      reference := speedReference
      integral := integral
      output := Scalar.clamp (proportional + integral) lower upper }

def update (setpoint measured dt : F) (c : SpeedController F) : SpeedController F :=
  if !Scalar.isFinite setpoint then c.track setpoint measured dt
  else if Scalar.zero < c.accelLimit then
    let step := c.accelLimit * dt
    c.track (Scalar.clamp setpoint (c.reference - step) (c.reference + step)) measured dt
  else c.track setpoint measured dt

end SpeedController

structure PositionController (F : Type) where
  kpPos : F
  speedLimit : F
  accelLimit : F
  positionTolerance : F
  speedTolerance : F
  /-- A larger position step is planned. -/
  trapezoidJumpThreshold : F
  posRefRad : F
  posRefLimited : F
  omegaDemandPrev : F
  inPosition : Bool

namespace PositionController

variable {F : Type} [Scalar F]

def initial : PositionController F where
  kpPos := 10.0
  speedLimit := 100.0
  accelLimit := 500.0
  positionTolerance := 0.01
  speedTolerance := 1.0
  trapezoidJumpThreshold := 0.5
  posRefRad := Scalar.zero
  posRefLimited := Scalar.zero
  omegaDemandPrev := Scalar.zero
  inPosition := false

def reset (c : PositionController F) : PositionController F :=
  { c with posRefLimited := c.posRefRad, omegaDemandPrev := Scalar.zero, inPosition := false }

/-- The demand is `omegaDemandPrev` afterwards. -/
def speedDemand (posMeasRad omegaMeas deltaTime : F) (c : PositionController F) : PositionController F :=
  let maxPosStep := c.speedLimit * deltaTime
  let jump := Scalar.abs (c.posRefRad - posMeasRad)
  let posRefLimited :=
    if c.trapezoidJumpThreshold < jump then
      c.posRefLimited + Scalar.clamp (c.posRefRad - c.posRefLimited) (-maxPosStep) maxPosStep
    else c.posRefRad
  let demand := Scalar.clamp (c.kpPos * (posRefLimited - posMeasRad)) (-c.speedLimit) c.speedLimit
  let maxDelta := c.accelLimit * deltaTime
  { c with
    posRefLimited := posRefLimited
    omegaDemandPrev := Scalar.clamp demand (c.omegaDemandPrev - maxDelta) (c.omegaDemandPrev + maxDelta)
    inPosition := jump ≤ c.positionTolerance && Scalar.abs omegaMeas ≤ c.speedTolerance }

end PositionController

end Unimoc.CurrentControl
