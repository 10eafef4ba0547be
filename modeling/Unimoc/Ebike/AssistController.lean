import Unimoc.Units.Scalar

/-! The assist law: motor torque from the effort of the rider, ramped, with no assist above the
speed limit. -/
namespace Unimoc.Ebike

/-- Assist levels of the display; level 0 is off. -/
def assistLevels : Nat := 8

structure AssistConfig (F : Type) where
  /-- Base ratio of motor to pedal power for each level. -/
  levelGain : List F
  powerScale : F
  maxRatio : F
  /-- Motor torque per pedal torque at standstill. -/
  torqueRatio : F
  torqueDeadband : F
  minCadence : F
  /-- The assist fades out over this motor speed range below the speed limit. -/
  speedTaper : F
  riseTime : F
  fallTime : F

structure AssistInput (F : Type) where
  pedaling : Bool
  cadence : F
  pedalTorque : F
  /-- Either direction. -/
  motorSpeed : F
  speedLimit : F
  torqueLimit : F
  level : UInt8

structure AssistController (F : Type) where
  config : AssistConfig F
  torque : F
  ratio : F

section Floating

variable {F : Type} [Arithmetic F]

def AssistConfig.default : AssistConfig F where
  levelGain := [0.0, 0.3, 0.6, 1.0, 1.5, 2.0, 2.0, 2.0]
  powerScale := 300.0
  maxRatio := 4.0
  torqueRatio := 0.5
  torqueDeadband := 2.0
  minCadence := 2.0
  speedTaper := 20.0
  riseTime := 0.5
  fallTime := 0.15

namespace AssistController

def maxExponent : F := 20.0

def create (config : AssistConfig F) : AssistController F := ⟨config, Scalar.zero, Scalar.zero⟩

variable (exp : F → F)

/-- The ratio and the torque of the law before the ramp; zero when the assist is off. -/
def target (input : AssistInput F) (config : AssistConfig F) : F × F :=
  let level := min input.level.toNat (assistLevels - 1)
  let driving := input.pedalTorque - config.torqueDeadband
  if !input.pedaling || level = 0 || input.cadence < config.minCadence || driving ≤ Scalar.zero ||
      input.speedLimit ≤ Scalar.zero || input.torqueLimit ≤ Scalar.zero then
    (Scalar.zero, Scalar.zero)
  else
    let pedalPower := driving * input.cadence
    let boost := exp (Scalar.min (pedalPower / config.powerScale) maxExponent)
    let ratio := Scalar.min (boost * config.levelGain.getD level Scalar.zero) config.maxRatio
    let motor := if input.motorSpeed < Scalar.zero then -input.motorSpeed else input.motorSpeed
    -- at higher speed the motor power is the ratio times the pedal power
    let speedRatio :=
      if input.cadence < motor * config.torqueRatio then input.cadence / motor else config.torqueRatio
    let fade := Scalar.clamp ((input.speedLimit - motor) / config.speedTaper) Scalar.zero 1.0
    (ratio, Scalar.min (driving * ratio * speedRatio * fade) input.torqueLimit)

/-- The torque of the step is `torque` afterwards; a lowered limit still ramps down in the
fall time. -/
def step (dt : F) (input : AssistInput F) (assist : AssistController F) : AssistController F :=
  let (ratio, target) := target exp input assist.config
  let limit := Scalar.max input.torqueLimit Scalar.zero
  let up := limit * (dt / assist.config.riseTime)
  let down := Scalar.max limit assist.torque * (dt / assist.config.fallTime)
  { assist with
    ratio := ratio
    torque :=
      if assist.torque < target then Scalar.min (assist.torque + up) target
      else Scalar.max (assist.torque - down) target }

end AssistController

end Floating

end Unimoc.Ebike
