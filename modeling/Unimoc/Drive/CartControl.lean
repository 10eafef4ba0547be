import Unimoc.CurrentControl.OuterLoop

/-! The torque of a cart wheel drive: the wheel command, limp-home on the pedals, the
ramp down, and the battery limits of the BMS. -/
namespace Unimoc.Drive

open CurrentControl Settings

structure CartParameters (F : Type) where
  wheel : UInt8
  reversed : Bool
  timeout : F
  torqueRamp : F
  limpHomeTorque : F
  standstillSpeed : F
  batteryShare : F

/-- A channel is the pedal travel 0 to 1, not a number when failed. -/
structure CartPedals (F : Type) where
  drive : F × F
  brake : F × F
  drivePlausible : Bool
  brakePlausible : Bool

inductive Contactor
  | opened
  | precharge
  | closed
  | opening
  | other (value : UInt8)
deriving DecidableEq, Repr

structure CartBattery (F : Type) where
  dischargeLimit : F
  chargeLimit : F
  contactor : Contactor

inductive CartMode
  | off
  | vdc
  | limpHome
  | stopping
deriving DecidableEq, Repr

structure CartOutput (F : Type) where
  mode : CartMode
  torque : F
  holdsEngagement : Bool

structure CartControl (F : Type) where
  parameters : CartParameters F
  mode : CartMode
  torque : F
  lastUpdateUs : UInt64
  updated : Bool
  hasCommand : Bool
  commandUs : UInt64
  commandTorque : F
  hasPedals : Bool
  pedalsUs : UInt64
  pedals : CartPedals F
  hasBattery : Bool
  batteryUs : UInt64
  battery : CartBattery F

def CartParameters.from {F : Type} [Arithmetic F] (settings : NvmSettings) : CartParameters F where
  wheel := settings.natural8 .cartWheel
  reversed := settings.natural8 .cartReversed ≠ 0
  timeout := settings.real .cartTimeout
  torqueRamp := settings.real .cartTorqueRamp
  limpHomeTorque := settings.real .cartLimpHomeTorque
  standstillSpeed := settings.real .cartStandstillSpeed
  batteryShare := settings.real .cartBatteryShare

namespace CartControl

variable {F : Type} [Scalar F]

/-- Pedal travel below which a pedal counts as released. -/
def pedalDeadband : F := 0.05

def clampTravel (value : F) : F :=
  if Scalar.isFinite value then Scalar.clamp value 0.0 1.0 else 0.0

def microseconds (durationUs : UInt64) : F := (1.0e-6 : F) * Scalar.ofUInt64 durationUs

def initial : CartControl F where
  parameters := ⟨0, false, Scalar.zero, Scalar.zero, Scalar.zero, Scalar.zero, Scalar.zero⟩
  mode := .off
  torque := Scalar.zero
  lastUpdateUs := 0
  updated := false
  hasCommand := false
  commandUs := 0
  commandTorque := Scalar.zero
  hasPedals := false
  pedalsUs := 0
  pedals := ⟨(Scalar.zero, Scalar.zero), (Scalar.zero, Scalar.zero), false, false⟩
  hasBattery := false
  batteryUs := 0
  battery := ⟨Scalar.zero, Scalar.zero, .opened⟩

variable (cart : CartControl F)

def configure (parameters : CartParameters F) : CartControl F := { cart with parameters := parameters }

def reset : CartControl F := { cart with mode := .off, torque := Scalar.zero }

def onWheelCommand (wheelTorque : F) (nowUs : UInt64) : CartControl F :=
  { cart with
    hasCommand := true, commandUs := nowUs
    commandTorque := if Scalar.isFinite wheelTorque then wheelTorque else Scalar.zero }

def onPedalState (pedals : CartPedals F) (nowUs : UInt64) : CartControl F :=
  { cart with hasPedals := true, pedalsUs := nowUs, pedals := pedals }

def onBatteryStatus (battery : CartBattery F) (nowUs : UInt64) : CartControl F :=
  { cart with hasBattery := true, batteryUs := nowUs, battery := battery }

/-- Nothing that arrived before counts any more. -/
def onBusLost : CartControl F :=
  { cart with hasCommand := false, hasPedals := false, hasBattery := false }

def fresh (received : Bool) (atUs nowUs : UInt64) : Bool :=
  received && microseconds (nowUs - atUs) ≤ cart.parameters.timeout

def toCart (value : F) : F := if cart.parameters.reversed then -value else value

/-- The brake opposes the motion and fades out towards standstill; it has priority. -/
def pedalTorque (speed : F) : F :=
  let brake := Scalar.max (Scalar.max 0.0 (clampTravel cart.pedals.brake.1))
    (clampTravel cart.pedals.brake.2)
  if pedalDeadband < brake then
    let fade :=
      if Scalar.zero < cart.parameters.standstillSpeed then
        Scalar.min (Scalar.abs speed / cart.parameters.standstillSpeed) 1.0
      else 1.0
    let brakeTorque := cart.parameters.limpHomeTorque * brake * fade
    if Scalar.zero < speed then -brakeTorque
    else if speed < Scalar.zero then brakeTorque
    else Scalar.zero
  else if !cart.pedals.drivePlausible then Scalar.zero
  else
    let drive := Scalar.min (clampTravel cart.pedals.drive.1) (clampTravel cart.pedals.drive.2)
    if pedalDeadband < drive then cart.parameters.limpHomeTorque * drive else Scalar.zero

/-- The mode after this update: a wheel command makes a cart drive; without one the
pedals take over, or the torque ramps down; it returns at standstill only. -/
def nextMode (command pedals standstill : Bool) : CartMode :=
  match cart.mode with
  | .off => if command then .vdc else .off
  | .vdc => if command then .vdc else if pedals then .limpHome else .stopping
  | .limpHome | .stopping =>
    if command && standstill then .vdc else if pedals then .limpHome else .stopping

def nextTorque (mode : CartMode) (speed dt : F) : F :=
  match mode with
  | .off => Scalar.zero
  | .vdc => cart.commandTorque
  | .limpHome | .stopping =>
    let target := if mode = .limpHome then cart.pedalTorque speed else Scalar.zero
    let step := cart.parameters.torqueRamp * dt
    Scalar.clamp target (cart.torque - step) (cart.torque + step)

def update (nowUs : UInt64) (shaftSpeed : F) (engaged : Bool) : CartOutput F × CartControl F :=
  let dt : F := if cart.updated then microseconds (nowUs - cart.lastUpdateUs) else Scalar.zero
  let cart := { cart with updated := true, lastUpdateUs := nowUs }
  if !engaged then (⟨.off, Scalar.zero, false⟩, cart.reset)
  else
    let command := cart.fresh cart.hasCommand cart.commandUs nowUs
    let pedals := cart.fresh cart.hasPedals cart.pedalsUs nowUs
    let speed := cart.toCart shaftSpeed
    let standstill : Bool := Scalar.abs speed ≤ cart.parameters.standstillSpeed
    let mode := cart.nextMode command pedals standstill
    let torque := cart.nextTorque mode speed dt
    let cart := { cart with mode := mode, torque := torque }
    (⟨mode, cart.toCart torque,
      mode = .limpHome || mode = .stopping && !Scalar.eq torque Scalar.zero⟩, cart)

/-- With the contactor open or precharging the drive takes no battery current. -/
def batteryLimits (nowUs : UInt64) : BatteryLimits F :=
  if !cart.fresh cart.hasBattery cart.batteryUs nowUs then .none
  else if !Scalar.isFinite cart.battery.dischargeLimit || !Scalar.isFinite cart.battery.chargeLimit then
    .none
  else if cart.battery.contactor ≠ .closed ∧ cart.battery.contactor ≠ .opening then
    ⟨true, Scalar.zero, Scalar.zero⟩
  else
    ⟨true, Scalar.max cart.battery.dischargeLimit Scalar.zero * cart.parameters.batteryShare,
      Scalar.max cart.battery.chargeLimit Scalar.zero * cart.parameters.batteryShare⟩

omit [Scalar F] in
theorem nextMode_driven (command pedals standstill : Bool) (driven : cart.mode ≠ .off) :
    cart.nextMode command pedals standstill ≠ .off := by
  unfold nextMode
  cases mode : cart.mode with
  | off => exact absurd mode driven
  | vdc => cases command <;> cases pedals <;> simp
  | limpHome => cases command <;> cases pedals <;> cases standstill <;> simp
  | stopping => cases command <;> cases pedals <;> cases standstill <;> simp

theorem update_mode (nowUs : UInt64) (shaftSpeed : F) :
    (cart.update nowUs shaftSpeed true).2.mode = (cart.update nowUs shaftSpeed true).1.mode := by
  simp only [update, Bool.not_true, Bool.false_eq_true, ↓reduceIte]

theorem update_driven (nowUs : UInt64) (shaftSpeed : F) (driven : cart.mode ≠ .off) :
    (cart.update nowUs shaftSpeed true).2.mode ≠ .off := by
  simp only [update, Bool.not_true, Bool.false_eq_true, ↓reduceIte]
  exact nextMode_driven _ _ _ _ driven

end CartControl

end Unimoc.Drive
