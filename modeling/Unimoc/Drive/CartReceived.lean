import Unimoc.Drive.CartControl

/-! The messages that count for a cart drive, and that its output rests on nothing else
but these and the ramp. -/
namespace Unimoc.Drive

open CurrentControl

/-- The messages that count as received, with the times of their reception. -/
structure CartReceived (F : Type) where
  command : Option (UInt64 × F)
  pedals : Option (UInt64 × CartPedals F)
  battery : Option (UInt64 × CartBattery F)

namespace CartControl

section Received

variable {F : Type}

def received (cart : CartControl F) : CartReceived F where
  command := if cart.hasCommand then some (cart.commandUs, cart.commandTorque) else none
  pedals := if cart.hasPedals then some (cart.pedalsUs, cart.pedals) else none
  battery := if cart.hasBattery then some (cart.batteryUs, cart.battery) else none

structure SameRamp (first second : CartControl F) : Prop where
  parameters : first.parameters = second.parameters
  mode : first.mode = second.mode
  torque : first.torque = second.torque
  lastUpdateUs : first.lastUpdateUs = second.lastUpdateUs
  updated : first.updated = second.updated

variable {cart : CartControl F} {command pedals standstill : Bool}

theorem nextMode_vdc (vdc : cart.nextMode command pedals standstill = .vdc) : command = true := by
  unfold nextMode at vdc
  cases command with
  | true => rfl
  | false => cases mode : cart.mode <;> cases pedals <;> simp [mode] at vdc

theorem nextMode_limpHome (limp : cart.nextMode command pedals standstill = .limpHome) :
    pedals = true := by
  unfold nextMode at limp
  cases pedals with
  | true => rfl
  | false => cases mode : cart.mode <;> cases command <;> cases standstill <;> simp [mode] at limp

end Received

variable {F : Type} [Scalar F] {first second : CartControl F}

theorem update_received (cart : CartControl F) (nowUs : UInt64) (speed : F) (engaged : Bool) :
    (cart.update nowUs speed engaged).2.received = cart.received := by
  cases engaged <;> rfl

theorem fresh_command (cart : CartControl F) (nowUs : UInt64) :
    cart.fresh cart.hasCommand cart.commandUs nowUs =
      cart.received.command.any fun c => microseconds (nowUs - c.1) ≤ cart.parameters.timeout := by
  unfold fresh received
  cases cart.hasCommand <;> rfl

theorem fresh_pedals (cart : CartControl F) (nowUs : UInt64) :
    cart.fresh cart.hasPedals cart.pedalsUs nowUs =
      cart.received.pedals.any fun c => microseconds (nowUs - c.1) ≤ cart.parameters.timeout := by
  unfold fresh received
  cases cart.hasPedals <;> rfl

theorem fresh_battery (cart : CartControl F) (nowUs : UInt64) :
    cart.fresh cart.hasBattery cart.batteryUs nowUs =
      cart.received.battery.any fun c => microseconds (nowUs - c.1) ≤ cart.parameters.timeout := by
  unfold fresh received
  cases cart.hasBattery <;> rfl

theorem commandTorque_congr (same : first.received = second.received) {nowUs : UInt64}
    (counts : first.fresh first.hasCommand first.commandUs nowUs = true) :
    first.commandTorque = second.commandTorque := by
  have has : first.hasCommand = true := (Bool.and_eq_true _ _ |>.mp counts).1
  have commands := congrArg CartReceived.command same
  simp only [received, has, ↓reduceIte] at commands
  split at commands
  · exact (Prod.mk.inj (Option.some.inj commands)).2
  · cases commands

theorem pedals_congr (same : first.received = second.received) {nowUs : UInt64}
    (counts : first.fresh first.hasPedals first.pedalsUs nowUs = true) :
    first.pedals = second.pedals := by
  have has : first.hasPedals = true := (Bool.and_eq_true _ _ |>.mp counts).1
  have states := congrArg CartReceived.pedals same
  simp only [received, has, ↓reduceIte] at states
  split at states
  · exact (Prod.mk.inj (Option.some.inj states)).2
  · cases states

theorem battery_congr (same : first.received = second.received) {nowUs : UInt64}
    (counts : first.fresh first.hasBattery first.batteryUs nowUs = true) :
    first.battery = second.battery := by
  have has : first.hasBattery = true := (Bool.and_eq_true _ _ |>.mp counts).1
  have batteries := congrArg CartReceived.battery same
  simp only [received, has, ↓reduceIte] at batteries
  split at batteries
  · exact (Prod.mk.inj (Option.some.inj batteries)).2
  · cases batteries

theorem nextTorque_congr (ramp : SameRamp first second) {mode : CartMode} (speed dt : F)
    (command : mode = .vdc → first.commandTorque = second.commandTorque)
    (pedals : mode = .limpHome → first.pedals = second.pedals) :
    first.nextTorque mode speed dt = second.nextTorque mode speed dt := by
  cases mode with
  | off => rfl
  | vdc => exact command rfl
  | limpHome =>
    have same : first.pedalTorque speed = second.pedalTorque speed := by
      unfold pedalTorque
      rw [pedals rfl, ramp.parameters]
    simp only [nextTorque, same, ramp.parameters, ramp.torque]
  | stopping =>
    simp only [nextTorque, ramp.parameters, ramp.torque]
    rfl

omit [Scalar F] in
theorem nextMode_congr (ramp : SameRamp first second) (command pedals standstill : Bool) :
    first.nextMode command pedals standstill = second.nextMode command pedals standstill := by
  unfold nextMode
  rw [ramp.mode]

theorem toCart_congr (ramp : SameRamp first second) (value : F) :
    first.toCart value = second.toCart value := by
  unfold toCart
  rw [ramp.parameters]

def driven (cart : CartControl F) (nowUs : UInt64) (speed dt : F) : CartMode × F :=
  let mode := cart.nextMode (cart.fresh cart.hasCommand cart.commandUs nowUs)
    (cart.fresh cart.hasPedals cart.pedalsUs nowUs) (Scalar.abs speed ≤ cart.parameters.standstillSpeed)
  (mode, cart.nextTorque mode speed dt)

theorem update_engaged (cart : CartControl F) (nowUs : UInt64) (speed : F) :
    (cart.update nowUs speed true).1 =
      let (mode, torque) := { cart with updated := true, lastUpdateUs := nowUs }.driven nowUs
        (cart.toCart speed)
        (if cart.updated then microseconds (nowUs - cart.lastUpdateUs) else Scalar.zero)
      ⟨mode, cart.toCart torque,
        mode = .limpHome || mode = .stopping && !Scalar.eq torque Scalar.zero⟩ :=
  rfl

theorem driven_congr (ramp : SameRamp first second) (same : first.received = second.received)
    (nowUs : UInt64) (speed dt : F) : first.driven nowUs speed dt = second.driven nowUs speed dt := by
  have command : first.fresh first.hasCommand first.commandUs nowUs =
      second.fresh second.hasCommand second.commandUs nowUs := by
    rw [fresh_command, fresh_command, same, ramp.parameters]
  have pedals : first.fresh first.hasPedals first.pedalsUs nowUs =
      second.fresh second.hasPedals second.pedalsUs nowUs := by
    rw [fresh_pedals, fresh_pedals, same, ramp.parameters]
  unfold driven
  rw [← command, ← pedals, ← ramp.parameters, ← nextMode_congr ramp]
  exact Prod.ext rfl (nextTorque_congr ramp speed dt
    (fun vdc => commandTorque_congr same (nextMode_vdc vdc))
    (fun limp => pedals_congr same (nextMode_limpHome limp)))

theorem update_congr (ramp : SameRamp first second) (same : first.received = second.received)
    (nowUs : UInt64) (speed : F) (engaged : Bool) :
    (first.update nowUs speed engaged).1 = (second.update nowUs speed engaged).1 := by
  cases engaged with
  | false => rfl
  | true =>
    have now : SameRamp { first with updated := true, lastUpdateUs := nowUs }
        { second with updated := true, lastUpdateUs := nowUs } :=
      ⟨ramp.parameters, ramp.mode, ramp.torque, rfl, rfl⟩
    rw [update_engaged, update_engaged, ← toCart_congr ramp speed, ← ramp.updated,
      ← ramp.lastUpdateUs, ← driven_congr now same]
    simp only [toCart_congr ramp]

theorem batteryLimits_congr (ramp : SameRamp first second)
    (same : first.received = second.received) (nowUs : UInt64) :
    first.batteryLimits nowUs = second.batteryLimits nowUs := by
  have fresh : first.fresh first.hasBattery first.batteryUs nowUs =
      second.fresh second.hasBattery second.batteryUs nowUs := by
    rw [fresh_battery, fresh_battery, same, ramp.parameters]
  unfold batteryLimits
  rw [← fresh]
  cases counts : first.fresh first.hasBattery first.batteryUs nowUs with
  | false => rfl
  | true => rw [battery_congr same counts, ramp.parameters]

end CartControl

end Unimoc.Drive
