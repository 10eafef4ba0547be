import Unimoc.CurrentControl.Controllers
import Unimoc.CurrentControl.DcLinkLimit
import Unimoc.CurrentControl.Position
import Unimoc.Lib.Runs

/-! A step of the control thread: what it takes of the mailboxes, the controllers, homing,
and the current reference it hands to the control cycle. -/
namespace Unimoc.CurrentControl

open Settings Cyphal

/-- `loop` holds the mailboxes and counters; the rest is of the control thread alone. -/
structure OuterThread (F : Type) where
  loop : OuterLoop F
  hasIsr : Bool
  appliedHomingRequests : UInt32
  homing : HomingState
  blockedSteps : UInt32
  holdHome : Bool
  heldSetpoint : F
  speed : SpeedController F
  position : PositionController F
  tracker : PositionTracker F
  electricalPosition : RotorAngle
  lastAngle : F
  tracking : Bool
  mode : ControlMode
  wasActive : Bool

/-- What the observer hands to the thread, and the DC-link voltage of the control cycle. -/
structure Observed (F : Type) where
  electricalAngle : F
  electricalSpeed : F
  dcLink : F

namespace OuterThread

variable {F : Type} [Arithmetic F]

def powerOn : OuterThread F where
  loop := .powerOn
  hasIsr := false
  appliedHomingRequests := 0
  homing := .idle
  blockedSteps := 0
  holdHome := false
  heldSetpoint := Scalar.zero
  speed := .initial
  position := .initial
  tracker := .reset
  electricalPosition := ⟨0, 0⟩
  lastAngle := Scalar.zero
  tracking := false
  mode := .torque
  wasActive := false

/-- Time the shaft stalls at the homing torque before it counts as home. -/
def homingBlockTime : F := 0.1

def init (settings : NvmSettings) (t : OuterThread F) : OuterThread F :=
  { t with loop := t.loop.init settings, hasIsr := true }

def applyGains (gains : LoopGains F) (t : OuterThread F) : OuterThread F :=
  { t with
    loop := { t.loop with active := { t.loop.active with gains := gains } }
    speed := { t.speed with
      kp := gains.speedKp, ki := gains.speedKi, accelLimit := gains.speedAccelLimit }
    position := { t.position with
      kpPos := gains.positionKp, speedLimit := gains.positionSpeedLimit
      accelLimit := gains.positionAccelLimit, positionTolerance := gains.positionTolerance
      speedTolerance := gains.positionSpeedTolerance } }

/-- The observer angle starts again at zero, so the position is counted anew from here. -/
def loadParameters (parameters : LoopParameters F) (t : OuterThread F) : OuterThread F :=
  let t := { t with loop := { t.loop with active := parameters } }.applyGains parameters.gains
  { t with
    speed := { t.speed with torqueLimit := parameters.torqueConstant * parameters.currentLimit }
    tracking := false
    wasActive := false
    homing := .idle
    holdHome := false }

/-- New parameters, then new gains. -/
def takeParameters (t : OuterThread F) : OuterThread F :=
  let t :=
    if t.loop.parameters.generation ≠ t.loop.active.generation then t.loadParameters t.loop.parameters
    else t
  if t.loop.gainsGeneration ≠ t.loop.appliedGainsGeneration then
    { t with
      loop := { t.loop with
        appliedGainsGeneration := t.loop.gainsGeneration
        untaken := 0 } }.applyGains t.loop.gains
  else t

/-- The limits of the settings, or those of the BMS. -/
def dcLinkLimit (t : OuterThread F) : DcLinkLimit F :=
  if t.loop.battery.valid then
    { t.loop.active.dcLink with
      driveCurrentMax := t.loop.battery.driveCurrent
      chargeCurrentMax := t.loop.battery.chargeCurrent }
  else t.loop.active.dcLink

/-- The position starts at home after every restart of the controller. `wrap` is
`WrapAngle`. -/
def trackPosition (wrap : F → F) (electricalAngle : F) (t : OuterThread F) : OuterThread F :=
  let polePairs := t.loop.active.polePairs
  let t :=
    if t.tracking then
      let angle := t.electricalPosition.advance (wrap (electricalAngle - t.lastAngle))
      { t with electricalPosition := angle, tracker := t.tracker.update angle polePairs }
    else
      let angle := RotorAngle.fromAngle electricalAngle
      { t with
        electricalPosition := angle
        tracker := (PositionTracker.reset.update angle polePairs).setHome
        tracking := true }
  { t with lastAngle := electricalAngle }

def restart (speed : F) (t : OuterThread F) : OuterThread F :=
  { t with
    speed := t.speed.reset speed
    position := { t.position with posRefRad := t.tracker.positionRad }.reset }

/-! ### Homing -/

def takeHomingRequest (setpoint : OuterSetpoint F) (speed : F) (t : OuterThread F) : OuterThread F :=
  if !setpoint.active || setpoint.mode ≠ .position then { t with homing := .fault }
  else
    { t with
      homing := .searching, blockedSteps := 0, holdHome := false
      speed := t.speed.reset speed }

/-- A homing run lives in the engaged position mode only. -/
def updateHoming (setpoint : OuterSetpoint F) (speed : F) (t : OuterThread F) : OuterThread F :=
  let t :=
    if t.loop.homingRequests ≠ t.appliedHomingRequests then
      { t with appliedHomingRequests := t.loop.homingRequests }.takeHomingRequest setpoint speed
    else t
  let positionMode := setpoint.active && setpoint.mode = .position
  let t := if t.homing = .searching && !positionMode then { t with homing := .fault } else t
  if !setpoint.active then { t with holdHome := false } else t

/-- Runs towards the stop, and counts the steps it is stalled against it: at the torque bound
in the direction of the run, and slow. -/
def searchStep (speed : F) (range : TorqueRange F) (t : OuterThread F) : OuterThread F :=
  let active := t.loop.active
  let homingTorque := active.torqueConstant * active.homingCurrent
  let controller := { t.speed with
    torqueMin := Scalar.max range.lower (-homingTorque)
    torqueMax := Scalar.min range.upper homingTorque }.update active.homingSpeed speed active.dt
  let forward : Bool := Scalar.zero < active.homingSpeed
  let bound :=
    if forward then Scalar.min controller.torqueLimit controller.torqueMax
    else -Scalar.max (-controller.torqueLimit) controller.torqueMin
  let push := if forward then controller.output else -controller.output
  let stalled : Bool := Scalar.zero < bound && (0.99 : F) * bound ≤ push &&
    Scalar.abs speed < (0.5 : F) * Scalar.abs active.homingSpeed
  { t with speed := controller, blockedSteps := if stalled then t.blockedSteps + 1 else 0 }

def searchHome (speed : F) (range : TorqueRange F) (setpoint : F) (t : OuterThread F) :
    F × OuterThread F :=
  let t := t.searchStep speed range
  if Scalar.ofUInt64 t.blockedSteps.toUInt64 * t.loop.active.dt < homingBlockTime then (t.speed.output, t)
  else
    let t := { t with
      tracker := t.tracker.setHome, homing := .done, holdHome := true, heldSetpoint := setpoint }
    let t := t.restart speed
    (t.speed.output, t)

/-! ### The current reference -/

def positionTorque (setpoint measured : F) (range : TorqueRange F) (t : OuterThread F) :
    F × OuterThread F :=
  if t.homing = .searching then t.searchHome measured range setpoint
  else
    let active := t.loop.active
    -- a new target is in the frame of the new home
    let holdHome := t.holdHome && Scalar.eq setpoint t.heldSetpoint
    let position := { t.position with
      posRefRad := if holdHome then Scalar.zero else setpoint }.speedDemand t.tracker.positionRad
        measured active.dt
    let demand := Scalar.clamp position.omegaDemandPrev active.speedMin active.speedMax
    let controller := t.speed.track demand measured active.dt
    (controller.output, { t with holdHome := holdHome, position := position, speed := controller })

/-- Without flux the motor makes no torque of the q current. -/
def torqueToCurrent (torqueConstant torque : F) : Rotor F :=
  if ¬Scalar.zero < torqueConstant then .zero else ⟨Scalar.zero, torque / torqueConstant⟩

/-- A new mode or a new engagement starts the controllers from the measured speed. -/
def enterMode (setpoint : OuterSetpoint F) (speed : F) (t : OuterThread F) : OuterThread F :=
  let t :=
    if !t.wasActive || setpoint.mode ≠ t.mode then
      let t := t.restart speed
      { t with position := { t.position with posRefRad := setpoint.position }.reset }
    else t
  { t with wasActive := true, mode := setpoint.mode }

/-- The current of the active mode, not limited yet. -/
def reference (setpoint : OuterSetpoint F) (speed : F) (range : TorqueRange F) (t : OuterThread F) :
    Rotor F × OuterThread F :=
  if !setpoint.active then (.zero, { t.restart speed with mode := .torque, wasActive := false })
  else
    let t := t.enterMode setpoint speed
    let t := { t with speed := { t.speed with torqueMin := range.lower, torqueMax := range.upper } }
    let active := t.loop.active
    match t.mode with
    | .torque => (setpoint.current, t)
    | .speed =>
      let controller :=
        t.speed.update (Scalar.clamp setpoint.speed active.speedMin active.speedMax) speed active.dt
      (torqueToCurrent active.torqueConstant controller.output, { t with speed := controller })
    | .position =>
      let (torque, t) := t.positionTorque setpoint.position speed range
      (torqueToCurrent active.torqueConstant torque, t)

def shaftSpeed (observed : Observed F) (t : OuterThread F) : F :=
  observed.electricalSpeed / Scalar.ofUInt64 t.loop.active.polePairs.toUInt64

/-- What the drive reads: the battery power window as shaft torque, within the motor torque. -/
def statusOf (speed : F) (range : TorqueRange F) (t : OuterThread F) : OuterStatus F :=
  let motorTorque := t.loop.active.torqueConstant * t.loop.active.currentLimit
  ⟨speed, Scalar.max range.lower (-motorTorque), Scalar.min range.upper motorTorque, t.homing⟩

/-- The current reference, if there is a control cycle to hand it to. -/
def step (wrap : F → F) (observed : Observed F) (t : OuterThread F) : Option (Rotor F) × OuterThread F :=
  if !t.hasIsr then (none, t)
  else
    let t := t.takeParameters
    let setpoint := t.loop.setpoint
    let window := t.dcLinkLimit
    let t := t.trackPosition wrap observed.electricalAngle
    let speed := t.shaftSpeed observed
    let range := window.allowedTorque speed observed.dcLink
    let t := t.updateHoming setpoint speed
    let (current, t) := t.reference setpoint speed range
    let active := t.loop.active
    let current :=
      window.limit (limitCurrent active.currentLimit current) active.torqueConstant speed observed.dcLink
    (some current, { t with loop := { t.loop with status := t.statusOf speed range } })

end OuterThread

/-! ### Runs -/

/-- The calls of the drive, and the steps of the control thread. -/
inductive LoopEvent (F : Type)
  | init (settings : NvmSettings)
  | setSetpoint (setpoint : OuterSetpoint F)
  | setBatteryLimits (limits : BatteryLimits F)
  | setGains (gains : LoopGains F)
  | startHoming
  | step (observed : Observed F)

namespace OuterThread

variable {F : Type} [Arithmetic F]

def next (wrap : F → F) (t : OuterThread F) : LoopEvent F → OuterThread F
  | .init settings => t.init settings
  | .setSetpoint setpoint => { t with loop := t.loop.setSetpoint setpoint }
  | .setBatteryLimits limits => { t with loop := t.loop.setBatteryLimits limits }
  | .setGains gains => { t with loop := t.loop.setGains gains }
  | .startHoming => { t with loop := t.loop.startHoming }
  | .step observed => (t.step wrap observed).2

/-- Only accepted settings get to the loop, and only battery limits that somebody hands
over; the thread takes one of the changes before the counters come round. -/
def machine (wrap : F → F) (accepted : NvmSettings → Prop) (handedOver : BatteryLimits F → Prop) :
    Runs.Machine (OuterThread F) (LoopEvent F) where
  start := powerOn
  next := next wrap
  admits t
    | .init settings => accepted settings ∧ t.loop.untaken + 1 < 2 ^ 32
    | .setGains _ => t.loop.untaken + 1 < 2 ^ 32
    | .setBatteryLimits limits => handedOver limits
    | _ => True

/-- The settings of the last `Init()`. -/
def settingsIn (past : List (LoopEvent F)) : Option NvmSettings :=
  Runs.latest (fun e _ => match e with
    | .init settings => some (some settings)
    | _ => none) none past

/-! ### What a step leaves of the mailboxes -/

/-- Only the controllers, homing and the position moved. -/
structure Aside (t t' : OuterThread F) : Prop where
  loop : t'.loop = t.loop
  hasIsr : t'.hasIsr = t.hasIsr

namespace Aside

omit [Arithmetic F]

theorem refl (t : OuterThread F) : Aside t t := ⟨rfl, rfl⟩

theorem trans {t t' t'' : OuterThread F} (first : Aside t t') (second : Aside t' t'') : Aside t t'' :=
  ⟨second.loop.trans first.loop, second.hasIsr.trans first.hasIsr⟩

theorem ite {t yes no : OuterThread F} {p : Prop} [Decidable p] (moved : Aside t yes) (kept : Aside t no) :
    Aside t (if p then yes else no) := by
  split
  · exact moved
  · exact kept

end Aside

section Loop

variable (t : OuterThread F) (setpoint : OuterSetpoint F) (speed : F)

theorem takeParameters_loop : t.takeParameters.loop = t.loop.loadParameters.applyGains := by
  by_cases fresh : t.loop.parameters.generation ≠ t.loop.active.generation
  · by_cases newer : t.loop.gainsGeneration ≠ t.loop.appliedGainsGeneration
    · simp [takeParameters, OuterLoop.loadParameters, OuterLoop.applyGains, fresh, newer, loadParameters,
        applyGains]
    · simp [takeParameters, OuterLoop.loadParameters, OuterLoop.applyGains, fresh, newer, loadParameters,
        applyGains]
  · by_cases newer : t.loop.gainsGeneration ≠ t.loop.appliedGainsGeneration
    · simp [takeParameters, OuterLoop.loadParameters, OuterLoop.applyGains, fresh, newer, applyGains]
    · simp [takeParameters, OuterLoop.loadParameters, OuterLoop.applyGains, fresh, newer]

theorem takeParameters_hasIsr : t.takeParameters.hasIsr = t.hasIsr := by
  unfold takeParameters
  simp only
  split <;> split <;> rfl

theorem trackPosition_aside (wrap : F → F) (angle : F) : Aside t (t.trackPosition wrap angle) := by
  unfold trackPosition
  simp only
  split <;> exact ⟨rfl, rfl⟩

theorem takeHomingRequest_aside : Aside t (t.takeHomingRequest setpoint speed) := by
  apply Aside.ite
  · exact ⟨rfl, rfl⟩
  · exact ⟨rfl, rfl⟩

theorem updateHoming_aside : Aside t (t.updateHoming setpoint speed) := by
  have requested : Aside t (if t.loop.homingRequests ≠ t.appliedHomingRequests then
      { t with appliedHomingRequests := t.loop.homingRequests }.takeHomingRequest setpoint speed
      else t) := by
    apply Aside.ite
    · have asked : Aside t { t with appliedHomingRequests := t.loop.homingRequests } := ⟨rfl, rfl⟩
      exact asked.trans (takeHomingRequest_aside _ setpoint speed)
    · exact Aside.refl t
  apply requested.trans
  unfold updateHoming
  simp only
  split_ifs <;> exact ⟨rfl, rfl⟩

theorem searchHome_aside (range : TorqueRange F) (target : F) :
    Aside t (t.searchHome speed range target).2 := by
  unfold searchHome
  simp only
  split <;> exact ⟨rfl, rfl⟩

theorem positionTorque_aside (range : TorqueRange F) (target : F) :
    Aside t (t.positionTorque target speed range).2 := by
  unfold positionTorque
  split
  · exact searchHome_aside t speed range target
  · exact ⟨rfl, rfl⟩

theorem enterMode_aside : Aside t (t.enterMode setpoint speed) := by
  unfold enterMode
  simp only
  split <;> exact ⟨rfl, rfl⟩

theorem reference_aside (range : TorqueRange F) : Aside t (t.reference setpoint speed range).2 := by
  have entered := enterMode_aside t setpoint speed
  unfold reference
  split
  · exact ⟨rfl, rfl⟩
  · simp only
    split
    · exact entered.trans ⟨rfl, rfl⟩
    · exact entered.trans ⟨rfl, rfl⟩
    · have bounded : Aside t { t.enterMode setpoint speed with speed :=
          { (t.enterMode setpoint speed).speed with
            torqueMin := range.lower, torqueMax := range.upper } } :=
        entered.trans ⟨rfl, rfl⟩
      exact bounded.trans (positionTorque_aside _ speed range setpoint.position)

/-- The part of a step between the mailboxes and the reference. -/
theorem moved_aside (wrap : F → F) (angle : F) (range : TorqueRange F) :
    Aside t (((t.trackPosition wrap angle).updateHoming setpoint speed).reference setpoint speed range).2 :=
  ((trackPosition_aside t wrap angle).trans (updateHoming_aside _ setpoint speed)).trans
    (reference_aside _ setpoint speed range)

theorem step_loop (wrap : F → F) (observed : Observed F) (ready : t.hasIsr = true) :
    (t.step wrap observed).2.loop = t.loop.step (t.step wrap observed).2.loop.status := by
  have reported {a b : OuterLoop F} (same : a = b) (status : OuterStatus F) :
      { a with status := status } = ({ b with status := status } : OuterLoop F) := by
    rw [same]
  unfold step
  rw [if_neg (by simp [ready])]
  exact reported ((moved_aside ..).loop.trans (takeParameters_loop t)) _

theorem next_counted (wrap : F → F) (counted : t.loop.Counted) (e : LoopEvent F) :
    (t.next wrap e).loop.Counted := by
  cases e with
  | step observed =>
    show (t.step wrap observed).2.loop.Counted
    cases ready : t.hasIsr with
    | false =>
      unfold step
      rw [if_pos (by simp [ready])]
      exact counted
    | true =>
      rw [t.step_loop wrap observed ready]
      exact counted.step _
  | init settings => exact counted.init settings
  | setGains gains => exact counted.setGains gains
  | setSetpoint setpoint => exact counted.aside setpoint _ _
  | setBatteryLimits limits => exact counted.aside _ limits _
  | startHoming => exact counted.aside _ _ _

theorem step_hasIsr (wrap : F → F) (observed : Observed F) :
    (t.step wrap observed).2.hasIsr = t.hasIsr := by
  unfold step
  split
  · rfl
  · exact (moved_aside ..).hasIsr.trans (takeParameters_hasIsr t)

/-- Whatever the mode and the transition, the reference passes the two limits. -/
theorem step_reference (wrap : F → F) (observed : Observed F) (ready : t.hasIsr = true) :
    ∃ current : Rotor F, (t.loop.setpoint.active = false → current = .zero) ∧
      (t.step wrap observed).1 =
        let active := t.takeParameters.loop.active
        some (t.takeParameters.dcLinkLimit.limit (limitCurrent active.currentLimit current)
          active.torqueConstant (observed.electricalSpeed / Scalar.ofUInt64 active.polePairs.toUInt64)
          observed.dcLink) := by
  have setpoint : t.takeParameters.loop.setpoint = t.loop.setpoint := by
    rw [takeParameters_loop]
    unfold OuterLoop.applyGains OuterLoop.loadParameters
    split <;> split <;> rfl
  unfold step
  rw [if_neg (by simp [ready])]
  simp only [(moved_aside ..).loop, (trackPosition_aside ..).loop, shaftSpeed]
  refine ⟨_, ?_, rfl⟩
  intro idle
  unfold reference
  rw [setpoint, if_pos (by simp [idle])]

end Loop

end OuterThread

end Unimoc.CurrentControl
