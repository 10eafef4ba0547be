import Unimoc.Cyphal.Node
import Unimoc.Drive.Commissioning

/-! The drive: readiness, setpoints and commands from the bus, the engagement, the
startup aid, the settings of the running controller. Publications are left out. -/
namespace Unimoc.Drive

open CurrentControl Cyphal Firmware Settings Startup

/-- What the e-bike control sees of the drive. -/
structure EbikeVehicle (F : Type) where
  motorSpeed : F
  torqueMin : F
  torqueMax : F
  dcLink : F
  batteryCurrent : F
  motorTemperature : F
  engaged : Bool
  faulted : Bool

structure EbikeOutput (F : Type) where
  engage : Bool
  torque : F

/-- The e-bike control, the local source of the engagement and of the torque. -/
class EbikeControl (E : Type) (F : outParam Type) where
  configure : NvmSettings → E → E
  update : UInt64 → EbikeVehicle F → E → EbikeOutput F × E
  inhibit : E → E

/-- The drive node with its startup aid and cart control. -/
structure DriveNode (F E : Type) [Arithmetic F] where
  restartHook : Bool
  startup : HwStartup F
  startupActive : Bool
  readinessPort : UInt16
  currentSetpointPort : UInt16
  torqueSetpointPort : UInt16
  speedSetpointPort : UInt16
  positionSetpointPort : UInt16
  servoSetpointPort : UInt16
  wheelCommandPort : UInt16
  pedalStatePort : UInt16
  batteryStatusPort : UInt16
  commandTimeoutUs : UInt64
  cartWheel : UInt8
  currentLimit : F
  torqueConstant : F
  writeCount : UInt32
  appliedWrites : UInt32
  checkedWrites : UInt32
  appliedSettings : NvmSettings
  settingsPending : Bool
  settingsWaiting : Bool
  waitingAnnounced : Bool
  cart : CartControl F
  cartMode : CartMode
  ebike : Option E
  ebikeEngage : Bool
  ebikeTorque : F
  busLost : Bool
  busOffCount : UInt32
  engaged : Bool
  rearmRequired : Bool
  emergencyStop : Bool
  engageRequested : Bool
  lastReadinessUs : UInt64
  lastSetpointUs : UInt64
  setpointActive : Bool
  setpoint : OuterSetpoint F
  restartRequested : Bool
  restartAtUs : UInt64
  nowUs : UInt64

/-- The drive on its node, and the board they share with the interrupts. -/
structure System (F E : Type) [Arithmetic F] extends DriveNode F E where
  node : CyphalNode F
  board : Board F

/-- Delay between the answer to RESTART and the restart. -/
def restartDelayUs : UInt64 := 200000

def toMicroseconds {F : Type} [Scalar F] (time : F) : UInt64 := Scalar.toUInt64 (time * (1.0e6 : F))

namespace System

variable {F E : Type} [Arithmetic F] [EbikeControl E F] (s : System F E)

section Platform

omit [EbikeControl E F]

def onBoard (f : Board F → Board F) : System F E := { s with board := f s.board }

def record (event : Event F) : System F E := s.onBoard (Board.record event)

def log (severity : Severity) (text : String) : System F E :=
  { s with node := s.node.log severity text }

end Platform

/-! ### Setpoints -/

section Setpoints

omit [EbikeControl E F]

def takeSetpoint (source : SetpointSource) (setpoint : OuterSetpoint F) (nowUs : UInt64) : System F E :=
  { s with setpoint := setpoint, lastSetpointUs := nowUs, setpointActive := true }.record
    (.setpoint source setpoint)

/-- The current vector is limited to the largest current, keeping its direction. -/
def setCurrentSetpoint (source : SetpointSource) (iD iQ : F) (nowUs : UInt64) : System F E :=
  if !Scalar.isFinite iD || !Scalar.isFinite iQ then s.record (.setpointDropped source)
  else
    let magnitude := Scalar.hypot iD iQ
    let scale :=
      if s.currentLimit < magnitude && Scalar.zero < magnitude then s.currentLimit / magnitude else 1.0
    s.takeSetpoint source
      { OuterSetpoint.default with mode := .torque, current := ⟨iD * scale, iQ * scale⟩ } nowUs

def setSpeedSetpoint (speed : F) (nowUs : UInt64) : System F E :=
  if !Scalar.isFinite speed then s
  else s.takeSetpoint .message { OuterSetpoint.default with mode := .speed, speed := speed } nowUs

def setPositionSetpoint (position : F) (nowUs : UInt64) : System F E :=
  if !Scalar.isFinite position then s
  else
    s.takeSetpoint .message { OuterSetpoint.default with mode := .position, position := position } nowUs

def clearSetpoint : System F E :=
  { s with setpointActive := false, setpoint := .default }.record .setpointCleared

end Setpoints

/-! ### Settings -/

/-- An engaged e-bike control keeps its parameters until the disengage. -/
def loadParameters (settings : NvmSettings) : System F E :=
  { s with
    commandTimeoutUs := toMicroseconds (settings.real .commandTimeout : F)
    cartWheel := settings.natural8 .cartWheel
    cart := s.cart.configure (.from settings)
    ebike := if s.engaged then s.ebike else s.ebike.map (EbikeControl.configure settings)
    currentLimit := settings.real .motorIMax
    torqueConstant := OuterLoop.torqueConstantOf settings }

/-- Restarts the controller with the live settings; refused while the outputs are
released. -/
def applySettings : Bool × System F E :=
  let (state, board) := s.board.getState
  let s := { s with board := board }.record (.applyChecked board.initialization.dropsFault)
  if state = .enabled then (false, { s with settingsPending := true })
  else
    let live := s.board.store.settings
    let s :=
      { s with
        appliedWrites := s.writeCount, checkedWrites := s.writeCount, settingsPending := false
        appliedSettings := live }
    let s := s.loadParameters live
    let (accepted, board) := s.board.startRuntime live s.board.store.capabilities.maxPhaseCurrent
    let s := { s with board := board }
    if !accepted then (false, s.log .error "settings rejected by the hardware (PWM frequency)")
    else if s.waitingAnnounced then
      (true, { s with waitingAnnounced := false }.log .info "waiting settings applied")
    else (true, s)

/-- While engaged: hands changed gains to the running loops. -/
def tuneLive : System F E :=
  let live := s.board.store.settings
  let s := { s with checkedWrites := s.writeCount }.record .tuneStarted
  match firstUntunableChange s.appliedSettings live with
  | some untunable =>
    let s := { s with settingsPending := true }.record .tuneBlocked
    { s.log .warning ("settings wait for the disengage: " ++ untunable.name) with
      waitingAnnounced := true }
  | none =>
    let s := s.onBoard fun b =>
      (b.setCurrentGains (currentGains live)).setGains (OuterLoop.gainsFrom live)
    let s := s.loadParameters live
    { s with appliedSettings := live, appliedWrites := s.checkedWrites }.record (.tuned live)

section Writes

omit [EbikeControl E F]

/-- A register write: the field is replaced when the value fits it and the settings pass
the validation. -/
def writeRegister (r : Register) (value : Except RegisterWriteResult r.kind.Carrier) :
    RegisterWriteResult × System F E :=
  match value with
  | .error result => (result, s)
  | .ok field =>
    let (status, board) := s.board.change (.write r) (s.board.store.update (·.set r field))
    let s := { s with board := board }
    if status ≠ .success then (.outOfRange, s)
    else (.accepted, { s with writeCount := s.writeCount + 1 })

/-- The settings registers come first; the other providers take no writes. -/
def onRegisterAccess (access : RegisterAccess) : System F E :=
  match Register.all.find? (fun r => r.name = access.name), access.value with
  | some r, some value => (s.writeRegister r (value r)).2
  | _, _ => s

end Writes

/-! ### Engagement -/

section Disengagement

omit [EbikeControl E F]

/-- The outputs of a startup run stay with it. -/
def disengage (reason : DisengageReason) : System F E :=
  let s := { s.clearSetpoint with cart := s.cart.reset }
  let s := s.onBoard (Board.setSetpoint .default)
  let s := if s.engaged || !s.startup.isActive then s.onBoard Board.disable else s
  if s.engaged then
    let s := s.onBoard Board.preempt
    ({ s with engaged := false }.record (.disengaged reason)).log .notice
      ("disengaged: " ++ reason.text)
  else s

end Disengagement

/-- The release is the acknowledgement of a latched trip. -/
def release : System F E :=
  let s := { s.clearSetpoint with cart := s.cart.reset }
  let s := s.onBoard fun b =>
    ((b.setSetpoint .default).clearTrips .drive).clearFault .drive
  let (released, board) := s.board.enable
  let s := { s with board := board }
  if !released then
    ({ s with rearmRequired := true }.record .engageRefused).log .warning
      "engage refused: external enable missing or fault latched"
  else ({ s with engaged := true }.record .engaged).log .info "engaged"

def engage : System F E :=
  if s.engaged || s.emergencyStop then s.record .engageIgnored
  else if s.startup.isActive then
    ({ s with rearmRequired := true }.record .engageRefused).log .warning
      "engage refused: the startup aid is running"
  else if s.settingsPending || s.writeCount ≠ s.appliedWrites then
    let (applied, s) := s.applySettings
    if !applied then s.record .engageIgnored else s.release
  else s.release

/-! ### Messages -/

/-- ENGAGED asks for the drive; anything else re-arms it and disengages, and STANDBY
acknowledges a latched trip or fault without releasing the outputs. -/
def onReadiness (payload : Payload F) (nowUs : UInt64) : System F E :=
  match payload.readiness with
  | none => s
  | some value =>
    let s := { s with lastReadinessUs := nowUs }.record (.readiness value)
    if value = readinessEngaged then
      if s.ebike.isSome then s
      else if !s.engaged && !s.rearmRequired then { s with engageRequested := true }
      else s
    else
      let s := { s with rearmRequired := false, ebike := s.ebike.map EbikeControl.inhibit }
      if s.engaged then s.disengage .readiness
      else if value = readinessStandby then
        s.onBoard fun b => (b.clearTrips .drive).clearFault .drive
      else s

section Setpoints

omit [EbikeControl E F]

def onCurrentSetpoint (payload : Payload F) (nowUs : UInt64) : System F E :=
  match payload.currentSetpoint with
  | none => s
  | some (iD, iQ) => s.setCurrentSetpoint .message iD iQ nowUs

def onTorqueSetpoint (payload : Payload F) (nowUs : UInt64) : System F E :=
  match payload.torque with
  | none => s
  | some torque =>
    if s.torqueConstant ≤ Scalar.zero then s
    else s.setCurrentSetpoint .message Scalar.zero (torque / s.torqueConstant) nowUs

def onSpeedSetpoint (payload : Payload F) (nowUs : UInt64) : System F E :=
  match payload.speed with
  | none => s
  | some speed => s.setSpeedSetpoint speed nowUs

def onPositionSetpoint (payload : Payload F) (nowUs : UInt64) : System F E :=
  match payload.position with
  | none => s
  | some position => s.setPositionSetpoint position nowUs

def onServoSetpoint (payload : Payload F) (nowUs : UInt64) : System F E :=
  match payload.servo with
  | none => s
  | some servo =>
    match selectControlModeFromUdralServoRotation servo.position servo.speed servo.acceleration
      servo.torque with
    | none => s
    | some .position => s.setPositionSetpoint servo.position nowUs
    | some .speed => s.setSpeedSetpoint servo.speed nowUs
    | some .torque =>
      if Scalar.zero < s.torqueConstant then
        s.setCurrentSetpoint .message Scalar.zero (servo.torque / s.torqueConstant) nowUs
      else s

def onWheelCommand (payload : Payload F) (nowUs : UInt64) : System F E :=
  match payload.wheelCommand with
  | none => s
  | some wheelTorque =>
    match wheelTorque[s.cartWheel.toNat]? with
    | none => s
    | some torque => { s with cart := s.cart.onWheelCommand torque nowUs }

def onPedalState (payload : Payload F) (nowUs : UInt64) : System F E :=
  match payload.pedalState with
  | none => s
  | some pedals => { s with cart := s.cart.onPedalState pedals nowUs }

def onBatteryStatus (payload : Payload F) (nowUs : UInt64) : System F E :=
  match payload.batteryStatus with
  | none => s
  | some battery => { s with cart := s.cart.onBatteryStatus battery nowUs }

end Setpoints

def onMessage (transfer : Transfer F) (nowUs : UInt64) : System F E :=
  if transfer.portId = s.readinessPort then s.onReadiness transfer.payload nowUs
  else if transfer.portId = s.currentSetpointPort then s.onCurrentSetpoint transfer.payload nowUs
  else if transfer.portId = s.torqueSetpointPort then s.onTorqueSetpoint transfer.payload nowUs
  else if transfer.portId = s.speedSetpointPort then s.onSpeedSetpoint transfer.payload nowUs
  else if transfer.portId = s.positionSetpointPort then s.onPositionSetpoint transfer.payload nowUs
  else if transfer.portId = s.servoSetpointPort then s.onServoSetpoint transfer.payload nowUs
  else if transfer.portId = s.wheelCommandPort then s.onWheelCommand transfer.payload nowUs
  else if transfer.portId = s.pedalStatePort then s.onPedalState transfer.payload nowUs
  else if transfer.portId = s.batteryStatusPort then s.onBatteryStatus transfer.payload nowUs
  else s

/-! ### Commands -/

section Commands

omit [EbikeControl E F]

def startHoming : CommandResult × System F E :=
  if !s.engaged || s.setpoint.mode ≠ .position then
    (⟨Command.statusBadState, "engage in position control first"⟩, s)
  else if !(Scalar.zero < (s.appliedSettings.real .posHomingCurrent : F)) then
    (⟨Command.statusBadState, "homing off: homing_current is 0"⟩, s)
  else if !(Scalar.zero < Scalar.abs (s.appliedSettings.real .posHomingSpeed : F)) then
    (⟨Command.statusBadState, "homing off: homing_speed is 0"⟩, s)
  else
    let (status, board) := s.board.status
    let s := { s with board := board }
    if status.homing = .searching then (⟨Command.statusBadState, "homing runs already"⟩, s)
    else (Command.success, (s.onBoard Board.startHoming).log .info "homing started")

def saveAnswer : SettingsStatus → CommandResult
  | .success => Command.success
  | .persistBlocked => ⟨Command.statusBadState, "outputs released: disengage first"⟩
  | _ => ⟨Command.statusFailure, "flash write failed"⟩

def saveToFlash : SettingsStatus × System F E :=
  let (status, board) := s.board.saveToFlash
  (status, { s with board := board })

/-- Aborts a run and keeps the drive off it. -/
def abortStartup (reason : StartupFault) : System F E :=
  let (startup, board) := s.startup.requestAbort reason s.board
  { s with startup := startup, board := board }

def onRestart : CommandResult × System F E :=
  let s := (s.abortStartup .aborted).disengage .restart
  (Command.success,
    { s with restartRequested := true, restartAtUs := s.nowUs + restartDelayUs }.record .restartAccepted)

def onEmergencyStop : CommandResult × System F E :=
  let s := { s with emergencyStop := true }.record .emergencyStop
  (Command.success, ((s.abortStartup .emergencyStop).disengage .emergencyStop).record .stopped)

def onStorePersistentStates : CommandResult × System F E :=
  let (status, s) := s.saveToFlash
  (saveAnswer status, s)

def onFactoryReset : CommandResult × System F E :=
  if s.engaged || s.startup.isActive then (⟨Command.statusBadState, ""⟩, s)
  else
    let (status, board) := s.board.change .factoryReset s.board.store.resetToFactoryDefaults
    let s := { s with board := board }
    if status ≠ .success then (⟨Command.statusFailure, ""⟩, s)
    else
      let s := { s with settingsPending := true }
      let (status, s) := s.saveToFlash
      (saveAnswer status, s)

def onCommissioning (command : UInt16) (parameter : List UInt8) : CommandResult × System F E :=
  let (answer, startup, board) :=
    Commissioning.onCommand s.engaged s.emergencyStop command parameter s.startup s.board
  (answer, { s with startup := startup, board := board })

def onCommand (command : UInt16) (parameter : List UInt8) : CommandResult × System F E :=
  if Commissioning.handles command then s.onCommissioning command parameter
  else if command = Command.restart then s.onRestart
  else if command = Command.emergencyStop then s.onEmergencyStop
  else if command = Command.resetTiming then (Command.success, s)
  else if command = Command.startHoming then s.startHoming
  else if command = Command.storePersistentStates then s.onStorePersistentStates
  else if command = Command.factoryReset then s.onFactoryReset
  else (⟨Command.statusBadCommand, ""⟩, s)

def onExecuteCommand (payload : Payload F) : System F E :=
  match payload.executeCommand with
  | none => s
  | some (command, parameter) =>
    let (answer, s) := s.onCommand command parameter
    { s with node := s.node.respond answer }

/-- A readiness that follows the node-ID is subscribed with the allocated one. -/
def subscribeReadiness (nodeId : UInt8) : System F E :=
  if s.readinessPort = unsetPortId then
    let port := effectiveReadinessId (s.board.store.settings.natural16 .subReadinessId) nodeId
    let (subscribed, node) := s.node.subscribe port
    if !subscribed then
      { s with readinessPort := unsetPortId, node := node }.log .warning
        "readiness could not be subscribed"
    else { s with readinessPort := port, node := node }
  else s

def onNodeIdAllocated (nodeId : UInt8) : System F E :=
  let s := s.subscribeReadiness nodeId
  let (status, board) := s.board.change .nodeId (s.board.store.setNodeId nodeId)
  let s := { s with board := board }
  let (saved, s) := if status = .success then s.saveToFlash else (status, s)
  let s := if saved = .success then s.log .info "node-ID allocated and saved" else s
  { s with appliedWrites := s.writeCount }

/-! ### The node -/

def onAllocation (transfer : Transfer F) : System F E :=
  match s.node.allocated transfer with
  | none => s
  | some nodeId => { s with node := s.node.setNodeId nodeId }.onNodeIdAllocated nodeId

/-- An anonymous node answers no requests. -/
def onRequest (transfer : Transfer F) : System F E :=
  if s.node.nodeId = nodeIdUnset then s
  else if transfer.portId = portRegisterAccess then
    match transfer.payload.registerAccess with
    | none => s
    | some access => s.onRegisterAccess access
  else if transfer.portId = portExecuteCommand then s.onExecuteCommand transfer.payload
  else s

end Commands

/-- Every subscription of the subject takes the message. -/
def dispatch (nowUs : UInt64) (transfer : Transfer F) : System F E :=
  match transfer.kind with
  | .serviceRequest => s.onRequest transfer
  | .serviceResponse => s
  | .message =>
    if transfer.portId = nodeIdAllocationPort then s.onAllocation transfer
    else
      (s.node.listeners.filter (· = transfer.portId)).foldl (fun s _ => s.onMessage transfer nowUs) s

/-- Takes some of the received transfers from the transport. -/
def spinNode (nowUs : UInt64) : System F E :=
  let received := s.node.queue.take maxTransfersPerSpin
  let s := { s with node := { s.node with queue := s.node.queue.drop maxTransfersPerSpin } }
  received.foldl (fun s transfer => s.dispatch nowUs transfer) s

/-! ### The spin -/

section Spin

omit [EbikeControl E F]

/-- A bus-off counts as the loss of every cart input at once. -/
def watchBus : System F E :=
  let bus := s.node.busStatus
  let wentOff : Bool := bus.state = .busOff || bus.busOffCount ≠ s.busOffCount
  let s := { s with busOffCount := bus.busOffCount }
  let s := if wentOff && !s.busLost then { s with busLost := true, cart := s.cart.onBusLost } else s
  if s.busLost && bus.state ≠ .busOff then
    { s with busLost := false }.log .warning "CAN bus-off, back on the bus"
  else s

end Spin

section Spin

omit [EbikeControl E F]

/-- The e-bike's request stands in for the readiness of the bus. -/
def takeLocalRequest (engage : Bool) (nowUs : UInt64) : System F E :=
  if engage then
    let s := { s with lastReadinessUs := nowUs }.record (.localRequest true)
    if !s.engaged && !s.rearmRequired then { s with engageRequested := true } else s
  else
    let s := { s with rearmRequired := false }.record (.localRequest false)
    if s.engaged then s.disengage .ebike else s

end Spin

def spinLocalControl (nowUs : UInt64) (motorTemperature : Option F) : System F E :=
  match s.ebike with
  | none => s
  | some ebike =>
    let (outer, board) := s.board.status
    let (isr, board) := board.readIsr
    let torque := s.torqueConstant * isr.measuredCurrent.q
    let (output, ebike) := EbikeControl.update nowUs
      { motorSpeed := outer.speed
        torqueMin := outer.torqueMin
        torqueMax := outer.torqueMax
        dcLink := isr.dcLink
        batteryCurrent :=
          if Scalar.zero < isr.dcLink then torque * outer.speed / isr.dcLink else Scalar.zero
        motorTemperature := motorTemperature.getD Scalar.zero
        engaged := s.engaged
        faulted := s.rearmRequired : EbikeVehicle F } ebike
    let s :=
      { s with
        board := board, ebike := some ebike, ebikeEngage := output.engage
        ebikeTorque := output.torque }
    s.takeLocalRequest output.engage nowUs

section Spin

omit [EbikeControl E F]

def spinStartup : System F E :=
  if s.startup.isActive then
    let s := { s with startupActive := true }.record .runRecorded
    let (startup, board) := s.startup.runOnce s.board
    { s with startup := startup, board := board }
  else if s.startupActive then
    let s := { s with startupActive := false }.onBoard Board.releaseForceDuty
    { s with settingsPending := true }.record .runEndRecorded
  else s

/-- The reason of a disengage for a trip or fault the drive has seen. -/
def tripReason : Option TripName → DisengageReason
  | some name => .trip name
  | none => .powerStageFault

/-- After a fault or a trip the drive waits for a re-arm. -/
def disengageTripped : System F E :=
  let s := { s with rearmRequired := true }.record .tripSeen
  let (name, board) := s.board.tripName
  { s with board := board }.disengage (tripReason name)

/-- The readiness timeout, else a fault or a trip. -/
def supervise (nowUs : UInt64) (holdsEngagement : Bool) : System F E :=
  if !s.engaged then s
  else if s.commandTimeoutUs < nowUs - s.lastReadinessUs && !holdsEngagement then
    s.disengage .readinessTimeout
  else
    let (state, board) := s.board.getState
    let s := { s with board := board }.record .stageChecked
    let (tripped, board) := if state = .enabled then s.board.tripped else (true, s.board)
    let s := { s with board := board }
    if tripped then s.disengageTripped
    else s.record (.supervised s.commandTimeoutUs holdsEngagement)

/-- The current of a torque, zero without a torque constant. -/
def currentOf (torque : F) : F :=
  if Scalar.zero < s.torqueConstant then torque / s.torqueConstant else Scalar.zero

/-- The cart torque replaces the setpoints once a wheel command arrived. -/
def followCart (nowUs : UInt64) (cart : CartOutput F) : System F E :=
  if s.engaged && cart.mode ≠ .off then
    s.setCurrentSetpoint .cart Scalar.zero (s.currentOf cart.torque) nowUs
  else s

def followEbike (nowUs : UInt64) : System F E :=
  if s.engaged && s.ebike.isSome && s.ebikeEngage then
    s.setCurrentSetpoint .ebike Scalar.zero (s.currentOf s.ebikeTorque) nowUs
  else s

def expireSetpoint (nowUs : UInt64) : System F E :=
  if s.engaged && s.setpointActive && s.commandTimeoutUs < nowUs - s.lastSetpointUs then s.clearSetpoint
  else s

def spinEngagement (nowUs : UInt64) : System F E :=
  let (outer, board) := s.board.status
  let (output, cart) := s.cart.update nowUs outer.speed s.engaged
  let s := { s with board := board, cart := cart, cartMode := output.mode }
  let s := s.supervise nowUs output.holdsEngagement
  let s := s.followCart nowUs output
  let s := s.followEbike nowUs
  let s := s.expireSetpoint nowUs
  s.onBoard (Board.setBatteryLimits (s.cart.batteryLimits nowUs))

/-- The outer loop commands zero current while the drive is disengaged. -/
def handOver : System F E :=
  let setpoint := { s.setpoint with active := s.engaged }
  (s.onBoard (Board.setSetpoint setpoint)).record (.handed setpoint s.commandTimeoutUs)

end Spin

/-- The request of a readiness is taken up outside the dispatch. -/
def takeEngageRequest : System F E :=
  if s.engageRequested then ({ s with engageRequested := false }.record .engageStep).engage else s

/-- Changed settings: tuned while engaged, else the controller restarts with them. -/
def spinSettings : System F E :=
  let s := if s.engaged && s.writeCount ≠ s.checkedWrites then s.tuneLive else s
  let s :=
    if !s.engaged && s.writeCount ≠ s.appliedWrites then
      { s with settingsPending := true }.record .settingsPending
    else s
  if !s.engaged && s.settingsPending then s.applySettings.2 else s

section Spin

omit [EbikeControl E F]

def spinRestart (nowUs : UInt64) : System F E :=
  if s.restartRequested && s.restartAtUs ≤ nowUs && s.restartHook then
    { s with restartRequested := false }.record .restarted
  else s

end Spin

/-- What a spin meets: the time, new transfers, the bus, the interrupts at its accesses
to shared state and the answers of the storage and the hardware. -/
structure Input (F : Type) where
  nowUs : UInt64
  received : List (Transfer F)
  busStatus : CanBusStatus
  motorTemperature : Option F
  interrupts : List (List (Interrupt F))
  storage : List SettingsStorageStatus
  initializations : List Hardware.Initialization
  subscriptions : List Bool

/-- The drive meets its surroundings of this spin. -/
def meet (input : Input F) : System F E :=
  { s with
    nowUs := input.nowUs
    node :=
      { s.node with
        queue := s.node.queue ++ input.received, busStatus := input.busStatus
        subscriptions := input.subscriptions }
    board :=
      { s.board with
        interrupts := input.interrupts, storage := input.storage
        initializations := input.initializations } }

def spin (input : Input F) : System F E :=
  let s := (s.meet input).record (.spin input.nowUs)
  let s := s.spinNode input.nowUs
  let s := s.watchBus
  let s := s.spinLocalControl input.nowUs input.motorTemperature
  let s := s.takeEngageRequest
  let s := s.spinStartup
  let s := s.spinEngagement input.nowUs
  let s := s.handOver
  let s := s.spinSettings
  let s := s.spinRestart input.nowUs
  { s with settingsWaiting := s.settingsPending || s.writeCount ≠ s.appliedWrites }

/-! ### The start -/

section Start

omit [EbikeControl E F]

/-- Boot: the controller has started with the loaded settings. -/
structure Boot (F E : Type) where
  store : SettingsStore F
  externalEnable : Bool
  timerClock : UInt32
  dropsFault : Bool
  uniqueIdHash : UInt64
  ebike : Option E
  restartHook : Bool
  nowUs : UInt64
  subscriptions : List Bool

/-- The board before the controller has started. -/
def coldBoard (boot : Boot F E) : Board F where
  isr := .powerOn
  stage := .powerOn boot.externalEnable
  outer := .powerOn
  store := boot.store
  timerClock := boot.timerClock
  interrupts := []
  storage := []
  initializations := [⟨true, boot.dropsFault⟩]
  trace := []

def bootBoard (boot : Boot F E) : Board F :=
  ((coldBoard boot).startRuntime boot.store.settings boot.store.capabilities.maxPhaseCurrent).2

/-- The members of a drive node before `Start()`. -/
def constructed (boot : Boot F E) : System F E where
  restartHook := boot.restartHook
  startup := .initial
  startupActive := false
  readinessPort := unsetPortId
  currentSetpointPort := unsetPortId
  torqueSetpointPort := unsetPortId
  speedSetpointPort := unsetPortId
  positionSetpointPort := unsetPortId
  servoSetpointPort := unsetPortId
  wheelCommandPort := unsetPortId
  pedalStatePort := unsetPortId
  batteryStatusPort := unsetPortId
  commandTimeoutUs := 500000
  cartWheel := 0
  currentLimit := Scalar.zero
  torqueConstant := Scalar.zero
  writeCount := 0
  appliedWrites := 0
  checkedWrites := 0
  appliedSettings := boot.store.settings
  settingsPending := false
  settingsWaiting := false
  waitingAnnounced := false
  cart := .initial
  cartMode := .off
  ebike := boot.ebike
  ebikeEngage := false
  ebikeTorque := Scalar.zero
  busLost := false
  busOffCount := 0
  engaged := false
  rearmRequired := false
  emergencyStop := false
  engageRequested := false
  lastReadinessUs := 0
  lastSetpointUs := 0
  setpointActive := false
  setpoint := .default
  restartRequested := false
  restartAtUs := 0
  nowUs := 0
  node :=
    { nodeId := nodeIdUnset, uniqueIdHash := boot.uniqueIdHash, listeners := [], queue := []
      subscriptions := boot.subscriptions, busStatus := ⟨.errorActive, 0⟩, answers := [], records := [] }
  board := bootBoard boot

def subscribeAll (ports : List UInt16) : System F E :=
  { s with node := ports.foldl (fun node port => (node.subscribe port).2) s.node }

end Start

/-- `Start()`: takes the ports and parameters of the live settings and starts the node. -/
def start (nowUs : UInt64) : System F E :=
  let live := s.board.store.settings
  let nodeId := if live.natural8 .nodeId = 0 then nodeIdUnset else live.natural8 .nodeId
  let s :=
    { s with
      nowUs := nowUs
      readinessPort := effectiveReadinessId (live.natural16 .subReadinessId) nodeId
      currentSetpointPort := live.natural16 .subCurrentSetpointId
      torqueSetpointPort := live.natural16 .subTorqueSetpointId
      speedSetpointPort := live.natural16 .subSpeedSetpointId
      positionSetpointPort := live.natural16 .subPositionSetpointId
      servoSetpointPort := live.natural16 .subServoSetpointId
      wheelCommandPort := live.natural16 .subWheelCommandId
      pedalStatePort := live.natural16 .subPedalStateId
      batteryStatusPort := live.natural16 .subBatteryStatusId
      appliedWrites := s.writeCount
      checkedWrites := s.writeCount
      appliedSettings := live }
  let s := s.loadParameters live
  let s := s.subscribeAll
    [s.readinessPort, s.currentSetpointPort, s.torqueSetpointPort, s.speedSetpointPort,
      s.positionSetpointPort, s.servoSetpointPort, s.wheelCommandPort, s.pedalStatePort,
      s.batteryStatusPort]
  { s with node := s.node.setNodeId nodeId }

def boot (boot : Boot F E) : System F E := (constructed boot).start boot.nowUs

def run (start : Boot F E) (inputs : List (Input F)) : System F E := inputs.foldl spin (boot start)

end System

end Unimoc.Drive
