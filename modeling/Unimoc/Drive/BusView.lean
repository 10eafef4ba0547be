import Unimoc.Drive.CartReceived
import Unimoc.Drive.DriveNode

/-! What a loss of the bus is about: the messages that count for the cart, the bus status
and the transfers that wait. Apart from the handlers of the cart messages and the watch on
the bus the drive leaves it alone. -/
namespace Unimoc.Drive

open CurrentControl Cyphal Firmware Settings Startup

structure CartPorts where
  wheelCommand : UInt16
  pedalState : UInt16
  batteryStatus : UInt16

structure BusView (F : Type) where
  received : CartReceived F
  busLost : Bool
  busOffCount : UInt32
  busStatus : CanBusStatus
  queue : List (Transfer F)
  ports : CartPorts

namespace System

variable {F E : Type} [Arithmetic F] [EbikeControl E F] (s : System F E)

section Platform

omit [EbikeControl E F]

def busView : BusView F where
  received := s.cart.received
  busLost := s.busLost
  busOffCount := s.busOffCount
  busStatus := s.node.busStatus
  queue := s.node.queue
  ports := ⟨s.wheelCommandPort, s.pedalStatePort, s.batteryStatusPort⟩

@[simp] theorem busView_onBoard (f : Board F → Board F) : (s.onBoard f).busView = s.busView := rfl

@[simp] theorem busView_record (e : Event F) : (s.record e).busView = s.busView := rfl

@[simp] theorem busView_log (severity : Severity) (text : String) :
    (s.log severity text).busView = s.busView := by
  unfold log CyphalNode.log
  split <;> rfl

@[simp] theorem busView_clearSetpoint : s.clearSetpoint.busView = s.busView := rfl

@[simp] theorem busView_setCurrentSetpoint (source : SetpointSource) (iD iQ : F) (nowUs : UInt64) :
    (s.setCurrentSetpoint source iD iQ nowUs).busView = s.busView := by
  unfold setCurrentSetpoint
  split <;> rfl

@[simp] theorem busView_setSpeedSetpoint (speed : F) (nowUs : UInt64) :
    (s.setSpeedSetpoint speed nowUs).busView = s.busView := by
  unfold setSpeedSetpoint
  split <;> rfl

@[simp] theorem busView_setPositionSetpoint (position : F) (nowUs : UInt64) :
    (s.setPositionSetpoint position nowUs).busView = s.busView := by
  unfold setPositionSetpoint
  split <;> rfl

@[simp] theorem busView_writeRegister (r : Register)
    (value : Except RegisterWriteResult r.kind.Carrier) :
    (s.writeRegister r value).2.busView = s.busView := by
  cases value with
  | error result => rfl
  | ok field =>
    simp only [writeRegister]
    split <;> rfl

@[simp] theorem busView_onRegisterAccess (access : RegisterAccess) :
    (s.onRegisterAccess access).busView = s.busView := by
  unfold onRegisterAccess
  split
  · exact busView_writeRegister _ _ _
  · rfl

@[simp] theorem busView_disengage (reason : DisengageReason) :
    (s.disengage reason).busView = s.busView := by
  simp only [disengage]
  split <;> split <;> simp <;> rfl

end Platform

@[simp] theorem busView_loadParameters (settings : NvmSettings) :
    (s.loadParameters settings).busView = s.busView := rfl

@[simp] theorem busView_applySettings : s.applySettings.2.busView = s.busView := by
  simp only [applySettings]
  split
  · rfl
  · split
    · simp; rfl
    · split
      · simp; rfl
      · rfl

@[simp] theorem busView_tuneLive : s.tuneLive.busView = s.busView := by
  simp only [tuneLive]
  split
  · exact busView_log _ _ _
  · rfl

omit [EbikeControl E F] in
@[simp] theorem busView_release : s.release.busView = s.busView := by
  simp only [release]
  split <;> simp <;> rfl

@[simp] theorem busView_engage : s.engage.busView = s.busView := by
  simp only [engage]
  split
  · rfl
  · split
    · simp; rfl
    · split
      · split <;> simp
      · simp

@[simp] theorem busView_onReadiness (payload : Payload F) (nowUs : UInt64) :
    (s.onReadiness payload nowUs).busView = s.busView := by
  unfold onReadiness
  cases payload.readiness with
  | none => rfl
  | some value =>
    dsimp only
    split
    · split
      · rfl
      · split <;> rfl
    · split
      · exact busView_disengage _ _
      · split <;> rfl

section Setpoints

omit [EbikeControl E F]

@[simp] theorem busView_onCurrentSetpoint (payload : Payload F) (nowUs : UInt64) :
    (s.onCurrentSetpoint payload nowUs).busView = s.busView := by
  unfold onCurrentSetpoint
  split
  · rfl
  · exact busView_setCurrentSetpoint _ _ _ _ _

@[simp] theorem busView_onTorqueSetpoint (payload : Payload F) (nowUs : UInt64) :
    (s.onTorqueSetpoint payload nowUs).busView = s.busView := by
  unfold onTorqueSetpoint
  split
  · rfl
  · split
    · rfl
    · exact busView_setCurrentSetpoint _ _ _ _ _

@[simp] theorem busView_onSpeedSetpoint (payload : Payload F) (nowUs : UInt64) :
    (s.onSpeedSetpoint payload nowUs).busView = s.busView := by
  unfold onSpeedSetpoint
  split
  · rfl
  · exact busView_setSpeedSetpoint _ _ _

@[simp] theorem busView_onPositionSetpoint (payload : Payload F) (nowUs : UInt64) :
    (s.onPositionSetpoint payload nowUs).busView = s.busView := by
  unfold onPositionSetpoint
  split
  · rfl
  · exact busView_setPositionSetpoint _ _ _

@[simp] theorem busView_onServoSetpoint (payload : Payload F) (nowUs : UInt64) :
    (s.onServoSetpoint payload nowUs).busView = s.busView := by
  unfold onServoSetpoint
  split
  · rfl
  · split
    · rfl
    · exact busView_setPositionSetpoint _ _ _
    · exact busView_setSpeedSetpoint _ _ _
    · split
      · exact busView_setCurrentSetpoint _ _ _ _ _
      · rfl

end Setpoints

section Commands

omit [EbikeControl E F]

@[simp] theorem busView_startHoming : s.startHoming.2.busView = s.busView := by
  unfold startHoming
  split
  · rfl
  · split
    · rfl
    · split
      · rfl
      · dsimp only
        split
        · rfl
        · exact busView_log _ _ _

@[simp] theorem busView_saveToFlash : s.saveToFlash.2.busView = s.busView := rfl

@[simp] theorem busView_abortStartup (reason : StartupFault) :
    (s.abortStartup reason).busView = s.busView := rfl

@[simp] theorem busView_onRestart : s.onRestart.2.busView = s.busView :=
  busView_disengage _ _

@[simp] theorem busView_onEmergencyStop : s.onEmergencyStop.2.busView = s.busView :=
  busView_disengage _ _

@[simp] theorem busView_onFactoryReset : s.onFactoryReset.2.busView = s.busView := by
  unfold onFactoryReset
  split
  · rfl
  · dsimp only
    split <;> rfl

@[simp] theorem busView_onCommand (command : UInt16) (parameter : List UInt8) :
    (s.onCommand command parameter).2.busView = s.busView := by
  unfold onCommand
  split
  · rfl
  · split
    · exact busView_onRestart s
    · split
      · exact busView_onEmergencyStop s
      · split
        · rfl
        · split
          · exact busView_startHoming s
          · split
            · rfl
            · split
              · exact busView_onFactoryReset s
              · rfl

@[simp] theorem busView_onExecuteCommand (payload : Payload F) :
    (s.onExecuteCommand payload).busView = s.busView := by
  unfold onExecuteCommand
  split
  · rfl
  · exact busView_onCommand s _ _

@[simp] theorem busView_subscribe (port : UInt16) :
    ({ s with node := (s.node.subscribe port).2 } : System F E).busView = s.busView := by
  unfold CyphalNode.subscribe
  split
  · rfl
  · split <;> rfl

@[simp] theorem busView_subscribeReadiness (nodeId : UInt8) :
    (s.subscribeReadiness nodeId).busView = s.busView := by
  unfold subscribeReadiness
  split
  · dsimp only
    split
    · exact (busView_log _ _ _).trans (busView_subscribe s _)
    · exact busView_subscribe s _
  · rfl

@[simp] theorem busView_onNodeIdAllocated (nodeId : UInt8) :
    (s.onNodeIdAllocated nodeId).busView = s.busView := by
  rw [← busView_subscribeReadiness s nodeId]
  unfold onNodeIdAllocated
  dsimp only
  split
  · split
    · exact busView_log _ _ _
    · rfl
  · rfl

@[simp] theorem busView_onAllocation (transfer : Transfer F) :
    (s.onAllocation transfer).busView = s.busView := by
  unfold onAllocation
  split
  · rfl
  · exact busView_onNodeIdAllocated _ _

@[simp] theorem busView_onRequest (transfer : Transfer F) :
    (s.onRequest transfer).busView = s.busView := by
  unfold onRequest
  split
  · rfl
  · split
    · split
      · rfl
      · exact busView_onRegisterAccess _ _
    · split
      · exact busView_onExecuteCommand _ _
      · rfl

end Commands

section Spin

omit [EbikeControl E F]

@[simp] theorem busView_takeLocalRequest (engage : Bool) (nowUs : UInt64) :
    (s.takeLocalRequest engage nowUs).busView = s.busView := by
  unfold takeLocalRequest
  split
  · dsimp only
    split <;> rfl
  · dsimp only
    split
    · exact busView_disengage _ _
    · rfl

@[simp] theorem busView_spinStartup : s.spinStartup.busView = s.busView := by
  unfold spinStartup
  split
  · rfl
  · split <;> rfl

@[simp] theorem busView_disengageTripped : s.disengageTripped.busView = s.busView :=
  busView_disengage _ _

@[simp] theorem busView_supervise (nowUs : UInt64) (holdsEngagement : Bool) :
    (s.supervise nowUs holdsEngagement).busView = s.busView := by
  unfold supervise
  split
  · rfl
  · split
    · exact busView_disengage _ _
    · dsimp only
      split <;> split
      · exact busView_disengageTripped _
      · rfl
      · exact busView_disengageTripped _
      · rfl

@[simp] theorem busView_followCart (nowUs : UInt64) (cart : CartOutput F) :
    (s.followCart nowUs cart).busView = s.busView := by
  unfold followCart
  split
  · exact busView_setCurrentSetpoint _ _ _ _ _
  · rfl

@[simp] theorem busView_followEbike (nowUs : UInt64) : (s.followEbike nowUs).busView = s.busView := by
  unfold followEbike
  split
  · exact busView_setCurrentSetpoint _ _ _ _ _
  · rfl

@[simp] theorem busView_expireSetpoint (nowUs : UInt64) :
    (s.expireSetpoint nowUs).busView = s.busView := by
  unfold expireSetpoint
  split <;> rfl

@[simp] theorem busView_spinEngagement (nowUs : UInt64) :
    (s.spinEngagement nowUs).busView = s.busView := by
  unfold spinEngagement
  simp only [busView_onBoard, busView_expireSetpoint, busView_followEbike, busView_followCart,
    busView_supervise]
  simp only [busView, CartControl.update_received]

@[simp] theorem busView_handOver : s.handOver.busView = s.busView := rfl

@[simp] theorem busView_spinRestart (nowUs : UInt64) : (s.spinRestart nowUs).busView = s.busView := by
  unfold spinRestart
  split <;> rfl

end Spin

@[simp] theorem busView_spinLocalControl (nowUs : UInt64) (motorTemperature : Option F) :
    (s.spinLocalControl nowUs motorTemperature).busView = s.busView := by
  unfold spinLocalControl
  split
  · rfl
  · exact busView_takeLocalRequest _ _ _

@[simp] theorem busView_takeEngageRequest : s.takeEngageRequest.busView = s.busView := by
  unfold takeEngageRequest
  split
  · exact busView_engage _
  · rfl

@[simp] theorem busView_spinSettings : s.spinSettings.busView = s.busView := by
  have tuned : (if s.engaged && s.writeCount ≠ s.checkedWrites then s.tuneLive else s).busView =
      s.busView := by
    split
    · exact busView_tuneLive s
    · rfl
  have noted (s : System F E) :
      (if !s.engaged && s.writeCount ≠ s.appliedWrites then
        { s with settingsPending := true }.record .settingsPending
      else s).busView = s.busView := by
    split <;> rfl
  have applied (s : System F E) :
      (if !s.engaged && s.settingsPending then s.applySettings.2 else s).busView = s.busView := by
    split
    · exact busView_applySettings s
    · rfl
  exact (applied _).trans ((noted _).trans tuned)

end System

end Unimoc.Drive
