import Mathlib.Data.List.Pairwise
import Unimoc.Cyphal.Ports
import Unimoc.Drive.DriveNode
import Unimoc.Settings.Accepted
import Unimoc.Settings.Factory

/-! The configured ports of a drive: which of them work for settings the validation accepts. -/
namespace Unimoc.Drive

open Cyphal Settings

inductive PortHandler
  | readiness
  | currentSetpoint
  | torqueSetpoint
  | speedSetpoint
  | positionSetpoint
  | servoSetpoint
  | wheelCommand
  | pedalState
  | batteryStatus
  | trigger
deriving DecidableEq, Repr

def startNodeId (s : NvmSettings) : UInt8 :=
  if s.natural8 .nodeId = 0 then nodeIdUnset else s.natural8 .nodeId

namespace PortHandler

/-- The order of the subscriptions in `DriveNode::Start()`. -/
def drive : List PortHandler := [
  .readiness, .currentSetpoint, .torqueSetpoint, .speedSetpoint, .positionSetpoint,
  .servoSetpoint, .wheelCommand, .pedalState, .batteryStatus]

/-- The subject the settings give a handler. -/
def port (s : NvmSettings) : PortHandler → UInt16
  | .readiness => effectiveReadinessId (s.natural16 .subReadinessId) (startNodeId s)
  | .currentSetpoint => s.natural16 .subCurrentSetpointId
  | .torqueSetpoint => s.natural16 .subTorqueSetpointId
  | .speedSetpoint => s.natural16 .subSpeedSetpointId
  | .positionSetpoint => s.natural16 .subPositionSetpointId
  | .servoSetpoint => s.natural16 .subServoSetpointId
  | .wheelCommand => s.natural16 .subWheelCommandId
  | .pedalState => s.natural16 .subPedalStateId
  | .batteryStatus => s.natural16 .subBatteryStatusId
  | .trigger => s.natural16 .subCymonTriggerId

end PortHandler

inductive Component
  | drive
  | trace
deriving DecidableEq, Repr

def PortHandler.component : PortHandler → Component
  | .trigger => .trace
  | _ => .drive

/-- `OnMessage()` of a component: the handler of the first of its ports that matches. -/
def Component.onMessage (port : PortHandler → UInt16) (component : Component) (portId : UInt16) :
    List PortHandler :=
  match component with
  | .drive =>
    if portId = port .readiness then [.readiness]
    else if portId = port .currentSetpoint then [.currentSetpoint]
    else if portId = port .torqueSetpoint then [.torqueSetpoint]
    else if portId = port .speedSetpoint then [.speedSetpoint]
    else if portId = port .positionSetpoint then [.positionSetpoint]
    else if portId = port .servoSetpoint then [.servoSetpoint]
    else if portId = port .wheelCommand then [.wheelCommand]
    else if portId = port .pedalState then [.pedalState]
    else if portId = port .batteryStatus then [.batteryStatus]
    else []
  | .trace => if portId = port .trigger then [.trigger] else []

/-! ### The model of the drive follows these ports -/

namespace System

variable {F E : Type} [Arithmetic F] [EbikeControl E F]

/-- The ports the drive dispatches by; the trigger is not one of them. -/
def port (s : System F E) : PortHandler → UInt16
  | .readiness => s.readinessPort
  | .currentSetpoint => s.currentSetpointPort
  | .torqueSetpoint => s.torqueSetpointPort
  | .speedSetpoint => s.speedSetpointPort
  | .positionSetpoint => s.positionSetpointPort
  | .servoSetpoint => s.servoSetpointPort
  | .wheelCommand => s.wheelCommandPort
  | .pedalState => s.pedalStatePort
  | .batteryStatus => s.batteryStatusPort
  | .trigger => unsetPortId

def handle (nowUs : UInt64) (payload : Payload F) (s : System F E) : PortHandler → System F E
  | .readiness => s.onReadiness payload nowUs
  | .currentSetpoint => s.onCurrentSetpoint payload nowUs
  | .torqueSetpoint => s.onTorqueSetpoint payload nowUs
  | .speedSetpoint => s.onSpeedSetpoint payload nowUs
  | .positionSetpoint => s.onPositionSetpoint payload nowUs
  | .servoSetpoint => s.onServoSetpoint payload nowUs
  | .wheelCommand => s.onWheelCommand payload nowUs
  | .pedalState => s.onPedalState payload nowUs
  | .batteryStatus => s.onBatteryStatus payload nowUs
  | .trigger => s

theorem onMessage_handled (s : System F E) (transfer : Transfer F) (nowUs : UInt64) :
    s.onMessage transfer nowUs =
      (Component.drive.onMessage s.port transfer.portId).foldl (handle nowUs transfer.payload) s := by
  unfold onMessage Component.onMessage
  simp only [port]
  split_ifs <;> simp_all [handle]

theorem start_port (s : System F E) (nowUs : UInt64) {handler : PortHandler}
    (listed : handler ∈ PortHandler.drive) :
    (s.start nowUs).port handler = handler.port s.board.store.settings := by
  cases handler with
  | trigger => exact absurd listed (by decide)
  | _ => rfl

end System

/-! ### The boot of the ports -/

structure Extents where
  message : PortHandler → Nat
  trace : Register → Nat
  standard : UInt16 → Nat

section Boot

variable (links : Linking) (extents : Extents) (s : NvmSettings)

/-- `TraceNode::Start()`: the trace services, then the trigger. -/
def traceServers (node : NodePorts Component) : Bool × NodePorts Component :=
  node.addServers links .trace (servicePorts.map fun r => (s.natural16 r, extents.trace r))

def traceStart (node : NodePorts Component) : Bool × NodePorts Component :=
  let (added, node) := traceServers links extents s node
  let (subscribed, node) :=
    node.subscribe links (PortHandler.port s .trigger) (extents.message .trigger) .trace
  (subscribed && added, node)

/-- `DriveNode::Start()`: its subjects, then the node itself. -/
def driveStart (node : NodePorts Component) : Bool × NodePorts Component :=
  let (subscribed, node) := node.subscribeAll links .drive
    (PortHandler.drive.map fun handler => (handler.port s, extents.message handler))
  let (started, node) := node.start links extents.standard (startNodeId s)
  (started && subscribed, node)

/-- The node after the boot: the traces start before the drive. -/
def bootPorts : NodePorts Component :=
  (driveStart links extents s (traceStart links extents s .constructed).2).2

/-- The handlers a message on the subject reaches; the transport takes only what is
subscribed. -/
def reached (portId : UInt16) : List PortHandler :=
  let node := bootPorts links extents s
  if CanardTransport.carries node.subscriptions .message portId then
    (node.dispatch .message portId).flatMap fun
      | .message component => component.onMessage (PortHandler.port s) portId
      | _ => []
  else []

end Boot

/-! ### The ports that work -/

def publishedPorts : List Register := [
  .pubTelemetryId, .pubDriveStatusId, .pubCommissioningId, .pubHomingStateId, .pubCymonTriggerId]

/-- All enabled ports work at once. -/
structure PortsWork (links : Linking) (extents : Extents) (uniqueIdHash : UInt64) (s : NvmSettings) :
    Prop where
  messages : ∀ handler : PortHandler, handler.port s ≠ unsetPortId →
    reached links extents s (handler.port s) = [handler]
  publications : ∀ r ∈ publishedPorts, s.natural16 r ≠ unsetPortId →
    ¬Publishes uniqueIdHash (startNodeId s) (s.natural16 r)
  services : (traceServers links extents s .constructed).1 = true

/-- No enabled port is one the node uses by itself. -/
structure AvoidsOwnPorts (s : NvmSettings) : Prop where
  messages : ∀ handler : PortHandler, handler.port s ≠ nodeIdAllocationPort
  publications : ∀ r ∈ publishedPorts, s.natural16 r ∉ ownSubjects
  services : ∀ r ∈ servicePorts, s.natural16 r ∉ servedServices

/-! ### What the validation keeps apart -/

/-- One of the two is disabled or they differ. -/
def Apart (first second : UInt16) : Prop := first = unsetPortId ∨ first ≠ second

theorem Apart.symm {first second : UInt16} (apart : Apart first second) : Apart second first := by
  by_cases same : first = second
  · exact .inl ((same.symm).trans (apart.resolve_right fun differ => differ same))
  · exact .inr (Ne.symm same)

theorem apart_iff {port : UInt16} (ports : List UInt16) :
    (port ≠ unsetPortId && ports.contains port) = false ↔ ∀ other ∈ ports, Apart port other := by
  by_cases unset : port = unsetPortId
  · simp [unset, Apart]
  · simp only [ne_eq, unset, not_false_eq_true, decide_true, Bool.true_and, List.contains_eq_mem,
      decide_eq_false_iff_not, Apart, false_or]
    constructor
    · intro single other inside same
      exact single (same ▸ inside)
    · intro apart inside
      exact apart port inside rfl

theorem apart_pairwise (ports : List UInt16) :
    hasDuplicatePort ports = false ↔ ports.Pairwise Apart := by
  induction ports with
  | nil => simp [hasDuplicatePort]
  | cons port rest ih => rw [hasDuplicatePort, Bool.or_eq_false_iff, apart_iff, ih, List.pairwise_cons]

section Validated

variable {F : Type} [Arithmetic F] {s : NvmSettings} (accepted : Accepted F s)
  (configured : s.natural8 .nodeId ≠ 0)
include accepted configured

theorem drive_apart : PortHandler.drive.Pairwise fun first second => Apart (first.port s) (second.port s) := by
  have distinct := accepted.distinct
  simp only [hasPortIdCollision, configured, false_and, ↓reduceIte, Bool.or_eq_false_iff] at distinct
  have subjects := (apart_pairwise _).mp distinct.1.1.1
  have listed : (PortHandler.drive.map (PortHandler.port s)).Pairwise Apart := by
    refine subjects.sublist ?_
    simp only [PortHandler.drive, PortHandler.port, startNodeId, if_neg configured, List.map_cons,
      List.map_nil, List.cons_sublist_cons]
    -- the telemetry comes before the cart subjects, the other publications behind them
    exact .cons _ (.cons_cons _ (.cons_cons _ (.cons_cons _ (List.nil_sublist _))))
  exact List.pairwise_map.mp listed

theorem trigger_apart {handler : PortHandler} (listed : handler ∈ PortHandler.drive) :
    Apart (PortHandler.trigger.port s) (handler.port s) := by
  have distinct := accepted.distinct
  simp only [hasPortIdCollision, configured, false_and, ↓reduceIte, Bool.or_eq_false_iff] at distinct
  have trigger := distinct.2
  by_cases unset : PortHandler.trigger.port s = unsetPortId
  · exact .inl unset
  · refine .inr fun same => ?_
    have enabled : s.natural16 .subCymonTriggerId ≠ unsetPortId := unset
    have off : s.natural16 .subCymonTriggerId = handler.port s := same
    rw [off] at enabled trigger
    simp only [enabled, ne_eq, not_false_eq_true, decide_true, Bool.true_and] at trigger
    cases handler <;>
      simp [PortHandler.port, startNodeId, configured, PortHandler.drive] at trigger listed

theorem ports_apart (first second : PortHandler) (differ : first ≠ second) :
    Apart (first.port s) (second.port s) := by
  have listed : ∀ handler : PortHandler, handler = .trigger ∨ handler ∈ PortHandler.drive := by
    intro handler
    cases handler <;> decide
  rcases listed first with rfl | inside
  · rcases listed second with rfl | insideSecond
    · exact absurd rfl differ
    · exact trigger_apart accepted configured insideSecond
  · rcases listed second with rfl | insideSecond
    · exact (trigger_apart accepted configured inside).symm
    · have symmetric : Std.Symm fun first second : PortHandler => Apart (first.port s) (second.port s) :=
        ⟨fun _ _ apart => apart.symm⟩
      exact (drive_apart accepted configured).forall inside insideSecond differ

theorem port_injective {first second : PortHandler} (enabled : first.port s ≠ unsetPortId)
    (same : second.port s = first.port s) : second = first := by
  by_contra differ
  rcases ports_apart accepted configured first second (Ne.symm differ) with unset | apart
  · exact enabled unset
  · exact apart same.symm

/-- A component hands a message on an enabled subject to the handler of that subject. -/
theorem onMessage_port {handler : PortHandler} (enabled : handler.port s ≠ unsetPortId) :
    handler.component.onMessage (PortHandler.port s) (handler.port s) = [handler] := by
  have other : ∀ second, second ≠ handler → handler.port s ≠ second.port s := fun second differ same =>
    differ (port_injective accepted configured enabled same.symm)
  cases handler <;> simp [PortHandler.component, Component.onMessage, other]

/-! ### The tables after the boot -/

section Boot

variable {links : Linking} (extents : Extents)
  (linked : ∀ kind portId extent, links kind portId extent = true)
include linked

theorem traceServers_accepted :
    (traceServers links extents s .constructed).1 =
        servicePorts.all (fun r => !servedServices.contains (s.natural16 r)) ∧
      (traceServers links extents s .constructed).2.subscriptions.length ≤ 5 ∧
      (traceServers links extents s .constructed).2.listeners = [] := by
  have distinct := accepted.distinct
  simp only [hasPortIdCollision, configured, false_and, ↓reduceIte, Bool.or_eq_false_iff] at distinct
  have services : servicePorts.Pairwise fun first second => Apart (s.natural16 first) (s.natural16 second) :=
    List.pairwise_map.mp ((apart_pairwise _).mp distinct.1.1.2)
  have inRange : ∀ service ∈ servicePorts.map (fun r => (s.natural16 r, extents.trace r)),
      service.1 ≠ unsetPortId → service.1 ≤ maxServiceId := by
    intro service inside enabled
    obtain ⟨r, listed, rfl⟩ := List.mem_map.mp inside
    simpa [isServiceId, enabled] using accepted.services r listed
  obtain ⟨answer, length, listeners⟩ := NodePorts.addServers_accepted Component.trace linked
    (servicePorts.map fun r => (s.natural16 r, extents.trace r)) .constructed
    (by rw [List.length_map]; decide) (by rw [List.length_map]; decide) inRange
    (fun _ _ _ server inside => absurd inside List.not_mem_nil) (List.pairwise_map.mpr services)
  refine ⟨?_, length, listeners⟩
  rw [traceServers, answer, List.all_map]
  rfl

theorem traceStart_accepted :
    (traceStart links extents s .constructed).2.listeners =
        ([PortHandler.trigger].filter (fun h => h.port s ≠ unsetPortId)).map
          (fun h => (h.port s, h.component)) ∧
      (traceStart links extents s .constructed).2.subscriptions.length ≤ 6 ∧
      (PortHandler.trigger.port s ≠ unsetPortId → CanardTransport.carries
        (traceStart links extents s .constructed).2.subscriptions .message
          (PortHandler.trigger.port s) = true) := by
  obtain ⟨-, length, listeners⟩ := traceServers_accepted accepted configured extents linked
  have started : (traceStart links extents s .constructed).2 =
      ((traceServers links extents s .constructed).2.subscribeAll links .trace
        [(PortHandler.trigger.port s, extents.message .trigger)]).2 := rfl
  rw [started]
  generalize (traceServers links extents s .constructed).2 = node at length listeners
  obtain ⟨table, longer, carried⟩ := NodePorts.subscribeAll_accepted Component.trace linked
    [(PortHandler.trigger.port s, extents.message .trigger)] node (by simp [listeners, maxListeners])
    (by simp [maxSubscriptions]; omega)
  refine ⟨?_, longer.trans (by simp; omega), fun enabled => ?_⟩
  · rw [table, listeners]
    by_cases enabled : PortHandler.trigger.port s = unsetPortId <;>
      simp [enabled, PortHandler.component]
  · rw [carried]
    simp [enabled]

/-- Every enabled subject has its component in the table and is taken by the transport. -/
theorem bootPorts_accepted :
    (bootPorts links extents s).listeners =
        ((PortHandler.trigger :: PortHandler.drive).filter (fun h => h.port s ≠ unsetPortId)).map
          (fun h => (h.port s, h.component)) ∧
      ∀ handler : PortHandler, handler.port s ≠ unsetPortId →
        CanardTransport.carries (bootPorts links extents s).subscriptions .message (handler.port s) = true := by
  obtain ⟨first, length, trigger⟩ := traceStart_accepted accepted configured extents linked
  have started : bootPorts links extents s =
      (((traceStart links extents s .constructed).2.subscribeAll links .drive
        (PortHandler.drive.map fun handler => (handler.port s, extents.message handler))).2.start links
          extents.standard (startNodeId s)).2 := rfl
  rw [started]
  generalize (traceStart links extents s .constructed).2 = node at first length trigger
  have one : node.listeners.length ≤ 1 := by
    rw [first, List.length_map]
    exact (List.length_filter_le ..)
  obtain ⟨table, longer, carried⟩ := NodePorts.subscribeAll_accepted Component.drive linked
    (PortHandler.drive.map fun handler => (handler.port s, extents.message handler)) node
    (by simp [PortHandler.drive, maxListeners]; omega) (by simp [PortHandler.drive, maxSubscriptions]; omega)
  generalize (node.subscribeAll links .drive (PortHandler.drive.map fun handler =>
    (handler.port s, extents.message handler))).2 = subscribed at table longer carried
  obtain ⟨listeners, kept⟩ := subscribed.start_keeps extents.standard (startNodeId s)
  constructor
  · have owned : ∀ handler ∈ PortHandler.drive.filter (fun h => h.port s ≠ unsetPortId),
        (handler.port s, Component.drive) = (handler.port s, handler.component) := by
      intro handler inside
      cases handler with
      | trigger => exact absurd (List.mem_filter.mp inside).1 (by decide)
      | _ => rfl
    rw [listeners, table, first, List.filter_map, List.map_map, ← List.singleton_append (l := PortHandler.drive),
      List.filter_append, List.map_append]
    exact congrArg _ (List.map_congr_left owned)
  · intro handler enabled
    apply kept
    rw [carried]
    cases handler with
    | trigger => rw [trigger enabled, Bool.true_or]
    | _ => simp [PortHandler.drive, enabled]

theorem reached_port {handler : PortHandler} (enabled : handler.port s ≠ unsetPortId) :
    reached links extents s (handler.port s) =
      if handler.port s = nodeIdAllocationPort then [] else [handler] := by
  obtain ⟨table, carried⟩ := bootPorts_accepted accepted configured extents linked
  unfold reached
  simp only [carried handler enabled, ↓reduceIte, NodePorts.dispatch]
  split
  · rfl
  · have only : ∀ h : PortHandler,
        (decide (h.port s = handler.port s) && decide (h.port s ≠ unsetPortId)) = decide (h = handler) := by
      intro h
      by_cases same : h = handler
      · subst same
        simp [enabled]
      · have differ : h.port s ≠ handler.port s := fun equal =>
          same (port_injective accepted configured enabled equal)
        simp [same, differ]
    have single : (PortHandler.trigger :: PortHandler.drive).filter (fun h => h = handler) = [handler] := by
      cases handler <;> rfl
    have found := onMessage_port accepted configured enabled
    rw [table, List.filter_map, List.filter_filter]
    simp only [Function.comp_def, only, single, List.map_cons, List.map_nil, List.flatMap_cons,
      List.flatMap_nil, found, List.append_nil]

end Boot

end Validated

/-- All enabled ports of accepted settings work exactly when none of them is a port the node
uses by itself, which the validation does not ask for. -/
theorem ports_work {F : Type} [Arithmetic F] {s : NvmSettings} {limits : HardwareCapabilities F}
    (accepted : validate s limits = .success)
    (configured : s.natural8 .nodeId ≠ 0) {links : Linking}
    (linked : ∀ kind portId extent, links kind portId extent = true) (extents : Extents)
    (uniqueIdHash : UInt64) :
    PortsWork links extents uniqueIdHash s ↔ AvoidsOwnPorts s := by
  have accepted := validate_accepted accepted
  have assigned : startNodeId s ≠ nodeIdUnset := by
    have range := accepted.nodeId
    unfold startNodeId
    rw [if_neg configured]
    intro unset
    rw [unset] at range
    exact absurd range (by decide)
  have reaches {handler : PortHandler} (enabled : handler.port s ≠ unsetPortId) :=
    reached_port accepted configured extents linked enabled
  have answer := (traceServers_accepted accepted configured extents linked).1
  constructor
  · intro work
    refine ⟨fun handler taken => ?_, fun r listed own => ?_, fun r listed served => ?_⟩
    · have enabled : handler.port s ≠ unsetPortId := by
        rw [taken]
        decide
      have missed := work.messages handler enabled
      rw [reaches enabled, if_pos taken] at missed
      cases missed
    · have enabled : s.natural16 r ≠ unsetPortId := fun unset => absurd (unset ▸ own) (by decide)
      exact work.publications r listed enabled ((publishes_configured assigned _).mpr own)
    · have refused := answer.symm.trans work.services
      have free := List.all_eq_true.mp refused r listed
      simp [served] at free
  · intro avoids
    refine ⟨fun handler enabled => ?_, fun r listed _ published => ?_, ?_⟩
    · rw [reaches enabled, if_neg (avoids.messages handler)]
    · exact avoids.publications r listed ((publishes_configured assigned _).mp published)
    · rw [answer, List.all_eq_true]
      intro r listed
      simpa using avoids.services r listed

section Sim

def firstNode : NvmSettings := NvmSettings.default.set .nodeId (1 : UInt8)

def simExtents : Extents := ⟨fun _ => 64, fun _ => 64, fun _ => 512⟩

theorem ports_work_sim :
    PortsWork (fun _ _ _ => true) simExtents 0x1F2E3D4C5B6A firstNode := by
  have accepted : validate firstNode simCapabilities = .success := by decide
  refine (ports_work accepted (by decide) (fun _ _ _ => rfl) simExtents 0x1F2E3D4C5B6A).mpr
    ⟨?_, by decide, by decide⟩
  intro handler
  cases handler <;> decide

def torqueOnAllocation : NvmSettings := firstNode.set .subTorqueSetpointId nodeIdAllocationPort

/-- The validation takes the subject, and the node never hands on a message on it. -/
theorem allocation_subject_accepted :
    validate torqueOnAllocation simCapabilities = .success ∧ torqueOnAllocation.natural8 .nodeId ≠ 0 ∧
      reached (fun _ _ _ => true) simExtents torqueOnAllocation
        (PortHandler.torqueSetpoint.port torqueOnAllocation) = [] ∧
      ¬PortsWork (fun _ _ _ => true) simExtents 0x1F2E3D4C5B6A torqueOnAllocation := by
  have accepted : validate torqueOnAllocation simCapabilities = .success := by decide
  have enabled : PortHandler.torqueSetpoint.port torqueOnAllocation ≠ unsetPortId := by decide
  have linked : ∀ kind portId extent, (fun _ _ _ => true : Linking) kind portId extent = true :=
    fun _ _ _ => rfl
  have dropped := reached_port (validate_accepted accepted) (by decide) simExtents linked enabled
  rw [if_pos (by decide)] at dropped
  refine ⟨accepted, by decide, dropped, fun work => ?_⟩
  cases dropped.symm.trans (work.messages .torqueSetpoint enabled)

end Sim

end Unimoc.Drive
