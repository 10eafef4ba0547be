import Unimoc.Cyphal.Ports
import Unimoc.Lib.Runs

/-! The Cyphal node on serialized transfers: what it asks of its transport for every
received transfer, every call of the application and every clock. -/
namespace Unimoc.Cyphal.Wire

inductive Priority
  | exceptional
  | immediate
  | fast
  | high
  | nominal
  | low
  | slow
  | optional
deriving DecidableEq, Repr

structure Transfer where
  portId : UInt16
  sourceNodeId : UInt8
  destinationNodeId : UInt8
  transferId : UInt8
  kind : TransferKind
  priority : Priority
  payload : List UInt8
deriving DecidableEq, Repr

inductive Health
  | nominal
  | advisory
  | caution
  | warning
deriving DecidableEq, Repr

inductive Mode
  | operational
  | initialization
  | maintenance
  | softwareUpdate
deriving DecidableEq, Repr

structure Publisher where
  portId : UInt16
  priority : Priority
  nextTransferId : UInt8
deriving DecidableEq, Repr

def Publisher.advanced (publisher : Publisher) : Publisher :=
  { publisher with nextTransferId := (publisher.nextTransferId + 1) &&& 0x1F }

/-! ### The port list, serialized by hand -/

namespace PortList

def u16 (value : UInt16) : List UInt8 := [(value &&& 0xFF).toUInt8, (value >>> 8).toUInt8]

def u32 (value : UInt32) : List UInt8 :=
  u16 (value &&& 0xFFFF).toUInt16 ++ u16 (value >>> 16).toUInt16

/-- A delimited sparse list. -/
def writeSubjectList (subjects : List UInt16) : List UInt8 :=
  let count := min subjects.length 255
  u32 (2 + 2 * UInt32.ofNat count) ++ [1, UInt8.ofNat count] ++
    (subjects.take count).flatMap fun subject => u16 (subject &&& 0x1FFF)

/-- A delimited mask of 512 bits. -/
def writeServiceList (services : List UInt16) : List UInt8 :=
  u32 64 ++ (List.range 64).map fun byte =>
    services.foldl (fun (bits : UInt8) service =>
      if service.toNat / 8 = byte then bits ||| ((1 : UInt8) <<< (service % 8).toUInt8) else bits) 0

end PortList

/-! ### The node -/

/-- What the node does with its transport, besides the subscriptions and the clock. -/
inductive TransportCall
  | setLocalNodeId (nodeId : UInt8)
  | receive (transfer : Transfer)
  | send (transfer : Transfer)

/-- The transport and the generated serializers. `accepts` is the transport's answer to a
transfer after the older calls; a serializer that fails gives none. -/
structure Environment where
  links : Linking
  extent : UInt16 → Nat
  accepts : List TransportCall → Transfer → Bool
  serializeHeartbeat : UInt32 → Health → Mode → UInt8 → Option (List UInt8)
  serializeRecord : Severity → List UInt8 → Option (List UInt8)
  serializeAllocation : NodeIdAllocationData → Option (List UInt8)
  deserializeAllocation : List UInt8 → Option NodeIdAllocationData

def maxPublishers : Nat := 8

def txBufferSize : Nat := 600

def recordTextCapacity : Nat := 255

/-- FNV-1a 64 over the unique-ID, truncated to 48 bits. -/
def uniqueIdHash (uniqueId : Vector UInt8 16) : UInt64 :=
  let hash := uniqueId.toList.foldl
    (fun hash byte => (hash ^^^ byte.toUInt64) * 0x100000001B3) 0xCBF29CE484222325
  hash &&& (((1 : UInt64) <<< 48) - 1)

/-- `calls` has the newest first. -/
structure CyphalNode (Component : Type) where
  ports : NodePorts Component
  publishedSubjects : List UInt16
  uniqueId : Vector UInt8 16
  health : Health
  mode : Mode
  vendorStatus : UInt8
  started : Bool
  startUs : UInt64
  schedule : Schedule
  heartbeat : Publisher
  portList : Publisher
  allocation : Publisher
  diagnostic : Publisher
  calls : List TransportCall

/-- What the application calls, at any time or within a callback. -/
inductive Call (Component : Type)
  | publish (publisher : Publisher) (payload : List UInt8)
  | log (severity : Severity) (text : List UInt8)
  | subscribe (subjectId : UInt16) (extent : Nat) (listener : Component)
  | addServer (serviceId : UInt16) (extent : Nat) (handler : Component)
  | addPublisher (publisher : Publisher)
  | setHealth (health : Health)
  | setMode (mode : Mode)
  | setVendorStatus (status : UInt8)

/-- What the code that a transfer reaches does: the calls of the listener in each slot,
those of the handler or the node-ID listener, and the response, none when none is sent. -/
structure Reaction (Component : Type) where
  listeners : Nat → List (Call Component)
  handler : List (Call Component)
  answer : Option (List UInt8)

namespace CyphalNode

variable {Component : Type} (env : Environment) (node : CyphalNode Component)

def constructed (uniqueId : Vector UInt8 16) : CyphalNode Component where
  ports := .constructed
  publishedSubjects := []
  uniqueId := uniqueId
  health := .nominal
  mode := .initialization
  vendorStatus := 0
  started := false
  startUs := 0
  schedule := ⟨0, 0, 0, 0⟩
  heartbeat := ⟨portHeartbeat, .nominal, 0⟩
  portList := ⟨portPortList, .optional, 0⟩
  allocation := ⟨nodeIdAllocationPort, .slow, 0⟩
  diagnostic := ⟨portDiagnosticRecord, .optional, 0⟩
  calls := []

def nodeId : UInt8 := node.ports.nodeId

def setLocalNodeId (nodeId : UInt8) : CyphalNode Component :=
  { node with
    ports := { node.ports with nodeId := if nodeId ≤ nodeIdMax then nodeId else nodeIdUnset }
    calls := .setLocalNodeId nodeId :: node.calls }

def send (transfer : Transfer) : Bool × CyphalNode Component :=
  (env.accepts node.calls transfer, { node with calls := .send transfer :: node.calls })

def message (publisher : Publisher) (payload : List UInt8) : Transfer where
  portId := publisher.portId
  sourceNodeId := node.nodeId
  destinationNodeId := nodeIdUnset
  transferId := publisher.nextTransferId
  kind := .message
  priority := publisher.priority
  payload := payload

def publish (publisher : Publisher) (payload : List UInt8) :
    Bool × Publisher × CyphalNode Component :=
  if publisher.portId = unsetPortId || node.nodeId = nodeIdUnset then (false, publisher, node)
  else
    let (accepted, node) := node.send env (node.message publisher payload)
    (accepted, publisher.advanced, node)

/-- The check of the node-ID is left to the callers. -/
def publishInternal (publisher : Publisher) (payload : List UInt8) :
    Bool × Publisher × CyphalNode Component :=
  let (accepted, node) := node.send env (node.message publisher payload)
  (accepted, publisher.advanced, node)

def log (severity : Severity) (text : List UInt8) : Bool × CyphalNode Component :=
  if node.nodeId = nodeIdUnset then (false, node)
  else
    match env.serializeRecord severity (text.take recordTextCapacity) with
    | none => (false, node)
    | some payload =>
      let (accepted, publisher, node) := node.publishInternal env node.diagnostic payload
      (accepted, { node with diagnostic := publisher })

def addPublisher (publisher : Publisher) : Bool × CyphalNode Component :=
  if publisher.portId = unsetPortId then (true, node)
  else if maxPublishers ≤ node.publishedSubjects.length then (false, node)
  else (true, { node with publishedSubjects := node.publishedSubjects ++ [publisher.portId] })

def call : Call Component → CyphalNode Component
  | .publish publisher payload => (node.publish env publisher payload).2.2
  | .log severity text => (node.log env severity text).2
  | .subscribe subjectId extent listener =>
    { node with ports := (node.ports.subscribe env.links subjectId extent listener).2 }
  | .addServer serviceId extent handler =>
    { node with ports := (node.ports.addServer env.links serviceId extent handler).2 }
  | .addPublisher publisher => (node.addPublisher publisher).2
  | .setHealth health => { node with health := health }
  | .setMode mode => { node with mode := mode }
  | .setVendorStatus status => { node with vendorStatus := status }

def callAll (calls : List (Call Component)) : CyphalNode Component :=
  calls.foldl (fun node c => node.call env c) node

/-! ### The messages the node sends by itself -/

def requestNodeId (nowUs : UInt64) : CyphalNode Component :=
  let node :=
    match env.serializeAllocation ⟨uniqueIdHash node.uniqueId, []⟩ with
    | none => node
    | some payload =>
      let (_, publisher, node) := node.publishInternal env node.allocation payload
      { node with allocation := publisher }
  let seed := node.schedule.allocationSeed * 1664525 + 1013904223
  { node with
    schedule.allocationSeed := seed
    schedule.nextAllocationUs := nowUs + 500000 + (seed % 1000000).toUInt64 }

def uptimeSeconds (nowUs : UInt64) : UInt32 := ((nowUs - node.startUs) / 1000000).toUInt32

def publishHeartbeat (nowUs : UInt64) : CyphalNode Component :=
  match env.serializeHeartbeat (node.uptimeSeconds nowUs) node.health node.mode node.vendorStatus with
  | none => node
  | some payload =>
    let (_, publisher, node) := node.publishInternal env node.heartbeat payload
    { node with heartbeat := publisher }

open PortList in
def serializedPortList : List UInt8 :=
  writeSubjectList ([portHeartbeat, portPortList, portDiagnosticRecord] ++ node.publishedSubjects) ++
    writeSubjectList (node.ports.listeners.map (·.1)) ++
    writeServiceList [] ++
    writeServiceList (servedServices ++ node.ports.servers.map (·.1))

def publishPortList : CyphalNode Component :=
  if node.serializedPortList.length ≤ txBufferSize then
    let (_, publisher, node) := node.publishInternal env node.portList node.serializedPortList
    { node with portList := publisher }
  else node

/-! ### Received transfers -/

def respond (request : Transfer) (payload : List UInt8) : CyphalNode Component :=
  let response : Transfer :=
    { portId := request.portId
      sourceNodeId := node.nodeId
      destinationNodeId := request.sourceNodeId
      transferId := request.transferId
      kind := .serviceResponse
      priority := request.priority
      payload := payload }
  (node.send env response).2

/-- A request of the node or of the application: the calls its handler makes, then the
response. -/
def handleRequest (request : Transfer) (reaction : Reaction Component) : CyphalNode Component :=
  let node := node.callAll env reaction.handler
  match reaction.answer with
  | none => node
  | some payload => node.respond env request payload

def handleApplicationRequest (request : Transfer) (reaction : Reaction Component) :
    CyphalNode Component :=
  match node.ports.servers.find? (·.1 = request.portId) with
  | none => node
  | some _ =>
    node.handleRequest env request
      { reaction with answer := reaction.answer.filter fun payload => payload.length ≤ txBufferSize }

def handleAllocation (message : Transfer) (reaction : Reaction Component) : CyphalNode Component :=
  if node.nodeId ≠ nodeIdUnset || message.sourceNodeId = nodeIdUnset then node
  else
    match env.deserializeAllocation message.payload with
    | some ⟨hash, [nodeId]⟩ =>
      if hash ≠ uniqueIdHash node.uniqueId || nodeIdMax.toUInt16 < nodeId then node
      else
        let node := node.setLocalNodeId nodeId.toUInt8
        let node := { node with schedule.nextHeartbeatUs := 0 }
        node.callAll env reaction.handler
    | _ => node

/-- A listener that an earlier one subscribes is called as well. -/
def onMessage (message : Transfer) (reaction : Reaction Component) : CyphalNode Component :=
  (List.range maxListeners).foldl (fun node slot =>
    match node.ports.listeners[slot]? with
    | some (subjectId, _) =>
      if subjectId = message.portId then node.callAll env (reaction.listeners slot) else node
    | none => node) node

def dispatch (transfer : Transfer) (reaction : Reaction Component) : CyphalNode Component :=
  match transfer.kind with
  | .serviceRequest =>
    if node.nodeId = nodeIdUnset then node
    else if servedServices.contains transfer.portId then node.handleRequest env transfer reaction
    else node.handleApplicationRequest env transfer reaction
  | .serviceResponse => node
  | .message =>
    if transfer.portId = nodeIdAllocationPort then node.handleAllocation env transfer reaction
    else node.onMessage env transfer reaction

def receive (transfer : Transfer) (reaction : Reaction Component) : CyphalNode Component :=
  { node with calls := .receive transfer :: node.calls }.dispatch env transfer reaction

/-! ### Start and spin -/

def start (nodeId : UInt8) (nowUs : UInt64) : Bool × CyphalNode Component :=
  let localNodeId := if nodeId ≤ nodeIdMax then nodeId else nodeIdUnset
  let (subscribed, ports) := node.ports.start env.links env.extent nodeId
  (subscribed,
    { node with
      ports := ports
      calls := .setLocalNodeId localNodeId :: node.calls
      startUs := nowUs
      schedule := .start (uniqueIdHash node.uniqueId) nowUs
      started := true })

def heartbeatDue (nowUs : UInt64) : CyphalNode Component :=
  if node.schedule.nextHeartbeatUs ≤ nowUs then
    let node := node.publishHeartbeat env nowUs
    let next := node.schedule.nextHeartbeatUs + heartbeatPeriodUs
    -- after a stall there is no burst of heartbeats
    { node with schedule.nextHeartbeatUs := if next ≤ nowUs then nowUs + heartbeatPeriodUs else next }
  else node

def portListDue (nowUs : UInt64) : CyphalNode Component :=
  if node.schedule.nextPortListUs ≤ nowUs then
    { node.publishPortList env with schedule.nextPortListUs := nowUs + portListPeriodUs }
  else node

/-- The end of a spin. -/
def publishDue (nowUs : UInt64) : CyphalNode Component :=
  if node.nodeId = nodeIdUnset then
    if node.schedule.nextAllocationUs ≤ nowUs then node.requestNodeId env nowUs else node
  else (node.heartbeatDue env nowUs).portListDue env nowUs

/-- `received` is what the transport has, each transfer with what it makes the application do. -/
def spin (nowUs : UInt64) (received : List (Transfer × Reaction Component)) :
    CyphalNode Component :=
  if !node.started then node
  else
    let node := (received.take maxTransfersPerSpin).foldl
      (fun node transfer => node.receive env transfer.1 transfer.2) node
    node.publishDue env nowUs

end CyphalNode

/-! ### Runs -/

inductive Event (Component : Type)
  | call (c : Call Component)
  | spin (nowUs : UInt64) (received : List (Transfer × Reaction Component))

section Runs

variable {Component : Type} (env : Environment) (uniqueId : Vector UInt8 16)

def CyphalNode.next (node : CyphalNode Component) :
    Event Component → CyphalNode Component
  | .call c => node.call env c
  | .spin nowUs received => node.spin env nowUs received

def unstarted : Runs.Machine (CyphalNode Component) (Event Component) where
  start := .constructed uniqueId
  next := CyphalNode.next env
  admits _ _ := True

def started (setup : List (Event Component)) (nodeId : UInt8) (nowUs : UInt64) :
    Runs.Machine (CyphalNode Component) (Event Component) where
  start := (((unstarted env uniqueId).replay setup).start env nodeId nowUs).2
  next := CyphalNode.next env
  admits _ _ := True

end Runs

end Unimoc.Cyphal.Wire
