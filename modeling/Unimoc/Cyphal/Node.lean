import Unimoc.Drive.CartControl

/-! The Cyphal node as the drive uses it: received transfers with what each generated
deserializer makes of their payload, the subscriptions, the log. -/
namespace Unimoc.Cyphal

open Settings

inductive TransferKind
  | message
  | serviceRequest
  | serviceResponse
deriving DecidableEq, Repr

def portRegisterAccess : UInt16 := 384

def portExecuteCommand : UInt16 := 435

inductive RegisterWriteResult
  | accepted
  | readOnly
  | typeMismatch
  | outOfRange
deriving DecidableEq, Repr

/-- `value` is what `FromValue()` makes of the request's value for a field, none for an
empty value. -/
structure RegisterAccess where
  name : String
  value : Option ((r : Register) → Except RegisterWriteResult r.kind.Carrier)

structure ServoSetpoint (F : Type) where
  position : F
  speed : F
  acceleration : F
  torque : F

structure NodeIdAllocationData where
  uniqueIdHash : UInt64
  allocatedNodeId : List UInt16

/-- What the deserializer of each data type makes of the payload, none when it fails. -/
structure Payload (F : Type) where
  readiness : Option UInt8
  currentSetpoint : Option (F × F)
  torque : Option F
  speed : Option F
  position : Option F
  servo : Option (ServoSetpoint F)
  wheelCommand : Option (Vector F 4)
  pedalState : Option (Drive.CartPedals F)
  batteryStatus : Option (Drive.CartBattery F)
  allocation : Option NodeIdAllocationData
  registerAccess : Option RegisterAccess
  executeCommand : Option (UInt16 × List UInt8)

def Payload.malformed {F : Type} : Payload F :=
  ⟨none, none, none, none, none, none, none, none, none, none, none, none⟩

structure Transfer (F : Type) where
  kind : TransferKind
  portId : UInt16
  sourceNodeId : UInt8
  payload : Payload F

inductive CanBusState
  | errorActive
  | errorWarning
  | errorPassive
  | busOff
deriving DecidableEq, Repr

structure CanBusStatus where
  state : CanBusState
  busOffCount : UInt32
deriving DecidableEq, Repr

/-- `queue` holds the transfers the transport has received, `subscriptions` its answers to
the next subscriptions; answers and log records have the newest first. -/
structure CyphalNode (F : Type) where
  nodeId : UInt8
  uniqueIdHash : UInt64
  listeners : List UInt16
  queue : List (Transfer F)
  subscriptions : List Bool
  busStatus : CanBusStatus
  answers : List CommandResult
  records : List (Severity × String)

namespace CyphalNode

variable {F : Type} (node : CyphalNode F)

def subscribe (subjectId : UInt16) : Bool × CyphalNode F :=
  if subjectId = unsetPortId then (true, node)
  else if !node.subscriptions.headD true then
    (false, { node with subscriptions := node.subscriptions.tail })
  else
    (true,
      { node with
        listeners := node.listeners ++ [subjectId], subscriptions := node.subscriptions.tail })

def setNodeId (nodeId : UInt8) : CyphalNode F :=
  { node with nodeId := if nodeId ≤ nodeIdMax then nodeId else nodeIdUnset }

/-- An anonymous node publishes no records. -/
def log (severity : Severity) (text : String) : CyphalNode F :=
  if node.nodeId = nodeIdUnset then node
  else { node with records := (severity, text) :: node.records }

def respond (answer : CommandResult) : CyphalNode F := { node with answers := answer :: node.answers }

/-- The node-ID a response of an allocator gives this node. -/
def allocated (transfer : Transfer F) : Option UInt8 :=
  if node.nodeId ≠ nodeIdUnset || transfer.sourceNodeId = nodeIdUnset then none
  else
    match transfer.payload.allocation with
    | some ⟨hash, [nodeId]⟩ =>
      if hash ≠ node.uniqueIdHash || nodeIdMax.toUInt16 < nodeId then none else some nodeId.toUInt8
    | _ => none

end CyphalNode

end Unimoc.Cyphal
