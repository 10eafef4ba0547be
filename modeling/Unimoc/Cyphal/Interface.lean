import Unimoc.Units.Scalar

/-! Constants of the bus interface and the selection of the control mode. -/
namespace Unimoc.Cyphal

def nodeIdUnset : UInt8 := 255

def nodeIdMax : UInt8 := 127

def unsetPortId : UInt16 := 0xFFFF

def maxServiceId : UInt16 := 511

/-- The configured readiness subject that follows the node-ID. -/
def readinessFollowsNodeId : UInt16 := 0xFFFE

def subReadinessBase : UInt16 := 1024

def nodeNameMaxLen : Nat := 50

def effectiveReadinessId (configured : UInt16) (nodeId : UInt8) : UInt16 :=
  if configured ≠ readinessFollowsNodeId then configured
  else if nodeId ≤ 127 then subReadinessBase + nodeId.toUInt16
  else unsetPortId

/-- Largest number of transfers that one spin of the node takes from the transport. -/
def maxTransfersPerSpin : Nat := 32

/-- Subject of the plug-and-play node-ID allocation. -/
def nodeIdAllocationPort : UInt16 := 8166

inductive RegisterEffect
  | immediate
  | disengaged
  | restart
deriving DecidableEq, Repr

inductive Severity
  | trace
  | debug
  | info
  | notice
  | warning
  | error
  | critical
  | alert
deriving DecidableEq, Repr

/-- Readiness values of `reg.udral.service.common.Readiness.0.1`. -/
def readinessStandby : UInt8 := 2

def readinessEngaged : UInt8 := 3

inductive ControlMode
  | torque
  | speed
  | position
deriving DecidableEq, Repr

/-- The first finite field of a servo setpoint selects the mode; an acceleration alone
selects none. -/
def selectControlModeFromUdralServoRotation {F : Type} [Scalar F]
    (angularPosition angularVelocity angularAcceleration torque : F) : Option ControlMode :=
  if Scalar.isFinite angularPosition then some .position
  else if Scalar.isFinite angularVelocity then some .speed
  else if Scalar.isFinite angularAcceleration then none
  else if Scalar.isFinite torque then some .torque
  else none

structure CommandResult where
  status : UInt8
  output : String
deriving DecidableEq, Repr

namespace Command

def restart : UInt16 := 65535

def factoryReset : UInt16 := 65532

def emergencyStop : UInt16 := 65531

def storePersistentStates : UInt16 := 65530

def resetTiming : UInt16 := 0x0300

def startHoming : UInt16 := 0x0400

def startStartupAid : UInt16 := 0x0200

def continueStep : UInt16 := 0x0202

def setReading : UInt16 := 0x0203

def abort : UInt16 := 0x0204

def applyIdentification : UInt16 := 0x0205

def statusSuccess : UInt8 := 0

def statusFailure : UInt8 := 1

def statusBadCommand : UInt8 := 3

def statusBadParameter : UInt8 := 4

def statusBadState : UInt8 := 5

def success : CommandResult := ⟨statusSuccess, ""⟩

end Command

end Unimoc.Cyphal
