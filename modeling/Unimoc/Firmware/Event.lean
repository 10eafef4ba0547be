import Unimoc.CurrentControl.OuterLoop
import Unimoc.Startup.Results

/-! What a run of the firmware does, as a trace of events: what the interrupts bring,
what the drive and the startup aid do to the outputs, the settings and each other. -/
namespace Unimoc.Firmware

open CurrentControl Settings Startup

/-- Who acknowledges a trip or a fault. -/
inductive Owner
  | drive
  | startup
deriving DecidableEq, Repr

/-- Where a setpoint comes from. -/
inductive SetpointSource
  | message
  | cart
  | ebike
deriving DecidableEq, Repr

inductive DisengageReason
  | ebike
  | readinessTimeout
  | trip (name : TripName)
  | powerStageFault
  | readiness
  | restart
  | emergencyStop
deriving DecidableEq, Repr

namespace DisengageReason

def text : DisengageReason → String
  | .ebike => "e-bike"
  | .readinessTimeout => "readiness timeout"
  | .trip name => name.text
  | .powerStageFault => "power stage fault"
  | .readiness => "readiness"
  | .restart => "restart"
  | .emergencyStop => "emergency stop"

/-- The drive disengages because of a trip or a fault it has seen. -/
def isTrip : DisengageReason → Bool
  | .trip _ | .powerStageFault => true
  | _ => false

end DisengageReason

/-- What changes the live settings. -/
inductive SettingsChange
  | write (r : Register)
  | factoryReset
  | calibration
  | nodeId
deriving DecidableEq, Repr

inductive Event (F : Type)
  -- interrupts: a trip of the control cycle, a break of the hardware, the external enable
  | controlTrip
  | hardwareBreak
  | externalEnable (present : Bool)
  -- the spin of the drive, and what it takes from the bus or the e-bike
  | spin (now : UInt64)
  | readiness (value : UInt8)
  | localRequest (engage : Bool)
  | setpoint (source : SetpointSource) (value : OuterSetpoint F)
  | setpointDropped (source : SetpointSource)
  | setpointCleared
  -- the engagement: the pending request is taken up, and what comes of it
  | engageStep
  | engageIgnored
  | engageRefused
  | engaged
  | stageChecked
  | supervised (timeout : UInt64) (holds : Bool)
  | tripSeen
  | disengaged (reason : DisengageReason)
  | handed (value : OuterSetpoint F) (timeout : UInt64)
  -- the outputs
  | clearedTrips (owner : Owner)
  | clearedFault (owner : Owner)
  | disabled
  | forced
  | released
  -- commands
  | emergencyStop
  | stopped
  | restartAccepted
  | restarted
  -- a run of the startup aid
  | startAttempted
  | startRefused
  | runStarted
  | motorAwaited
  | motorReleased
  | runEnded (fault : StartupFault)
  | runRecorded
  | runEndRecorded
  -- the settings
  | settingsChanged (change : SettingsChange) (settings : NvmSettings)
  | settingsPending
  | applyChecked (dropsFault : Bool)
  | startRuntime (settings : NvmSettings) (accepted dropsFault : Bool)
  | tuneStarted
  | tuneBlocked
  | currentGains (gains : CurrentGains F)
  | loopGains (gains : LoopGains F)
  | tuned (settings : NvmSettings)

end Unimoc.Firmware
