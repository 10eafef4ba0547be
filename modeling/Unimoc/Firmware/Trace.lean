import Unimoc.Firmware.Event
import Unimoc.Lib.Runs

/-! What the trace of a run says of the drive: questions to the events alone, each
answered by the newest event that bears on it. -/
namespace Unimoc.Firmware.Trace

open CurrentControl Cyphal Runs Settings Startup

variable {F : Type}

/-! ### Who drives the outputs -/

def engagedNow : List (Event F) → Bool :=
  latest
    (fun e _ =>
      match e with
      | .engaged => some true
      | .disengaged _ => some false
      | _ => none)
    false

/-- A run of the startup aid is active: started, neither done nor failed. -/
def activeRun : List (Event F) → Bool :=
  latest
    (fun e _ =>
      match e with
      | .runStarted => some true
      | .runEnded _ => some false
      | _ => none)
    false

/-- A run has switched the outputs off for the motor to be connected, and not on again yet. -/
def awaitsMotor : List (Event F) → Bool :=
  latest
    (fun e _ =>
      match e with
      | .motorAwaited => some true
      | .runStarted | .motorReleased => some false
      | _ => none)
    false

/-- A trip, a break or the loss of the external enable came after a run was last given the outputs. -/
def outputsLost : List (Event F) → Bool :=
  latest
    (fun e _ =>
      match e with
      | .controlTrip | .hardwareBreak | .externalEnable false => some true
      | .runStarted | .motorReleased => some false
      | _ => none)
    false

/-- The drive has recorded a run as active, and not its end yet. -/
def recordedRun : List (Event F) → Bool :=
  latest
    (fun e _ =>
      match e with
      | .runRecorded => some true
      | .runEndRecorded => some false
      | _ => none)
    false

def stageOn : List (Event F) → Bool :=
  latest
    (fun e _ =>
      match e with
      | .engaged | .runStarted | .motorReleased => some true
      | .disabled | .controlTrip | .hardwareBreak | .externalEnable false => some false
      | _ => none)
    false

def tripLatched : List (Event F) → Bool :=
  latest
    (fun e _ =>
      match e with
      | .controlTrip => some true
      | .clearedTrips _ => some false
      | _ => none)
    false

/-! ### What the drive was asked -/

def emergencyStopped : List (Event F) → Bool :=
  latest
    (fun e _ =>
      match e with
      | .emergencyStop => some true
      | _ => none)
    false

/-- A RESTART was accepted and has not happened yet. -/
def restartPending : List (Event F) → Bool :=
  latest
    (fun e _ =>
      match e with
      | .restartAccepted => some true
      | .restarted => some false
      | _ => none)
    false

/-- The last readiness the drive has handled. -/
def lastReadiness : List (Event F) → Option UInt8 :=
  latest
    (fun e _ =>
      match e with
      | .readiness value => some (some value)
      | _ => none)
    none

/-- The drive was engaged after the last readiness. -/
def engagedSinceReadiness : List (Event F) → Bool :=
  latest
    (fun e _ =>
      match e with
      | .engaged => some true
      | .readiness _ => some false
      | _ => none)
    false

/-- A trip or a fault came while the drive was engaged, and no readiness other than ENGAGED
after it. -/
def awaitsRearm : List (Event F) → Bool :=
  latest
    (fun e past =>
      match e with
      | .controlTrip | .hardwareBreak | .externalEnable false =>
        if engagedNow past then some true else none
      | .readiness value => if value = readinessEngaged then none else some false
      | _ => none)
    false

/-! ### The time and the setpoints -/

/-- The time of the last spin. -/
def clock (boot : UInt64) : List (Event F) → UInt64 :=
  latest
    (fun e _ =>
      match e with
      | .spin now => some now
      | _ => none)
    boot

/-- The last refresh of the readiness: a message, or the request of the e-bike. -/
def refreshedAt (boot : UInt64) : List (Event F) → Option UInt64 :=
  latest
    (fun e past =>
      match e with
      | .readiness _ | .localRequest true => some (some (clock boot past))
      | _ => none)
    none

/-- What the supervision has found in this spin. -/
structure Check where
  timeout : UInt64
  holdsEngagement : Bool
  stageOn : Bool
  tripLatched : Bool

/-- The stage at the last look of the supervision. -/
def stageSeen : List (Event F) → Bool :=
  latest
    (fun e past =>
      match e with
      | .stageChecked => some (stageOn past)
      | _ => none)
    false

def checkNow : List (Event F) → Option Check :=
  latest
    (fun e past =>
      match e with
      | .supervised timeout holds => some (some ⟨timeout, holds, stageSeen past, tripLatched past⟩)
      | .spin _ => some none
      | _ => none)
    none

/-- The setpoint taken last in this engagement. -/
structure Given (F : Type) where
  source : SetpointSource
  value : OuterSetpoint F
  time : UInt64

def given (boot : UInt64) : List (Event F) → Option (Given F) :=
  latest
    (fun e past =>
      match e with
      | .setpoint source value => some (some ⟨source, value, clock boot past⟩)
      | .setpointCleared | .engaged => some none
      | _ => none)
    none

/-- A setpoint was taken in this spin. -/
def givenNow : List (Event F) → Bool :=
  latest
    (fun e _ =>
      match e with
      | .setpoint _ _ => some true
      | .spin _ => some false
      | _ => none)
    false

/-- The torque of the cart or of the e-bike gave no finite current in this spin. -/
def droppedNow : List (Event F) → Bool :=
  latest
    (fun e _ =>
      match e with
      | .setpointDropped .cart | .setpointDropped .ebike => some true
      | .spin _ => some false
      | _ => none)
    false

/-- What the drive has handed to the outer loop: the value with the command timeout in force,
and what it had been given until then. -/
structure Handover (F : Type) where
  value : OuterSetpoint F
  timeout : UInt64
  given : Option (Given F)
  givenNow : Bool
  droppedNow : Bool

def handedNow (boot : UInt64) : List (Event F) → Option (Handover F) :=
  latest
    (fun e past =>
      match e with
      | .handed value timeout =>
        some (some ⟨value, timeout, given boot past, givenNow past, droppedNow past⟩)
      | .spin _ => some none
      | _ => none)
    none

/-! ### The settings -/

def liveSettings (boot : NvmSettings) : List (Event F) → NvmSettings :=
  latest
    (fun e _ =>
      match e with
      | .settingsChanged _ settings => some settings
      | _ => none)
    boot

/-- The settings of the last start of the controller. -/
def startSettings (boot : NvmSettings) : List (Event F) → NvmSettings :=
  latest
    (fun e _ =>
      match e with
      | .startRuntime settings _ _ => some settings
      | _ => none)
    boot

/-- The settings the running controller has: those of its start, or tuned in since. -/
def handedSettings (boot : NvmSettings) : List (Event F) → NvmSettings :=
  latest
    (fun e _ =>
      match e with
      | .startRuntime settings _ _ | .tuned settings => some settings
      | _ => none)
    boot

/-- Since the controller was last started, writes have changed tunable registers only. -/
def tunableSince : List (Event F) → Bool :=
  latest
    (fun e _ =>
      match e with
      | .startRuntime _ _ _ => some true
      | .settingsChanged (.write r) _ => if r.effect = .immediate then none else some false
      | _ => none)
    true

end Unimoc.Firmware.Trace
