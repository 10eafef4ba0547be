import Unimoc.Cyphal.Interface
import Unimoc.Startup.HwStartup

/-! The commissioning commands: each is answered at once, with the reason in the text. -/
namespace Unimoc.Drive.Commissioning

open Cyphal Firmware Startup

variable {F : Type} [Arithmetic F]

/-- The command codes this interface takes. -/
def handles (command : UInt16) : Bool :=
  Command.startStartupAid ≤ command && command ≤ Command.applyIdentification

def motorConnected : List UInt8 := "motor-connected".toUTF8.toList

/-- Largest meter reading taken: a plausibility bound. -/
def maxReading : F := 1000.0

def number (text : List UInt8) : Option F :=
  if text.isEmpty || 24 ≤ text.length then none
  else
    let (value, taken) := Arithmetic.strtof text
    if taken ≠ text.length || !Scalar.isFinite value || !(Scalar.zero < value) || maxReading < value then
      none
    else some value

def start (engaged emergencyStop : Bool) (fsm : HwStartup F) (b : Board F) :
    CommandResult × HwStartup F × Board F :=
  if engaged then (⟨Command.statusBadState, "engaged: disengage first"⟩, fsm, b)
  else if emergencyStop then
    (⟨Command.statusBadState, "emergency stop latched: restart first"⟩, fsm, b)
  else
    let (answer, fsm, b) := fsm.requestRun b
    match answer with
    | .started => (⟨Command.statusSuccess, "started: phase 1 without the motor"⟩, fsm, b)
    | .running => (⟨Command.statusBadState, "the startup aid runs already"⟩, fsm, b)
    | .notReleased =>
      (⟨Command.statusFailure, "outputs not released: external enable missing"⟩, fsm, b)

def continueAnswer : StartupContinue → CommandResult
  | .accepted => Command.success
  | .notRunning => ⟨Command.statusBadState, "the startup aid is not running"⟩
  | .measuring => ⟨Command.statusBadState, "the step is still measuring"⟩
  | .needsReading => ⟨Command.statusBadState, "the step needs its meter reading"⟩
  | .needsConfirmation => ⟨Command.statusBadParameter, "confirm motor-connected"⟩
  | .unexpectedConfirmation => ⟨Command.statusBadParameter, "this step takes no confirmation"⟩

def continueStep (confirmation : List UInt8) (fsm : HwStartup F) : CommandResult × HwStartup F :=
  let motorConfirmed : Bool := confirmation = motorConnected
  if !confirmation.isEmpty && !motorConfirmed then
    (⟨Command.statusBadParameter, "unknown confirmation"⟩, fsm)
  else
    let (answer, fsm) := fsm.requestNextStep motorConfirmed
    (continueAnswer answer, fsm)

def separator : UInt8 := 61

def setReading (reading : List UInt8) (fsm : HwStartup F) : CommandResult × HwStartup F :=
  if !fsm.isActive then (⟨Command.statusBadState, "the startup aid is not running"⟩, fsm)
  else if separator ∉ reading then
    (⟨Command.statusBadParameter, "expected vdc=<V> or current=<A>"⟩, fsm)
  else
    let name := reading.takeWhile (· ≠ separator)
    match number (F := F) (reading.drop (name.length + 1)) with
    | none => (⟨Command.statusBadParameter, "not a positive number"⟩, fsm)
    | some value =>
      if name = "vdc".toUTF8.toList then (Command.success, fsm.setExtVdc value)
      else if name = "current".toUTF8.toList then (Command.success, fsm.setExtCurrent value)
      else (⟨Command.statusBadParameter, "expected vdc=<V> or current=<A>"⟩, fsm)

/-- The motor identification is not there yet. -/
def onCommand (engaged emergencyStop : Bool) (command : UInt16) (parameter : List UInt8)
    (fsm : HwStartup F) (b : Board F) : CommandResult × HwStartup F × Board F :=
  if command = Command.startStartupAid then start engaged emergencyStop fsm b
  else if command = Command.continueStep then
    let (answer, fsm) := continueStep parameter fsm
    (answer, fsm, b)
  else if command = Command.setReading then
    let (answer, fsm) := setReading parameter fsm
    (answer, fsm, b)
  else if command = Command.abort then
    let (fsm, b) := fsm.requestAbort .aborted b
    (Command.success, fsm, b)
  else (⟨Command.statusBadCommand, "not implemented"⟩, fsm, b)

end Unimoc.Drive.Commissioning
