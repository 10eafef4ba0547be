import Unimoc.Firmware.Event

/-! The state the threads of the firmware share, and the interrupts between two accesses
of the Cyphal thread to it. -/
namespace Unimoc.Firmware

open CurrentControl Hardware Settings

/-- What can preempt the Cyphal thread: the control cycle with its samples, a break the
hardware latches by itself, the external enable, the observer, a step of the outer loop. -/
inductive Interrupt (F : Type)
  | controlCycle (samples : ControlCycleSamples F) (duties : ThreePhase F)
  | hardwareBreak
  | externalEnable (present : Bool)
  | observer (theta : F)
  | outerStep (status : OuterStatus F) (reference : Rotor F)

/-- `interrupts` lists what comes in at the next accesses to shared state, `storage` and
`initializations` what the storage and the hardware answer; `trace` holds the newest
event first. -/
structure Board (F : Type) where
  isr : CurrentControlIsr F
  stage : PowerStage
  outer : OuterLoop F
  store : SettingsStore F
  timerClock : UInt32
  interrupts : List (List (Interrupt F))
  storage : List SettingsStorageStatus
  initializations : List Initialization
  trace : List (Event F)

namespace Board

variable {F : Type}

def record (event : Event F) (b : Board F) : Board F := { b with trace := event :: b.trace }

section Shared

variable [Arithmetic F]

def interrupt (b : Board F) : Interrupt F → Board F
  | .controlCycle samples duties =>
    let (trips, isr) := b.isr.onControlCycle samples duties
    let b := { b with isr := isr }
    if trips then { b with stage := b.stage.trip }.record .controlTrip else b
  | .hardwareBreak => { b with stage := b.stage.trip }.record .hardwareBreak
  | .externalEnable present =>
    { b with stage := b.stage.setExternalEnable present }.record (.externalEnable present)
  | .observer theta => { b with isr := { b.isr with theta := theta } }
  | .outerStep status reference =>
    { b with outer := b.outer.step status, isr := b.isr.setCurrentRef reference }

def interruptAll (b : Board F) (batch : List (Interrupt F)) : Board F := batch.foldl interrupt b

/-- The interrupts before the next access. -/
def preempt (b : Board F) : Board F :=
  { b with interrupts := b.interrupts.tail }.interruptAll (b.interrupts.headD [])

def getState (b : Board F) : PowerStageState × Board F :=
  let b := b.preempt
  (b.stage.getState, b)

def enable (b : Board F) : Bool × Board F :=
  let b := b.preempt
  let (released, stage) := b.stage.enable
  (released, { b with stage := stage })

def disable (b : Board F) : Board F :=
  let b := b.preempt
  { b with stage := b.stage.disable }.record .disabled

def clearFault (owner : Owner) (b : Board F) : Board F :=
  let b := b.preempt
  { b with stage := b.stage.clearFault }.record (.clearedFault owner)

def clearTrips (owner : Owner) (b : Board F) : Board F :=
  let b := b.preempt
  { b with isr := b.isr.clearTrips }.record (.clearedTrips owner)

def tripped (b : Board F) : Bool × Board F :=
  let b := b.preempt
  (b.isr.tripped, b)

def tripName (b : Board F) : Option TripName × Board F :=
  let b := b.preempt
  (b.isr.tripName, b)

def forceDuty (da db dc : F) (b : Board F) : Board F :=
  let b := b.preempt
  { b with isr := b.isr.forceDuty da db dc }.record .forced

def releaseForceDuty (b : Board F) : Board F :=
  let b := b.preempt
  { b with isr := b.isr.releaseForceDuty }.record .released

def setAdcTriggerOffset (offset : UInt32) (b : Board F) : Board F :=
  let b := b.preempt
  { b with isr := b.isr.setAdcTriggerOffset offset }

/-- Takes the pulse of the control cycle, if there is one. -/
def takeSamplesReady (b : Board F) : Bool × Board F :=
  let b := b.preempt
  if b.isr.samplesReady then
    let b := b.preempt
    (true, { b with isr := { b.isr with samplesReady := false } })
  else (false, b)

/-- A look at the control cycle's state. -/
def readIsr (b : Board F) : CurrentControlIsr F × Board F :=
  let b := b.preempt
  (b.isr, b)

def status (b : Board F) : OuterStatus F × Board F :=
  let b := b.preempt
  (b.outer.status, b)

def setSetpoint (setpoint : OuterSetpoint F) (b : Board F) : Board F :=
  let b := b.preempt
  { b with outer := b.outer.setSetpoint setpoint }

def setBatteryLimits (limits : BatteryLimits F) (b : Board F) : Board F :=
  let b := b.preempt
  { b with outer := b.outer.setBatteryLimits limits }

def startHoming (b : Board F) : Board F :=
  let b := b.preempt
  { b with outer := b.outer.startHoming }

def setCurrentGains (gains : CurrentGains F) (b : Board F) : Board F :=
  let b := b.preempt
  { b with isr := b.isr.setCurrentGains gains }.record (.currentGains gains)

def setGains (gains : LoopGains F) (b : Board F) : Board F :=
  let b := b.preempt
  { b with outer := b.outer.setGains gains }.record (.loopGains gains)

/-- What the hardware will answer when the controller next starts. -/
def initialization (b : Board F) : Initialization := b.initializations.headD ⟨true, false⟩

/-- Restarts the controller. The hardware is stopped meanwhile, so interrupts come
before or after the whole of it. -/
def startRuntime (settings : NvmSettings) (overcurrentLimit : F) (b : Board F) : Bool × Board F :=
  let b := b.preempt
  let answer := b.initialization
  let b :=
    { b with
      isr := (b.isr.init settings b.timerClock).setOvercurrentLimit overcurrentLimit
      outer := b.outer.init settings
      stage := if answer.dropsFault then b.stage.clearFault else b.stage
      initializations := b.initializations.tail }
  (answer.accepted, b.record (.startRuntime settings answer.accepted answer.dropsFault))

/-- The gate of a save opens while the outputs are off and nothing is latched. -/
def saveToFlash (b : Board F) : SettingsStatus × Board F :=
  let b := b.preempt
  let (status, store, storage) := b.store.saveToFlash (b.stage.getState = .disabled) b.storage
  (status, { b with store := store, storage := storage })

end Shared

/-- A change of the settings, when the store takes it. -/
def change (cause : SettingsChange) (answer : SettingsStatus × SettingsStore F) (b : Board F) :
    SettingsStatus × Board F :=
  match answer with
  | (.success, store) =>
    (.success, { b with store := store }.record (.settingsChanged cause store.settings))
  | (status, _) => (status, b)

end Board

end Unimoc.Firmware
