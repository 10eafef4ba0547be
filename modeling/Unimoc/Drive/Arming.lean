import Unimoc.Firmware.Board
import Unimoc.Lib.Runs

/-! The arming of the drive: a machine over the events of a run that knows who holds the
outputs, what the drive has been asked and what the controller runs with. -/
namespace Unimoc.Drive

open CurrentControl Cyphal Firmware Settings Startup

/-- Where the thread of the drive is: inside a disengage that a readiness or the e-bike
caused, an engage, the start or the end of a run, a restart of the controller, a live tuning, an
emergency stop; and what the supervision of this spin has found. -/
structure Marks (F : Type) where
  /-- Where the last setpoint came from. -/
  source : SetpointSource
  /-- In this spin a setpoint was set, one of the cart or the e-bike dropped as not finite. -/
  setpointNow : Bool
  droppedNow : Bool
  /-- The stage was enabled at the last check. -/
  stageSeen : Bool
  /-- The timeout of the check passed, and whether the cart held the engagement. -/
  check : Option (UInt64 × Bool)
  handed : Option (OuterSetpoint F)
  /-- The last readiness was not ENGAGED, and no disengage came after it. -/
  acknowledging : Bool
  leaving : Bool
  engaging : Bool
  starting : Bool
  closing : Bool
  applying : Bool
  /-- The hardware will drop its fault when the controller restarts. -/
  dropping : Bool
  tuning : Bool
  stopping : Bool

namespace Marks

variable {F : Type} {m : Marks F}

/-- The thread is between two actions. -/
structure Calm (m : Marks F) : Prop where
  leaving : m.leaving = false
  engaging : m.engaging = false
  starting : m.starting = false
  closing : m.closing = false
  applying : m.applying = false
  dropping : m.dropping = false
  tuning : m.tuning = false
  stopping : m.stopping = false

theorem Calm.finding (calm : m.Calm) (source : SetpointSource)
    (setpointNow droppedNow stageSeen : Bool) (check : Option (UInt64 × Bool))
    (handed : Option (OuterSetpoint F)) (acknowledging : Bool) :
    { m with
      source := source, setpointNow := setpointNow, droppedNow := droppedNow, stageSeen := stageSeen
      check := check, handed := handed, acknowledging := acknowledging }.Calm :=
  ⟨calm.leaving, calm.engaging, calm.starting, calm.closing, calm.applying, calm.dropping, calm.tuning,
    calm.stopping⟩

def left (m : Marks F) (engaged : Bool) : Marks F :=
  { m with leaving := false, acknowledging := m.acknowledging && !engaged }

theorem Calm.left (calm : m.Calm) (engaged : Bool) : (m.left engaged).Calm :=
  ⟨rfl, calm.engaging, calm.starting, calm.closing, calm.applying, calm.dropping, calm.tuning, calm.stopping⟩

theorem left_engaged : m.left true = { m with leaving := false, acknowledging := false } := by
  simp only [Marks.left, Bool.not_true, Bool.and_false]

theorem left_idle (idle : m.leaving = false) : m.left false = m := by
  unfold Marks.left
  simp only [Bool.not_false, Bool.and_true]
  rw [← idle]

end Marks

structure Private (F : Type) extends Marks F where
  now : UInt64
  localControl : Bool
  engaged : Bool
  rearmRequired : Bool
  emergencyStop : Bool
  engageRequested : Bool
  lastReadiness : UInt64
  setpoint : OuterSetpoint F
  setpointActive : Bool
  lastSetpoint : UInt64
  restartRequested : Bool
  running : Bool
  startupActive : Bool
  written : UInt32
  applied : UInt32
  checked : UInt32
  appliedSettings : NvmSettings
  pending : Bool

/-- What the interrupts share with it. -/
structure Outputs (F : Type) where
  enabled : Bool
  fault : Bool
  externalEnable : Bool
  tripped : Bool
  forced : Bool
  live : NvmSettings
  cycleGains : CurrentGains F
  stepGains : LoopGains F

structure Arming (F : Type) extends Private F, Outputs F

/-- A flag an event has lowered is not raised after it. -/
theorem lowered {P : Prop} (raised : false = true) : P := absurd raised Bool.false_ne_true

def isWrite : SettingsChange → Bool
  | .write _ => true
  | _ => false

namespace Private

variable {F : Type} (p : Private F)

def restarted (settings : NvmSettings) : Private F :=
  { p with
    applying := false
    dropping := false
    applied := p.written
    checked := p.written
    appliedSettings := settings
    pending := false }

/-- A change of the live settings: a write is counted, a reset waits to be applied. -/
def changed (change : SettingsChange) : Private F :=
  { p with
    written := if isWrite change then p.written + 1 else p.written
    pending := p.pending || change = .factoryReset }

/-- Who may acknowledge a trip or a fault now: the drive on an engage or on a readiness that
has re-armed it, the startup aid for a run. -/
def mayAcknowledge : Owner → Prop
  | .drive =>
    p.engaged = false ∧
      (p.engaging = true ∧ p.emergencyStop = false ∨ p.acknowledging = true ∧ p.rearmRequired = false)
  | .startup => p.starting = true ∨ p.running = true

theorem startOver {p : Private F} (calm : p.starting = false) (running : Bool) :
    { p with starting := false, running := running } = { p with running := running } := by
  obtain ⟨⟨⟩⟩ := p
  simp_all

theorem changed_calibration : p.changed .calibration = p := by simp [changed, isWrite]

theorem changed_nodeId : p.changed .nodeId = p := by simp [changed, isWrite]

end Private

namespace Arming

section Machine

variable {F : Type} [Arithmetic F]

/-- The controller starts anew with the settings. -/
def restart (c : Arming F) (settings : NvmSettings) (dropsFault : Bool) : Arming F :=
  { c with
    toPrivate := c.toPrivate.restarted settings
    cycleGains := if pwmHertz F settings = 0 then c.cycleGains else currentGains settings
    stepGains := OuterLoop.gainsFrom settings
    forced := if pwmHertz F settings = 0 then c.forced else false
    fault := if dropsFault then !c.externalEnable else c.fault }

def next (c : Arming F) : Event F → Arming F
  | .controlTrip => { c with enabled := false, fault := true, tripped := true }
  | .hardwareBreak => { c with enabled := false, fault := true }
  | .externalEnable present =>
    { c with
      externalEnable := present, enabled := c.enabled && present, fault := c.fault || !present }
  | .spin now => { c with now := now, setpointNow := false, droppedNow := false, check := none, handed := none }
  | .readiness value =>
    { c with
      lastReadiness := c.now
      acknowledging := value ≠ readinessEngaged
      engageRequested :=
        c.engageRequested ||
          (value = readinessEngaged && !c.localControl && (!c.engaged && !c.rearmRequired))
      rearmRequired := c.rearmRequired && value = readinessEngaged
      leaving := if value = readinessEngaged then c.leaving else c.engaged }
  | .localRequest engage =>
    { c with
      lastReadiness := if engage then c.now else c.lastReadiness
      engageRequested := c.engageRequested || (engage && (!c.engaged && !c.rearmRequired))
      rearmRequired := c.rearmRequired && engage
      leaving := if engage then c.leaving else c.engaged }
  | .setpoint source value =>
    { c with
      setpoint := value, setpointActive := true, lastSetpoint := c.now, source := source
      setpointNow := true }
  | .setpointDropped source => { c with droppedNow := if source = .message then c.droppedNow else true }
  | .setpointCleared => { c with setpoint := .default, setpointActive := false }
  | .engageStep => { c with engageRequested := false, engaging := true }
  | .engageIgnored => { c with engaging := false }
  | .engageRefused => { c with engaging := false, rearmRequired := true }
  | .engaged => { c with engaging := false, engaged := true, enabled := true }
  | .stageChecked => { c with stageSeen := c.enabled }
  | .supervised timeout holds => { c with check := some (timeout, holds) }
  | .tripSeen => { c with rearmRequired := true }
  | .disengaged _ => { c with engaged := false, leaving := false, acknowledging := false }
  | .handed value _ => { c with handed := some value }
  | .clearedTrips _ => { c with tripped := false }
  | .clearedFault _ => { c with fault := !c.externalEnable }
  | .disabled => { c with enabled := false, closing := c.closing || (c.running && !c.engaged) }
  | .forced => { c with forced := true }
  | .released => { c with forced := false }
  | .emergencyStop => { c with emergencyStop := true, stopping := true }
  | .stopped => { c with stopping := false }
  | .restartAccepted => { c with restartRequested := true }
  | .restarted => { c with restartRequested := false }
  | .startAttempted => { c with starting := true }
  | .startRefused => { c with starting := false }
  | .runStarted => { c with starting := false, running := true, enabled := true }
  | .motorAwaited => { c with closing := false }
  | .motorReleased => { c with enabled := true }
  | .runEnded _ => { c with running := false, closing := false }
  | .runRecorded => { c with startupActive := true }
  | .runEndRecorded => { c with startupActive := false, pending := true }
  | .settingsChanged change settings =>
    { c with toPrivate := c.toPrivate.changed change, live := settings }
  | .settingsPending => { c with pending := true }
  | .applyChecked dropsFault =>
    { c with
      pending := c.pending || c.enabled, applying := !c.enabled, dropping := !c.enabled && dropsFault }
  | .startRuntime settings _ dropsFault => c.restart settings dropsFault
  | .tuneStarted => { c with checked := c.written, tuning := true }
  | .tuneBlocked => { c with pending := true, tuning := false }
  | .currentGains gains => { c with cycleGains := gains }
  | .loopGains gains => { c with stepGains := gains }
  | .tuned settings => { c with appliedSettings := settings, applied := c.written, tuning := false }

variable {c : Arming F} {value : UInt8}

theorem next_readiness_asked (asks : value = readinessEngaged) (remote : c.localControl = false)
    (free : (!c.engaged && !c.rearmRequired) = true) :
    c.next (.readiness value) =
      { c with lastReadiness := c.now, acknowledging := false, engageRequested := true } := by
  simp only [next, asks, remote, free]
  simp

theorem next_readiness_held (asks : value = readinessEngaged)
    (held : c.localControl = true ∨ (!c.engaged && !c.rearmRequired) = false) :
    c.next (.readiness value) = { c with lastReadiness := c.now, acknowledging := false } := by
  obtain controlled | held := held
  · simp [next, asks, controlled]
  · simp only [next, asks, held]
    simp

theorem next_readiness_other (other : value ≠ readinessEngaged) :
    c.next (.readiness value) =
      { c with
        lastReadiness := c.now, acknowledging := true, rearmRequired := false
        leaving := c.engaged } := by
  simp [next, other]

theorem next_localRequest_asked (free : (!c.engaged && !c.rearmRequired) = true) :
    c.next (.localRequest true) = { c with lastReadiness := c.now, engageRequested := true } := by
  simp only [next, free]
  simp

theorem next_localRequest_held (held : (!c.engaged && !c.rearmRequired) = false) :
    c.next (.localRequest true) = { c with lastReadiness := c.now } := by
  simp only [next, held]
  simp

theorem next_localRequest_dropped :
    c.next (.localRequest false) = { c with rearmRequired := false, leaving := c.engaged } := by
  simp [next]

/-- The only registers a change of the settings touches. -/
def touches (change : SettingsChange) (r : Register) : Prop :=
  match change with
  | .write q => r = q
  | .factoryReset => True
  | .calibration => r ∈ SettingsStore.adcRegisters
  | .nodeId => r = .nodeId

/-- What the code has made sure of when an event comes. -/
def admits (c : Arming F) : Event F → Prop
  | .spin _ | .readiness _ => c.Calm
  | .localRequest _ => c.localControl = true ∧ c.Calm
  | .engageStep => c.engageRequested = true ∧ c.Calm
  | .engageIgnored | .engageRefused => c.engaging = true
  | .engaged =>
    c.engaging = true ∧ c.engaged = false ∧ c.emergencyStop = false ∧ c.running = false ∧
      c.setpointActive = false ∧ c.pending = false ∧ c.applied = c.written ∧ c.applying = false ∧
        c.starting = false
  | .supervised timeout holds =>
    c.engaged = true ∧ c.stageSeen = true ∧ c.tripped = false ∧
      (c.now - c.lastReadiness ≤ timeout ∨ holds = true)
  | .stageChecked | .tripSeen => c.engaged = true
  | .disengaged reason =>
    c.engaged = true ∧ c.enabled = false ∧ (reason.isTrip = true → c.rearmRequired = true)
  | .handed value timeout =>
    value = { c.setpoint with active := c.engaged } ∧
      (c.engaged = true →
        (∃ holds, c.check = some (timeout, holds)) ∧
          (c.setpointActive = true →
            c.now - c.lastSetpoint ≤ timeout ∧
              (c.source = .message ∨ c.setpointNow = true ∨ c.droppedNow = true)))
  | .clearedTrips owner | .clearedFault owner => c.mayAcknowledge owner
  | .forced => c.starting = true ∨ c.running = true
  | .stopped => c.running = false ∧ c.engaged = false ∧ c.enabled = false
  | .restartAccepted => c.running = false ∧ c.engaged = false ∧ c.Calm
  | .restarted => c.restartRequested = true ∧ c.Calm
  | .startAttempted => c.engaged = false ∧ c.emergencyStop = false ∧ c.running = false ∧ c.Calm
  | .startRefused => c.starting = true ∧ c.forced = false
  | .runStarted => c.starting = true ∧ c.engaged = false ∧ c.emergencyStop = false
  | .motorAwaited => c.running = true
  | .motorReleased => c.running = true ∧ c.stopping = false
  | .runEnded reason =>
    c.running = true ∧ c.enabled = false ∧ c.engaging = false ∧
      (reason = .aborted ∨ c.startupActive = true ∨ c.emergencyStop = true)
  | .runRecorded => c.running = true
  | .runEndRecorded => c.running = false ∧ c.startupActive = true ∧ c.forced = false
  | .settingsChanged change settings =>
    (∀ r, ¬touches change r → settings r = c.live r) ∧
      (change = .calibration → c.startupActive = true ∧ c.running = true) ∧
      (change = .factoryReset → c.engaged = false) ∧ c.tuning = false ∧
      (isWrite change = true → c.pending = true ∨ c.written + 1 ≠ c.applied)
  | .settingsPending => c.engaged = false
  | .applyChecked _ => c.engaged = false ∧ c.starting = false ∧ c.closing = false ∧ c.applying = false
  | .startRuntime settings _ dropsFault => c.applying = true ∧ settings = c.live ∧ dropsFault = c.dropping
  | .tuneStarted => c.engaged = true
  | .tuneBlocked =>
    c.engaged = true ∧ c.tuning = true ∧ firstUntunableChange c.appliedSettings c.live ≠ none
  | .currentGains _ | .loopGains _ =>
    c.tuning = true ∧ firstUntunableChange c.appliedSettings c.live = none
  | .tuned settings =>
    c.engaged = true ∧ c.tuning = true ∧ settings = c.live ∧
      firstUntunableChange c.appliedSettings c.live = none ∧
      c.cycleGains = currentGains settings ∧ c.stepGains = OuterLoop.gainsFrom settings
  | _ => True

end Machine

end Arming

/-- The machine from the state a boot finds. -/
def arming {F : Type} [Arithmetic F] (start : Arming F) : Runs.Machine (Arming F) (Event F) where
  start := start
  next := Arming.next
  admits := Arming.admits

end Unimoc.Drive
