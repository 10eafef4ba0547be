import Unimoc.Drive.SpinTracking
import Unimoc.Firmware.Trace
import Unimoc.Settings.Factory

/-! The state of the arming machine, read from the trace that led to it; the induction
rules of the runs of the drive; the drive of the simulated board. -/
namespace Unimoc.Drive

open CurrentControl Cyphal Firmware Runs Settings Startup Trace

variable {F E : Type} [Arithmetic F] [EbikeControl E F]

section Replay

omit [EbikeControl E F]

variable (boot : System.Boot F E)

def bootMachine : Machine (Arming F) (Event F) := arming (System.bootState boot)

/-- The state of the machine after a trace. -/
def after (trace : List (Event F)) : Arming F := (bootMachine boot).replay trace

variable (trace : List (Event F))

theorem after_engaged : (after boot trace).engaged = engagedNow trace :=
  Machine.replay_latest (m := bootMachine boot) (fun c => c.engaged) _
    (fun e _ => by cases e <;> rfl) trace

theorem after_running : (after boot trace).running = activeRun trace :=
  Machine.replay_latest (m := bootMachine boot) (fun c => c.running) _
    (fun e _ => by cases e <;> rfl) trace

theorem after_startupActive : (after boot trace).startupActive = recordedRun trace :=
  Machine.replay_latest (m := bootMachine boot) (fun c => c.startupActive) _
    (fun e _ => by cases e <;> rfl) trace

theorem after_enabled : (after boot trace).enabled = stageOn trace := by
  refine Machine.replay_latest (m := bootMachine boot) (fun c => c.enabled) _ (fun e past => ?_) trace
  cases e with
  | externalEnable present =>
    cases present with
    | false => exact Bool.and_false _
    | true => exact Bool.and_true _
  | _ => rfl

theorem after_tripped : (after boot trace).tripped = tripLatched trace :=
  Machine.replay_latest (m := bootMachine boot) (fun c => c.tripped) _
    (fun e _ => by cases e <;> rfl) trace

theorem after_emergencyStop : (after boot trace).emergencyStop = emergencyStopped trace :=
  Machine.replay_latest (m := bootMachine boot) (fun c => c.emergencyStop) _
    (fun e _ => by cases e <;> rfl) trace

theorem after_restartRequested : (after boot trace).restartRequested = restartPending trace :=
  Machine.replay_latest (m := bootMachine boot) (fun c => c.restartRequested) _
    (fun e _ => by cases e <;> rfl) trace

theorem after_now : (after boot trace).now = clock boot.nowUs trace :=
  Machine.replay_latest (m := bootMachine boot) (fun c => c.now) _
    (fun e _ => by cases e <;> rfl) trace

theorem after_setpointNow : (after boot trace).setpointNow = givenNow trace :=
  Machine.replay_latest (m := bootMachine boot) (fun c => c.setpointNow) _
    (fun e _ => by cases e <;> rfl) trace

theorem after_droppedNow : (after boot trace).droppedNow = Trace.droppedNow trace := by
  refine Machine.replay_latest (m := bootMachine boot) (fun c => c.droppedNow) _ (fun e past => ?_) trace
  cases e with
  | setpointDropped source => cases source <;> rfl
  | _ => rfl

theorem after_handed :
    (after boot trace).handed = (handedNow boot.nowUs trace).map fun h => h.value := by
  induction trace with
  | nil => rfl
  | cons e past ih =>
    cases e with
    | handed value timeout => rfl
    | spin now => rfl
    | _ => exact ih

theorem after_live : (after boot trace).live = liveSettings boot.store.settings trace :=
  Machine.replay_latest (m := bootMachine boot) (fun c => c.live) _
    (fun e _ => by cases e <;> rfl) trace

theorem after_appliedSettings :
    (after boot trace).appliedSettings = handedSettings boot.store.settings trace :=
  Machine.replay_latest (m := bootMachine boot) (fun c => c.appliedSettings) _
    (fun e _ => by cases e <;> rfl) trace

theorem after_stageSeen : (after boot trace).stageSeen = Trace.stageSeen trace := by
  refine Machine.replay_latest (m := bootMachine boot) (fun c => c.stageSeen) _ (fun e past => ?_) trace
  cases e with
  | stageChecked => exact after_enabled boot past
  | _ => rfl

theorem after_check :
    (after boot trace).check = (checkNow trace).map fun c => (c.timeout, c.holdsEngagement) := by
  induction trace with
  | nil => rfl
  | cons e past ih =>
    cases e with
    | supervised timeout holds => rfl
    | spin now => rfl
    | _ => exact ih

theorem after_lastReadiness :
    (after boot trace).lastReadiness = (refreshedAt boot.nowUs trace).getD 0 := by
  induction trace with
  | nil => rfl
  | cons e past ih =>
    cases e with
    | readiness value => exact after_now boot past
    | localRequest engage =>
      cases engage with
      | false => exact ih
      | true => exact after_now boot past
    | _ => exact ih

/-- What every event that meets `C` keeps holds after every run of such events. -/
theorem after_invariant (C : Event F → List (Event F) → Prop) (I : Arming F → List (Event F) → Prop)
    (initial : I (System.bootState boot) [])
    (step : ∀ e past, Owned (after boot past) → I (after boot past) past →
      (after boot past).admits e → C e past → I ((after boot past).next e) (e :: past))
    {trace : List (Event F)} (legal : (bootMachine boot).Legal trace) (met : Throughout C trace) :
    I (after boot trace) trace := by
  have both : Owned (after boot trace) ∧ I (after boot trace) trace :=
    Machine.invariant_under (m := bootMachine boot) C (fun c past => Owned c ∧ I c past)
      ⟨System.bootState_owned boot, initial⟩
      (fun e past held admitted meets =>
        ⟨held.1.step admitted, step e past held.1 held.2 admitted meets⟩)
      trace legal met
  exact both.2

/-- What the invariant says of the next event holds throughout the run. -/
theorem throughout_of_invariant (C : Event F → List (Event F) → Prop)
    (I : Arming F → List (Event F) → Prop) (Q : Event F → List (Event F) → Prop)
    (holds : ∀ {past}, (bootMachine boot).Legal past → Throughout C past → I (after boot past) past)
    (next : ∀ e past, Owned (after boot past) → I (after boot past) past →
      (after boot past).admits e → C e past → Q e past)
    {trace : List (Event F)} (legal : (bootMachine boot).Legal trace) (met : Throughout C trace) :
    Throughout Q trace :=
  Machine.throughout_under (m := bootMachine boot) C (fun c past => Owned c ∧ I c past) Q
    (fun past legal met =>
      ⟨Owned.of_legal (System.bootState_owned boot) past legal, holds legal met⟩)
    (fun e past held admitted meets => next e past held.1 held.2 admitted meets) trace legal met

/-- What the ownership of the outputs says of the next event holds in every run. -/
theorem throughout_of_owned (Q : Event F → List (Event F) → Prop)
    (next : ∀ e past, Owned (after boot past) → (after boot past).admits e → Q e past)
    {trace : List (Event F)} (legal : (bootMachine boot).Legal trace) : Throughout Q trace :=
  throughout_of_invariant boot (fun _ _ => True) (fun _ _ => True) Q (fun _ _ => trivial)
    (fun e past owned _ admitted _ => next e past owned admitted) legal
    (Throughout.of_forall fun _ _ => trivial)

end Replay

/-! ### Runs of the drive -/

/-- A run of the drive and the run of the machine it is. -/
structure Ended (boot : System.Boot F E) (m : Marks F) (s : System F E) : Prop where
  spun : System.SpinEnd (System.bootState boot) m s
  legal : (bootMachine boot).Legal s.board.trace
  state : after boot s.board.trace = .mk (s.view m) s.board.outputs

theorem ended (boot : System.Boot F E) (inputs : List (System.Input F)) :
    ∃ m, Ended boot m (System.run boot inputs) := by
  obtain ⟨m, spun⟩ := System.run_ends boot inputs
  exact ⟨m, spun, spun.follows.tracks.legal, spun.follows.tracks.state⟩

namespace Ended

variable {boot : System.Boot F E} {m : Marks F} {s : System F E} (ended : Ended boot m s)

include ended

omit [EbikeControl E F]

theorem owned : Owned (after boot s.board.trace) :=
  Owned.of_legal (System.bootState_owned boot) _ ended.legal

theorem owners : Owned (.mk (s.view m) s.board.outputs : Arming F) := ended.state ▸ ended.owned

theorem exclusive (engaged : s.engaged = true) : s.startup.isActive = false :=
  ended.owners.exclusive engaged

/-- Once the thread is through with it, an emergency stop leaves nobody the outputs. -/
theorem idle_of_stopped (stopped : s.emergencyStop = true) :
    s.engaged = false ∧ s.startup.isActive = false := by
  obtain stopping | idle := ended.owners.stopped stopped
  · exact absurd stopping (by simp [System.view, ended.spun.follows.calm.stopping])
  · exact idle

theorem emergencyStop : s.emergencyStop = emergencyStopped s.board.trace :=
  (congrArg (fun c : Arming F => c.emergencyStop) ended.state).symm.trans (after_emergencyStop boot _)

end Ended

/-! ### The drive of the simulated board -/

section Simulated

instance noEbike : EbikeControl Empty Binary32 where
  configure _ ebike := ebike
  update _ _ ebike := ebike.elim
  inhibit ebike := ebike

def simStore : SettingsStore Binary32 where
  factorySettings := .default
  capabilities := simCapabilities
  settings := NvmSettings.default.set .nodeId (42 : UInt8)
  stored := NvmSettings.default.set .nodeId (42 : UInt8)
  eraseDefaults := false

def simBoot : System.Boot Binary32 Empty where
  store := simStore
  externalEnable := true
  timerClock := 170000000
  dropsFault := false
  uniqueIdHash := 0
  ebike := none
  restartHook := true
  nowUs := 1000
  subscriptions := []

def readinessMessage (value : UInt8) : Transfer Binary32 :=
  ⟨.message, 1066, 7, { Payload.malformed with readiness := some value }⟩

def commandRequest (command : UInt16) : Transfer Binary32 :=
  ⟨.serviceRequest, portExecuteCommand, 7, { Payload.malformed with executeCommand := some (command, []) }⟩

def speedGainWrite (pattern : UInt32) : Transfer Binary32 where
  kind := .serviceRequest
  portId := portRegisterAccess
  sourceNodeId := 7
  payload :=
    { Payload.malformed with
      registerAccess := some
        { name := Register.speedKp.name
          value := some fun
            | .speedKp => .ok pattern
            | _ => .error .typeMismatch } }

/-- A spin that receives the transfers, with the interrupts before its accesses. -/
def simInput (nowUs : UInt64) (received : List (Transfer Binary32))
    (interrupts : List (List (Interrupt Binary32))) : System.Input Binary32 where
  nowUs := nowUs
  received := received
  busStatus := ⟨.errorActive, 0⟩
  motorTemperature := none
  interrupts := interrupts
  storage := []
  initializations := []
  subscriptions := []

example : (System.boot simBoot).readinessPort = 1066 := by decide

end Simulated

end Unimoc.Drive
