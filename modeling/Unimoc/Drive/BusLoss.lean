import Unimoc.Drive.BusView
import Unimoc.Drive.Supervision

/-! The loss of the bus over the runs of the drive: where the messages that count after it
come from. -/
namespace Unimoc.Drive

open CurrentControl Cyphal Firmware Settings Startup

variable {F E : Type} [Arithmetic F]

/-- A message the cart takes from the transfer. -/
inductive Carries (ports : CartPorts) (nowUs : UInt64) (t : Transfer F) :
    CartReceived F → CartReceived F → Prop
  | command {old : CartReceived F} {wheelTorque : Vector F 4} {wheel : Nat} {torque : F}
      (port : t.portId = ports.wheelCommand) (read : t.payload.wheelCommand = some wheelTorque)
      (wheel : wheelTorque[wheel]? = some torque) :
      Carries ports nowUs t old
        { old with command := some (nowUs, if Scalar.isFinite torque then torque else Scalar.zero) }
  | pedals {old : CartReceived F} {pedals : CartPedals F} (port : t.portId = ports.pedalState)
      (read : t.payload.pedalState = some pedals) :
      Carries ports nowUs t old { old with pedals := some (nowUs, pedals) }
  | battery {old : CartReceived F} {battery : CartBattery F} (port : t.portId = ports.batteryStatus)
      (read : t.payload.batteryStatus = some battery) :
      Carries ports nowUs t old { old with battery := some (nowUs, battery) }

/-- A transfer that the cart could take. -/
def CartPorts.takes (ports : CartPorts) (t : Transfer F) : Bool :=
  t.kind = .message &&
    (t.portId = ports.wheelCommand && t.payload.wheelCommand.isSome ||
      t.portId = ports.pedalState && t.payload.pedalState.isSome ||
      t.portId = ports.batteryStatus && t.payload.batteryStatus.isSome)

theorem Carries.takes {ports : CartPorts} {nowUs : UInt64} {t : Transfer F}
    {old new : CartReceived F} (message : t.kind = .message) (carries : Carries ports nowUs t old new) :
    ports.takes t = true := by
  unfold CartPorts.takes
  cases carries with
  | command port read wheel => simp [message, port, read]
  | pedals port read => simp [message, port, read]
  | battery port read => simp [message, port, read]

namespace CartReceived

def nothing : CartReceived F := ⟨none, none, none⟩

end CartReceived

/-- A bus-off, or one that has come and gone since the last look. -/
def BusView.showsLoss (v : BusView F) : Bool :=
  v.busStatus.state = .busOff || v.busStatus.busOffCount ≠ v.busOffCount

/-- What the watch on the bus makes of the view. -/
def BusView.watch (v : BusView F) : BusView F :=
  { v with
    received := if v.showsLoss && !v.busLost then .nothing else v.received
    busLost := v.busStatus.state = .busOff
    busOffCount := v.busStatus.busOffCount }

namespace System

variable [EbikeControl E F] (s : System F E)

/-- The view is the same or has received a value of the transfer. -/
def Receives (t : Transfer F) (nowUs : UInt64) (after : System F E) : Prop :=
  after.busView = s.busView ∨
    ∃ new, Carries s.busView.ports nowUs t s.busView.received new ∧
      after.busView = { s.busView with received := new }

variable {s} {t : Transfer F} {nowUs : UInt64}

omit [EbikeControl E F] in
theorem receives_onWheelCommand (port : t.portId = s.wheelCommandPort) :
    s.Receives t nowUs (s.onWheelCommand t.payload nowUs) := by
  unfold onWheelCommand
  split
  · exact .inl rfl
  · rename_i read
    split
    · exact .inl rfl
    · rename_i wheel
      exact .inr ⟨_, .command port read wheel, rfl⟩

omit [EbikeControl E F] in
theorem receives_onPedalState (port : t.portId = s.pedalStatePort) :
    s.Receives t nowUs (s.onPedalState t.payload nowUs) := by
  unfold onPedalState
  split
  · exact .inl rfl
  · rename_i read
    exact .inr ⟨_, .pedals port read, rfl⟩

omit [EbikeControl E F] in
theorem receives_onBatteryStatus (port : t.portId = s.batteryStatusPort) :
    s.Receives t nowUs (s.onBatteryStatus t.payload nowUs) := by
  unfold onBatteryStatus
  split
  · exact .inl rfl
  · rename_i read
    exact .inr ⟨_, .battery port read, rfl⟩

theorem receives_onMessage (s : System F E) (t : Transfer F) (nowUs : UInt64) :
    s.Receives t nowUs (s.onMessage t nowUs) := by
  unfold onMessage
  refine iteInduction (motive := s.Receives t nowUs) (fun _ => .inl (busView_onReadiness ..)) fun _ => ?_
  refine iteInduction (motive := s.Receives t nowUs) (fun _ => .inl (busView_onCurrentSetpoint ..)) fun _ => ?_
  refine iteInduction (motive := s.Receives t nowUs) (fun _ => .inl (busView_onTorqueSetpoint ..)) fun _ => ?_
  refine iteInduction (motive := s.Receives t nowUs) (fun _ => .inl (busView_onSpeedSetpoint ..)) fun _ => ?_
  refine iteInduction (motive := s.Receives t nowUs) (fun _ => .inl (busView_onPositionSetpoint ..)) fun _ => ?_
  refine iteInduction (motive := s.Receives t nowUs) (fun _ => .inl (busView_onServoSetpoint ..)) fun _ => ?_
  refine iteInduction (motive := s.Receives t nowUs) receives_onWheelCommand fun _ => ?_
  refine iteInduction (motive := s.Receives t nowUs) receives_onPedalState fun _ => ?_
  exact iteInduction (motive := s.Receives t nowUs) receives_onBatteryStatus fun _ => .inl rfl

variable (s)

/-- What the messages of a transfer keep, its dispatch keeps. -/
theorem dispatch_keeps (P : BusView F → Prop) {t : Transfer F} (nowUs : UInt64)
    (carried : t.kind = .message → ∀ v new, Carries v.ports nowUs t v.received new → P v →
      P { v with received := new })
    (held : P s.busView) : P (s.dispatch nowUs t).busView := by
  unfold dispatch
  cases kind : t.kind with
  | serviceRequest => simpa using held
  | serviceResponse => exact held
  | message =>
    dsimp only
    split
    · simpa using held
    · generalize s.node.listeners.filter (· = t.portId) = listeners
      induction listeners generalizing s with
      | nil => exact held
      | cons _ rest ih =>
        apply ih
        obtain same | ⟨new, carries, next⟩ := receives_onMessage s t nowUs
        · rw [same]
          exact held
        · rw [next]
          exact carried kind _ new carries held

def takenTransfers (input : Input F) : List (Transfer F) :=
  (s.node.queue ++ input.received).take maxTransfersPerSpin

theorem foldl_dispatch_keeps (P : BusView F → Prop) (nowUs : UInt64) (transfers : List (Transfer F))
    (carried : ∀ t ∈ transfers, t.kind = .message → ∀ v new, Carries v.ports nowUs t v.received new →
      P v → P { v with received := new })
    (held : P s.busView) : P (transfers.foldl (fun s t => s.dispatch nowUs t) s).busView := by
  induction transfers generalizing s with
  | nil => exact held
  | cons t rest ih =>
    apply ih _ (fun t' listed => carried t' (List.mem_cons_of_mem _ listed))
    exact dispatch_keeps s P nowUs (carried t List.mem_cons_self) held

/-- The view a spin starts with: the transfers it takes are gone from the queue. -/
def taking (input : Input F) : BusView F :=
  { s.busView with
    queue := (s.node.queue ++ input.received).drop maxTransfersPerSpin, busStatus := input.busStatus }

theorem spinNode_keeps (P : BusView F → Prop) (input : Input F)
    (carried : ∀ t ∈ s.takenTransfers input, t.kind = .message → ∀ v new,
      Carries v.ports input.nowUs t v.received new → P v → P { v with received := new })
    (held : P (s.taking input)) :
    P (((s.meet input).record (.spin input.nowUs)).spinNode input.nowUs).busView :=
  foldl_dispatch_keeps _ P input.nowUs (s.takenTransfers input) carried held

omit [EbikeControl E F] in
theorem busView_watchBus : s.watchBus.busView = s.busView.watch := by
  have noted (s : System F E) (went : Bool) :
      (if went && !s.busLost then { s with busLost := true, cart := s.cart.onBusLost } else s).busView =
        { s.busView with
          received := if went && !s.busLost then .nothing else s.busView.received
          busLost := went || s.busLost } := by
    cases went <;> cases lost : s.busLost
    · simp [busView, lost]
    · simp [busView, lost]
    · rfl
    · simp [busView, lost]
  have back (s : System F E) (on : Bool) :
      (if s.busLost && on then
        { s with busLost := false }.log .warning "CAN bus-off, back on the bus"
      else s).busView = { s.busView with busLost := s.busView.busLost && !on } := by
    cases on <;> cases lost : s.busLost
    · simp [busView, lost]
    · simp [busView, lost]
    · simp [busView, lost]
    · exact (busView_log _ _ _).trans (by simp [busView, lost])
  refine (back _ _).trans ?_
  rw [noted]
  by_cases off : s.node.busStatus.state = .busOff <;>
    by_cases counted : s.node.busStatus.busOffCount = s.busOffCount <;>
      simp [BusView.watch, BusView.showsLoss, busView, off, counted]

omit [EbikeControl E F] in
theorem busView_waiting (waiting : Bool) :
    ({ s with settingsWaiting := waiting } : System F E).busView = s.busView := rfl

theorem busView_spin (input : Input F) :
    (s.spin input).busView =
      (((s.meet input).record (.spin input.nowUs)).spinNode input.nowUs).busView.watch := by
  rw [← busView_watchBus]
  exact (busView_waiting _ _).trans <| (busView_spinRestart _ _).trans <|
    (busView_spinSettings _).trans <| (busView_handOver _).trans <| (busView_spinEngagement _ _).trans <|
    (busView_spinStartup _).trans <| (busView_takeEngageRequest _).trans <|
    busView_spinLocalControl _ _ _

/-! ### Runs -/

/-- The status a spin meets shows a bus-off, or one that came and went since the last spin. -/
def meetsLoss (input : Input F) : Bool := (s.taking input).showsLoss

/-- No spin that shows a loss takes a cart message while an earlier bus-off still lasts. -/
def QuietWhileLost (s : System F E) : List (Input F) → Prop
  | [] => True
  | input :: rest =>
    (s.meetsLoss input → s.busLost → ∀ t ∈ s.takenTransfers input, s.busView.ports.takes t = false) ∧
      QuietWhileLost (s.spin input) rest

/-- While the drive takes the bus for lost nothing counts. -/
def Forgotten : Prop := s.busLost = true → s.cart.received = .nothing

variable {s}

theorem spinNode_quiet {input : Input F}
    (quiet : ∀ t ∈ s.takenTransfers input, s.busView.ports.takes t = false) :
    (((s.meet input).record (.spin input.nowUs)).spinNode input.nowUs).busView = s.taking input := by
  refine spinNode_keeps s (· = s.taking input) input (fun t taken message v new carries same => ?_) rfl
  subst same
  exact absurd (carries.takes message) (by simp [quiet t taken, taking])

omit [EbikeControl E F] in
theorem received_busView : s.busView.received = s.cart.received := rfl

omit [EbikeControl E F] in
theorem busView_busLost (s : System F E) : s.busLost = s.busView.busLost := rfl

theorem spinNode_frame (s : System F E) (input : Input F) :
    ∃ received, (((s.meet input).record (.spin input.nowUs)).spinNode input.nowUs).busView =
      { s.taking input with received := received } :=
  spinNode_keeps s (fun v => ∃ received, v = { s.taking input with received := received }) input
    (fun _ _ _ _ new _ ⟨_, same⟩ => ⟨new, same ▸ rfl⟩) ⟨_, rfl⟩

theorem spin_forgets (forgotten : s.Forgotten) {input : Input F} (loss : s.meetsLoss input = true)
    (quiet : s.busLost → ∀ t ∈ s.takenTransfers input, s.busView.ports.takes t = false) :
    (s.spin input).cart.received = .nothing := by
  rw [← received_busView, busView_spin]
  cases lost : s.busLost with
  | false =>
    obtain ⟨received, frame⟩ := spinNode_frame s input
    have latched : ({ s.taking input with received := received } : BusView F).busLost = false := lost
    rw [frame]
    exact if_pos (Bool.and_eq_true _ _ |>.mpr ⟨loss, by rw [latched]; rfl⟩)
  | true =>
    have nothing : (s.taking input).received = .nothing := forgotten lost
    rw [spinNode_quiet (quiet lost)]
    simp [BusView.watch, nothing]

theorem busLost_spin (input : Input F) :
    (s.spin input).busLost = decide (input.busStatus.state = .busOff) := by
  obtain ⟨received, frame⟩ := spinNode_frame s input
  have view := busView_spin s input
  rw [frame] at view
  rw [busView_busLost, view]
  rfl

theorem spin_forgotten (forgotten : s.Forgotten) {input : Input F}
    (quiet : s.meetsLoss input → s.busLost →
      ∀ t ∈ s.takenTransfers input, s.busView.ports.takes t = false) :
    (s.spin input).Forgotten := by
  intro lost
  rw [busLost_spin] at lost
  have off := of_decide_eq_true lost
  have loss : s.meetsLoss input = true := by simp [meetsLoss, BusView.showsLoss, taking, off]
  exact spin_forgets forgotten loss (quiet loss)

theorem quietWhileLost_cons {input : Input F} {rest : List (Input F)} :
    s.QuietWhileLost (input :: rest) ↔
      (s.meetsLoss input → s.busLost → ∀ t ∈ s.takenTransfers input, s.busView.ports.takes t = false) ∧
        (s.spin input).QuietWhileLost rest :=
  Iff.rfl

theorem foldl_forgotten (forgotten : s.Forgotten) {inputs : List (Input F)}
    (quiet : s.QuietWhileLost inputs) : (inputs.foldl spin s).Forgotten := by
  induction inputs generalizing s with
  | nil => exact forgotten
  | cons input rest ih =>
    obtain ⟨first, later⟩ := quietWhileLost_cons.mp quiet
    rw [List.foldl_cons]
    exact ih (spin_forgotten forgotten first) later

theorem quietWhileLost_append {before later : List (Input F)}
    (quiet : s.QuietWhileLost (before ++ later)) :
    s.QuietWhileLost before ∧ (before.foldl spin s).QuietWhileLost later := by
  induction before generalizing s with
  | nil => exact ⟨trivial, quiet⟩
  | cons input rest ih =>
    obtain ⟨first, rest⟩ := quietWhileLost_cons.mp quiet
    obtain ⟨before, last⟩ := ih rest
    rw [List.foldl_cons]
    exact ⟨quietWhileLost_cons.mpr ⟨first, before⟩, last⟩

/-- The transfers the drive handles, with the times at which it does. -/
def handled (s : System F E) : List (Input F) → List (UInt64 × Transfer F)
  | [] => []
  | input :: rest => (s.takenTransfers input).map (input.nowUs, ·) ++ (s.spin input).handled rest

end System

/-- What counts for the cart was carried by one of the deliveries. -/
structure CartReceived.From (received : CartReceived F) (ports : CartPorts)
    (deliveries : List (UInt64 × Transfer F)) : Prop where
  command : ∀ c ∈ received.command, ∃ t wheelTorque, ∃ wheel : Nat, ∃ torque,
    (c.1, t) ∈ deliveries ∧ t.kind = .message ∧ t.portId = ports.wheelCommand ∧
      t.payload.wheelCommand = some wheelTorque ∧ wheelTorque[wheel]? = some torque ∧
      c.2 = if Scalar.isFinite torque then torque else Scalar.zero
  pedals : ∀ p ∈ received.pedals, ∃ t, (p.1, t) ∈ deliveries ∧ t.kind = .message ∧
    t.portId = ports.pedalState ∧ t.payload.pedalState = some p.2
  battery : ∀ b ∈ received.battery, ∃ t, (b.1, t) ∈ deliveries ∧ t.kind = .message ∧
    t.portId = ports.batteryStatus ∧ t.payload.batteryStatus = some b.2

namespace CartReceived

variable {ports : CartPorts} {deliveries all : List (UInt64 × Transfer F)}
  {old new : CartReceived F}

theorem nothing_from : (nothing : CartReceived F).From ports deliveries :=
  ⟨nofun, nofun, nofun⟩

theorem From.mono (source : old.From ports deliveries) (more : ∀ d ∈ deliveries, d ∈ all) :
    old.From ports all where
  command c counts := by
    obtain ⟨t, wheelTorque, wheel, torque, listed, rest⟩ := source.command c counts
    exact ⟨t, wheelTorque, wheel, torque, more _ listed, rest⟩
  pedals p counts := by
    obtain ⟨t, listed, rest⟩ := source.pedals p counts
    exact ⟨t, more _ listed, rest⟩
  battery b counts := by
    obtain ⟨t, listed, rest⟩ := source.battery b counts
    exact ⟨t, more _ listed, rest⟩

theorem From.carried (source : old.From ports deliveries) {nowUs : UInt64} {t : Transfer F}
    (listed : (nowUs, t) ∈ deliveries) (message : t.kind = .message)
    (carries : Carries ports nowUs t old new) : new.From ports deliveries := by
  cases carries with
  | command port read wheel =>
    refine ⟨fun c counts => ?_, source.pedals, source.battery⟩
    cases counts
    exact ⟨t, _, _, _, listed, message, port, read, wheel, rfl⟩
  | pedals port read =>
    refine ⟨source.command, fun p counts => ?_, source.battery⟩
    cases counts
    exact ⟨t, listed, message, port, read⟩
  | battery port read =>
    refine ⟨source.command, source.pedals, fun b counts => ?_⟩
    cases counts
    exact ⟨t, listed, message, port, read⟩

end CartReceived

namespace System

variable [EbikeControl E F] {s : System F E}

theorem spin_from {ports : CartPorts} {deliveries : List (UInt64 × Transfer F)}
    (same : s.busView.ports = ports) (source : s.cart.received.From ports deliveries)
    (input : Input F) :
    (s.spin input).busView.ports = ports ∧ (s.spin input).cart.received.From ports
      (deliveries ++ (s.takenTransfers input).map (input.nowUs, ·)) := by
  rw [← received_busView, busView_spin]
  obtain ⟨ported, sourced⟩ := spinNode_keeps s
    (fun v => v.ports = ports ∧ v.received.From ports
      (deliveries ++ (s.takenTransfers input).map (input.nowUs, ·))) input
    (fun t taken message v new carries ⟨ported, sourced⟩ => by
      have listed : (input.nowUs, t) ∈ deliveries ++ (s.takenTransfers input).map (input.nowUs, ·) :=
        List.mem_append_right _ (List.mem_map_of_mem taken)
      exact ⟨ported, sourced.carried listed message (ported ▸ carries)⟩)
    ⟨same, source.mono fun d listed => List.mem_append_left _ listed⟩
  refine ⟨ported, ?_⟩
  dsimp only [BusView.watch]
  split
  · exact CartReceived.nothing_from
  · exact sourced

/-- What counts after some spins was carried by a transfer handled in them. -/
theorem foldl_from {ports : CartPorts} {deliveries : List (UInt64 × Transfer F)}
    (same : s.busView.ports = ports) (source : s.cart.received.From ports deliveries)
    (inputs : List (Input F)) :
    (inputs.foldl spin s).cart.received.From ports (deliveries ++ s.handled inputs) := by
  induction inputs generalizing s deliveries with
  | nil => simpa [handled] using source
  | cons input rest ih =>
    obtain ⟨same, source⟩ := spin_from same source input
    simpa [handled] using ih same source

theorem queue_spin (s : System F E) (input : Input F) :
    (s.spin input).node.queue = (s.node.queue ++ input.received).drop maxTransfersPerSpin := by
  obtain ⟨received, frame⟩ := spinNode_frame s input
  have view := busView_spin s input
  rw [frame] at view
  exact congrArg BusView.queue view

theorem handled_received {inputs : List (Input F)} {d : UInt64 × Transfer F}
    (handled : d ∈ s.handled inputs) :
    d.2 ∈ s.node.queue ∨ ∃ input ∈ inputs, d.2 ∈ input.received := by
  induction inputs generalizing s with
  | nil => cases handled
  | cons input rest ih =>
    obtain now | later := List.mem_append.mp handled
    · obtain ⟨t, taken, rfl⟩ := List.mem_map.mp now
      obtain waiting | received := List.mem_append.mp (List.mem_of_mem_take taken)
      · exact .inl waiting
      · exact .inr ⟨input, List.mem_cons_self, received⟩
    · obtain waiting | ⟨i, listed, received⟩ := ih later
      · rw [queue_spin] at waiting
        obtain waiting | received := List.mem_append.mp (List.mem_of_mem_drop waiting)
        · exact .inl waiting
        · exact .inr ⟨input, List.mem_cons_self, received⟩
      · exact .inr ⟨i, List.mem_cons_of_mem _ listed, received⟩

theorem boot_forgotten (start : Boot F E) : (boot start).Forgotten := fun lost => by
  have latched : (boot start).busLost = false := rfl
  rw [latched] at lost
  cases lost

/-- After a spin that shows a bus-off nothing counts, and what counts later came later; the
output of the cart rests on that and on its ramp. -/
theorem bus_loss_forgets (start : Boot F E) (before : List (Input F)) (input : Input F)
    (loss : (run start before).meetsLoss input = true)
    (quiet : (boot start).QuietWhileLost (before ++ [input])) :
    (run start (before ++ [input])).cart.received = .nothing ∧
      ∀ later,
        let lost := run start (before ++ [input])
        let s := run start (before ++ input :: later)
        s.cart.received.From lost.busView.ports (lost.handled later) ∧
          (∀ d ∈ lost.handled later,
            d.2 ∈ lost.node.queue ∨ ∃ input ∈ later, d.2 ∈ input.received) ∧
          ∀ other : CartControl F, s.cart.SameRamp other → s.cart.received = other.received →
            ∀ nowUs,
              (∀ speed engaged,
                (s.cart.update nowUs speed engaged).1 = (other.update nowUs speed engaged).1) ∧
              s.cart.batteryLimits nowUs = other.batteryLimits nowUs := by
  obtain ⟨quietBefore, quietNow, -⟩ := quietWhileLost_append quiet
  have forgotten : (run start before).Forgotten := foldl_forgotten (boot_forgotten start) quietBefore
  have nothing : (run start (before ++ [input])).cart.received = .nothing := by
    have last : run start (before ++ [input]) = (run start before).spin input := by
      simp only [run, List.foldl_append, List.foldl_cons, List.foldl_nil]
    rw [last]
    exact spin_forgets forgotten loss (quietNow loss)
  refine ⟨nothing, fun later => ⟨?_, fun d => handled_received, fun other ramp same nowUs =>
    ⟨CartControl.update_congr ramp same nowUs, CartControl.batteryLimits_congr ramp same nowUs⟩⟩⟩
  have split : run start (before ++ input :: later) =
      later.foldl spin (run start (before ++ [input])) := by
    simp [run, List.foldl_append]
  rw [split]
  have none : (run start (before ++ [input])).cart.received.From
      (run start (before ++ [input])).busView.ports [] := nothing ▸ CartReceived.nothing_from
  simpa using foldl_from rfl none later

end System

section Simulated

def busInput (nowUs : UInt64) (received : List (Transfer Binary32)) (state : CanBusState)
    (busOffCount : UInt32) : System.Input Binary32 :=
  { simInput nowUs received [] with busStatus := ⟨state, busOffCount⟩ }

/-- The wheel command before a bus-off and the one with it are both forgotten. -/
theorem bus_loss_forgets_sim :
    (System.run limpBoot [busInput 2000 [wheelMessage 1.0] .errorActive 0]).cart.hasCommand = true ∧
      (System.run limpBoot [busInput 2000 [wheelMessage 1.0] .errorActive 0,
        busInput 3000 [wheelMessage 2.0] .busOff 1]).cart.received = .nothing := by
  refine ⟨by decide, ?_⟩
  have free : (System.run limpBoot [busInput 2000 [wheelMessage 1.0] .errorActive 0]).busLost = false := by
    decide
  refine (System.bus_loss_forgets limpBoot [busInput 2000 [wheelMessage 1.0] .errorActive 0]
    (busInput 3000 [wheelMessage 2.0] .busOff 1) (by decide) ⟨fun loss => ?_, fun _ lost => ?_, trivial⟩).1
  · exact absurd loss (by decide)
  · exact absurd (free.symm.trans lost) (by decide)

/-- The command a second bus-off finds counts on while the first one is not yet over. -/
theorem second_bus_off_kept :
    (System.run limpBoot [busInput 2000 [] .busOff 1]).meetsLoss
        (busInput 3000 [wheelMessage 1.0] .errorActive 2) = true ∧
      (System.run limpBoot [busInput 2000 [] .busOff 1,
        busInput 3000 [wheelMessage 1.0] .errorActive 2]).cart.received ≠ .nothing := by
  refine ⟨by decide, fun nothing => ?_⟩
  have counts : (System.run limpBoot [busInput 2000 [] .busOff 1,
      busInput 3000 [wheelMessage 1.0] .errorActive 2]).cart.received.command.isSome = true := by
    decide
  rw [nothing] at counts
  cases counts

end Simulated

end Unimoc.Drive
