import Unimoc.Drive.Barrier
import Unimoc.Drive.BusLoss

/-! The engagement under local control: what the messages of a spin leave of the request, the
re-arm and the e-bike control, and how a readiness other than ENGAGED gets to the control. -/
namespace Unimoc.Drive.System

open CurrentControl Cyphal Firmware Settings Startup

variable {F E : Type} [Arithmetic F] {s t u : System F E}

/-- The request, the re-arm and the e-bike control stay; the drive does not engage. -/
structure Reserved (s t : System F E) : Prop where
  engageRequested : t.engageRequested = s.engageRequested
  rearmRequired : t.rearmRequired = s.rearmRequired
  ebike : t.ebike = s.ebike
  engaged : t.engaged = true → s.engaged = true

namespace Reserved

theorem refl (s : System F E) : Reserved s s := ⟨rfl, rfl, rfl, id⟩

theorem trans (first : Reserved s t) (second : Reserved t u) : Reserved s u where
  engageRequested := second.engageRequested.trans first.engageRequested
  rearmRequired := second.rearmRequired.trans first.rearmRequired
  ebike := second.ebike.trans first.ebike
  engaged engaged := first.engaged (second.engaged engaged)

end Reserved

/-! ### Setpoints and settings -/

theorem setCurrentSetpoint_reserved (source : SetpointSource) (iD iQ : F) (nowUs : UInt64) :
    Reserved s (s.setCurrentSetpoint source iD iQ nowUs) := by
  unfold setCurrentSetpoint
  split
  · exact ⟨rfl, rfl, rfl, id⟩
  · exact ⟨rfl, rfl, rfl, id⟩

theorem setSpeedSetpoint_reserved (speed : F) (nowUs : UInt64) :
    Reserved s (s.setSpeedSetpoint speed nowUs) := by
  unfold setSpeedSetpoint
  split
  · exact .refl s
  · exact ⟨rfl, rfl, rfl, id⟩

theorem setPositionSetpoint_reserved (position : F) (nowUs : UInt64) :
    Reserved s (s.setPositionSetpoint position nowUs) := by
  unfold setPositionSetpoint
  split
  · exact .refl s
  · exact ⟨rfl, rfl, rfl, id⟩

theorem onServoSetpoint_reserved (payload : Payload F) (nowUs : UInt64) :
    Reserved s (s.onServoSetpoint payload nowUs) := by
  unfold onServoSetpoint
  split
  · exact .refl s
  · split
    · exact .refl s
    · exact setPositionSetpoint_reserved _ nowUs
    · exact setSpeedSetpoint_reserved _ nowUs
    · split
      · exact setCurrentSetpoint_reserved _ _ _ nowUs
      · exact .refl s

theorem onTorqueSetpoint_reserved (payload : Payload F) (nowUs : UInt64) :
    Reserved s (s.onTorqueSetpoint payload nowUs) := by
  unfold onTorqueSetpoint
  split
  · exact .refl s
  · split
    · exact .refl s
    · exact setCurrentSetpoint_reserved _ _ _ nowUs

theorem onWheelCommand_reserved (payload : Payload F) (nowUs : UInt64) :
    Reserved s (s.onWheelCommand payload nowUs) := by
  unfold onWheelCommand
  split
  · exact .refl s
  · split
    · exact .refl s
    · exact ⟨rfl, rfl, rfl, id⟩

theorem writeRegister_reserved (r : Register) (value : Except RegisterWriteResult r.kind.Carrier) :
    Reserved s (s.writeRegister r value).2 := by
  unfold writeRegister
  split
  · exact .refl s
  · dsimp only
    split
    · exact ⟨rfl, rfl, rfl, id⟩
    · exact ⟨rfl, rfl, rfl, id⟩

theorem onRegisterAccess_reserved (access : RegisterAccess) : Reserved s (s.onRegisterAccess access) := by
  unfold onRegisterAccess
  split
  · exact writeRegister_reserved _ _
  · exact .refl s

/-! ### Commands -/

theorem onBoard_reserved (t : System F E) (access : Board F → Board F) : Reserved t (t.onBoard access) :=
  ⟨rfl, rfl, rfl, id⟩

theorem disengage_reserved (reason : DisengageReason) : Reserved s (s.disengage reason) := by
  have cleared : Reserved s { s.clearSetpoint with cart := s.cart.reset } := ⟨rfl, rfl, rfl, id⟩
  have stopped (t : System F E) :
      Reserved t (({ t with engaged := false }.record (.disengaged reason)).log .notice
        ("disengaged: " ++ reason.text)) :=
    ⟨rfl, rfl, rfl, fun engaged => absurd engaged Bool.false_ne_true⟩
  unfold disengage
  dsimp only
  have handed := cleared.trans (onBoard_reserved _ (Board.setSetpoint .default))
  generalize ({ s.clearSetpoint with cart := s.cart.reset } : System F E).onBoard (Board.setSetpoint .default) = t
    at handed
  have off : Reserved t (if t.engaged || !t.startup.isActive then t.onBoard Board.disable else t) := by
    split
    · exact onBoard_reserved _ _
    · exact .refl _
  have held := handed.trans off
  generalize (if t.engaged || !t.startup.isActive then t.onBoard Board.disable else t) = u at held
  split
  · exact (held.trans (onBoard_reserved _ Board.preempt)).trans (stopped _)
  · exact held

theorem startHoming_reserved : Reserved s s.startHoming.2 := by
  unfold startHoming
  split
  · exact .refl s
  · split
    · exact .refl s
    · split
      · exact .refl s
      · dsimp only
        split <;> exact ⟨rfl, rfl, rfl, id⟩

theorem onFactoryReset_reserved : Reserved s s.onFactoryReset.2 := by
  unfold onFactoryReset
  split
  · exact .refl s
  · dsimp only
    split <;> exact ⟨rfl, rfl, rfl, id⟩

theorem onRestart_reserved : Reserved s s.onRestart.2 := by
  have left := disengage_reserved (s := s.abortStartup .aborted) .restart
  exact ⟨left.engageRequested, left.rearmRequired, left.ebike, left.engaged⟩

theorem onEmergencyStop_reserved : Reserved s s.onEmergencyStop.2 := by
  have left := disengage_reserved .emergencyStop
    (s := ({ s with emergencyStop := true }.record .emergencyStop).abortStartup .emergencyStop)
  exact ⟨left.engageRequested, left.rearmRequired, left.ebike, left.engaged⟩

theorem onCommand_reserved (command : UInt16) (parameter : List UInt8) :
    Reserved s (s.onCommand command parameter).2 := by
  unfold onCommand
  split_ifs
  · exact ⟨rfl, rfl, rfl, id⟩
  · exact onRestart_reserved
  · exact onEmergencyStop_reserved
  · exact .refl s
  · exact startHoming_reserved
  · exact ⟨rfl, rfl, rfl, id⟩
  · exact onFactoryReset_reserved
  · exact .refl s

theorem onNodeIdAllocated_reserved (nodeId : UInt8) : Reserved s (s.onNodeIdAllocated nodeId) := by
  have subscribed : Reserved s (s.subscribeReadiness nodeId) := by
    unfold subscribeReadiness
    split
    · dsimp only
      split <;> exact ⟨rfl, rfl, rfl, id⟩
    · exact .refl s
  unfold onNodeIdAllocated
  generalize s.subscribeReadiness nodeId = t at subscribed
  apply subscribed.trans
  dsimp only
  generalize t.board.change .nodeId (t.board.store.setNodeId nodeId) = named
  have stored : Reserved t (if named.1 = .success then { t with board := named.2 : System F E }.saveToFlash
      else (named.1, { t with board := named.2 })).2 := by
    split <;> exact ⟨rfl, rfl, rfl, id⟩
  generalize (if named.1 = .success then { t with board := named.2 : System F E }.saveToFlash
    else (named.1, { t with board := named.2 })) = answer at stored ⊢
  apply stored.trans
  split <;> exact ⟨rfl, rfl, rfl, id⟩

theorem onRequest_reserved (transfer : Transfer F) : Reserved s (s.onRequest transfer) := by
  unfold onRequest
  split
  · exact .refl s
  · split
    · split
      · exact .refl s
      · exact onRegisterAccess_reserved _
    · split
      · unfold onExecuteCommand
        split
        · exact .refl s
        · rename_i command parameter _
          have answered := onCommand_reserved (s := s) command parameter
          exact ⟨answered.engageRequested, answered.rearmRequired, answered.ebike, answered.engaged⟩
      · exact .refl s

theorem onAllocation_reserved (transfer : Transfer F) : Reserved s (s.onAllocation transfer) := by
  unfold onAllocation
  split
  · exact .refl s
  · rename_i nodeId _
    have allocated := onNodeIdAllocated_reserved (s := { s with node := s.node.setNodeId nodeId }) nodeId
    exact ⟨allocated.engageRequested, allocated.rearmRequired, allocated.ebike, allocated.engaged⟩

/-! ### The messages of a spin -/

section Messages

variable [EbikeControl E F]

/-- The transfer brings the drive a readiness other than ENGAGED. -/
def Releases (s : System F E) (t : Transfer F) : Prop :=
  t.kind = .message ∧ t.portId ≠ nodeIdAllocationPort ∧ t.portId ∈ s.node.listeners ∧
    t.portId = s.readinessPort ∧ ∃ value, t.payload.readiness = some value ∧ value ≠ readinessEngaged

/-- Nobody asks for an engage; the control has only been inhibited. -/
structure Quiet (ebike : E) (s : System F E) : Prop where
  unasked : s.engageRequested = false
  inhibits : ∃ n, s.ebike = some (EbikeControl.inhibit^[n] ebike)

/-- A readiness other than ENGAGED has come. -/
structure Released (ebike : E) (s : System F E) : Prop where
  unasked : s.engageRequested = false
  rearmed : s.rearmRequired = false
  disengaged : s.engaged = false
  inhibits : ∃ n, s.ebike = some (EbikeControl.inhibit^[n + 1] ebike)

variable {ebike : E}

theorem Quiet.reserved (quiet : Quiet ebike s) (kept : Reserved s t) : Quiet ebike t where
  unasked := kept.engageRequested.trans quiet.unasked
  inhibits := by
    rw [kept.ebike]
    exact quiet.inhibits

theorem Released.quiet (released : Released ebike s) : Quiet ebike s where
  unasked := released.unasked
  inhibits := by
    obtain ⟨n, inhibited⟩ := released.inhibits
    exact ⟨n + 1, inhibited⟩

theorem Released.reserved (released : Released ebike s) (kept : Reserved s t) : Released ebike t where
  unasked := kept.engageRequested.trans released.unasked
  rearmed := kept.rearmRequired.trans released.rearmed
  disengaged := by
    cases engaged : t.engaged with
    | false => rfl
    | true => exact absurd (kept.engaged engaged) (by simp [released.disengaged])
  inhibits := by
    rw [kept.ebike]
    exact released.inhibits

theorem onReadiness_released (quiet : Quiet ebike s) {payload : Payload F} {value : UInt8} (nowUs : UInt64)
    (read : payload.readiness = some value) (other : value ≠ readinessEngaged) :
    Released ebike (s.onReadiness payload nowUs) := by
  obtain ⟨n, inhibited⟩ := quiet.inhibits
  have again : (s.ebike.map EbikeControl.inhibit) = some (EbikeControl.inhibit^[n + 1] ebike) := by
    rw [inhibited, Function.iterate_succ_apply']
    rfl
  unfold onReadiness
  rw [read]
  simp only [other, if_false]
  split
  · have left := disengage_reserved .readiness (s :=
      { s with
        lastReadinessUs := nowUs, rearmRequired := false, ebike := s.ebike.map EbikeControl.inhibit
        board := s.board.record (.readiness value) })
    exact ⟨left.engageRequested.trans quiet.unasked, left.rearmRequired, disengage_engaged _,
      n, left.ebike.trans again⟩
  · rename_i disengaged
    have disengaged : s.engaged = false := Bool.eq_false_iff.mpr disengaged
    split
    · exact ⟨quiet.unasked, rfl, disengaged, n, again⟩
    · exact ⟨quiet.unasked, rfl, disengaged, n, again⟩

theorem onReadiness_asks (controlled : s.ebike.isSome = true) {payload : Payload F} (nowUs : UInt64)
    (asks : ∀ value, payload.readiness = some value → value = readinessEngaged) :
    Reserved s (s.onReadiness payload nowUs) := by
  unfold onReadiness
  split
  · exact .refl s
  · rename_i value read
    rw [if_pos (asks value read), if_pos (by exact controlled)]
    exact ⟨rfl, rfl, rfl, id⟩

theorem onMessage_reserved (transfer : Transfer F) (nowUs : UInt64)
    (other : transfer.portId ≠ s.readinessPort) : Reserved s (s.onMessage transfer nowUs) := by
  unfold onMessage
  rw [if_neg other]
  split_ifs
  · unfold onCurrentSetpoint
    split
    · exact .refl s
    · exact setCurrentSetpoint_reserved _ _ _ nowUs
  · exact onTorqueSetpoint_reserved _ nowUs
  · unfold onSpeedSetpoint
    split
    · exact .refl s
    · exact setSpeedSetpoint_reserved _ nowUs
  · unfold onPositionSetpoint
    split
    · exact .refl s
    · exact setPositionSetpoint_reserved _ nowUs
  · exact onServoSetpoint_reserved _ nowUs
  · exact onWheelCommand_reserved _ nowUs
  · unfold onPedalState
    split
    · exact .refl s
    · exact ⟨rfl, rfl, rfl, id⟩
  · unfold onBatteryStatus
    split
    · exact .refl s
    · exact ⟨rfl, rfl, rfl, id⟩
  · exact .refl s

theorem Quiet.controlled (quiet : Quiet ebike s) : s.ebike.isSome = true := by
  obtain ⟨n, inhibited⟩ := quiet.inhibits
  rw [inhibited]
  rfl

theorem onMessage_cases (quiet : Quiet ebike s) (transfer : Transfer F) (nowUs : UInt64) :
    Reserved s (s.onMessage transfer nowUs) ∨ Released ebike (s.onMessage transfer nowUs) := by
  by_cases port : transfer.portId = s.readinessPort
  · have handled : s.onMessage transfer nowUs = s.onReadiness transfer.payload nowUs := if_pos port
    rw [handled]
    by_cases asks : ∀ value, transfer.payload.readiness = some value → value = readinessEngaged
    · exact .inl (onReadiness_asks quiet.controlled nowUs asks)
    · obtain ⟨value, refused⟩ := not_forall.mp asks
      obtain ⟨read, other⟩ := Classical.not_imp.mp refused
      exact .inr (onReadiness_released quiet nowUs read other)
  · exact .inl (onMessage_reserved transfer nowUs port)

theorem Quiet.onMessage (quiet : Quiet ebike s) (transfer : Transfer F) (nowUs : UInt64) :
    Quiet ebike (s.onMessage transfer nowUs) := by
  rcases onMessage_cases quiet transfer nowUs with kept | released
  · exact quiet.reserved kept
  · exact released.quiet

theorem Released.onMessage (released : Released ebike s) (transfer : Transfer F) (nowUs : UInt64) :
    Released ebike (s.onMessage transfer nowUs) := by
  rcases onMessage_cases released.quiet transfer nowUs with kept | again
  · exact released.reserved kept
  · exact again

/-- What each message keeps, the subscriptions of its subject keep. -/
theorem onMessages_keeps (P : System F E → Prop) (transfer : Transfer F) (nowUs : UInt64)
    (kept : ∀ s : System F E, P s → P (s.onMessage transfer nowUs)) (listeners : List UInt16) (held : P s) :
    P (listeners.foldl (fun s _ => s.onMessage transfer nowUs) s) := by
  induction listeners generalizing s with
  | nil => exact held
  | cons _ listeners ih => exact ih (kept s held)

theorem dispatch_keeps_of (P : System F E → Prop) (transfer : Transfer F) (nowUs : UInt64)
    (reserved : ∀ s t : System F E, Reserved s t → P s → P t)
    (kept : ∀ s : System F E, P s → P (s.onMessage transfer nowUs)) (held : P s) :
    P (s.dispatch nowUs transfer) := by
  unfold dispatch
  split
  · exact reserved _ _ (onRequest_reserved transfer) held
  · exact held
  · split
    · exact reserved _ _ (onAllocation_reserved transfer) held
    · exact onMessages_keeps P transfer nowUs kept _ held

theorem Quiet.dispatch (quiet : Quiet ebike s) (nowUs : UInt64) (transfer : Transfer F) :
    Quiet ebike (s.dispatch nowUs transfer) :=
  dispatch_keeps_of (Quiet ebike) transfer nowUs (fun _ _ kept held => held.reserved kept)
    (fun _ held => held.onMessage transfer nowUs) quiet

theorem Released.dispatch (released : Released ebike s) (nowUs : UInt64) (transfer : Transfer F) :
    Released ebike (s.dispatch nowUs transfer) :=
  dispatch_keeps_of (Released ebike) transfer nowUs (fun _ _ kept held => held.reserved kept)
    (fun _ held => held.onMessage transfer nowUs) released

theorem Quiet.releases (quiet : Quiet ebike s) (nowUs : UInt64) {transfer : Transfer F}
    (releases : Releases s transfer) : Released ebike (s.dispatch nowUs transfer) := by
  obtain ⟨message, plugAndPlay, listened, port, value, read, other⟩ := releases
  have first : Released ebike (s.onMessage transfer nowUs) := by
    unfold System.onMessage
    rw [if_pos port]
    exact onReadiness_released quiet nowUs read other
  have heard : transfer.portId ∈ s.node.listeners.filter (· = transfer.portId) :=
    List.mem_filter.mpr ⟨listened, by simp⟩
  unfold System.dispatch
  simp only [message]
  rw [if_neg plugAndPlay]
  cases listeners : s.node.listeners.filter (· = transfer.portId) with
  | nil => exact absurd (listeners ▸ heard) (List.not_mem_nil)
  | cons _ rest =>
    exact onMessages_keeps (Released ebike) transfer nowUs
      (fun _ held => held.onMessage transfer nowUs) rest first

theorem Quiet.dispatchAll (quiet : Quiet ebike s) (nowUs : UInt64) (transfers : List (Transfer F)) :
    Quiet ebike (transfers.foldl (fun s transfer => s.dispatch nowUs transfer) s) := by
  induction transfers generalizing s with
  | nil => exact quiet
  | cons transfer transfers ih => exact ih (quiet.dispatch nowUs transfer)

theorem Released.dispatchAll (released : Released ebike s) (nowUs : UInt64)
    (transfers : List (Transfer F)) :
    Released ebike (transfers.foldl (fun s transfer => s.dispatch nowUs transfer) s) := by
  induction transfers generalizing s with
  | nil => exact released
  | cons transfer transfers ih => exact ih (released.dispatch nowUs transfer)

end Messages

/-! ### The spin -/

section Spin

variable [EbikeControl E F]

/-- Among the transfers of the spin is one that brings a readiness other than ENGAGED. -/
def HandlesRelease (s : System F E) (input : Input F) : Prop :=
  ∃ earlier transfer later, s.takenTransfers input = earlier ++ transfer :: later ∧
    Releases (earlier.foldl (fun s transfer => s.dispatch input.nowUs transfer) (s.beginSpin input)) transfer

/-- The spin when it comes to the local control. -/
def toLocalControl (s : System F E) (input : Input F) : System F E :=
  (((s.meet input).record (.spin input.nowUs)).spinNode input.nowUs).watchBus

/-- The spin calls `Engage()`. -/
def CallsEngage (s : System F E) (input : Input F) : Prop :=
  ((s.toLocalControl input).spinLocalControl input.nowUs input.motorTemperature).engageRequested = true

omit [EbikeControl E F] in
theorem watchBus_reserved : Reserved s s.watchBus := by
  unfold watchBus
  dsimp only
  split <;> split <;> exact ⟨rfl, rfl, rfl, id⟩

theorem toLocalControl_released {ebike : E} {input : Input F} (unasked : s.engageRequested = false)
    (controlled : s.ebike = some ebike) (handles : s.HandlesRelease input) :
    Released ebike (s.toLocalControl input) := by
  obtain ⟨earlier, transfer, later, taken, releases⟩ := handles
  have quiet : Quiet ebike (s.beginSpin input) := ⟨unasked, 0, controlled⟩
  have dispatched : ((s.meet input).record (.spin input.nowUs)).spinNode input.nowUs =
      (s.takenTransfers input).foldl (fun s transfer => s.dispatch input.nowUs transfer)
        (s.beginSpin input) := rfl
  unfold toLocalControl
  rw [dispatched, taken, List.foldl_append, List.foldl_cons]
  apply Released.reserved _ watchBus_reserved
  apply Released.dispatchAll
  exact (quiet.dispatchAll input.nowUs earlier).releases input.nowUs releases

omit [EbikeControl E F] in
theorem takeLocalRequest_asked (unasked : s.engageRequested = false) (rearmed : s.rearmRequired = false)
    (disengaged : s.engaged = false) (engage : Bool) (nowUs : UInt64) :
    (s.takeLocalRequest engage nowUs).engageRequested = engage := by
  unfold takeLocalRequest
  cases engage with
  | true => simp [record, onBoard, rearmed, disengaged]
  | false => simp [record, onBoard, unasked, disengaged]

theorem spinLocalControl_released {ebike : E} (released : Released ebike s) (nowUs : UInt64)
    (motorTemperature : Option F) :
    ∃ (n : Nat) (vehicle : EbikeVehicle F),
      (s.spinLocalControl nowUs motorTemperature).engageRequested =
        (EbikeControl.update nowUs vehicle (EbikeControl.inhibit^[n + 1] ebike)).1.engage := by
  obtain ⟨n, inhibited⟩ := released.inhibits
  unfold spinLocalControl
  simp only [inhibited]
  refine ⟨n, _, takeLocalRequest_asked ?_ ?_ ?_ _ nowUs⟩
  · exact released.unasked
  · exact released.rearmed
  · exact released.disengaged

/-! ### Between the spins -/

theorem applySettings_asked : s.applySettings.2.engageRequested = s.engageRequested := by
  unfold applySettings
  dsimp only
  split
  · rfl
  · split
    · rfl
    · split <;> rfl

theorem tuneLive_asked : s.tuneLive.engageRequested = s.engageRequested := by
  unfold tuneLive
  dsimp only
  split <;> rfl

omit [EbikeControl E F] in
theorem release_asked : s.release.engageRequested = s.engageRequested := by
  unfold release
  dsimp only
  split <;> rfl

theorem takeEngageRequest_asked : s.takeEngageRequest.engageRequested = false := by
  unfold takeEngageRequest
  split
  · unfold engage
    split
    · rfl
    · split
      · rfl
      · split
        · dsimp only
          split
          · exact applySettings_asked
          · exact release_asked.trans applySettings_asked
        · exact release_asked
  · rename_i unasked
    exact Bool.eq_false_iff.mpr unasked

omit [EbikeControl E F] in
theorem spinStartup_asked : s.spinStartup.engageRequested = s.engageRequested := by
  unfold spinStartup
  split
  · rfl
  · split <;> rfl

omit [EbikeControl E F] in
theorem supervise_asked (nowUs : UInt64) (holdsEngagement : Bool) :
    (s.supervise nowUs holdsEngagement).engageRequested = s.engageRequested := by
  unfold supervise
  split
  · rfl
  · split
    · exact (disengage_reserved _).engageRequested
    · dsimp only
      split
      · split
        · exact (disengage_reserved _).engageRequested
        · rfl
      · split
        · exact (disengage_reserved _).engageRequested
        · rfl

omit [EbikeControl E F] in
theorem spinEngagement_asked (nowUs : UInt64) :
    (s.spinEngagement nowUs).engageRequested = s.engageRequested := by
  have cart (t : System F E) (output : CartOutput F) :
      (t.followCart nowUs output).engageRequested = t.engageRequested := by
    unfold followCart
    split
    · exact (setCurrentSetpoint_reserved ..).engageRequested
    · rfl
  have ebike (t : System F E) : (t.followEbike nowUs).engageRequested = t.engageRequested := by
    unfold followEbike
    split
    · exact (setCurrentSetpoint_reserved ..).engageRequested
    · rfl
  have expired (t : System F E) : (t.expireSetpoint nowUs).engageRequested = t.engageRequested := by
    unfold expireSetpoint
    split <;> rfl
  unfold spinEngagement
  exact (expired _).trans ((ebike _).trans ((cart _ _).trans (supervise_asked nowUs _)))

theorem spinSettings_asked : s.spinSettings.engageRequested = s.engageRequested := by
  unfold spinSettings
  have tuned : (if s.engaged && s.writeCount ≠ s.checkedWrites then s.tuneLive else s).engageRequested =
      s.engageRequested := by
    split
    · exact tuneLive_asked
    · rfl
  generalize (if s.engaged && s.writeCount ≠ s.checkedWrites then s.tuneLive else s) = t at tuned
  rw [← tuned]
  dsimp only
  split
  · split
    · exact applySettings_asked
    · rfl
  · split
    · exact applySettings_asked
    · rfl

theorem spin_asked (input : Input F) : (s.spin input).engageRequested = false := by
  have restarted (t : System F E) (nowUs : UInt64) :
      (t.spinRestart nowUs).engageRequested = t.engageRequested := by
    unfold spinRestart
    split <;> rfl
  have handed (t : System F E) : t.handOver.engageRequested = t.engageRequested := rfl
  unfold spin
  dsimp only
  rw [restarted, spinSettings_asked, handed, spinEngagement_asked, spinStartup_asked,
    takeEngageRequest_asked]

theorem spins_asked (unasked : s.engageRequested = false) (inputs : List (Input F)) :
    (inputs.foldl spin s).engageRequested = false := by
  induction inputs generalizing s with
  | nil => exact unasked
  | cons input inputs ih => exact ih (spin_asked input)

theorem run_asked (boot : Boot F E) (inputs : List (Input F)) :
    (run boot inputs).engageRequested = false := spins_asked rfl inputs

end Spin

end Unimoc.Drive.System
