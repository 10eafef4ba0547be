import Unimoc.Drive.MessageTracking

/-! What the drive does to the startup aid and to the stage on its own: the aid is moved by the
commissioning commands, a restart, an emergency stop and its own samples, and the drive releases
the outputs only while no run is active. -/
namespace Unimoc.Drive

open CurrentControl Cyphal Firmware Hardware Settings Startup

namespace System

variable {F E : Type} [Arithmetic F] {s t u : System F E}

/-- The aid stays as it is, and an active run keeps outputs that are off. -/
structure Unmoved (s t : System F E) : Prop where
  startup : t.startup = s.startup
  stage : t.board.stage.enabled = true → s.board.stage.enabled = true ∨ s.startup.isActive = false

theorem Unmoved.refl : Unmoved s s := ⟨rfl, .inl⟩

theorem Unmoved.trans (first : Unmoved s t) (second : Unmoved t u) : Unmoved s u where
  startup := second.startup.trans first.startup
  stage on := by
    rcases second.stage on with on | idle
    · exact first.stage on
    · exact .inr (first.startup ▸ idle)

theorem Unmoved.off (startup : t.startup = s.startup)
    (stage : t.board.stage.enabled = true → s.board.stage.enabled = true) : Unmoved s t :=
  ⟨startup, fun on => .inl (stage on)⟩

section Board

variable {b : Board F}

theorem preempt_on (on : b.preempt.stage.enabled = true) : b.stage.enabled = true :=
  (Board.preempt_interrupted b).enabled on

theorem clearTripsAndFault_on (owner : Owner)
    (on : ((b.clearTrips owner).clearFault owner).stage.enabled = true) : b.stage.enabled = true :=
  preempt_on (preempt_on (b := b.clearTrips owner) on)

theorem startRuntime_on {settings : NvmSettings} {limit : F}
    (on : (b.startRuntime settings limit).2.stage.enabled = true) : b.stage.enabled = true := by
  apply preempt_on
  unfold Board.startRuntime at on
  dsimp only at on
  split at on <;> exact on

theorem takeSamplesReady_on (on : b.takeSamplesReady.2.stage.enabled = true) : b.stage.enabled = true := by
  unfold Board.takeSamplesReady at on
  dsimp only at on
  split at on
  · exact preempt_on (preempt_on (b := b.preempt) on)
  · exact preempt_on on

theorem saveToFlash_on (on : b.saveToFlash.2.stage.enabled = true) : b.stage.enabled = true := by
  apply preempt_on
  unfold Board.saveToFlash at on
  dsimp only at on
  generalize b.preempt.store.saveToFlash _ _ = saved at on
  exact on

end Board

theorem setCurrentSetpoint_unmoved (source : SetpointSource) (iD iQ : F) (nowUs : UInt64) :
    Unmoved s (s.setCurrentSetpoint source iD iQ nowUs) := by
  unfold setCurrentSetpoint
  split
  · exact .off rfl id
  · exact .off rfl id

theorem setSpeedSetpoint_unmoved (speed : F) (nowUs : UInt64) :
    Unmoved s (s.setSpeedSetpoint speed nowUs) := by
  unfold setSpeedSetpoint
  split
  · exact .off rfl id
  · exact .off rfl id

theorem setPositionSetpoint_unmoved (position : F) (nowUs : UInt64) :
    Unmoved s (s.setPositionSetpoint position nowUs) := by
  unfold setPositionSetpoint
  split
  · exact .off rfl id
  · exact .off rfl id

/-! ### Settings -/

section Settings

variable [EbikeControl E F]

theorem applySettings_unmoved : Unmoved s s.applySettings.2 := by
  have looked : s.board.getState.2.stage.enabled = true → s.board.stage.enabled = true := preempt_on
  have restarted : ((s.board.getState.2.record (.applyChecked s.board.getState.2.initialization.dropsFault)).startRuntime
      s.board.getState.2.store.settings s.board.getState.2.store.capabilities.maxPhaseCurrent).2.stage.enabled = true →
      s.board.stage.enabled = true :=
    fun on => looked (startRuntime_on (b := s.board.getState.2.record (.applyChecked _)) on)
  refine .off applySettings_kept.1 ?_
  unfold applySettings
  simp only []
  split
  · exact looked
  · split
    · exact restarted
    · split
      · exact restarted
      · exact restarted

theorem tuneLive_unmoved : Unmoved s s.tuneLive := by
  have tuned (current : CurrentGains F) (loop : LoopGains F) :
      (((s.board.record .tuneStarted).setCurrentGains current).setGains loop).stage.enabled = true →
        s.board.stage.enabled = true := fun on =>
    preempt_on (b := s.board.record .tuneStarted) (preempt_on (b := (s.board.record .tuneStarted).setCurrentGains current) on)
  unfold tuneLive
  simp only []
  split
  · exact .off rfl id
  · exact .off rfl (tuned (currentGains s.board.store.settings) (OuterLoop.gainsFrom s.board.store.settings))

end Settings

omit [Arithmetic F] in
theorem change_on {cause : SettingsChange} {answer : SettingsStatus × SettingsStore F} {b : Board F}
    (on : (b.change cause answer).2.stage.enabled = true) : b.stage.enabled = true := by
  rwa [Board.change_stage] at on

theorem writeRegister_unmoved (r : Register) (value : Except RegisterWriteResult r.kind.Carrier) :
    Unmoved s (s.writeRegister r value).2 := by
  unfold writeRegister
  split
  · exact .off rfl id
  · dsimp only
    split
    · exact .off rfl change_on
    · exact .off rfl change_on

theorem onRegisterAccess_unmoved (access : RegisterAccess) : Unmoved s (s.onRegisterAccess access) := by
  unfold onRegisterAccess
  split
  · exact writeRegister_unmoved _ _
  · exact .off rfl id

/-! ### The engagement -/

theorem disengage_unmoved (reason : DisengageReason) : Unmoved s (s.disengage reason) := by
  have kept : (s.clearSetpoint.board.setSetpoint .default).stage.enabled = true → s.board.stage.enabled = true :=
    preempt_on
  have off := Board.preempt_off (b := (s.clearSetpoint.board.setSetpoint .default).disable) rfl
  refine .off (disengage_startup reason) ?_
  unfold disengage
  cases engaged : s.engaged with
  | true =>
    simp only [onBoard, record, clearSetpoint, engaged, Bool.true_or, ↓reduceIte]
    exact fun on => absurd on (Bool.eq_false_iff.mp off)
  | false =>
    cases active : s.startup.isActive with
    | true =>
      simp only [onBoard, record, clearSetpoint, engaged, active, Bool.not_true, Bool.or_self,
        Bool.false_eq_true, ↓reduceIte]
      exact kept
    | false =>
      simp only [onBoard, record, clearSetpoint, engaged, active, Bool.not_false, Bool.or_true,
        Bool.false_eq_true, ↓reduceIte]
      exact fun on => Bool.noConfusion on

section Engage

theorem release_unmoved (idle : s.startup.isActive = false) : Unmoved s s.release := by
  unfold release
  dsimp only
  split
  · exact ⟨rfl, fun _ => .inr idle⟩
  · exact ⟨rfl, fun _ => .inr idle⟩

theorem engage_unmoved [EbikeControl E F] : Unmoved s s.engage := by
  unfold engage
  split
  · exact .off rfl id
  · split
    · exact .off rfl id
    · rename_i idle
      have idle : s.startup.isActive = false := by simpa using idle
      split
      · have applied := applySettings_unmoved (s := s)
        dsimp only
        split
        · exact ⟨applied.startup, applied.stage⟩
        · exact applied.trans (release_unmoved (applied.startup ▸ idle))
      · exact release_unmoved idle

theorem takeEngageRequest_unmoved [EbikeControl E F] : Unmoved s s.takeEngageRequest := by
  unfold takeEngageRequest
  split
  · have engaged := engage_unmoved (s := { s with engageRequested := false }.record .engageStep)
    exact ⟨engaged.startup, engaged.stage⟩
  · exact .off rfl id

end Engage

/-! ### Messages -/

theorem onReadiness_unmoved [EbikeControl E F] (payload : Payload F) (nowUs : UInt64) :
    Unmoved s (s.onReadiness payload nowUs) := by
  have acknowledged : ((s.board.clearTrips .drive).clearFault .drive).stage.enabled = true →
      s.board.stage.enabled = true := clearTripsAndFault_on .drive
  unfold onReadiness
  split
  · exact .off rfl id
  · rename_i value _
    simp only []
    split
    · split
      · exact .off rfl id
      · split
        · exact .off rfl id
        · exact .off rfl id
    · split
      · have left := disengage_unmoved .readiness (s :=
          { s with
            lastReadinessUs := nowUs, rearmRequired := false, ebike := s.ebike.map EbikeControl.inhibit
            board := s.board.record (.readiness value) })
        exact ⟨left.startup, left.stage⟩
      · split
        · exact .off rfl fun on => preempt_on (b := s.board.record (.readiness value))
            (preempt_on (b := (s.board.record (.readiness value)).clearTrips .drive) on)
        · exact .off rfl id

theorem onServoSetpoint_unmoved (payload : Payload F) (nowUs : UInt64) :
    Unmoved s (s.onServoSetpoint payload nowUs) := by
  unfold onServoSetpoint
  split
  · exact .off rfl id
  · split
    · exact .off rfl id
    · exact setPositionSetpoint_unmoved _ _
    · exact setSpeedSetpoint_unmoved _ _
    · split
      · exact setCurrentSetpoint_unmoved _ _ _ _
      · exact .off rfl id

theorem onTorqueSetpoint_unmoved (payload : Payload F) (nowUs : UInt64) :
    Unmoved s (s.onTorqueSetpoint payload nowUs) := by
  unfold onTorqueSetpoint
  split
  · exact .off rfl id
  · split
    · exact .off rfl id
    · exact setCurrentSetpoint_unmoved _ _ _ _

theorem onWheelCommand_unmoved (payload : Payload F) (nowUs : UInt64) :
    Unmoved s (s.onWheelCommand payload nowUs) := by
  unfold onWheelCommand
  split
  · exact .off rfl id
  · split
    · exact .off rfl id
    · exact .off rfl id

theorem onMessage_unmoved [EbikeControl E F] (transfer : Transfer F) (nowUs : UInt64) :
    Unmoved s (s.onMessage transfer nowUs) := by
  unfold onMessage
  split_ifs
  · exact onReadiness_unmoved _ _
  · unfold onCurrentSetpoint
    split
    · exact .off rfl id
    · exact setCurrentSetpoint_unmoved _ _ _ _
  · exact onTorqueSetpoint_unmoved _ _
  · unfold onSpeedSetpoint
    split
    · exact .off rfl id
    · exact setSpeedSetpoint_unmoved _ _
  · unfold onPositionSetpoint
    split
    · exact .off rfl id
    · exact setPositionSetpoint_unmoved _ _
  · exact onServoSetpoint_unmoved _ _
  · exact onWheelCommand_unmoved _ _
  · unfold onPedalState
    split
    · exact .off rfl id
    · exact .off rfl id
  · unfold onBatteryStatus
    split
    · exact .off rfl id
    · exact .off rfl id
  · exact .off rfl id

/-! ### Commands -/

theorem startHoming_unmoved : Unmoved s s.startHoming.2 := by
  unfold startHoming
  split
  · exact .off rfl id
  · split
    · exact .off rfl id
    · split
      · exact .off rfl id
      · simp only []
        split
        · exact .off rfl preempt_on
        · exact .off rfl fun on => preempt_on (preempt_on (b := s.board.status.2) on)

theorem saveToFlash_unmoved : Unmoved s s.saveToFlash.2 := by
  unfold saveToFlash
  have saved : s.board.saveToFlash.2.stage.enabled = true → s.board.stage.enabled = true := saveToFlash_on
  generalize s.board.saveToFlash = answer at saved ⊢
  exact .off rfl saved

theorem onFactoryReset_unmoved : Unmoved s s.onFactoryReset.2 := by
  have reset : (s.board.change .factoryReset s.board.store.resetToFactoryDefaults).2.stage.enabled = true →
      s.board.stage.enabled = true := change_on
  unfold onFactoryReset
  split
  · exact .off rfl id
  · generalize s.board.change .factoryReset s.board.store.resetToFactoryDefaults = answer at reset ⊢
    obtain ⟨status, board⟩ := answer
    have saved := saveToFlash_unmoved (s := { s with board := board, settingsPending := true })
    dsimp only
    by_cases refused : status ≠ .success
    · rw [if_pos refused]
      exact .off rfl reset
    · rw [if_neg refused]
      exact ⟨saved.startup, fun on => (saved.stage on).imp_left reset⟩

theorem subscribeReadiness_unmoved (nodeId : UInt8) : Unmoved s (s.subscribeReadiness nodeId) := by
  unfold subscribeReadiness
  split
  · simp only []
    split
    · exact .off rfl id
    · exact .off rfl id
  · exact .off rfl id

theorem onNodeIdAllocated_unmoved (nodeId : UInt8) : Unmoved s (s.onNodeIdAllocated nodeId) := by
  have subscribed := subscribeReadiness_unmoved (s := s) nodeId
  unfold onNodeIdAllocated
  generalize s.subscribeReadiness nodeId = t at subscribed
  have named : (t.board.change .nodeId (t.board.store.setNodeId nodeId)).2.stage.enabled = true →
      t.board.stage.enabled = true := change_on
  refine subscribed.trans ?_
  dsimp only
  generalize t.board.change .nodeId (t.board.store.setNodeId nodeId) = answer at named ⊢
  obtain ⟨status, board⟩ := answer
  have saved := saveToFlash_unmoved (s := { t with board := board })
  dsimp only
  by_cases taken : status = .success
  · rw [if_pos taken]
    generalize { t with board := board : System F E }.saveToFlash = kept at saved ⊢
    obtain ⟨result, u⟩ := kept
    dsimp only
    by_cases done : result = .success
    · rw [if_pos done]
      exact ⟨saved.startup, fun on => (saved.stage on).imp_left named⟩
    · rw [if_neg done]
      exact ⟨saved.startup, fun on => (saved.stage on).imp_left named⟩
  · rw [if_neg taken]
    dsimp only
    rw [if_neg taken]
    exact .off rfl named

theorem onAllocation_unmoved (transfer : Transfer F) : Unmoved s (s.onAllocation transfer) := by
  unfold onAllocation
  split
  · exact .off rfl id
  · rename_i nodeId _
    have allocated := onNodeIdAllocated_unmoved (s := { s with node := s.node.setNodeId nodeId }) nodeId
    exact ⟨allocated.startup, allocated.stage⟩

/-! ### The spin -/

theorem watchBus_unmoved : Unmoved s s.watchBus := by
  unfold watchBus
  dsimp only
  split
  · split
    · exact .off rfl id
    · exact .off rfl id
  · split
    · exact .off rfl id
    · exact .off rfl id

theorem takeLocalRequest_unmoved (engage : Bool) (nowUs : UInt64) :
    Unmoved s (s.takeLocalRequest engage nowUs) := by
  unfold takeLocalRequest
  split
  · dsimp only
    split
    · exact .off rfl id
    · exact .off rfl id
  · dsimp only
    split
    · have left := disengage_unmoved .ebike
        (s := { s with rearmRequired := false }.record (.localRequest false))
      exact ⟨left.startup, left.stage⟩
    · exact .off rfl id

theorem spinLocalControl_unmoved [EbikeControl E F] (nowUs : UInt64) (motorTemperature : Option F) :
    Unmoved s (s.spinLocalControl nowUs motorTemperature) := by
  have looked : s.board.status.2.readIsr.2.stage.enabled = true → s.board.stage.enabled = true :=
    fun on => preempt_on (preempt_on (b := s.board.status.2) on)
  unfold spinLocalControl
  split
  · exact .off rfl id
  · apply Unmoved.trans _ (takeLocalRequest_unmoved _ nowUs)
    exact .off rfl looked

theorem disengageTripped_unmoved : Unmoved s s.disengageTripped := by
  unfold disengageTripped
  apply Unmoved.trans _ (disengage_unmoved _)
  exact .off rfl preempt_on

theorem supervise_unmoved (nowUs : UInt64) (holdsEngagement : Bool) :
    Unmoved s (s.supervise nowUs holdsEngagement) := by
  have looked : s.board.getState.2.stage.enabled = true → s.board.stage.enabled = true := preempt_on
  have checked : (s.board.getState.2.record .stageChecked).tripped.2.stage.enabled = true →
      s.board.stage.enabled = true := fun on => looked (preempt_on (b := s.board.getState.2.record .stageChecked) on)
  unfold supervise
  split
  · exact .off rfl id
  · split
    · exact disengage_unmoved _
    · dsimp only
      split
      · split
        · apply Unmoved.trans _ disengageTripped_unmoved
          exact .off rfl checked
        · exact .off rfl checked
      · rw [if_pos rfl]
        apply Unmoved.trans _ disengageTripped_unmoved
        exact .off rfl looked

theorem followCart_unmoved (nowUs : UInt64) (cart : CartOutput F) : Unmoved s (s.followCart nowUs cart) := by
  unfold followCart
  split
  · exact setCurrentSetpoint_unmoved _ _ _ _
  · exact .off rfl id

theorem followEbike_unmoved (nowUs : UInt64) : Unmoved s (s.followEbike nowUs) := by
  unfold followEbike
  split
  · exact setCurrentSetpoint_unmoved _ _ _ _
  · exact .off rfl id

theorem expireSetpoint_unmoved (nowUs : UInt64) : Unmoved s (s.expireSetpoint nowUs) := by
  unfold expireSetpoint
  split
  · exact .off rfl id
  · exact .off rfl id

theorem spinEngagement_unmoved (nowUs : UInt64) : Unmoved s (s.spinEngagement nowUs) := by
  have limited (t : System F E) : Unmoved t (t.onBoard (Board.setBatteryLimits (t.cart.batteryLimits nowUs))) :=
    .off rfl preempt_on
  unfold spinEngagement
  apply Unmoved.trans _ (limited _)
  apply Unmoved.trans _ (expireSetpoint_unmoved nowUs)
  apply Unmoved.trans _ (followEbike_unmoved nowUs)
  apply Unmoved.trans _ (followCart_unmoved nowUs _)
  apply Unmoved.trans _ (supervise_unmoved nowUs _)
  exact .off rfl preempt_on

theorem handOver_unmoved : Unmoved s s.handOver := .off rfl preempt_on

theorem spinSettings_unmoved [EbikeControl E F] : Unmoved s s.spinSettings := by
  have tuned : Unmoved s (if s.engaged && s.writeCount ≠ s.checkedWrites then s.tuneLive else s) := by
    split
    · exact tuneLive_unmoved
    · exact .off rfl id
  unfold spinSettings
  generalize (if s.engaged && s.writeCount ≠ s.checkedWrites then s.tuneLive else s) = t at tuned
  apply tuned.trans
  dsimp only
  split
  · split
    · have applied := applySettings_unmoved (s := { t with settingsPending := true }.record .settingsPending)
      exact ⟨applied.startup, applied.stage⟩
    · exact .off rfl id
  · split
    · exact applySettings_unmoved
    · exact .off rfl id

theorem spinRestart_unmoved (nowUs : UInt64) : Unmoved s (s.spinRestart nowUs) := by
  unfold spinRestart
  split
  · exact .off rfl id
  · exact .off rfl id

end System

end Unimoc.Drive
