import Unimoc.Drive.MessageTracking

/-! The commands, register writes and the node on a tracked board. -/
namespace Unimoc.Drive.System

open CurrentControl Cyphal Firmware Hardware Settings Startup

variable {F E : Type} [Arithmetic F] [EbikeControl E F] {start : Arming F} {now : UInt64} {taken : Nat} {m : Marks F}
  {s : System F E}

/-! ### Register writes -/

section Commands

omit [EbikeControl E F]

theorem behind_succ {written applied : UInt32} {taken : Nat} (behind : (written - applied).toNat ≤ taken) :
    (written + 1 - applied).toNat ≤ taken + 1 := by
  have next : written + 1 - applied = written - applied + 1 := by grind
  rw [next, UInt32.toNat_add]
  exact (Nat.mod_le _ _).trans (Nat.add_le_add_right behind 1)

theorem writeRegister_follows (r : Register) (value : Except RegisterWriteResult r.kind.Carrier)
    (few : taken < maxTransfersPerSpin) (f : Follows start now taken m s)
    (named : s.node.nodeId ≠ nodeIdUnset) :
    Follows start now (taken + 1) m (s.writeRegister r value).2 := by
  have more := f.mono (Nat.le_succ taken)
  unfold System.writeRegister
  split
  · exact more
  · rename_i field
    have changed := f.tracks.change (.write r) (s.board.store.update (·.set r field)) ?_
    · simp only [Board.change_status]
      split
      · rename_i refused
        rw [if_neg refused] at changed
        exact ⟨changed, f.calm, more.wired⟩
      · rename_i accepted
        rw [if_pos (not_not.mp accepted)] at changed
        refine ⟨changed.seen ?_, f.calm, { more.wired with anonymous := ?_, counted := ?_ }⟩
        · simp [Private.changed, isWrite, System.view]
        · exact fun anonymous => absurd anonymous named
        · exact f.wired.counted.imp_right fun counted => behind_succ counted
    · intro accepted
      refine ⟨?_, (fun same => by cases same), (fun same => by cases same), f.calm.tuning,
        fun _ => f.wired.apart few⟩
      intro q untouched
      have committed := SettingsStore.commit_settings accepted
      exact (congrFun committed q).trans (NvmSettings.set_other _ _ untouched)

theorem onRegisterAccess_follows (access : RegisterAccess) (few : taken < maxTransfersPerSpin)
    (f : Follows start now taken m s) (named : s.node.nodeId ≠ nodeIdUnset) :
    Follows start now (taken + 1) m (s.onRegisterAccess access) := by
  unfold System.onRegisterAccess
  split
  · exact writeRegister_follows _ _ few f named
  · exact f.mono (Nat.le_succ taken)

/-! ### Commands -/

theorem onBoard_follows {change : Board F → Board F} (f : Follows start now taken m s)
    (t : Tracks start (s.view m) (change s.board)) : Follows start now taken m (s.onBoard change) :=
  ⟨t, f.calm, f.wired⟩

theorem log_follows (severity : Severity) (text : String) (f : Follows start now taken m s) :
    Follows start now taken m (s.log severity text) :=
  ⟨f.tracks, f.calm, by rw [log_wiring]; exact f.wired⟩

theorem startHoming_follows (f : Follows start now taken m s) : Follows start now taken m s.startHoming.2 := by
  unfold System.startHoming
  split
  · exact f
  · split
    · exact f
    · split
      · exact f
      · simp only []
        have looked : Follows start now taken m { s with board := s.board.status.2 } :=
          ⟨f.tracks.status, f.calm, f.wired⟩
        split
        · exact looked
        · exact log_follows _ _ (onBoard_follows looked looked.tracks.startHoming)

theorem saveToFlash_follows (f : Follows start now taken m s) : Follows start now taken m s.saveToFlash.2 :=
  ⟨f.tracks.saveToFlash, f.calm, f.wired⟩

theorem onStorePersistentStates_follows (f : Follows start now taken m s) :
    Follows start now taken m s.onStorePersistentStates.2 := by
  have saved := saveToFlash_follows f
  unfold System.onStorePersistentStates
  simp only []
  exact saved

theorem abortStartup_tracks (reason : StartupFault) (t : Tracks start (s.view m) s.board)
    (free : m.engaging = false) (unclosed : m.closing = false)
    (cause : reason = .aborted ∨ s.startupActive = true ∨ s.emergencyStop = true) :
    Tracks start ((s.abortStartup reason).view m) (s.abortStartup reason).board :=
  t.requestAbort rfl free unclosed cause

theorem abortStartup_inactive (reason : StartupFault) :
    (s.abortStartup reason).startup.isActive = false := by
  unfold System.abortStartup HwStartup.requestAbort
  simp only []
  split
  · rename_i idle
    simpa using idle
  · rfl

theorem onRestart_follows (f : Follows start now taken m s) : ∃ m, Follows start now taken m s.onRestart.2 := by
  have aborted := abortStartup_tracks .aborted f.tracks f.calm.engaging f.calm.closing (.inl rfl)
  have inactive := abortStartup_inactive (s := s) .aborted
  have left := disengage_follows .restart _ aborted (f.calm.left _) f.wired
    (fun _ => f.calm.leaving) nofun
  have idle := disengage_engaged (s := s.abortStartup .aborted) .restart
  have ended : ((s.abortStartup .aborted).disengage .restart).startup.isActive = false :=
    (congrArg HwStartup.isActive (disengage_startup ..)).trans inactive
  exact ⟨_, left.tracks.note (e := .restartAccepted) ⟨ended, idle, left.calm⟩ rfl, left.calm, left.wired⟩

theorem onEmergencyStop_follows (f : Follows start now taken m s) :
    ∃ m, Follows start now taken m s.onEmergencyStop.2 := by
  have latched := f.tracks.note (e := .emergencyStop)
    (q := { { s with emergencyStop := true }.view m with stopping := true }) trivial rfl
  have aborted := abortStartup_tracks (m := { m with stopping := true })
    (s := { s with emergencyStop := true }.record .emergencyStop) .emergencyStop latched
    f.calm.engaging f.calm.closing (.inr (.inr rfl))
  have inactive := abortStartup_inactive (s := { s with emergencyStop := true }.record .emergencyStop)
    .emergencyStop
  have left := disengage_tracks .emergencyStop aborted (fun _ => f.calm.leaving) nofun
  have idle := disengage_engaged .emergencyStop
    (s := ({ s with emergencyStop := true }.record .emergencyStop).abortStartup .emergencyStop)
  have wiring := disengage_wiring .emergencyStop
    (s := ({ s with emergencyStop := true }.record .emergencyStop).abortStartup .emergencyStop)
  have off := disengage_off .emergencyStop inactive
  have ended := (congrArg HwStartup.isActive (disengage_startup .emergencyStop)).trans inactive
  refine ⟨_, left.note (e := .stopped) ⟨ended, idle, off⟩ rfl, ?_, ?_⟩
  · exact ⟨rfl, f.calm.engaging, f.calm.starting, f.calm.closing, f.calm.applying, f.calm.dropping, f.calm.tuning,
      rfl⟩
  · exact wiring ▸ f.wired.cleared false .off

theorem onFactoryReset_follows (f : Follows start now taken m s) : Follows start now taken m s.onFactoryReset.2 := by
  unfold System.onFactoryReset
  split
  · exact f
  · rename_i idle
    obtain ⟨disengaged, _⟩ : s.engaged = false ∧ s.startup.isActive = false := by simpa using idle
    have changed := f.tracks.change .factoryReset s.board.store.resetToFactoryDefaults
      fun _ => ⟨fun r untouched => absurd trivial untouched, nofun, fun _ => disengaged, f.calm.tuning,
        fun written => lowered written⟩
    simp only [Board.change_status]
    split
    · rename_i refused
      rw [if_neg refused] at changed
      exact ⟨changed, f.calm, f.wired⟩
    · rename_i reset
      rw [if_pos (not_not.mp reset)] at changed
      have pending : Follows start now taken m
          { s with
            settingsPending := true
            board := (s.board.change .factoryReset s.board.store.resetToFactoryDefaults).2 } :=
        ⟨changed.seen (by simp [Private.changed, isWrite, System.view]), f.calm, f.wired.waits _⟩
      have saved := saveToFlash_follows pending
      dsimp only
      exact saved

theorem onCommissioning_follows (command : UInt16) (parameter : List UInt8)
    (f : Follows start now taken m s) : Follows start now taken m (s.onCommissioning command parameter).2 := by
  have carried := f.tracks.commission s.startup command parameter rfl f.calm
  unfold System.onCommissioning
  simp only []
  exact ⟨carried, f.calm, f.wired⟩

theorem onCommand_follows (command : UInt16) (parameter : List UInt8) (f : Follows start now taken m s) :
    ∃ m, Follows start now taken m (s.onCommand command parameter).2 := by
  unfold System.onCommand
  split
  · exact ⟨m, onCommissioning_follows command parameter f⟩
  split
  · exact onRestart_follows f
  split
  · exact onEmergencyStop_follows f
  split
  · exact ⟨m, f⟩
  split
  · exact ⟨m, startHoming_follows f⟩
  split
  · exact ⟨m, onStorePersistentStates_follows f⟩
  split
  · exact ⟨m, onFactoryReset_follows f⟩
  · exact ⟨m, f⟩

theorem onExecuteCommand_follows (payload : Payload F) (f : Follows start now taken m s) :
    ∃ m, Follows start now taken m (s.onExecuteCommand payload) := by
  unfold System.onExecuteCommand
  split
  · exact ⟨m, f⟩
  · rename_i command parameter _
    obtain ⟨m', answered⟩ := onCommand_follows command parameter f
    simp only []
    exact ⟨m', answered.tracks, answered.calm, answered.wired⟩

/-! ### The node -/

theorem subscribeReadiness_follows (nodeId : UInt8) (f : Follows start now taken m s)
    (settled : s.writeCount = s.appliedWrites) : Follows start now taken m (s.subscribeReadiness nodeId) := by
  unfold System.subscribeReadiness
  simp only []
  split
  · split
    · exact log_follows _ _ ⟨f.tracks, f.calm, f.wired.renamed settled _⟩
    · exact ⟨f.tracks, f.calm, f.wired.renamed settled _⟩
  · exact f

theorem subscribeReadiness_counts (nodeId : UInt8) :
    (s.subscribeReadiness nodeId).writeCount = s.writeCount ∧
      (s.subscribeReadiness nodeId).appliedWrites = s.appliedWrites := by
  unfold System.subscribeReadiness
  simp only []
  split
  · split <;> exact ⟨rfl, rfl⟩
  · exact ⟨rfl, rfl⟩

theorem settle_follows (f : Follows start now taken m s) (settled : s.writeCount = s.appliedWrites) :
    Follows start now taken m { s with appliedWrites := s.writeCount } := by
  have same : { s with appliedWrites := s.writeCount } = s :=
    congrArg (fun applied => { s with appliedWrites := applied }) settled
  rw [same]
  exact f

/-- A node without a node-ID has taken no writes, so all of them are applied. -/
theorem onNodeIdAllocated_follows (nodeId : UInt8) (f : Follows start now taken m s)
    (settled : s.writeCount = s.appliedWrites) : Follows start now taken m (s.onNodeIdAllocated nodeId) := by
  have subscribed := subscribeReadiness_follows nodeId f settled
  obtain ⟨written, applied⟩ := subscribeReadiness_counts (s := s) nodeId
  have settled := written.trans (settled.trans applied.symm)
  unfold System.onNodeIdAllocated
  generalize s.subscribeReadiness nodeId = s at subscribed settled
  have changed := subscribed.tracks.change .nodeId (s.board.store.setNodeId nodeId) ?_
  · rw [Private.changed_nodeId, ite_self] at changed
    have named : Follows start now taken m
        { s with board := (s.board.change .nodeId (s.board.store.setNodeId nodeId)).2 } :=
      ⟨changed, subscribed.calm, subscribed.wired⟩
    have saved := saveToFlash_follows named
    simp only [Board.change_status]
    split
    · split
      · exact settle_follows (log_follows _ _ saved) settled
      · exact settle_follows saved settled
    · exact settle_follows named settled
  · intro taken
    refine ⟨?_, nofun, nofun, subscribed.calm.tuning, fun written => lowered written⟩
    intro r untouched
    have committed := SettingsStore.commit_settings taken
    exact (congrFun committed r).trans (NvmSettings.set_other _ _ untouched)

theorem onAllocation_follows (transfer : Transfer F) (f : Follows start now taken m s) :
    Follows start now taken m (s.onAllocation transfer) := by
  unfold System.onAllocation
  split
  · exact f
  · rename_i nodeId allocated
    have anonymous : s.node.nodeId = nodeIdUnset := by
      unfold CyphalNode.allocated at allocated
      split at allocated
      · cases allocated
      · rename_i free
        simp only [Bool.or_eq_true, decide_eq_true_eq, not_or, ne_eq, not_not] at free
        exact free.1
    have settled := f.wired.anonymous anonymous
    exact onNodeIdAllocated_follows nodeId ⟨f.tracks, f.calm, f.wired.renamed settled _⟩ settled

theorem onRequest_follows (transfer : Transfer F) (few : taken < maxTransfersPerSpin)
    (f : Follows start now taken m s) : ∃ m, Follows start now (taken + 1) m (s.onRequest transfer) := by
  have more := f.mono (Nat.le_succ taken)
  unfold System.onRequest
  split
  · exact ⟨m, more⟩
  · rename_i named
    split
    · split
      · exact ⟨m, more⟩
      · exact ⟨m, onRegisterAccess_follows _ few f named⟩
    · split
      · exact onExecuteCommand_follows _ more
      · exact ⟨m, more⟩

end Commands

theorem onMessages_follows (listeners : List UInt16) (transfer : Transfer F) (f : Follows start now taken m s) :
    ∃ m, Follows start now taken m (listeners.foldl (fun s _ => s.onMessage transfer now) s) := by
  induction listeners generalizing s m with
  | nil => exact ⟨m, f⟩
  | cons _ rest ih =>
    obtain ⟨m', heard⟩ := onMessage_follows transfer f
    exact ih heard

/-- A transfer writes one register at most. -/
theorem dispatch_follows (transfer : Transfer F) (few : taken < maxTransfersPerSpin)
    (f : Follows start now taken m s) : ∃ m, Follows start now (taken + 1) m (s.dispatch now transfer) := by
  have more := f.mono (Nat.le_succ taken)
  unfold System.dispatch
  split
  · exact onRequest_follows transfer few f
  · exact ⟨m, more⟩
  · split
    · exact ⟨m, onAllocation_follows transfer more⟩
    · exact onMessages_follows _ transfer more

theorem dispatchAll_follows (received : List (Transfer F)) (few : taken + received.length ≤ maxTransfersPerSpin)
    (f : Follows start now taken m s) :
    ∃ m, Follows start now (taken + received.length) m
      (received.foldl (fun s transfer => s.dispatch now transfer) s) := by
  induction received generalizing s m taken with
  | nil => exact ⟨m, f⟩
  | cons transfer rest ih =>
    rw [List.length_cons] at few ⊢
    obtain ⟨m', dispatched⟩ := dispatch_follows transfer (by omega) f
    rw [Nat.add_comm rest.length, ← Nat.add_assoc]
    exact ih (by omega) dispatched

theorem spinNode_follows (f : Follows start now 0 m s) :
    ∃ m, Follows start now maxTransfersPerSpin m (s.spinNode now) := by
  have few : 0 + (s.node.queue.take maxTransfersPerSpin).length ≤ maxTransfersPerSpin := by
    rw [Nat.zero_add]
    exact List.length_take_le _ _
  have left : Follows start now 0 m
      { s with node := { s.node with queue := s.node.queue.drop maxTransfersPerSpin } } :=
    ⟨f.tracks, f.calm, f.wired⟩
  obtain ⟨m', dispatched⟩ := dispatchAll_follows _ few left
  exact ⟨m', dispatched.mono few⟩

end Unimoc.Drive.System
