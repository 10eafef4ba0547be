import Unimoc.Drive.RunTracking

/-! The thread of the drive on a tracked board: the engagement, the settings of the running
controller and the messages of the bus. -/
namespace Unimoc.Drive

open CurrentControl Cyphal Firmware Hardware Settings Startup

variable {F E : Type} [Arithmetic F] [EbikeControl E F]

omit [EbikeControl E F] in
/-- What the machine sees of the drive. -/
def System.view (s : System F E) (m : Marks F) : Private F where
  toMarks := m
  now := s.nowUs
  localControl := s.ebike.isSome
  engaged := s.engaged
  rearmRequired := s.rearmRequired
  emergencyStop := s.emergencyStop
  engageRequested := s.engageRequested
  lastReadiness := s.lastReadinessUs
  setpoint := s.setpoint
  setpointActive := s.setpointActive
  lastSetpoint := s.lastSetpointUs
  restartRequested := s.restartRequested
  running := s.startup.isActive
  startupActive := s.startupActive
  written := s.writeCount
  applied := s.appliedWrites
  checked := s.checkedWrites
  appliedSettings := s.appliedSettings
  pending := s.settingsPending

/-- What the machine does not see, with what it depends on. -/
structure Wiring where
  now : UInt64
  nodeId : UInt8
  written : UInt32
  applied : UInt32
  checked : UInt32
  pending : Bool
  engaged : Bool
  setpointActive : Bool
  cartMode : CartMode
  localControl : Bool
  ebikeEngage : Bool
  startupActive : Bool

omit [EbikeControl E F] in
def System.wiring (s : System F E) : Wiring where
  now := s.nowUs
  nodeId := s.node.nodeId
  written := s.writeCount
  applied := s.appliedWrites
  checked := s.checkedWrites
  pending := s.settingsPending
  engaged := s.engaged
  setpointActive := s.setpointActive
  cartMode := s.cart.mode
  localControl := s.ebike.isSome
  ebikeEngage := s.ebikeEngage
  startupActive := s.startupActive

/-- An anonymous node takes no writes, others only so many since the counts were compared, and a
setpoint of the cart or the e-bike stays theirs. -/
structure Wired (now : UInt64) (taken : Nat) (source : SetpointSource) (w : Wiring) : Prop where
  now : w.now = now
  anonymous : w.nodeId = nodeIdUnset → w.written = w.applied
  compared : w.pending = true ∨ w.checked = w.applied
  counted : w.pending = true ∨ (w.written - w.applied).toNat ≤ taken
  cart : w.engaged = true → w.setpointActive = true → source = .cart → w.cartMode ≠ .off
  ebike : w.engaged = true → w.setpointActive = true → source = .ebike → w.localControl = true

namespace Wired

variable {now : UInt64} {taken : Nat} {source : SetpointSource} {w : Wiring}

theorem cleared (h : Wired now taken source w) (engaged : Bool) (mode : CartMode) :
    Wired now taken source { w with engaged := engaged, setpointActive := false, cartMode := mode } where
  now := h.now
  anonymous := h.anonymous
  compared := h.compared
  counted := h.counted
  cart := nofun
  ebike := nofun

/-- The controller has all that is written. -/
theorem current (h : Wired now taken source w) (pending : Bool) :
    Wired now taken source { w with applied := w.written, checked := w.written, pending := pending } where
  now := h.now
  anonymous _ := rfl
  compared := .inr rfl
  counted := .inr (by simp)
  cart := h.cart
  ebike := h.ebike

/-- What is written waits for the next restart of the controller. -/
theorem waits (h : Wired now taken source w) (checked : UInt32) :
    Wired now taken source { w with pending := true, checked := checked } where
  now := h.now
  anonymous := h.anonymous
  compared := .inl rfl
  counted := .inl rfl
  cart := h.cart
  ebike := h.ebike

theorem recorded (h : Wired now taken source w) (active : Bool) :
    Wired now taken source { w with startupActive := active } :=
  ⟨h.now, h.anonymous, h.compared, h.counted, h.cart, h.ebike⟩

theorem renamed (h : Wired now taken source w) (settled : w.written = w.applied) (nodeId : UInt8) :
    Wired now taken source { w with nodeId := nodeId } where
  now := h.now
  anonymous _ := settled
  compared := h.compared
  counted := h.counted
  cart := h.cart
  ebike := h.ebike

theorem mono {more : Nat} (h : Wired now taken source w) (fewer : taken ≤ more) : Wired now more source w :=
  { h with counted := h.counted.imp_right fun few => few.trans fewer }

/-- The count of the writes does not come round to those that are applied. -/
theorem apart (h : Wired now taken source w) (few : taken < maxTransfersPerSpin) :
    w.pending = true ∨ w.written + 1 ≠ w.applied := by
  refine h.counted.imp_right fun counted round => ?_
  have behind : w.written - w.applied = 0xFFFFFFFF := by
    rw [← round]
    grind
  rw [behind] at counted
  exact absurd (Nat.lt_of_le_of_lt counted few) (by decide)

theorem settled (h : Wired now taken source w) (compared : w.pending = true ∨ w.written = w.applied) :
    Wired now 0 source w :=
  { h with counted := compared.imp_right fun same => by simp [same] }

end Wired

/-- The machine follows the drive, with the marks the drive itself does not keep. -/
structure Follows (start : Arming F) (now : UInt64) (taken : Nat) (m : Marks F) (s : System F E) : Prop where
  tracks : Tracks start (s.view m) s.board
  calm : m.Calm
  wired : Wired now taken m.source s.wiring

omit [EbikeControl E F] in
theorem Follows.mono {start : Arming F} {now : UInt64} {taken more : Nat} {m : Marks F} {s : System F E}
    (f : Follows start now taken m s) (fewer : taken ≤ more) : Follows start now more m s :=
  ⟨f.tracks, f.calm, f.wired.mono fewer⟩

namespace System

variable {start : Arming F} {now : UInt64} {taken : Nat} {m : Marks F} {s : System F E}

/-! ### Disengaging -/

section Disengaging

omit [EbikeControl E F]

theorem clearSetpoint_tracks (t : Tracks start (s.view m) s.board) :
    Tracks start (s.clearSetpoint.view m) s.clearSetpoint.board :=
  t.note (e := .setpointCleared) trivial rfl

theorem disengage_tracks (reason : DisengageReason) (t : Tracks start (s.view m) s.board)
    (idle : s.engaged = false → m.leaving = false)
    (seen : reason.isTrip = true → s.rearmRequired = true) :
    Tracks start ((s.disengage reason).view (m.left s.engaged)) (s.disengage reason).board := by
  have cleared := (clearSetpoint_tracks t).setSetpoint .default
  have shut (alone : s.startup.isActive = false ∨ s.engaged = true) := cleared.disable_idle alone
  have off := Board.preempt_off (b := (s.clearSetpoint.board.setSetpoint .default).disable) rfl
  unfold System.disengage
  cases engaged : s.engaged with
  | true =>
    simp only [System.onBoard, System.record, System.clearSetpoint, engaged, Bool.true_or, ↓reduceIte]
    have ended := (shut (.inr engaged)).preempt.note (e := .disengaged reason) ⟨engaged, off, seen⟩ rfl
    rw [Marks.left_engaged]
    exact ended
  | false =>
    rw [Marks.left_idle (idle engaged)]
    have view : (s.clearSetpoint).view m = { s.clearSetpoint.view m with engaged := false } := by
      rw [← engaged]
      rfl
    rw [view] at cleared shut
    cases active : s.startup.isActive with
    | true =>
      simp only [System.onBoard, System.record, System.clearSetpoint, engaged, active, Bool.not_true,
        Bool.or_self, Bool.false_eq_true, ↓reduceIte]
      exact cleared
    | false =>
      simp only [System.onBoard, System.record, System.clearSetpoint, engaged, active, Bool.not_false,
        Bool.or_true, Bool.false_eq_true, ↓reduceIte]
      exact shut (.inl active)

@[simp] theorem log_wiring (severity : Severity) (text : String) :
    (s.log severity text).wiring = s.wiring := by
  unfold System.log CyphalNode.log System.wiring
  split <;> rfl

theorem disengage_wiring (reason : DisengageReason) :
    (s.disengage reason).wiring =
      { s.wiring with engaged := false, setpointActive := false, cartMode := .off } := by
  unfold System.disengage
  cases engaged : s.engaged with
  | true =>
    simp only [System.onBoard, System.record, System.clearSetpoint, engaged, Bool.true_or, ↓reduceIte,
      log_wiring]
    rfl
  | false =>
    cases active : s.startup.isActive <;>
      simp only [System.onBoard, System.record, System.clearSetpoint, engaged, active, Bool.not_true,
        Bool.not_false, Bool.or_true, Bool.or_self, Bool.false_eq_true, ↓reduceIte] <;>
      rfl

theorem disengage_engaged (reason : DisengageReason) : (s.disengage reason).engaged = false :=
  congrArg Wiring.engaged (disengage_wiring reason)

@[simp] theorem disengage_startup (reason : DisengageReason) :
    (s.disengage reason).startup = s.startup := by
  unfold System.disengage
  cases engaged : s.engaged <;> cases active : s.startup.isActive <;>
    simp only [System.onBoard, System.record, System.clearSetpoint, engaged, active, Bool.not_true,
      Bool.not_false, Bool.or_true, Bool.or_self, Bool.false_eq_true, ↓reduceIte] <;>
    rfl

theorem disengage_off (reason : DisengageReason) (inactive : s.startup.isActive = false) :
    (s.disengage reason).board.stage.enabled = false := by
  have off := Board.preempt_off (b := (s.clearSetpoint.board.setSetpoint .default).disable) rfl
  unfold System.disengage
  cases engaged : s.engaged with
  | true =>
    simp only [System.onBoard, System.record, System.clearSetpoint, engaged, Bool.true_or, ↓reduceIte]
    exact off
  | false =>
    simp only [System.onBoard, System.record, System.clearSetpoint, engaged, inactive, Bool.not_false,
      Bool.or_true, Bool.false_eq_true, ↓reduceIte]
    rfl

end Disengaging

/-! ### Settings -/

@[simp] theorem loadParameters_view (settings : NvmSettings) :
    (s.loadParameters settings).view m = s.view m := by
  unfold System.loadParameters System.view
  simp only [Private.mk.injEq, true_and, and_true]
  split
  · rfl
  · exact Option.isSome_map

@[simp] theorem loadParameters_wiring (settings : NvmSettings) :
    (s.loadParameters settings).wiring = s.wiring := by
  unfold System.loadParameters System.wiring
  simp only [Wiring.mk.injEq, true_and, and_true, CartControl.configure]
  split
  · rfl
  · exact Option.isSome_map

theorem applySettings_wiring :
    s.applySettings.2.wiring = { s.wiring with pending := true } ∨
      s.applySettings.2.wiring =
        { s.wiring with applied := s.writeCount, checked := s.writeCount, pending := false } := by
  unfold System.applySettings
  simp only []
  split
  · exact .inl rfl
  · have view := loadParameters_wiring s.board.getState.2.store.settings
      (s := { s with appliedWrites := s.writeCount, checkedWrites := s.writeCount, settingsPending := false })
    split
    · exact .inr ((log_wiring ..).trans view)
    · split
      · exact .inr ((log_wiring ..).trans view)
      · exact .inr view

/-- What a successful restart of the controller ensures. -/
theorem applySettings_applied :
    s.applySettings.1 = true →
      s.applySettings.2.settingsPending = false ∧
        s.applySettings.2.appliedWrites = s.applySettings.2.writeCount := by
  unfold System.applySettings
  simp only []
  split
  · nofun
  · split
    · nofun
    · split <;> exact fun _ => ⟨rfl, rfl⟩

theorem applySettings_kept :
    s.applySettings.2.startup = s.startup ∧ s.applySettings.2.emergencyStop = s.emergencyStop := by
  unfold System.applySettings
  simp only []
  split
  · exact ⟨rfl, rfl⟩
  · split
    · exact ⟨rfl, rfl⟩
    · split <;> exact ⟨rfl, rfl⟩

theorem applySettings_tracks (engaging : Bool) (t : Tracks start (s.view { m with engaging := engaging }) s.board)
    (calm : m.Calm) (disengaged : s.engaged = false) :
    Tracks start (s.applySettings.2.view { m with engaging := engaging }) s.applySettings.2.board := by
  have looked := t.getState
  have same : { m with engaging := engaging, applying := false, dropping := false } =
      { m with engaging := engaging } := by rw [calm.applying, calm.dropping]
  have checked := looked.note (e := .applyChecked s.board.getState.2.initialization.dropsFault)
    ⟨disengaged, calm.starting, calm.closing, calm.applying⟩ rfl
  unfold System.applySettings
  simp only []
  split
  · rename_i released
    have on : s.board.getState.2.stage.enabled = true := PowerStage.getState_enabled _ |>.mp released
    simp only [Board.outputs, on, Bool.or_true, Bool.not_true, Bool.false_and] at checked
    rw [← same]
    exact checked
  · rename_i off
    have off : s.board.getState.2.stage.enabled = false := by
      simpa [Board.getState] using off
    simp only [Board.outputs, off, Bool.or_false, Bool.not_false, Bool.true_and] at checked
    have restarted := checked.startRuntime s.board.getState.2.store.settings
      s.board.getState.2.store.capabilities.maxPhaseCurrent rfl rfl rfl
    have view := loadParameters_view (m := { m with engaging := engaging, applying := false, dropping := false })
      s.board.getState.2.store.settings
      (s := { s with
        appliedWrites := s.writeCount, checkedWrites := s.writeCount, settingsPending := false
        appliedSettings := s.board.getState.2.store.settings })
    rw [← same]
    split
    · exact restarted.seen view
    · split
      · exact restarted.seen view
      · exact restarted.seen view

theorem tuneLive_tracks (t : Tracks start (s.view m) s.board) (calm : m.tuning = false)
    (engaged : s.engaged = true) : Tracks start (s.tuneLive.view m) s.tuneLive.board := by
  have same : { m with tuning := false } = m := by rw [← calm]
  have started := t.note (e := .tuneStarted) engaged rfl
  unfold System.tuneLive
  simp only []
  rw [← same]
  split
  · rename_i untunable blocked
    have refused : firstUntunableChange s.appliedSettings s.board.store.settings ≠ none :=
      Option.ne_none_iff_exists'.mpr ⟨untunable, blocked⟩
    exact started.note (e := .tuneBlocked) ⟨engaged, rfl, refused⟩ rfl
  · rename_i tunable
    have tuned := started.handGains s.board.store.settings engaged rfl rfl tunable
    exact tuned.seen (loadParameters_view (m := { m with tuning := false }) s.board.store.settings
      (s := { s with
        checkedWrites := s.writeCount, appliedWrites := s.writeCount
        appliedSettings := s.board.store.settings }))

theorem tuneLive_wiring :
    s.tuneLive.wiring = { s.wiring with pending := true, checked := s.writeCount } ∨
      s.tuneLive.wiring = { s.wiring with applied := s.writeCount, checked := s.writeCount } := by
  unfold System.tuneLive
  simp only []
  split
  · exact .inl (log_wiring ..)
  · exact .inr (loadParameters_wiring s.board.store.settings
      (s := { s with appliedWrites := s.writeCount, checkedWrites := s.writeCount }))

theorem tuneLive_checked : s.tuneLive.checkedWrites = s.tuneLive.writeCount := by
  unfold System.tuneLive
  simp only []
  split <;> rfl

/-! ### Engaging -/

omit [EbikeControl E F] in
theorem release_tracks (t : Tracks start (s.view m) s.board) (engaging : m.engaging = true)
    (disengaged : s.engaged = false) (unstopped : s.emergencyStop = false)
    (inactive : s.startup.isActive = false) (applied : s.settingsPending = false)
    (current : s.appliedWrites = s.writeCount) (still : m.applying = false) (unstarted : m.starting = false) :
    Tracks start (s.release.view { m with engaging := false }) s.release.board := by
  have cleared := (clearSetpoint_tracks t).setSetpoint .default
  have may : (s.view m).mayAcknowledge .drive := ⟨disengaged, .inl ⟨engaging, unstopped⟩⟩
  have acknowledged := (cleared.clearTrips .drive may).clearFault .drive may
  obtain ⟨ready, released | refused⟩ := acknowledged.enable_cases
  · have on := ready.release (e := .engaged)
      ⟨engaging, disengaged, unstopped, inactive, rfl, applied, current, still, unstarted⟩ rfl
    unfold System.release
    simp only [System.onBoard, System.clearSetpoint, System.record] at released ⊢
    simp only [released, Bool.not_true, Bool.false_eq_true, ↓reduceIte]
    exact on
  · have off := ready.note (e := .engageRefused) engaging rfl
    unfold System.release
    simp only [System.onBoard, System.clearSetpoint, System.record] at refused ⊢
    simp only [refused, Bool.not_false, ↓reduceIte]
    exact off

omit [EbikeControl E F] in
theorem release_wiring :
    s.release.wiring =
      { s.wiring with engaged := s.release.engaged, setpointActive := false, cartMode := .off } := by
  unfold System.release
  simp only []
  split
  · exact log_wiring ..
  · exact log_wiring ..

theorem engage_follows (t : Tracks start (s.view { m with engaging := true }) s.board) (calm : m.Calm)
    (w : Wired now taken m.source s.wiring) : Follows start now taken m s.engage := by
  have same : { m with engaging := false } = m := by rw [← calm.engaging]
  unfold System.engage
  split
  · refine ⟨?_, calm, w⟩
    rw [← same]
    exact t.note (e := .engageIgnored) rfl rfl
  · rename_i free
    obtain ⟨disengaged, unstopped⟩ : s.engaged = false ∧ s.emergencyStop = false := by
      simpa using free
    split
    · refine ⟨?_, calm, by rw [log_wiring]; exact w⟩
      rw [← same]
      exact t.note (e := .engageRefused) rfl rfl
    · rename_i inactive
      have inactive : s.startup.isActive = false := by simpa using inactive
      split
      · obtain ⟨startup, emergencyStop⟩ := applySettings_kept (s := s)
        have started := applySettings_tracks true t calm disengaged
        have wired : Wired now taken m.source s.applySettings.2.wiring := by
          obtain same | current := applySettings_wiring (s := s)
          · rw [same]
            exact w.waits _
          · rw [current]
            exact w.current false
        have free : s.applySettings.2.engaged = false := by
          obtain same | current := applySettings_wiring (s := s)
          · exact (congrArg Wiring.engaged same).trans disengaged
          · exact (congrArg Wiring.engaged current).trans disengaged
        simp only []
        split
        · refine ⟨?_, calm, wired⟩
          rw [← same]
          exact started.note (e := .engageIgnored) rfl rfl
        · rename_i done
          obtain ⟨applied, current⟩ := applySettings_applied (s := s) (by simpa using done)
          refine ⟨?_, calm, ?_⟩
          · rw [← same]
            exact release_tracks (m := { m with engaging := true }) started rfl free (by rw [emergencyStop, unstopped])
              (by rw [startup, inactive]) applied current calm.applying calm.starting
          · rw [release_wiring]
            exact wired.cleared _ _
      · rename_i settled
        obtain ⟨applied, current⟩ : s.settingsPending = false ∧ s.writeCount = s.appliedWrites := by
          simpa using settled
        refine ⟨?_, calm, ?_⟩
        · rw [← same]
          exact release_tracks (m := { m with engaging := true }) t rfl disengaged unstopped inactive applied
            current.symm calm.applying calm.starting
        · rw [release_wiring]
          exact w.cleared _ _

theorem takeEngageRequest_follows (f : Follows start now taken m s) :
    Follows start now taken m s.takeEngageRequest := by
  unfold System.takeEngageRequest
  split
  · rename_i requested
    exact engage_follows (f.tracks.note (e := .engageStep) ⟨requested, f.calm⟩ rfl) f.calm f.wired
  · exact f

/-! ### Messages -/

omit [EbikeControl E F] in
theorem disengage_follows (reason : DisengageReason) (began : Marks F)
    (t : Tracks start (s.view began) s.board) (calm : (began.left s.engaged).Calm)
    (w : Wired now taken began.source s.wiring) (idle : s.engaged = false → began.leaving = false)
    (seen : reason.isTrip = true → s.rearmRequired = true) :
    Follows start now taken (began.left s.engaged) (s.disengage reason) := by
  refine ⟨disengage_tracks reason t idle seen, calm, ?_⟩
  rw [disengage_wiring]
  exact w.cleared _ _

omit [EbikeControl E F] in
theorem mapEbike_view (change : E → E) : { s with ebike := s.ebike.map change }.view m = s.view m := by
  unfold System.view
  simp only [Option.isSome_map]

omit [EbikeControl E F] in
theorem mapEbike_wiring (change : E → E) :
    { s with ebike := s.ebike.map change }.wiring = s.wiring := by
  unfold System.wiring
  simp only [Option.isSome_map]

theorem onReadiness_follows (payload : Payload F) (f : Follows start now taken m s) :
    ∃ m, Follows start now taken m (s.onReadiness payload now) := by
  have clock : now = s.nowUs := f.wired.now.symm
  subst clock
  unfold System.onReadiness
  split
  · exact ⟨m, f⟩
  · rename_i value _
    simp only []
    split
    · rename_i asks
      have calm : { m with acknowledging := false }.Calm := f.calm.finding ..
      split
      · rename_i controlled
        exact ⟨_, f.tracks.note f.calm (Arming.next_readiness_held asks (.inl controlled)), calm, f.wired⟩
      · rename_i remote
        have remote := Bool.eq_false_iff.mpr remote
        split
        · rename_i free
          exact ⟨_, f.tracks.note f.calm (Arming.next_readiness_asked asks remote free), calm, f.wired⟩
        · rename_i held
          have held := Bool.eq_false_iff.mpr held
          exact ⟨_, f.tracks.note f.calm (Arming.next_readiness_held asks (.inr held)), calm, f.wired⟩
    · rename_i other
      have heard := f.tracks.note (e := .readiness value) f.calm (Arming.next_readiness_other other)
      have view := mapEbike_view (m := { m with leaving := s.engaged, acknowledging := true })
        EbikeControl.inhibit (s := { s with lastReadinessUs := s.nowUs, rearmRequired := false })
      have wired : Wired s.nowUs taken m.source { s with ebike := s.ebike.map EbikeControl.inhibit }.wiring := by
        rw [mapEbike_wiring]
        exact f.wired
      have rearmed := heard.seen view
      split
      · exact ⟨_, disengage_follows _ _ rearmed ((f.calm.finding ..).left _) wired id nofun⟩
      · rename_i disengaged
        have disengaged : s.engaged = false := Bool.eq_false_iff.mpr disengaged
        have same : { m with leaving := s.engaged, acknowledging := true } =
            { m with acknowledging := true } := by
          rw [disengaged, ← f.calm.leaving]
        rw [same] at rearmed
        have calm : { m with acknowledging := true }.Calm := f.calm.finding ..
        split
        · have may : ({ s with rearmRequired := false }.view
              { m with acknowledging := true }).mayAcknowledge .drive :=
            ⟨disengaged, .inr ⟨rfl, rfl⟩⟩
          have acknowledged := (rearmed.clearTrips .drive may).clearFault .drive may
          exact ⟨_, acknowledged, calm, wired⟩
        · exact ⟨_, rearmed, calm, wired⟩

section Setpoints

omit [EbikeControl E F]

theorem setCurrentSetpoint_cases (source : SetpointSource) (iD iQ : F) (now : UInt64) :
    s.setCurrentSetpoint source iD iQ now = s.record (.setpointDropped source) ∨
      ∃ value, s.setCurrentSetpoint source iD iQ now = s.takeSetpoint source value now := by
  unfold System.setCurrentSetpoint
  split
  · exact .inl rfl
  · exact .inr ⟨_, rfl⟩

theorem takeSetpoint_follows (value : OuterSetpoint F) (f : Follows start now taken m s) :
    ∃ m, Follows start now taken m (s.takeSetpoint .message value now) := by
  have clock : now = s.nowUs := f.wired.now.symm
  subst clock
  refine ⟨{ m with source := .message, setpointNow := true }, ?_, f.calm.finding .., ?_⟩
  · exact f.tracks.note (e := .setpoint .message value) trivial rfl
  · exact { f.wired with cart := nofun, ebike := nofun }

theorem dropSetpoint_follows (f : Follows start now taken m s) :
    Follows start now taken m (s.record (.setpointDropped .message)) :=
  ⟨f.tracks.note (e := .setpointDropped .message) trivial rfl, f.calm, f.wired⟩

theorem setCurrentSetpoint_follows (iD iQ : F) (f : Follows start now taken m s) :
    ∃ m, Follows start now taken m (s.setCurrentSetpoint .message iD iQ now) := by
  obtain dropped | ⟨value, taken⟩ := setCurrentSetpoint_cases (s := s) .message iD iQ now
  · rw [dropped]
    exact ⟨m, dropSetpoint_follows f⟩
  · rw [taken]
    exact takeSetpoint_follows value f

theorem setSpeedSetpoint_follows (speed : F) (f : Follows start now taken m s) :
    ∃ m, Follows start now taken m (s.setSpeedSetpoint speed now) := by
  unfold System.setSpeedSetpoint
  split
  · exact ⟨m, f⟩
  · exact takeSetpoint_follows _ f

theorem setPositionSetpoint_follows (position : F) (f : Follows start now taken m s) :
    ∃ m, Follows start now taken m (s.setPositionSetpoint position now) := by
  unfold System.setPositionSetpoint
  split
  · exact ⟨m, f⟩
  · exact takeSetpoint_follows _ f

theorem onCurrentSetpoint_follows (payload : Payload F) (f : Follows start now taken m s) :
    ∃ m, Follows start now taken m (s.onCurrentSetpoint payload now) := by
  unfold System.onCurrentSetpoint
  split
  · exact ⟨m, f⟩
  · exact setCurrentSetpoint_follows _ _ f

theorem onTorqueSetpoint_follows (payload : Payload F) (f : Follows start now taken m s) :
    ∃ m, Follows start now taken m (s.onTorqueSetpoint payload now) := by
  unfold System.onTorqueSetpoint
  split
  · exact ⟨m, f⟩
  · split
    · exact ⟨m, f⟩
    · exact setCurrentSetpoint_follows _ _ f

theorem onSpeedSetpoint_follows (payload : Payload F) (f : Follows start now taken m s) :
    ∃ m, Follows start now taken m (s.onSpeedSetpoint payload now) := by
  unfold System.onSpeedSetpoint
  split
  · exact ⟨m, f⟩
  · exact setSpeedSetpoint_follows _ f

theorem onPositionSetpoint_follows (payload : Payload F) (f : Follows start now taken m s) :
    ∃ m, Follows start now taken m (s.onPositionSetpoint payload now) := by
  unfold System.onPositionSetpoint
  split
  · exact ⟨m, f⟩
  · exact setPositionSetpoint_follows _ f

theorem onServoSetpoint_follows (payload : Payload F) (f : Follows start now taken m s) :
    ∃ m, Follows start now taken m (s.onServoSetpoint payload now) := by
  unfold System.onServoSetpoint
  split
  · exact ⟨m, f⟩
  · split
    · exact ⟨m, f⟩
    · exact setPositionSetpoint_follows _ f
    · exact setSpeedSetpoint_follows _ f
    · split
      · exact setCurrentSetpoint_follows _ _ f
      · exact ⟨m, f⟩

/-- What the cart takes from the bus leaves its mode. -/
theorem onCart_follows {cart : CartControl F} (mode : cart.mode = s.cart.mode) (f : Follows start now taken m s) :
    ∃ m, Follows start now taken m { s with cart := cart } := by
  refine ⟨m, f.tracks, f.calm, ?_⟩
  have wired := f.wired
  unfold System.wiring at wired ⊢
  rw [mode]
  exact wired

theorem onWheelCommand_follows (payload : Payload F) (f : Follows start now taken m s) :
    ∃ m, Follows start now taken m (s.onWheelCommand payload now) := by
  unfold System.onWheelCommand
  split
  · exact ⟨m, f⟩
  · split
    · exact ⟨m, f⟩
    · exact onCart_follows rfl f

theorem onPedalState_follows (payload : Payload F) (f : Follows start now taken m s) :
    ∃ m, Follows start now taken m (s.onPedalState payload now) := by
  unfold System.onPedalState
  split
  · exact ⟨m, f⟩
  · exact onCart_follows rfl f

theorem onBatteryStatus_follows (payload : Payload F) (f : Follows start now taken m s) :
    ∃ m, Follows start now taken m (s.onBatteryStatus payload now) := by
  unfold System.onBatteryStatus
  split
  · exact ⟨m, f⟩
  · exact onCart_follows rfl f

end Setpoints

theorem onMessage_follows (transfer : Transfer F) (f : Follows start now taken m s) :
    ∃ m, Follows start now taken m (s.onMessage transfer now) := by
  unfold System.onMessage
  split
  · exact onReadiness_follows _ f
  split
  · exact onCurrentSetpoint_follows _ f
  split
  · exact onTorqueSetpoint_follows _ f
  split
  · exact onSpeedSetpoint_follows _ f
  split
  · exact onPositionSetpoint_follows _ f
  split
  · exact onServoSetpoint_follows _ f
  split
  · exact onWheelCommand_follows _ f
  split
  · exact onPedalState_follows _ f
  split
  · exact onBatteryStatus_follows _ f
  · exact ⟨m, f⟩

end System

end Unimoc.Drive
