import Unimoc.Drive.CommandTracking

/-! Every spin of the drive is a run of the arming machine. -/
namespace Unimoc.Drive.System

open CurrentControl Cyphal Firmware Hardware Settings Startup

variable {F E : Type} [Arithmetic F] [EbikeControl E F] {start : Arming F} {now : UInt64} {taken : Nat} {m : Marks F}
  {s : System F E}

omit [EbikeControl E F] in
theorem watchBus_follows (f : Follows start now taken m s) : Follows start now taken m s.watchBus := by
  unfold System.watchBus
  simp only []
  split <;> split
  · exact log_follows _ _ ⟨f.tracks, f.calm, f.wired⟩
  · exact ⟨f.tracks, f.calm, f.wired⟩
  · exact log_follows _ _ ⟨f.tracks, f.calm, f.wired⟩
  · exact ⟨f.tracks, f.calm, f.wired⟩

/-- While an engaged drive has a setpoint of the e-bike, the e-bike asks for it. -/
def Obeyed (source : SetpointSource) (w : Wiring) : Prop :=
  w.engaged = true → w.setpointActive = true → source = .ebike → w.ebikeEngage = true

omit [EbikeControl E F] in
theorem updateEbike_follows {ebike : E} (next : E) (engage : Bool) (torque : F) (f : Follows start now taken m s)
    (controlled : s.ebike = some ebike) :
    Follows start now taken m { s with ebike := some next, ebikeEngage := engage, ebikeTorque := torque } := by
  have controls : s.ebike.isSome = (some next).isSome := by rw [controlled]; rfl
  refine ⟨f.tracks.seen ?_, f.calm, ?_⟩
  · unfold System.view
    rw [controls]
  · have wired := f.wired
    unfold System.wiring at wired ⊢
    rw [controls] at wired
    exact { wired with }

omit [EbikeControl E F] in
theorem disengage_obeyed {source : SetpointSource} (reason : DisengageReason) :
    Obeyed source (s.disengage reason).wiring := by
  rw [disengage_wiring]
  exact nofun

omit [EbikeControl E F] in
theorem takeLocalRequest_follows (engage : Bool) (f : Follows start now taken m s)
    (controlled : s.ebike.isSome = true) (answered : s.ebikeEngage = engage) :
    ∃ m, Follows start now taken m (s.takeLocalRequest engage now) ∧
      Obeyed m.source (s.takeLocalRequest engage now).wiring := by
  have clock : now = s.nowUs := f.wired.now.symm
  subst clock
  unfold System.takeLocalRequest
  cases engage with
  | true =>
    simp only [↓reduceIte]
    split
    · rename_i free
      have asked := f.tracks.note (e := .localRequest true) ⟨controlled, f.calm⟩
        (Arming.next_localRequest_asked free)
      exact ⟨m, ⟨asked, f.calm, f.wired⟩, fun _ _ _ => answered⟩
    · rename_i held
      have unasked := f.tracks.note (e := .localRequest true) ⟨controlled, f.calm⟩
        (Arming.next_localRequest_held (Bool.eq_false_iff.mpr held))
      exact ⟨m, ⟨unasked, f.calm, f.wired⟩, fun _ _ _ => answered⟩
  | false =>
    have rearmed := f.tracks.note (e := .localRequest false) ⟨controlled, f.calm⟩
      Arming.next_localRequest_dropped
    simp only [Bool.false_eq_true, ↓reduceIte]
    split
    · have left := disengage_follows .ebike { m with leaving := s.engaged }
        (s := { s with rearmRequired := false }.record (.localRequest false)) rearmed
        (f.calm.left _) f.wired id nofun
      exact ⟨_, left, disengage_obeyed _⟩
    · rename_i disengaged
      have disengaged : s.engaged = false := Bool.eq_false_iff.mpr disengaged
      have same : { m with leaving := s.engaged } = m := by rw [disengaged, ← f.calm.leaving]
      refine ⟨m, ⟨rearmed.seen (congrArg _ same.symm), f.calm, f.wired⟩, fun engaged => ?_⟩
      exact absurd (disengaged.symm.trans engaged) (by simp)

theorem spinLocalControl_follows (temperature : Option F) (f : Follows start now taken m s) :
    ∃ m, Follows start now taken m (s.spinLocalControl now temperature) ∧
      Obeyed m.source (s.spinLocalControl now temperature).wiring := by
  unfold System.spinLocalControl
  split
  · rename_i remote
    refine ⟨m, f, fun engaged active source => absurd (f.wired.ebike engaged active source) ?_⟩
    simp [System.wiring, remote]
  · rename_i ebike controlled
    have looked : Follows start now taken m { s with board := s.board.status.2.readIsr.2 } :=
      ⟨f.tracks.status.readIsr, f.calm, f.wired⟩
    exact takeLocalRequest_follows _ (updateEbike_follows _ _ _ looked controlled) rfl rfl

omit [EbikeControl E F] in
theorem release_obeyed : Obeyed m.source s.release.wiring := by
  rw [release_wiring]
  exact fun _ => nofun

theorem takeEngageRequest_obeyed (obeyed : Obeyed m.source s.wiring) :
    Obeyed m.source s.takeEngageRequest.wiring := by
  unfold System.takeEngageRequest System.engage
  split
  · split
    · exact obeyed
    · split
      · rw [log_wiring]
        exact obeyed
      · split
        · simp only []
          split
          · obtain same | current := applySettings_wiring
              (s := { s with engageRequested := false }.record .engageStep)
            · exact (congrArg (Obeyed m.source) same).mpr obeyed
            · exact (congrArg (Obeyed m.source) current).mpr obeyed
          · exact release_obeyed
        · exact release_obeyed
  · exact obeyed

/-! ### The startup aid -/

section Spin

omit [EbikeControl E F]

/-- A run is recorded before its step, its end before anything else. -/
theorem spinStartup_follows (f : Follows start now taken m s) : Follows start now taken m s.spinStartup := by
  unfold System.spinStartup
  split
  · rename_i active
    have recorded := f.tracks.note (e := .runRecorded) active rfl
    have stepped := recorded.runOnce ⟨active, rfl, f.calm⟩ active
    simp only []
    exact ⟨stepped, f.calm, f.wired.recorded true⟩
  · rename_i idle
    have idle : s.startup.isActive = false := Bool.eq_false_iff.mpr idle
    split
    · rename_i recorded
      have ended := f.tracks.releaseForceDuty.note (e := .runEndRecorded) ⟨idle, recorded, rfl⟩ rfl
      exact ⟨ended, f.calm, (f.wired.waits _).recorded false⟩
    · exact f

theorem spinStartup_recorded (recorded : s.spinStartup.startupActive = true) :
    s.startup.isActive = true := by
  unfold System.spinStartup at recorded
  split at recorded
  · rename_i active
    exact active
  · split at recorded
    · cases recorded
    · rename_i unrecorded
      exact absurd recorded unrecorded

theorem spinStartup_engaged : s.spinStartup.engaged = s.engaged := by
  unfold System.spinStartup
  split
  · rfl
  · split <;> rfl

theorem spinStartup_unrecorded (owned : Owned start) (f : Follows start now taken m s)
    (engaged : s.spinStartup.engaged = true) : s.spinStartup.startupActive = false := by
  have held : s.startup.isActive = false :=
    (f.tracks.owned owned).exclusive (spinStartup_engaged.symm.trans engaged)
  cases recorded : s.spinStartup.startupActive with
  | false => rfl
  | true => exact absurd (spinStartup_recorded recorded) (by simp [held])

theorem spinStartup_obeyed (obeyed : Obeyed m.source s.wiring) : Obeyed m.source s.spinStartup.wiring := by
  unfold System.spinStartup
  split
  · exact obeyed
  · split
    · exact obeyed
    · exact obeyed

/-! ### The supervision -/

theorem disengageTripped_engaged : s.disengageTripped.engaged = false := disengage_engaged _

/-- The check of a spin: passed, with the timeout in force, while the drive is engaged. -/
structure Checked (start : Arming F) (now : UInt64) (taken : Nat) (holds : Bool) (m : Marks F) (s : System F E) : Prop where
  follows : Follows start now taken m s
  obeyed : Obeyed m.source s.wiring
  check : s.engaged = true → m.check = some (s.commandTimeoutUs, holds)

theorem disengage_checked {reason : DisengageReason} (holds : Bool) (f : Follows start now taken m s)
    (engaged : s.engaged = true) (seen : reason.isTrip = true → s.rearmRequired = true) :
    Checked start now taken holds (m.left s.engaged) (s.disengage reason) where
  follows := disengage_follows reason _ f.tracks (f.calm.left _) f.wired (by simp [engaged]) seen
  obeyed := disengage_obeyed reason
  check engaged := by
    rw [disengage_engaged] at engaged
    cases engaged

theorem disengageTripped_checked (holds : Bool) (f : Follows start now taken m s) (engaged : s.engaged = true) :
    Checked start now taken holds (m.left s.engaged) s.disengageTripped := by
  have seen := (f.tracks.note (e := .tripSeen) engaged rfl).tripName
  unfold System.disengageTripped
  exact disengage_checked holds
    (s := { s with rearmRequired := true, board := (s.board.record .tripSeen).tripName.2 })
    ⟨seen, f.calm, f.wired⟩ engaged fun _ => rfl

theorem supervise_checked (holds : Bool) (f : Follows start now taken m s) (obeyed : Obeyed m.source s.wiring) :
    ∃ m, Checked start now taken holds m (s.supervise now holds) := by
  have clock : now = s.nowUs := f.wired.now.symm
  subst clock
  unfold System.supervise
  split
  · rename_i disengaged
    exact ⟨m, f, obeyed, fun engaged => absurd engaged (by simpa using disengaged)⟩
  · rename_i engaged
    have engaged : s.engaged = true := by simpa using engaged
    split
    · exact ⟨_, disengage_checked holds f engaged nofun⟩
    · rename_i fresh
      have fresh : s.nowUs - s.lastReadinessUs ≤ s.commandTimeoutUs ∨ holds = true := by
        simp only [Bool.and_eq_true, decide_eq_true_eq, Bool.not_eq_true', not_and_or, UInt64.not_lt,
          Bool.not_eq_false] at fresh
        exact fresh
      have looked := f.tracks.getState.note (e := .stageChecked) engaged rfl
      have calm : { m with stageSeen := s.board.getState.2.stage.enabled }.Calm := f.calm.finding ..
      simp only []
      by_cases released : s.board.getState.1 = .enabled
      · have on : s.board.getState.2.stage.enabled = true := PowerStage.getState_enabled _ |>.mp released
        have tested := looked.tripped
        simp only [released, ↓reduceIte]
        split
        · exact ⟨_, disengageTripped_checked holds ⟨tested, calm, f.wired⟩ engaged⟩
        · rename_i untripped
          have untripped := Bool.eq_false_iff.mpr untripped
          have passed := tested.note (e := .supervised s.commandTimeoutUs holds)
            ⟨engaged, on, untripped, fresh⟩ rfl
          exact ⟨_, ⟨passed, calm.finding .., f.wired⟩, obeyed, fun _ => rfl⟩
      · simp only [released, ↓reduceIte]
        exact ⟨_, disengageTripped_checked holds ⟨looked, calm, f.wired⟩ engaged⟩

theorem supervise_wiring (holds : Bool) :
    (s.supervise now holds).engaged = true → (s.supervise now holds).wiring = s.wiring := by
  unfold System.supervise
  simp only []
  split
  · exact fun _ => rfl
  · split
    · rw [disengage_engaged]
      exact nofun
    · by_cases released : s.board.getState.1 = .enabled
      · simp only [released, ↓reduceIte]
        split
        · rw [disengageTripped_engaged]
          exact nofun
        · exact fun _ => rfl
      · simp only [released, ↓reduceIte]
        rw [disengageTripped_engaged]
        exact nofun

theorem supervise_mode (holds : Bool) {mode : CartMode} (driven : s.engaged = true → s.cart.mode = mode)
    (still : (s.supervise now holds).engaged = true) : (s.supervise now holds).cart.mode = mode := by
  have same := supervise_wiring holds still
  have engaged : s.engaged = true := (congrArg Wiring.engaged same).symm.trans still
  exact (congrArg Wiring.cartMode same).trans (driven engaged)

/-! ### The setpoints of the cart and the e-bike -/

/-- A setpoint of the cart was given in this spin. -/
def CartNow (m : Marks F) (s : System F E) : Prop :=
  s.engaged = true → s.setpointActive = true → m.source = .cart →
    m.setpointNow = true ∨ m.droppedNow = true

theorem dropSetpoint_checked {holds : Bool} {source : SetpointSource} (own : source ≠ .message)
    (c : Checked start now taken holds m s) :
    Checked start now taken holds { m with droppedNow := true } (s.record (.setpointDropped source)) where
  follows := by
    have dropped := c.follows.tracks.note (e := .setpointDropped source)
      (q := s.view { m with droppedNow := true }) trivial (by simp [Arming.next, own, System.view])
    exact ⟨dropped, c.follows.calm.finding .., c.follows.wired⟩
  obeyed := c.obeyed
  check := c.check

theorem takeSetpoint_checked {holds : Bool} (source : SetpointSource) (value : OuterSetpoint F)
    (c : Checked start now taken holds m s) (cart : source = .cart → s.cart.mode ≠ .off)
    (ebike : source = .ebike → s.ebike.isSome = true) (obeyed : source = .ebike → s.ebikeEngage = true) :
    Checked start now taken holds { m with source := source, setpointNow := true }
      (s.takeSetpoint source value now) where
  follows := by
    have clock : now = s.nowUs := c.follows.wired.now.symm
    subst clock
    refine ⟨c.follows.tracks.note (e := .setpoint source value) trivial rfl, c.follows.calm.finding .., ?_⟩
    exact { c.follows.wired with cart := fun _ _ => cart, ebike := fun _ _ => ebike }
  obeyed := fun _ _ => obeyed
  check := c.check

theorem setCurrentSetpoint_checked {holds : Bool} (source : SetpointSource) (own : source ≠ .message)
    (iD iQ : F) (c : Checked start now taken holds m s) (cart : source = .cart → s.cart.mode ≠ .off)
    (ebike : source = .ebike → s.ebike.isSome = true) (obeyed : source = .ebike → s.ebikeEngage = true) :
    ∃ m', Checked start now taken holds m' (s.setCurrentSetpoint source iD iQ now) ∧
      (m'.source = source ∧ m'.setpointNow = true ∨ m'.source = m.source ∧ m'.droppedNow = true) := by
  obtain dropped | ⟨value, taken⟩ := setCurrentSetpoint_cases (s := s) source iD iQ now
  · rw [dropped]
    exact ⟨_, dropSetpoint_checked own c, .inr ⟨rfl, rfl⟩⟩
  · rw [taken]
    exact ⟨_, takeSetpoint_checked source value c cart ebike obeyed, .inl ⟨rfl, rfl⟩⟩

theorem followCart_checked {holds : Bool} (output : CartOutput F) (c : Checked start now taken holds m s)
    (mode : s.engaged = true → s.cart.mode = output.mode) :
    ∃ m, Checked start now taken holds m (s.followCart now output) ∧ CartNow m (s.followCart now output) := by
  unfold System.followCart
  split
  · rename_i follows
    obtain ⟨engaged, driven⟩ : s.engaged = true ∧ output.mode ≠ .off := by simpa using follows
    obtain ⟨m', checked, given⟩ := setCurrentSetpoint_checked .cart nofun Scalar.zero
      (s.currentOf output.torque) c (fun _ => by rw [mode engaged]; exact driven) nofun nofun
    refine ⟨m', checked, fun _ _ _ => ?_⟩
    obtain ⟨_, now⟩ | ⟨_, dropped⟩ := given
    · exact .inl now
    · exact .inr dropped
  · rename_i free
    refine ⟨m, c, fun engaged active source => absurd (c.follows.wired.cart engaged active source) ?_⟩
    have off : output.mode = .off := by
      have engaged : s.engaged = true := engaged
      simpa [engaged] using free
    simp [System.wiring, mode engaged, off]

/-- An active setpoint is a message's, or was given in this spin. -/
def Directed (m : Marks F) (s : System F E) : Prop :=
  s.engaged = true → s.setpointActive = true →
    m.source = .message ∨ m.setpointNow = true ∨ m.droppedNow = true

theorem followEbike_checked {holds : Bool} (c : Checked start now taken holds m s) (cart : CartNow m s) :
    ∃ m, Checked start now taken holds m (s.followEbike now) ∧ Directed m (s.followEbike now) := by
  unfold System.followEbike
  split
  · rename_i follows
    obtain ⟨⟨engaged, controlled⟩, asks⟩ :
        (s.engaged = true ∧ s.ebike.isSome = true) ∧ s.ebikeEngage = true := by
      simpa only [Bool.and_eq_true] using follows
    obtain ⟨m', checked, given⟩ := setCurrentSetpoint_checked .ebike nofun Scalar.zero
      (s.currentOf s.ebikeTorque) c nofun (fun _ => controlled) (fun _ => asks)
    refine ⟨m', checked, fun _ _ => ?_⟩
    obtain ⟨_, now⟩ | ⟨_, dropped⟩ := given
    · exact .inr (.inl now)
    · exact .inr (.inr dropped)
  · rename_i free
    refine ⟨m, c, fun engaged active => ?_⟩
    cases source : m.source with
    | message => exact .inl rfl
    | cart => exact .inr (cart engaged active source)
    | ebike =>
      have controlled : s.ebike.isSome = true := c.follows.wired.ebike engaged active source
      have asks : s.ebikeEngage = true := c.obeyed engaged active source
      exact absurd (by simp [engaged, controlled, asks]) free

/-- What the drive hands to the outer loop in this spin. -/
structure Handing (start : Arming F) (now : UInt64) (taken : Nat) (holds : Bool) (m : Marks F) (s : System F E) : Prop where
  follows : Follows start now taken m s
  check : s.engaged = true → m.check = some (s.commandTimeoutUs, holds)
  fresh : s.engaged = true → s.setpointActive = true →
    now - s.lastSetpointUs ≤ s.commandTimeoutUs ∧
      (m.source = .message ∨ m.setpointNow = true ∨ m.droppedNow = true)

theorem expireSetpoint_handing {holds : Bool} (c : Checked start now taken holds m s) (directed : Directed m s) :
    Handing start now taken holds m (s.expireSetpoint now) := by
  unfold System.expireSetpoint
  split
  · exact ⟨⟨clearSetpoint_tracks c.follows.tracks, c.follows.calm,
      c.follows.wired.cleared s.engaged s.cart.mode⟩, c.check, fun _ => nofun⟩
  · rename_i kept
    refine ⟨c.follows, c.check, fun engaged active => ⟨?_, directed engaged active⟩⟩
    simpa [engaged, active, UInt64.not_lt] using kept

theorem spinEngagement_handing (f : Follows start now taken m s) (obeyed : Obeyed m.source s.wiring) :
    ∃ holds m, Handing start now taken holds m (s.spinEngagement now) := by
  have wired : Wired now taken m.source
      { s with cart := (s.cart.update now s.board.status.1.speed s.engaged).2 }.wiring := by
    refine { f.wired with cart := fun engaged active source => ?_ }
    have engaged : s.engaged = true := engaged
    simp only [System.wiring, engaged]
    exact CartControl.update_driven _ _ _ (f.wired.cart engaged active source)
  have updated : Follows start now taken m
      { s with
        board := s.board.status.2
        cart := (s.cart.update now s.board.status.1.speed s.engaged).2
        cartMode := (s.cart.update now s.board.status.1.speed s.engaged).1.mode } :=
    ⟨f.tracks.status, f.calm, wired⟩
  have mode (engaged : s.engaged = true) :
      (s.cart.update now s.board.status.1.speed s.engaged).2.mode =
        (s.cart.update now s.board.status.1.speed s.engaged).1.mode := by
    rw [engaged]
    exact CartControl.update_mode ..
  obtain ⟨m₁, supervised⟩ := supervise_checked
    (s.cart.update now s.board.status.1.speed s.engaged).1.holdsEngagement updated obeyed
  obtain ⟨m₂, cart, given⟩ := followCart_checked (s.cart.update now s.board.status.1.speed s.engaged).1
    supervised (supervise_mode _ mode)
  obtain ⟨m₃, ebike, directed⟩ := followEbike_checked cart given
  have handing := expireSetpoint_handing ebike directed
  refine ⟨_, m₃, ⟨?_, handing.follows.calm, handing.follows.wired⟩, handing.check, handing.fresh⟩
  exact handing.follows.tracks.setBatteryLimits _

theorem setCurrentSetpoint_wiring (source : SetpointSource) (iD iQ : F) :
    ∃ active, (s.setCurrentSetpoint source iD iQ now).wiring = { s.wiring with setpointActive := active } := by
  obtain dropped | ⟨value, taken⟩ := setCurrentSetpoint_cases (s := s) source iD iQ now
  · rw [dropped]
    exact ⟨s.setpointActive, rfl⟩
  · rw [taken]
    exact ⟨true, rfl⟩

theorem followCart_wiring (output : CartOutput F) :
    ∃ active, (s.followCart now output).wiring = { s.wiring with setpointActive := active } := by
  unfold System.followCart
  split
  · exact setCurrentSetpoint_wiring ..
  · exact ⟨s.setpointActive, rfl⟩

theorem followEbike_wiring :
    ∃ active, (s.followEbike now).wiring = { s.wiring with setpointActive := active } := by
  unfold System.followEbike
  split
  · exact setCurrentSetpoint_wiring ..
  · exact ⟨s.setpointActive, rfl⟩

theorem expireSetpoint_wiring :
    ∃ active, (s.expireSetpoint now).wiring = { s.wiring with setpointActive := active } := by
  unfold System.expireSetpoint
  split
  · exact ⟨false, rfl⟩
  · exact ⟨s.setpointActive, rfl⟩

/-- An engagement after was one before, and a run was recorded before. -/
def Still (before after : System F E) : Prop :=
  after.engaged = true → before.engaged = true ∧ after.startupActive = before.startupActive

theorem still_of_wiring {after : System F E}
    (same : ∃ active, after.wiring = { s.wiring with setpointActive := active }) : Still s after := by
  obtain ⟨active, same⟩ := same
  intro engaged
  exact ⟨(congrArg Wiring.engaged same).symm.trans engaged, congrArg Wiring.startupActive same⟩

theorem supervise_still (holds : Bool) : Still s (s.supervise now holds) := by
  intro engaged
  exact still_of_wiring ⟨s.setpointActive, supervise_wiring holds engaged⟩ engaged

theorem spinEngagement_still : Still s (s.spinEngagement now) := by
  intro still
  obtain ⟨still, expired⟩ := still_of_wiring expireSetpoint_wiring still
  obtain ⟨still, ebike⟩ := still_of_wiring followEbike_wiring still
  obtain ⟨still, cart⟩ := still_of_wiring (followCart_wiring _) still
  obtain ⟨still, supervised⟩ := supervise_still _ still
  exact ⟨still, expired.trans (ebike.trans (cart.trans supervised))⟩

theorem handOver_follows {holds : Bool} (h : Handing start now taken holds m s) :
    ∃ m, Follows start now taken m s.handOver ∧
      (s.engaged = true → m.check = some (s.commandTimeoutUs, holds)) ∧
      m.handed = some { s.setpoint with active := s.engaged } := by
  have clock : now = s.nowUs := h.follows.wired.now.symm
  subst clock
  have handed := (h.follows.tracks.setSetpoint { s.setpoint with active := s.engaged }).note
    (e := .handed { s.setpoint with active := s.engaged } s.commandTimeoutUs)
    ⟨rfl, fun engaged => ⟨⟨holds, h.check engaged⟩, h.fresh engaged⟩⟩ rfl
  exact ⟨_, ⟨handed, h.follows.calm.finding .., h.follows.wired⟩, h.check, rfl⟩

theorem spinRestart_follows (f : Follows start now taken m s) : Follows start now taken m (s.spinRestart now) := by
  unfold System.spinRestart
  split
  · rename_i due
    obtain ⟨⟨requested, _⟩, _⟩ : (s.restartRequested = true ∧ s.restartAtUs ≤ now) ∧ s.restartHook = true := by
      simpa using due
    exact ⟨f.tracks.note (e := .restarted) ⟨requested, f.calm⟩ rfl, f.calm, f.wired⟩
  · exact f

end Spin

/-! ### The settings -/

theorem applySettings_follows (f : Follows start now taken m s) (disengaged : s.engaged = false) :
    Follows start now taken m s.applySettings.2 := by
  refine ⟨applySettings_tracks m.engaging f.tracks f.calm disengaged, f.calm, ?_⟩
  obtain same | current := applySettings_wiring (s := s)
  · rw [same]
    exact f.wired.waits _
  · rw [current]
    exact f.wired.current false

theorem tuneLive_follows (f : Follows start now taken m s) (engaged : s.engaged = true) :
    Follows start now taken m s.tuneLive := by
  refine ⟨tuneLive_tracks f.tracks f.calm.tuning engaged, f.calm, ?_⟩
  obtain same | current := tuneLive_wiring (s := s)
  · rw [same]
    exact f.wired.waits _
  · rw [current]
    exact f.wired.current _

theorem tuneLive_engaged : s.tuneLive.engaged = s.engaged := by
  obtain same | current := tuneLive_wiring (s := s)
  · exact congrArg Wiring.engaged same
  · exact congrArg Wiring.engaged current

theorem spinSettings_follows (f : Follows start now taken m s) : Follows start now taken m s.spinSettings := by
  have tuned : Follows start now taken m
      (if s.engaged && s.writeCount ≠ s.checkedWrites then s.tuneLive else s) := by
    split
    · rename_i changed
      obtain ⟨engaged, _⟩ : s.engaged = true ∧ s.writeCount ≠ s.checkedWrites := by simpa using changed
      exact tuneLive_follows f engaged
    · exact f
  unfold System.spinSettings
  simp only []
  generalize (if s.engaged && s.writeCount ≠ s.checkedWrites then s.tuneLive else s) = s at tuned
  have waits : Follows start now taken m
      (if !s.engaged && s.writeCount ≠ s.appliedWrites then
        { s with settingsPending := true }.record .settingsPending
      else s) := by
    split
    · rename_i waits
      obtain ⟨disengaged, _⟩ : s.engaged = false ∧ s.writeCount ≠ s.appliedWrites := by simpa using waits
      exact ⟨tuned.tracks.note (e := .settingsPending) disengaged rfl, tuned.calm, tuned.wired.waits _⟩
    · exact tuned
  generalize (if !s.engaged && s.writeCount ≠ s.appliedWrites then
      { s with settingsPending := true }.record .settingsPending
    else s) = s at waits
  split
  · rename_i due
    obtain ⟨disengaged, _⟩ : s.engaged = false ∧ s.settingsPending = true := by simpa using due
    exact applySettings_follows waits disengaged
  · exact waits

/-- While the drive is engaged, nothing but a live tuning happens to the settings. -/
theorem spinSettings_engaged (engaged : s.engaged = true) :
    s.spinSettings = s.tuneLive ∨ s.spinSettings = s ∧ s.writeCount = s.checkedWrites := by
  by_cases changed : s.writeCount = s.checkedWrites
  · right
    simp [System.spinSettings, engaged, changed]
  · left
    have still : s.tuneLive.engaged = true := tuneLive_engaged.trans engaged
    simp [System.spinSettings, engaged, changed, still]

theorem spinSettings_disengaged (disengaged : s.engaged = false) : s.spinSettings.engaged = false := by
  have applied (s : System F E) : s.applySettings.2.engaged = s.engaged := by
    obtain same | current := applySettings_wiring (s := s)
    · exact congrArg Wiring.engaged same
    · exact congrArg Wiring.engaged current
  unfold System.spinSettings
  simp only [disengaged, Bool.false_and, Bool.false_eq_true, ↓reduceIte]
  split
  · split
    · exact applied _
    · rfl
  · split
    · exact (applied _).trans disengaged
    · exact disengaged

theorem tuneLive_kept :
    s.tuneLive.startupActive = s.startupActive ∧ s.tuneLive.setpoint = s.setpoint := by
  unfold System.tuneLive
  simp only []
  split <;> exact ⟨rfl, rfl⟩

/-! ### Spins -/

/-- What holds of the drive whenever a spin is over. -/
structure SpinEnd (start : Arming F) (m : Marks F) (s : System F E) : Prop where
  follows : Follows start s.nowUs 0 m s
  recorded : s.engaged = true → s.startupActive = false
  checked : s.engaged = true → s.checkedWrites = s.writeCount
  supervised : s.engaged = true → ∃ timeout holds, m.check = some (timeout, holds)
  handed : s.engaged = true → m.handed = some { s.setpoint with active := true }
  waiting : s.settingsWaiting = (s.settingsPending || s.writeCount ≠ s.appliedWrites)

omit [EbikeControl E F] in
theorem meet_follows (input : Input F) (f : Follows start s.nowUs taken m s) :
    ∃ m, Follows start input.nowUs taken m ((s.meet input).record (.spin input.nowUs)) := by
  have met : Follows start s.nowUs taken m { s.meet input with nowUs := s.nowUs } :=
    ⟨f.tracks.still rfl rfl id, f.calm, f.wired⟩
  refine ⟨{ m with setpointNow := false, droppedNow := false, check := none, handed := none },
    met.tracks.note (e := .spin input.nowUs) f.calm rfl, f.calm.finding .., ?_⟩
  exact { f.wired with now := rfl }

theorem spinSettings_still : Still s s.spinSettings := by
  intro still
  cases engaged : s.engaged with
  | true =>
    obtain tuned | ⟨same, _⟩ := spinSettings_engaged engaged
    · rw [tuned]
      exact ⟨rfl, tuneLive_kept.1⟩
    · rw [same]
      exact ⟨rfl, rfl⟩
  | false => exact absurd (spinSettings_disengaged engaged) (by simp [still])

omit [EbikeControl E F] in
theorem spinRestart_kept (now : UInt64) :
    (s.spinRestart now).engaged = s.engaged ∧ (s.spinRestart now).startupActive = s.startupActive ∧
      (s.spinRestart now).setpoint = s.setpoint ∧
      (s.spinRestart now).checkedWrites = s.checkedWrites ∧
      (s.spinRestart now).writeCount = s.writeCount := by
  unfold System.spinRestart
  split <;> exact ⟨rfl, rfl, rfl, rfl, rfl⟩

theorem spinSettings_checked (engaged : s.engaged = true) :
    s.spinSettings.checkedWrites = s.spinSettings.writeCount ∧ s.spinSettings.setpoint = s.setpoint := by
  obtain tuned | ⟨same, current⟩ := spinSettings_engaged engaged
  · rw [tuned]
    exact ⟨tuneLive_checked, tuneLive_kept.2⟩
  · rw [same]
    exact ⟨current.symm, rfl⟩

/-- After the settings step the controller has all that is written, or a restart of it waits. -/
theorem spinSettings_compared (wired : Wired now taken m.source s.wiring) :
    s.spinSettings.settingsPending = true ∨ s.spinSettings.writeCount = s.spinSettings.appliedWrites := by
  cases engaged : s.engaged with
  | true =>
    obtain tuned | ⟨same, current⟩ := spinSettings_engaged engaged
    · rw [tuned]
      obtain waits | current := tuneLive_wiring (s := s)
      · exact .inl (congrArg Wiring.pending waits)
      · exact .inr ((congrArg Wiring.written current).trans (congrArg Wiring.applied current).symm)
    · rw [same]
      exact wired.compared.imp_right fun checked => current.trans checked
  | false =>
    have applied (s : System F E) : s.applySettings.2.settingsPending = true ∨
        s.applySettings.2.writeCount = s.applySettings.2.appliedWrites := by
      obtain waits | current := applySettings_wiring (s := s)
      · exact .inl (congrArg Wiring.pending waits)
      · exact .inr ((congrArg Wiring.written current).trans (congrArg Wiring.applied current).symm)
    unfold System.spinSettings
    simp only [engaged, Bool.false_and, Bool.false_eq_true, ↓reduceIte, Bool.not_false, Bool.true_and,
      decide_eq_true_eq]
    split
    · split
      · exact applied _
      · exact .inl rfl
    · rename_i current
      split
      · exact applied _
      · exact .inr (not_not.mp current)

theorem handing_ends {holds : Bool} (h : Handing start now taken holds m s)
    (unrecorded : s.engaged = true → s.startupActive = false) (waiting : Bool)
    (waits : waiting = ((s.handOver.spinSettings.spinRestart now).settingsPending ||
      (s.handOver.spinSettings.spinRestart now).writeCount ≠
        (s.handOver.spinSettings.spinRestart now).appliedWrites)) :
    ∃ m, SpinEnd start m { s.handOver.spinSettings.spinRestart now with settingsWaiting := waiting } := by
  obtain ⟨m, handed, check, value⟩ := handOver_follows h
  have settled : Follows start now 0 m s.handOver.spinSettings :=
    let set := spinSettings_follows handed
    ⟨set.tracks, set.calm, set.wired.settled (spinSettings_compared handed.wired)⟩
  have ended := spinRestart_follows settled
  obtain ⟨same, startupActive, setpoint, checked, written⟩ := spinRestart_kept now
    (s := s.handOver.spinSettings)
  have still (engaged : (s.handOver.spinSettings.spinRestart now).engaged = true) :=
    spinSettings_still (same.symm.trans engaged)
  refine ⟨m, ⟨ended.tracks, ended.calm, { ended.wired with now := rfl }⟩,
    ?_, ?_, ?_, ?_, waits⟩
  · intro engaged
    obtain ⟨before, kept⟩ := still engaged
    exact startupActive.trans (kept.trans (unrecorded before))
  · intro engaged
    exact checked.trans ((spinSettings_checked (still engaged).1).1.trans written.symm)
  · intro engaged
    exact ⟨_, _, check (still engaged).1⟩
  · intro engaged
    have before : s.engaged = true := (still engaged).1
    rw [before] at value
    have kept := setpoint.trans (spinSettings_checked (still engaged).1).2
    rw [value]
    exact congrArg (fun setpoint : OuterSetpoint F => some { setpoint with active := true }) kept.symm

theorem spin_ends (owned : Owned start) (f : Follows start s.nowUs 0 m s) (input : Input F) :
    ∃ m, SpinEnd start m (s.spin input) := by
  obtain ⟨m, met⟩ := meet_follows input f
  obtain ⟨m, dispatched⟩ := spinNode_follows met
  obtain ⟨m, led, obeyed⟩ := spinLocalControl_follows input.motorTemperature (watchBus_follows dispatched)
  have asked := takeEngageRequest_follows led
  have stepped := spinStartup_follows asked
  obtain ⟨holds, m, handing⟩ := spinEngagement_handing stepped
    (spinStartup_obeyed (takeEngageRequest_obeyed obeyed))
  refine handing_ends handing (fun engaged => ?_) _ rfl
  obtain ⟨before, same⟩ := spinEngagement_still engaged
  exact same.trans (spinStartup_unrecorded owned asked before)

/-! ### Runs -/

section Runs

omit [EbikeControl E F]

/-- Between nothing and the first start of the controller. -/
def bootMarks (boot : Boot F E) : Marks F where
  source := .message
  setpointNow := false
  droppedNow := false
  stageSeen := false
  check := none
  handed := none
  acknowledging := false
  leaving := false
  engaging := false
  starting := false
  closing := false
  applying := true
  dropping := boot.dropsFault
  tuning := false
  stopping := false

/-- The machine as a boot finds it, about to start the controller. -/
def bootState (boot : Boot F E) : Arming F :=
  .mk ({ constructed boot with nowUs := boot.nowUs }.view (bootMarks boot)) (coldBoard boot).outputs

theorem bootState_owned (boot : Boot F E) : Owned (bootState boot) where
  held := nofun
  exclusive := nofun
  stopped := nofun
  quiet := nofun
  asked := nofun
  engaging := nofun
  leaving := nofun

theorem bootBoard_tracks (boot : Boot F E) :
    Tracks (bootState boot)
      ({ constructed boot with nowUs := boot.nowUs }.view { bootMarks boot with applying := false, dropping := false })
      (bootBoard boot) := by
  have cold : Tracks (bootState boot) ({ constructed boot with nowUs := boot.nowUs }.view (bootMarks boot))
      (coldBoard boot) := ⟨rfl, trivial, OuterLoop.powerOn_counted⟩
  exact cold.startRuntime boot.store.settings boot.store.capabilities.maxPhaseCurrent rfl rfl rfl

end Runs

theorem boot_ends (boot : Boot F E) : ∃ m, SpinEnd (bootState boot) m (System.boot boot) := by
  have started := bootBoard_tracks boot
  have view := loadParameters_view (m := { bootMarks boot with applying := false, dropping := false }) boot.store.settings
    (s := { constructed boot with nowUs := boot.nowUs })
  refine ⟨{ bootMarks boot with applying := false, dropping := false },
    ⟨started.seen view, ⟨rfl, rfl, rfl, rfl, rfl, rfl, rfl, rfl⟩, ?_⟩,
    nofun, nofun, nofun, nofun, rfl⟩
  have unwritten : (System.boot boot).wiring.written - (System.boot boot).wiring.applied = 0 := UInt32.sub_self 0
  exact ⟨rfl, fun _ => rfl, .inr rfl, .inr (unwritten ▸ Nat.zero_le 0), nofun, nofun⟩

theorem spins_end (owned : Owned start) (inputs : List (Input F)) (ended : SpinEnd start m s) :
    ∃ m, SpinEnd start m (inputs.foldl System.spin s) := by
  induction inputs generalizing s m with
  | nil => exact ⟨m, ended⟩
  | cons input rest ih =>
    obtain ⟨m', next⟩ := spin_ends owned ended.follows input
    exact ih next

/-- Every run of the drive is a run of the arming machine. -/
theorem run_ends (boot : Boot F E) (inputs : List (Input F)) :
    ∃ m, SpinEnd (bootState boot) m (run boot inputs) := by
  obtain ⟨m, booted⟩ := boot_ends boot
  exact spins_end (bootState_owned boot) inputs booted

end Unimoc.Drive.System
