import Unimoc.Drive.History

/-! The settings of the running controller and the live ones: what an engage finds, and what
an engaged drive takes over. -/
namespace Unimoc.Drive

open CurrentControl Cyphal Firmware Runs Settings Startup Trace

variable {F E : Type} [Arithmetic F]

/-! ### Which settings the controller has -/

section Settled

variable {boot : System.Boot F E}

/-- A change of the live settings the controller does not have is pending, counted, or left
to the end of a run; the controller was started with all it does not take over live. -/
structure Settled (boot : System.Boot F E) (c : Arming F) (past : List (Event F)) : Prop where
  current : c.pending = true ∨ c.applied ≠ c.written ∨ c.startupActive = true ∨
    ∀ r, r.effect ≠ .restart → c.appliedSettings r = c.live r
  started : ∀ r, r.effect ≠ .immediate →
    sameEncoding r.kind (startSettings boot.store.settings past r) (c.appliedSettings r) = true

/-- A change of the settings waits, but that of the node-ID, which no controller reads. -/
theorem settled_changed {past : List (Event F)} {change : SettingsChange} {settings : NvmSettings}
    (held : Settled boot (after boot past) past)
    (admitted : (after boot past).admits (.settingsChanged change settings)) :
    Settled boot ((after boot past).next (.settingsChanged change settings))
      (.settingsChanged change settings :: past) := by
  obtain ⟨frame, calibrates, _, _, apart⟩ := admitted
  cases change with
  | write r =>
    refine ⟨?_, held.started⟩
    obtain pending | behind := apart rfl
    · exact .inl (by simp [Arming.next, Private.changed, pending])
    · exact .inr (.inl behind.symm)
  | factoryReset => exact ⟨.inl (Bool.or_true _), held.started⟩
  | calibration => exact ⟨.inr (.inr (.inl (calibrates rfl).1)), held.started⟩
  | nodeId =>
    refine ⟨?_, held.started⟩
    obtain pending | waits | recorded | same := held.current
    · exact .inl (by simp [Arming.next, Private.changed, pending])
    · exact .inr (.inl waits)
    · exact .inr (.inr (.inl recorded))
    · refine .inr (.inr (.inr fun r live => ?_))
      have other : r ≠ .nodeId := by
        rintro rfl
        exact live rfl
      exact (same r live).trans (frame r other).symm

theorem settled_step (e : Event F) (past : List (Event F)) (held : Settled boot (after boot past) past)
    (admitted : (after boot past).admits e) :
    Settled boot ((after boot past).next e) (e :: past) := by
  cases e with
  | settingsChanged change settings => exact settled_changed held admitted
  | settingsPending | tuneBlocked | runEndRecorded => exact ⟨.inl rfl, held.started⟩
  | applyChecked dropsFault =>
    refine ⟨?_, held.started⟩
    exact held.current.imp_left fun pending => by simp [Arming.next, pending]
  | runRecorded => exact ⟨.inr (.inr (.inl rfl)), held.started⟩
  | startRuntime settings accepted dropsFault =>
    refine ⟨.inr (.inr (.inr fun r _ => ?_)), fun r _ => sameEncoding_self ..⟩
    exact congrFun admitted.2.1 r
  | tuned settings =>
    obtain ⟨_, _, same, tunable, _⟩ := admitted
    refine ⟨.inr (.inr (.inr fun r _ => congrFun same r)), fun r untunable => ?_⟩
    rw [firstUntunableChange_none] at tunable
    subst same
    exact sameEncoding_trans (held.started r untunable) (tunable r untunable)
  | _ => exact ⟨held.current, held.started⟩

theorem settled {trace : List (Event F)} (legal : (bootMachine boot).Legal trace) :
    Settled boot (after boot trace) trace :=
  after_invariant boot (fun _ _ => True) (Settled boot)
    ⟨.inr (.inr (.inr fun _ _ => rfl)), fun _ _ => sameEncoding_self ..⟩
    (fun e past _ held admitted _ => settled_step e past held admitted) legal
    (Throughout.of_forall fun _ _ => trivial)

end Settled

/-! ### The engage -/

section Engage

/-- The drive engages with a controller that was started with the live settings, but for the
registers that need a restart of the program. -/
def engagedOnStart (boot : System.Boot F E) : Event F → List (Event F) → Bool
  | .engaged, past =>
    Register.all.all fun r => r.effect = .restart ||
      sameEncoding r.kind (startSettings boot.store.settings past r)
        (liveSettings boot.store.settings past r)
  | _, _ => true

/-- Once the end of a run is recorded: the controller was started with what the live settings
hold for it, and handed the tunable rest. -/
def EngagedOnLive (boot : System.Boot F E) : Event F → List (Event F) → Prop
  | .engaged, past =>
    recordedRun past = false →
      (∀ r, r.effect = .disengaged →
        sameEncoding r.kind (startSettings boot.store.settings past r)
          (liveSettings boot.store.settings past r) = true) ∧
      ∀ r, r.effect = .immediate →
        handedSettings boot.store.settings past r = liveSettings boot.store.settings past r
  | _, _ => True

theorem engagedOnLive_of_settled {boot : System.Boot F E} (e : Event F) (past : List (Event F))
    (held : Settled boot (after boot past) past) (admitted : (after boot past).admits e) :
    EngagedOnLive boot e past := by
  cases e with
  | engaged =>
    intro recorded
    obtain ⟨_, _, _, _, _, applied, current, _⟩ := admitted
    rw [← after_startupActive boot] at recorded
    have same : ∀ r, r.effect ≠ .restart → (after boot past).appliedSettings r = (after boot past).live r := by
      obtain pending | waits | active | same := held.current
      · exact absurd pending (by simp [applied])
      · exact absurd current waits
      · exact absurd active (by simp [recorded])
      · exact same
    constructor
    · intro r effect
      have started := held.started r (by simp [effect])
      rw [same r (by simp [effect]), after_live] at started
      exact started
    · intro r effect
      rw [← after_appliedSettings, ← after_live]
      exact same r (by simp [effect])
  | _ => trivial

theorem engaged_on_live [EbikeControl E F] (boot : System.Boot F E) (inputs : List (System.Input F)) :
    Throughout (EngagedOnLive boot) (System.run boot inputs).board.trace := by
  obtain ⟨m, ended⟩ := ended boot inputs
  exact throughout_of_invariant boot (fun _ _ => True) (Settled boot) _ (fun legal _ => settled legal)
    (fun e past _ held admitted _ => engagedOnLive_of_settled e past held admitted) ended.legal
    (Throughout.of_forall fun _ _ => trivial)

/-- A gain tuned in while the drive was engaged needs no start at the next engage. -/
theorem engaged_tuned :
    ¬Throughout (fun e past => engagedOnStart simBoot e past)
      (System.run simBoot [simInput 2000 [readinessMessage readinessEngaged] [],
        simInput 3000 [speedGainWrite 0x3F000000] [], simInput 4000 [readinessMessage 0] [],
        simInput 5000 [readinessMessage readinessEngaged] []]).board.trace := by
  decide +kernel

end Engage

/-! ### Live tuning -/

section Tuning

/-- A live tuning finds the node-ID the controller was given, and no engage request is taken
up between a run and the record of its end. -/
def tunesFreely (boot : System.Boot F E) : Event F → List (Event F) → Bool
  | .tuneStarted, past =>
    sameEncoding Register.nodeId.kind (handedSettings boot.store.settings past .nodeId)
      (liveSettings boot.store.settings past .nodeId)
  | .engageStep, past => !(recordedRun past && !activeRun past)
  | _, _ => true

/-- The settings the controller has, but for those it takes live and the node-ID. -/
def Agreed (c : Arming F) : Prop :=
  ∀ r, r.effect ≠ .immediate → r ≠ .nodeId →
    sameEncoding r.kind (c.appliedSettings r) (c.live r) = true

/-- The gains the loops will use are those of the settings the controller has. -/
def GainsLoaded (c : Arming F) : Prop :=
  (pwmHertz F c.appliedSettings = 0 ∨ c.cycleGains = currentGains c.appliedSettings) ∧
    c.stepGains = OuterLoop.gainsFrom c.appliedSettings

/-- What a live tuning rests on, while writes change tunable registers only. -/
structure Tunable (c : Arming F) (past : List (Event F)) : Prop where
  engaging : c.engaging = true → c.startupActive = true → c.running = true
  unrecorded : c.engaged = true → c.startupActive = false
  agreed : tunableSince past = true → c.pending = true ∨ c.startupActive = true ∨ Agreed c
  free : tunableSince past = true → c.engaged = true → c.pending = false
  tuning : c.tuning = true → c.checked = c.written ∧
    sameEncoding Register.nodeId.kind (c.appliedSettings .nodeId) (c.live .nodeId) = true
  checked : c.tuning = false → c.checked = c.applied ∨ c.pending = true
  loaded : tunableSince past = true → c.tuning = false → c.applying = true ∨ GainsLoaded c

section Steps

variable {boot : System.Boot F E} {past : List (Event F)}

/-- An engaged drive whose writes are tunable ones has nothing to block a tuning. -/
theorem Tunable.unblocked {c : Arming F} (t : Tunable c past) (since : tunableSince past = true)
    (engaged : c.engaged = true) (tuning : c.tuning = true) :
    firstUntunableChange c.appliedSettings c.live = none := by
  rw [firstUntunableChange_none]
  intro r untunable
  by_cases id : r = .nodeId
  · subst id
    exact (t.tuning tuning).2
  · obtain pending | recorded | agreed := t.agreed since
    · exact absurd pending (by simp [t.free since engaged])
    · exact absurd recorded (by simp [t.unrecorded engaged])
    · exact agreed r untunable id

theorem agreed_changed {c : Arming F} {change : SettingsChange} {settings : NvmSettings}
    (agreed : Agreed c) (admitted : c.admits (.settingsChanged change settings))
    (narrow : ∀ r, r.effect ≠ .immediate → r ≠ .nodeId → ¬Arming.touches change r) :
    Agreed (c.next (.settingsChanged change settings)) := by
  intro r untunable other
  have same : settings r = c.live r := admitted.1 r (narrow r untunable other)
  simp only [Arming.next, Private.changed, same]
  exact agreed r untunable other

theorem tunable_changed {c : Arming F} {change : SettingsChange} {settings : NvmSettings}
    (t : Tunable c past) (admitted : c.admits (.settingsChanged change settings)) :
    Tunable (c.next (.settingsChanged change settings)) (.settingsChanged change settings :: past) := by
  obtain ⟨_, calibrates, resets, untuned, _⟩ := id admitted
  have idle : (c.next (.settingsChanged change settings)).tuning = true → False := fun tuning =>
    absurd tuning (by simp [Arming.next, Private.changed, untuned])
  have checked : c.checked = c.applied ∨ (c.next (.settingsChanged change settings)).pending = true :=
    (t.checked untuned).imp_right fun pending => by simp [Arming.next, Private.changed, pending]
  cases change with
  | write r =>
    have narrowed (since : tunableSince (.settingsChanged (.write r) settings :: past) = true) :
        r.effect = .immediate ∧ tunableSince past = true := by
      by_cases tunes : r.effect = .immediate
      · exact ⟨tunes, by simpa [tunableSince, tunes] using since⟩
      · exact absurd since (by simp [tunableSince, tunes])
    refine ⟨t.engaging, t.unrecorded, fun since => ?_, fun since engaged => ?_,
      fun tuning => (idle tuning).elim, fun _ => checked, fun since _ => t.loaded (narrowed since).2 untuned⟩
    · obtain pending | recorded | agreed := t.agreed (narrowed since).2
      · exact .inl (by simp [Arming.next, Private.changed, pending])
      · exact .inr (.inl recorded)
      · refine .inr (.inr (agreed_changed agreed admitted fun q untunable _ touched => ?_))
        rw [show q = r from touched] at untunable
        exact untunable (narrowed since).1
    · simp [Arming.next, Private.changed, t.free (narrowed since).2 engaged]
  | factoryReset =>
    exact ⟨t.engaging, t.unrecorded, fun _ => .inl (Bool.or_true _),
      fun _ engaged => absurd engaged (by simp [Arming.next, Private.changed, resets rfl]),
      fun tuning => (idle tuning).elim, fun _ => checked, fun since _ => t.loaded since untuned⟩
  | calibration =>
    refine ⟨t.engaging, t.unrecorded, fun _ => .inr (.inl (calibrates rfl).1), fun since engaged => ?_,
      fun tuning => (idle tuning).elim, fun _ => checked, fun since _ => t.loaded since untuned⟩
    simp [Arming.next, Private.changed, t.free since engaged]
  | nodeId =>
    refine ⟨t.engaging, t.unrecorded, fun since => ?_, fun since engaged => ?_,
      fun tuning => (idle tuning).elim, fun _ => checked, fun since _ => t.loaded since untuned⟩
    · obtain pending | recorded | agreed := t.agreed since
      · exact .inl (by simp [Arming.next, Private.changed, pending])
      · exact .inr (.inl recorded)
      · exact .inr (.inr (agreed_changed agreed admitted fun q _ other touched => other touched))
    · simp [Arming.next, Private.changed, t.free since engaged]

theorem tunable_started {c : Arming F} {settings : NvmSettings} {accepted dropsFault : Bool}
    (t : Tunable c past) (admitted : c.admits (.startRuntime settings accepted dropsFault)) :
    Tunable (c.next (.startRuntime settings accepted dropsFault))
      (.startRuntime settings accepted dropsFault :: past) := by
  obtain ⟨_, live, _⟩ := admitted
  subst live
  refine ⟨t.engaging, t.unrecorded, fun _ => .inr (.inr fun r _ _ => sameEncoding_self ..), fun _ _ => rfl,
    fun _ => ⟨rfl, sameEncoding_self ..⟩, fun _ => .inl rfl, fun _ _ => .inr ⟨?_, rfl⟩⟩
  by_cases stopped : pwmHertz F c.live = 0
  · exact .inl stopped
  · exact .inr (by simp [Arming.next, Arming.restart, Private.restarted, stopped])

theorem tunable_tuned {c : Arming F} {settings : NvmSettings} (t : Tunable c past)
    (admitted : c.admits (.tuned settings)) : Tunable (c.next (.tuned settings)) (.tuned settings :: past) := by
  obtain ⟨_, tuning, live, _, cycle, step⟩ := admitted
  subst live
  exact ⟨t.engaging, t.unrecorded, fun _ => .inr (.inr fun r _ _ => sameEncoding_self ..), t.free, nofun,
    fun _ => .inl (t.tuning tuning).1, fun _ _ => .inr ⟨.inr cycle, step⟩⟩

theorem tunable_step (e : Event F) (past : List (Event F)) (owned : Owned (after boot past))
    (t : Tunable (after boot past) past) (admitted : (after boot past).admits e)
    (met : tunesFreely boot e past = true) : Tunable ((after boot past).next e) (e :: past) := by
  cases e with
  | settingsChanged change settings => exact tunable_changed t admitted
  | startRuntime settings accepted dropsFault => exact tunable_started t admitted
  | tuned settings => exact tunable_tuned t admitted
  | engageStep =>
    refine ⟨fun _ recorded => ?_, t.unrecorded, t.agreed, t.free, t.tuning, t.checked, t.loaded⟩
    have recorded : recordedRun past = true := (after_startupActive boot past).symm.trans recorded
    rw [Arming.next, after_running]
    simpa [tunesFreely, recorded] using met
  | engageIgnored | engageRefused =>
    exact ⟨lowered, t.unrecorded, t.agreed, t.free, t.tuning, t.checked, t.loaded⟩
  | engaged =>
    obtain ⟨engaging, _, _, idle, _, applied, _⟩ := admitted
    refine ⟨lowered, fun _ => ?_, t.agreed, fun _ _ => applied, t.tuning, t.checked, t.loaded⟩
    cases recorded : (after boot past).startupActive with
    | false => exact recorded
    | true => exact absurd (t.engaging engaging recorded) (by simp [idle])
  | disengaged reason =>
    exact ⟨t.engaging, lowered, t.agreed, fun _ => lowered, t.tuning, t.checked, t.loaded⟩
  | runStarted => exact ⟨fun _ _ => rfl, t.unrecorded, t.agreed, t.free, t.tuning, t.checked, t.loaded⟩
  | runEnded reason =>
    have idle : (after boot past).engaging = false := admitted.2.2.1
    refine ⟨fun engaging => ?_, t.unrecorded, t.agreed, t.free, t.tuning, t.checked, t.loaded⟩
    exact absurd engaging (by simp [Arming.next, idle])
  | runRecorded =>
    have running : (after boot past).running = true := admitted
    refine ⟨fun _ _ => running, fun engaged => ?_, fun _ => .inr (.inl rfl), t.free, t.tuning, t.checked,
      t.loaded⟩
    exact absurd running (by simp [owned.exclusive engaged])
  | runEndRecorded =>
    refine ⟨fun _ => lowered, fun _ => rfl, fun _ => .inl rfl, fun _ engaged => ?_, t.tuning,
      fun _ => .inr rfl, t.loaded⟩
    exact absurd admitted.2.1 (by simp [t.unrecorded engaged])
  | settingsPending =>
    refine ⟨t.engaging, t.unrecorded, fun _ => .inl rfl, fun _ engaged => ?_, t.tuning, fun _ => .inr rfl,
      t.loaded⟩
    exact absurd engaged (by simp [Arming.next, show (after boot past).engaged = false from admitted])
  | applyChecked dropsFault =>
    obtain ⟨disengaged, _, _, calm⟩ := admitted
    refine ⟨t.engaging, t.unrecorded, fun since => ?_, fun _ engaged => ?_, t.tuning, fun untuned => ?_,
      fun since untuned => .inr ?_⟩
    · exact (t.agreed since).imp_left fun pending => by simp [Arming.next, pending]
    · exact absurd engaged (by simp [Arming.next, disengaged])
    · exact (t.checked untuned).imp_right fun pending => by simp [Arming.next, pending]
    · exact (t.loaded since untuned).resolve_left (by simp [calm])
  | tuneStarted =>
    refine ⟨t.engaging, t.unrecorded, t.agreed, t.free, fun _ => ⟨rfl, ?_⟩,
      fun untuned => lowered untuned.symm, fun _ untuned => lowered untuned.symm⟩
    rw [Arming.next, after_appliedSettings, after_live]
    exact met
  | tuneBlocked =>
    obtain ⟨engaged, tuning, blocked⟩ := admitted
    refine ⟨t.engaging, t.unrecorded, fun _ => .inl rfl, fun since _ => ?_, lowered, fun _ => .inr rfl,
      fun since _ => ?_⟩
    · exact absurd (t.unblocked since engaged tuning) blocked
    · exact absurd (t.unblocked since engaged tuning) blocked
  | currentGains gains =>
    exact ⟨t.engaging, t.unrecorded, t.agreed, t.free, t.tuning, t.checked,
      fun _ untuned => absurd admitted.1 (by simp [show (after boot past).tuning = false from untuned])⟩
  | loopGains gains =>
    exact ⟨t.engaging, t.unrecorded, t.agreed, t.free, t.tuning, t.checked,
      fun _ untuned => absurd admitted.1 (by simp [show (after boot past).tuning = false from untuned])⟩
  | _ => exact ⟨t.engaging, t.unrecorded, t.agreed, t.free, t.tuning, t.checked, t.loaded⟩

end Steps

section Gains

variable {first second : NvmSettings}

theorem currentGains_congr (same : ∀ r : Register, r.effect ≠ .restart → first r = second r) :
    (currentGains first : CurrentGains F) = currentGains second := by
  unfold currentGains
  rw [NvmSettings.real_congr (same .currentKpD (by decide)),
    NvmSettings.real_congr (same .currentKiD (by decide)),
    NvmSettings.real_congr (same .currentKpQ (by decide)),
    NvmSettings.real_congr (same .currentKiQ (by decide))]

theorem gainsFrom_congr (same : ∀ r : Register, r.effect ≠ .restart → first r = second r) :
    (OuterLoop.gainsFrom first : LoopGains F) = OuterLoop.gainsFrom second := by
  unfold OuterLoop.gainsFrom
  rw [NvmSettings.real_congr (same .speedKp (by decide)),
    NvmSettings.real_congr (same .speedKi (by decide)),
    NvmSettings.real_congr (same .speedAccelLimit (by decide)),
    NvmSettings.real_congr (same .posKpPos (by decide)),
    NvmSettings.real_congr (same .posSpeedLimit (by decide)),
    NvmSettings.real_congr (same .posAccelLimit (by decide)),
    NvmSettings.real_congr (same .posPositionTolerance (by decide)),
    NvmSettings.real_congr (same .posSpeedTolerance (by decide))]

theorem pwmHertz_congr (same : ∀ r : Register, r.effect ≠ .restart → first r = second r) :
    pwmHertz F first = pwmHertz F second := by
  unfold pwmHertz
  rw [NvmSettings.real_congr (same .pwmFrequency (by decide))]

end Gains

/-- At the end of a spin of the engaged drive nothing waits, and the gains of the next control
cycle and of the next step are those a restart with the live settings would load. -/
structure TunedLive (s : System F E) : Prop where
  waiting : s.settingsWaiting = false
  cycleGains : (s.board.isr.init s.board.store.settings s.board.timerClock).nextGains =
    s.board.isr.nextGains
  stepGains : (s.board.outer.init s.board.store.settings).nextGains = s.board.outer.nextGains

theorem tuned_live [EbikeControl E F] (boot : System.Boot F E) (inputs : List (System.Input F))
    (few : (System.run boot inputs).board.outer.untaken + 1 < 2 ^ 32)
    (since : tunableSince (System.run boot inputs).board.trace = true)
    (met : Throughout (fun e past => tunesFreely boot e past) (System.run boot inputs).board.trace)
    (engaged : (System.run boot inputs).engaged = true) : TunedLive (System.run boot inputs) := by
  obtain ⟨m, ended⟩ := ended boot inputs
  have t : Tunable (after boot (System.run boot inputs).board.trace) (System.run boot inputs).board.trace :=
    after_invariant boot _ Tunable
      ⟨nofun, nofun, fun _ => .inr (.inr fun _ _ _ => sameEncoding_self ..), nofun, nofun,
        fun _ => .inl rfl, fun _ _ => .inl rfl⟩
      (fun e past owned t admitted met => tunable_step e past owned t admitted met) ended.legal met
  have settled := settled ended.legal
  rw [ended.state] at t settled
  have calm := ended.spun.follows.calm
  have applied : (System.run boot inputs).settingsPending = false := t.free since engaged
  have current : (System.run boot inputs).writeCount = (System.run boot inputs).appliedWrites := by
    obtain same | pending := t.checked calm.tuning
    · exact (ended.spun.checked engaged).symm.trans same
    · exact absurd pending (by simp [System.view, applied])
  have same : ∀ r : Register, r.effect ≠ .restart →
      (System.run boot inputs).appliedSettings r = (System.run boot inputs).board.store.settings r := by
    obtain pending | waits | recorded | same := settled.current
    · exact absurd pending (by simp [System.view, applied])
    · exact absurd current.symm waits
    · exact absurd recorded (by simp [System.view, ended.spun.recorded engaged])
    · exact same
  obtain ⟨cycle, step⟩ := (t.loaded since calm.tuning).resolve_left (by simp [System.view, calm.applying])
  refine ⟨?_, ?_, ?_⟩
  · rw [ended.spun.waiting]
    simp [applied, current]
  · rw [CurrentControlIsr.init_nextGains, ← pwmHertz_congr same, ← currentGains_congr same]
    split
    · rfl
    · rename_i runs
      exact (cycle.resolve_left runs).symm
  · have counted := ended.spun.follows.tracks.counted
    rw [(counted.init _).nextGains_eq few, counted.nextGains_eq (Nat.lt_of_succ_lt few), OuterLoop.init_gains,
      ← gainsFrom_congr same]
    exact step.symm

def gainInputs : List (System.Input Binary32) :=
  [simInput 2000 [readinessMessage readinessEngaged] [], simInput 3000 [speedGainWrite 0x3F000000] []]

/-- A gain written while the drive is engaged. -/
theorem tuned_live_gain : TunedLive (System.run simBoot gainInputs) := by
  have few : (System.run simBoot gainInputs).board.outer.untaken + 1 < 2 ^ 32 := by
    decide +kernel
  have ran : tunableSince (System.run simBoot gainInputs).board.trace = true ∧
      Throughout (fun e past => tunesFreely simBoot e past) (System.run simBoot gainInputs).board.trace ∧
      (System.run simBoot gainInputs).engaged = true := by
    decide +kernel
  exact tuned_live simBoot gainInputs few ran.1 ran.2.1 ran.2.2

def anonymousSettings : NvmSettings := simStore.settings.set .nodeId (0 : UInt8)

def anonymousBoot : System.Boot Binary32 Empty :=
  { simBoot with store := { simStore with settings := anonymousSettings, stored := anonymousSettings } }

def allocationMessage (nodeId : UInt16) : Transfer Binary32 :=
  ⟨.message, nodeIdAllocationPort, 7, { Payload.malformed with allocation := some ⟨0, [nodeId]⟩ }⟩

def allocatedInputs : List (System.Input Binary32) :=
  [simInput 2000 [allocationMessage 42] [], simInput 3000 [readinessMessage readinessEngaged] [],
    simInput 4000 [speedGainWrite 0x3F000000] []]

/-- The allocated node-ID blocks every tuning until a restart of the controller. -/
theorem tuning_blocked :
    ¬(tunableSince (System.run anonymousBoot allocatedInputs).board.trace = true →
      (System.run anonymousBoot allocatedInputs).engaged = true →
      TunedLive (System.run anonymousBoot allocatedInputs)) := by
  intro claim
  have ran : tunableSince (System.run anonymousBoot allocatedInputs).board.trace = true ∧
      (System.run anonymousBoot allocatedInputs).engaged = true ∧
      ¬(System.run anonymousBoot allocatedInputs).settingsWaiting = false := by
    decide +kernel
  exact ran.2.2 (claim ran.1 ran.2.1).waiting

end Tuning

end Unimoc.Drive
