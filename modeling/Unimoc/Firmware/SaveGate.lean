import Unimoc.Hardware.TripSafety
import Unimoc.Lib.Interleaving
import Unimoc.Settings.Factory
import Unimoc.Settings.Saving

/-! The gate of a save and the release of the power stage, access by access. Any number of
threads enable and save; the platform callbacks and each call of the storage are one step. -/
namespace Unimoc.Firmware

open Hardware Settings Resumption

/-- A call of a save with the outputs it meets; the answers of the enable callback and of the
enable itself. -/
inductive GateEvent
  | save (call : SaveEvent) (outputs : Bool)
  | callback (answer : Bool)
  | enabled (answer : Bool)
deriving DecidableEq, Repr

/-- `storage` lists the answers of the storage, success when it ends; `log` holds the newest
event first. -/
structure Guarded where
  enableLock : Bool
  stage : PowerStage
  storage : List SettingsStorageStatus
  log : List GateEvent

namespace Guarded

def record (e : GateEvent) (s : Guarded) : Guarded := { s with log := e :: s.log }

def recordSave (call : SaveEvent) (s : Guarded) : Guarded := s.record (.save call s.stage.enabled)

def setLock (s : Guarded) : Guarded := { s with enableLock := true }

def clearLock (s : Guarded) : Guarded := { s with enableLock := false }

/-! ### `PowerStageInterface` and `PowerStageSaveGate` -/

def enable : Resumption Guarded Bool := do
  if ← exchange (·.enableLock) fun s => if s.enableLock then s.record (.enabled false) else s.setLock then
    pure false
  else
    let answer ← exchange (·.stage.enable.1) fun s =>
      { s with stage := s.stage.enable.2 }.record (.callback s.stage.enable.1)
    modify fun s => s.clearLock.record (.enabled answer)
    pure answer

def holdOffEnable : Resumption Guarded Bool :=
  exchange (!·.enableLock) fun s =>
    if s.enableLock then s.recordSave (.tryBegin false) else s.setLock

def getState : Resumption Guarded PowerStageState :=
  exchange (·.stage.getState) fun s =>
    if s.stage.getState = .disabled then s.recordSave (.tryBegin true) else s

def releaseEnable (call : SaveEvent) : Resumption Guarded Unit :=
  modify fun s => s.clearLock.recordSave call

def tryBegin : Resumption Guarded Bool := do
  if !(← holdOffEnable) then pure false
  else if (← getState) ≠ .disabled then
    releaseEnable (.tryBegin false)
    pure false
  else pure true

/-! ### A save -/

/-- A write or an erase. -/
def storageCall (call : SettingsStorageStatus → SaveEvent) : Resumption Guarded SettingsStorageStatus :=
  exchange (·.storage.headD .success) fun s =>
    { s with storage := s.storage.tail }.recordSave (call (s.storage.headD .success))

variable {F : Type} (store : SettingsStore F)

/-- What a save keeps to itself. -/
structure Local where
  result : SettingsStatus
  saving : Bool
  stored : NvmSettings

/-- Taken before the first write and held to the end. -/
def hold (saving : Bool) : Resumption Guarded Bool := if saving then pure true else tryBegin

def saveRegister (l : Local) (r : Register) : Resumption Guarded Local :=
  if l.result ≠ .success then pure l
  else
    let live := store.settings r
    let changed := !sameEncoding r.kind live (l.stored r)
    if !changed && !(store.eraseDefaults && store.atFactory r) then pure l
    else do
      if !(← hold l.saving) then pure { l with result := .persistBlocked }
      else
        let result := toSettingsStatus (← storageCall (store.callOf r))
        pure ⟨result, true, if result = .success then l.stored.set r live else l.stored⟩

def saveChanged : Resumption Guarded Local := do
  let l ← Register.all.foldlM (saveRegister store) ⟨.success, false, store.stored⟩
  if l.saving then
    releaseEnable .finish
    pure l
  else pure l

inductive Call (F : Type)
  | enable
  | save (store : SettingsStore F)

def routine : Call F → Resumption Guarded Unit
  | .enable => enable >>= fun _ => pure ()
  | .save store => saveChanged store >>= fun _ => pure ()

/-- A trip, a disable, an acknowledge or a change of the external enable. -/
def outside (i : Interruption) (s : Guarded) : Guarded := { s with stage := sim.interrupted i s.stage }

def powerOn (stage : PowerStage) (storage : List SettingsStorageStatus) : Guarded := ⟨false, stage, storage, []⟩

abbrev machine (ι F : Type) [DecidableEq ι] (stage : PowerStage) (storage : List SettingsStorageStatus) :
    Runs.Machine (Threads ι Guarded) (ThreadEvent ι (Call F) Interruption) :=
  Threads.machine routine outside (powerOn stage storage)

/-! ### With nothing in between a save is the save of the store -/

def after (s : Guarded) (t : SaveTrace) : Guarded :=
  { s with
    enableLock := s.enableLock || t.saving
    storage := t.storage
    log := t.events.reverse.map (.save · s.stage.enabled) ++ s.log }

def localOf (t : SaveTrace) : Local := ⟨t.result, t.saving, t.stored⟩

/-- Whether `TryBegin` succeeds. -/
def opens (s : Guarded) : Bool := !s.enableLock && s.stage.getState = .disabled

theorem tryBegin_run (s : Guarded) : tryBegin.run s =
    (s.opens, if s.opens then s.setLock.recordSave (.tryBegin true) else s.recordSave (.tryBegin false)) := by
  obtain ⟨lock, stage, storage, log⟩ := s
  cases lock with
  | true => rfl
  | false =>
    by_cases state : stage.getState = .disabled
    · simp [tryBegin, holdOffEnable, getState, opens, setLock, state]
    · simp [tryBegin, holdOffEnable, getState, releaseEnable, opens, setLock, clearLock, recordSave, record,
        state]

variable {store} {s : Guarded} {t : SaveTrace}

theorem hold_run_held (held : t.saving = true) :
    (hold t.saving).run (s.after t) = (true, s.after t) := by
  rw [held]
  rfl

theorem hold_run_opens (first : t.saving = false) (opens : s.opens = true) :
    (hold t.saving).run (s.after t) =
      (true, s.after { t with saving := true, events := t.events ++ [.tryBegin true] }) := by
  have same : (s.after t).opens = true := by simpa [Guarded.opens, after, first] using opens
  rw [first]
  change tryBegin.run (s.after t) = _
  rw [tryBegin_run, same, if_pos rfl]
  simp [after, setLock, recordSave, record]

theorem hold_run_blocked (first : t.saving = false) (closed : s.opens = false) :
    (hold t.saving).run (s.after t) = (false, s.after { t with events := t.events ++ [.tryBegin false] }) := by
  have same : (s.after t).opens = false := by simpa [Guarded.opens, after, first] using closed
  rw [first]
  change tryBegin.run (s.after t) = _
  rw [tryBegin_run, same, if_neg Bool.false_ne_true]
  simp [after, recordSave, record]

theorem storageCall_run (call : SettingsStorageStatus → SaveEvent) (result : SettingsStatus)
    (stored : NvmSettings) :
    (storageCall call).run (s.after t) =
      (t.storage.headD .success,
        s.after ⟨⟨result, t.saving, stored, t.storage.tail⟩,
          t.events ++ [call (t.storage.headD .success)]⟩) := by
  simp [after, storageCall, recordSave, record]

theorem saveRegister_run (r : Register) :
    (saveRegister store (localOf t) r).run (s.after t) =
      (localOf (store.traceRegister s.opens t r), s.after (store.traceRegister s.opens t r)) := by
  by_cases failed : t.result = .success
  · cases due : !(!sameEncoding r.kind (store.settings r) (t.stored r)) &&
        !(store.eraseDefaults && store.atFactory r) with
    | true =>
      simp only [saveRegister, SettingsStore.traceRegister, localOf, failed, due, ne_eq, not_true_eq_false,
        ↓reduceIte, run_pure]
    | false =>
      let result := toSettingsStatus (t.storage.headD .success)
      let stored := if result = .success then t.stored.set r (store.settings r) else t.stored
      simp only [saveRegister, SettingsStore.traceRegister, localOf, failed, due, ne_eq, not_true_eq_false,
        ↓reduceIte, run_bind, Bool.false_eq_true]
      cases held : t.saving with
      | true =>
        have taken := hold_run_held (s := s) held
        have called := storageCall_run (s := s) (t := t) (store.callOf r) result stored
        rw [held] at taken called
        simp only [taken, Bool.not_true, Bool.false_and, Bool.false_eq_true, ↓reduceIte, run_bind, run_pure,
          called, List.append_nil]
        rfl
      | false =>
        cases opens : s.opens with
        | true =>
          have taken := hold_run_opens held opens
          have called := storageCall_run (s := s)
            (t := { t with saving := true, events := t.events ++ [.tryBegin true] }) (store.callOf r) result stored
          rw [held] at taken
          simp only [taken, Bool.not_true, Bool.and_false, Bool.false_eq_true, ↓reduceIte, run_bind, run_pure,
            called]
          rfl
        | false =>
          have refused := hold_run_blocked held opens
          rw [held] at refused
          simp only [refused, Bool.not_false, Bool.and_self, ↓reduceIte, run_pure]
          simp only [after, held]
  · simp only [saveRegister, SettingsStore.traceRegister, localOf, failed, ne_eq, not_false_eq_true,
      ↓reduceIte, run_pure]

theorem saveRegisters_run (rs : List Register) (t : SaveTrace) :
    (rs.foldlM (saveRegister store) (localOf t)).run (s.after t) =
      (localOf (rs.foldl (store.traceRegister s.opens) t),
        s.after (rs.foldl (store.traceRegister s.opens) t)) := by
  induction rs generalizing t with
  | nil => rfl
  | cons r rs ih => rw [List.foldlM_cons, run_bind, saveRegister_run, ih, List.foldl_cons]

theorem saving_opens (opens : Bool) (storage : List SettingsStorageStatus)
    (saving : (store.saveChanged opens storage).saving = true) : opens = true := by
  cases opens with
  | true => rfl
  | false =>
    rw [SettingsStore.saveChanged_eq, if_pos rfl] at saving
    split_ifs at saving

/-- The gate opens for the whole save when the enable is not held off and the stage is disabled. -/
theorem saveChanged_run (store : SettingsStore F) (s : Guarded) :
    (saveChanged store).run s =
      let t := store.saveChanged s.opens s.storage
      (localOf t, { s with
        storage := t.storage
        log := t.events.reverse.map (.save · s.stage.enabled) ++ s.log }) := by
  let start : SaveTrace := ⟨⟨.success, false, store.stored, s.storage⟩, []⟩
  have begins : s.after start = s := by simp [after, start]
  have saved := @saveRegisters_run _ store s Register.all start
  have free : (store.saveChanged s.opens s.storage).saving = true → s.enableLock = false := by
    intro saving
    have opens := saving_opens _ _ saving
    simp only [Guarded.opens, Bool.and_eq_true, Bool.not_eq_true'] at opens
    exact opens.1
  rw [begins] at saved
  unfold SettingsStore.saveChanged at free ⊢
  unfold saveChanged
  rw [run_bind]
  change (Register.all.foldlM (saveRegister store) ⟨.success, false, store.stored⟩).run s = _ at saved
  rw [saved]
  generalize Register.all.foldl (store.traceRegister s.opens) _ = t at free
  cases held : t.saving with
  | true =>
    simp only [held, ↓reduceIte, forall_const] at free
    simp [localOf, after, releaseEnable, clearLock, recordSave, record, held, free]
  | false =>
    simp [localOf, after, held]

/-! ### Flash and outputs exclude each other -/

/-- Between a `TryBegin` that succeeded and its `End`. -/
def bracketOpen : List GateEvent → Bool :=
  Runs.latest (fun e _ =>
    match e with
    | .save (.tryBegin true) _ => some true
    | .save .finish _ => some false
    | _ => none) false

/-- What an event finds. -/
def Excludes : GateEvent → List GateEvent → Prop
  | .save (.tryBegin held) outputs, past => held = true → bracketOpen past = false ∧ outputs = false
  | .save .finish _, past => bracketOpen past = true
  | .save (.write _ _ _) outputs, past => bracketOpen past = true ∧ outputs = false
  | .save (.erase _ _) outputs, past => bracketOpen past = true ∧ outputs = false
  | .callback answer, past => answer = true → bracketOpen past = false
  | .enabled answer, past => answer = true → bracketOpen past = false

/-- Flash is only touched within a bracket, brackets do not overlap, no enable succeeds in one. -/
def Exclusive (s : Guarded) : Prop :=
  Runs.Throughout Excludes s.log ∧
  (bracketOpen s.log = true → s.enableLock = true ∧ s.stage.enabled = false)

inductive Mode
  | free
  | enabling
  | saving
deriving DecidableEq, Repr

/-- A thread that enables or saves has the lock. -/
def discipline : Discipline Guarded Mode where
  sound
    | .free, s => s.Exclusive
    | .enabling, s => s.Exclusive ∧ s.enableLock = true ∧ bracketOpen s.log = false
    | .saving, s => s.Exclusive ∧ bracketOpen s.log = true
  together m n := m = .free ∨ n = .free

theorem sound_exclusive {m : Mode} (sound : discipline.sound m s) : s.Exclusive := by
  cases m with
  | free => exact sound
  | enabling => exact sound.1
  | saving => exact sound.1

theorem sound_locked {m : Mode} (sound : discipline.sound m s) (busy : m ≠ .free) : s.enableLock = true := by
  cases m with
  | free => exact absurd rfl busy
  | enabling => exact sound.2.1
  | saving => exact (sound.1.2 sound.2).1

theorem sound_record {m : Mode} {e : GateEvent} (sound : discipline.sound m s) (finds : Excludes e s.log)
    (neutral : bracketOpen (e :: s.log) = bracketOpen s.log) : discipline.sound m (s.record e) := by
  have exclusive := sound_exclusive sound
  have after : (s.record e).Exclusive := by
    refine ⟨Runs.throughout_cons .. |>.mpr ⟨finds, exclusive.1⟩, ?_⟩
    intro inside
    exact exclusive.2 (neutral.symm.trans inside)
  cases m with
  | free => exact after
  | enabling => exact ⟨after, sound.2.1, neutral.trans sound.2.2⟩
  | saving => exact ⟨after, neutral.trans sound.2⟩

theorem lock_free (sound : discipline.sound .free s) (unlocked : s.enableLock = false) :
    discipline.sound .enabling s.setLock := by
  have outside : bracketOpen s.log = false := by
    cases inside : bracketOpen s.log with
    | false => rfl
    | true => exact absurd (sound.2 inside).1 (by simp [unlocked])
  exact ⟨⟨sound.1, fun inside => absurd (outside.symm.trans inside) Bool.false_ne_true⟩, rfl, outside⟩

theorem follows_testAndSet {A : Type} {post : A → Mode → Prop} (e : Guarded → GateEvent) (look : Bool → A)
    (finds : ∀ s, Excludes (e s) s.log) (neutral : ∀ s, bracketOpen (e s :: s.log) = bracketOpen s.log)
    (taken : post (look true) .free) (mine : post (look false) .enabling) :
    (exchange (fun s => look s.enableLock) fun s : Guarded =>
      if s.enableLock then s.record (e s) else s.setLock).Follows discipline post .free := by
  apply follows_exchange fun s => if s.enableLock then .free else .enabling
  · intro s sound
    cases locked : s.enableLock with
    | true => exact sound_record sound (finds s) (neutral s)
    | false => exact lock_free sound locked
  · intro s _ n others _
    cases locked : s.enableLock with
    | true => exact ⟨sound_record others (finds s) (neutral s), .inl rfl⟩
    | false =>
      have free : n = .free := by
        by_contra busy
        exact absurd (sound_locked others busy) (by simp [locked])
      subst free
      exact ⟨(lock_free others locked).1, .inr rfl⟩
  · intro s _
    cases locked : s.enableLock with
    | true => exact taken
    | false => exact mine

theorem follows_locked {A : Type} {post : A → Mode → Prop} {m : Mode} {look : Guarded → A}
    {write : Guarded → Guarded} (busy : m ≠ .free) (mode : Guarded → Mode)
    (sound' : ∀ s, discipline.sound m s → discipline.sound (mode s) (write s))
    (holds : ∀ s, discipline.sound m s → post (look s) (mode s)) :
    (exchange look write).Follows discipline post m := by
  apply follows_exchange mode sound' _ holds
  intro s sound n _ together
  have free : n = .free := together.resolve_left busy
  subst free
  exact ⟨sound_exclusive (sound' s sound), .inr rfl⟩

theorem enable_follows : enable.Follows discipline (fun _ m => m = .free) .free := by
  apply Follows.bind fun held m => m = if held then .free else .enabling
  · exact follows_testAndSet (fun _ => .enabled false) id (fun _ => nofun) (fun _ => rfl) rfl rfl
  · rintro held m rfl
    cases held with
    | true => exact follows_pure rfl
    | false =>
      apply Follows.bind fun _ m => m = .enabling
      · apply follows_locked (by decide) fun _ => .enabling
        · rintro s ⟨exclusive, locked, outside⟩
          have open' : bracketOpen (.callback s.stage.enable.1 :: s.log) = false := outside
          refine ⟨⟨(Runs.throughout_cons ..).mpr ⟨fun _ => outside, exclusive.1⟩, ?_⟩, locked, outside⟩
          exact fun inside => absurd (open'.symm.trans inside) Bool.false_ne_true
        · exact fun _ _ => rfl
      · rintro answer m rfl
        apply Follows.bind fun _ m => m = .free
        · apply follows_locked (by decide) fun _ => .free
          · rintro s ⟨exclusive, locked, outside⟩
            have open' : bracketOpen (.enabled answer :: s.log) = false := outside
            refine ⟨(Runs.throughout_cons ..).mpr ⟨fun _ => outside, exclusive.1⟩, ?_⟩
            exact fun inside => absurd (open'.symm.trans inside) Bool.false_ne_true
          · exact fun _ _ => rfl
        · rintro _ m rfl
          exact follows_pure rfl

theorem disabled_off {stage : PowerStage} (state : stage.getState = .disabled) : stage.enabled = false := by
  cases on : stage.enabled with
  | false => rfl
  | true => rw [(PowerStage.getState_enabled stage).mpr on] at state; contradiction

theorem getState_follows : getState.Follows discipline
    (fun state m => m = if state = .disabled then .saving else .enabling) .enabling := by
  apply follows_locked (by decide) fun s => if s.stage.getState = .disabled then .saving else .enabling
  · rintro s ⟨exclusive, locked, outside⟩
    by_cases state : s.stage.getState = .disabled
    · rw [if_pos state, if_pos state]
      have off := disabled_off state
      exact ⟨⟨(Runs.throughout_cons ..).mpr ⟨fun _ => ⟨outside, off⟩, exclusive.1⟩, fun _ => ⟨locked, off⟩⟩, rfl⟩
    · rw [if_neg state, if_neg state]
      exact ⟨exclusive, locked, outside⟩
  · exact fun _ _ => rfl

theorem tryBegin_follows :
    tryBegin.Follows discipline (fun held m => m = if held then .saving else .free) .free := by
  apply Follows.bind fun held m => m = if held then .enabling else .free
  · exact follows_testAndSet (fun s => .save (.tryBegin false) s.stage.enabled) not (fun _ => nofun)
      (fun _ => rfl) rfl rfl
  · rintro held m rfl
    cases held with
    | false => exact follows_pure rfl
    | true =>
      apply Follows.bind _ getState_follows
      rintro state m rfl
      by_cases disabled : state = .disabled
      · simp only [disabled, ne_eq, not_true_eq_false, ↓reduceIte]
        exact follows_pure rfl
      · simp only [disabled, ne_eq, not_false_eq_true, ↓reduceIte]
        apply Follows.bind fun _ m => m = .free
        · apply follows_locked (by decide) fun _ => .free
          · rintro s ⟨exclusive, locked, outside⟩
            have open' : bracketOpen (.save (.tryBegin false) s.stage.enabled :: s.log) = false := outside
            refine ⟨(Runs.throughout_cons ..).mpr ⟨nofun, exclusive.1⟩, ?_⟩
            exact fun inside => absurd (open'.symm.trans inside) Bool.false_ne_true
          · exact fun _ _ => rfl
        · rintro _ m rfl
          exact follows_pure rfl

theorem storageCall_follows (r : Register) : (storageCall (store.callOf r)).Follows discipline
    (fun _ m => m = .saving) .saving := by
  apply follows_locked (by decide) fun _ => .saving
  · rintro s ⟨exclusive, inside⟩
    have off := (exclusive.2 inside).2
    have finds : Excludes (.save (store.callOf r (s.storage.headD .success)) s.stage.enabled) s.log ∧
        bracketOpen (.save (store.callOf r (s.storage.headD .success)) s.stage.enabled :: s.log) =
          bracketOpen s.log := by
      unfold SettingsStore.callOf
      split
      · exact ⟨⟨inside, off⟩, rfl⟩
      · exact ⟨⟨inside, off⟩, rfl⟩
    exact sound_record (m := .saving) (s := { s with storage := s.storage.tail }) ⟨exclusive, inside⟩ finds.1 finds.2
  · exact fun _ _ => rfl

/-- What a save has taken it holds. -/
def Holding (l : Local) (m : Mode) : Prop := m = if l.saving then .saving else .free

theorem hold_follows {l : Local} {m : Mode} (holding : Holding l m) :
    (hold l.saving).Follows discipline
      (fun held m => m = (if held then .saving else .free) ∧ (held = false → l.saving = false)) m := by
  unfold hold
  cases saving : l.saving with
  | true =>
    rw [Holding, saving] at holding
    exact follows_pure ⟨holding, nofun⟩
  | false =>
    rw [Holding, saving] at holding
    subst holding
    exact tryBegin_follows.mono fun held m mode => ⟨mode, fun _ => rfl⟩

theorem saveRegister_follows (l : Local) (r : Register) (m : Mode) (holding : Holding l m) :
    (saveRegister store l r).Follows discipline Holding m := by
  unfold saveRegister
  dsimp only
  split
  · exact follows_pure holding
  · split
    · exact follows_pure holding
    · apply Follows.bind _ (hold_follows holding)
      rintro held m ⟨rfl, first⟩
      cases held with
      | false =>
        have idle := first rfl
        exact follows_pure (by simp [Holding, idle])
      | true =>
        apply Follows.bind _ (storageCall_follows r)
        rintro answer m rfl
        exact follows_pure rfl

theorem saveChanged_follows (store : SettingsStore F) :
    (saveChanged store).Follows discipline (fun _ m => m = .free) .free := by
  apply Follows.bind Holding (follows_foldlM saveRegister_follows Register.all rfl)
  rintro l m rfl
  cases l.saving with
  | false => exact follows_pure rfl
  | true =>
    apply Follows.bind fun _ m => m = .free
    · apply follows_locked (by decide) fun _ => .free
      · rintro s ⟨exclusive, inside⟩
        have open' : bracketOpen (.save .finish s.stage.enabled :: s.log) = false := rfl
        refine ⟨(Runs.throughout_cons ..).mpr ⟨inside, exclusive.1⟩, ?_⟩
        exact fun inside => absurd (open'.symm.trans inside) Bool.false_ne_true
      · exact fun _ _ => rfl
    · rintro _ m rfl
      exact follows_pure rfl

theorem outside_sound (i : Interruption) (m : Mode) (s : Guarded) (sound : discipline.sound m s) :
    discipline.sound m (outside i s) := by
  have exclusive := sound_exclusive sound
  have after : (outside i s).Exclusive := by
    refine ⟨exclusive.1, ?_⟩
    intro inside
    obtain ⟨locked, off⟩ := exclusive.2 inside
    exact ⟨locked, (sim_rules.interrupt_between i s.stage).stays_off off⟩
  cases m with
  | free => exact after
  | enabling => exact ⟨after, sound.2⟩
  | saving => exact ⟨after, sound.2⟩

end Guarded

/-- Every write and every erase meets the outputs off and lies in a bracket, and in a bracket
neither the callback nor an enable succeeds. -/
theorem flash_outputs_exclusive {ι F : Type} [DecidableEq ι] (stage : PowerStage)
    (storage : List SettingsStorageStatus) (trace : List (ThreadEvent ι (Guarded.Call F) Interruption))
    (legal : (Guarded.machine ι F stage storage).Legal trace) :
    Runs.Throughout Guarded.Excludes ((Guarded.machine ι F stage storage).replay trace).shared.log ∧
    (Guarded.bracketOpen ((Guarded.machine ι F stage storage).replay trace).shared.log = true →
      ((Guarded.machine ι F stage storage).replay trace).shared.stage.enabled = false) := by
  have exclusive : Guarded.Exclusive ((Guarded.machine ι F stage storage).replay trace).shared := by
    refine Threads.sound_of_follows Guarded.discipline .free ?_ ?_ ?_ Guarded.outside_sound ?_ trace legal
    · exact fun m n together => together.symm
    · exact fun m => .inr rfl
    · intro function
      cases function with
      | enable => exact Follows.bind _ Guarded.enable_follows fun _ m idle => follows_pure idle
      | save store => exact Follows.bind _ (Guarded.saveChanged_follows store) fun _ m idle => follows_pure idle
    · exact ⟨Runs.throughout_nil _, nofun⟩
  exact ⟨exclusive.1, fun inside => (exclusive.2 inside).2⟩

def unsavedNodeId : SettingsStore Unit where
  factorySettings := .default
  capabilities := ⟨(), (), (), (), ()⟩
  settings := NvmSettings.default.set .nodeId (42 : UInt8)
  stored := .default
  eraseDefaults := false

/-- An enable comes in after the write, the newest event first. -/
def enableInSave : List (ThreadEvent Bool (Guarded.Call Unit) Interruption) :=
  [.access true, .access false, .access true, .access true, .call false .enable, .access true,
    .call true (.save unsavedNodeId)]

theorem flash_outputs_exclusive_held :
    ((Guarded.machine Bool Unit (.powerOn true) []).replay enableInSave).shared.log =
      [.save .finish false, .enabled false, .save (.write .nodeId [42] .success) false, .save (.tryBegin true) false] ∧
    Runs.Throughout Guarded.Excludes
      ((Guarded.machine Bool Unit (.powerOn true) []).replay enableInSave).shared.log :=
  ⟨by decide +kernel,
    (flash_outputs_exclusive (.powerOn true) [] enableInSave (by decide +kernel)).1⟩

end Unimoc.Firmware
