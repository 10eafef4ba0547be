import Unimoc.Settings.Loading

/-! What a save leaves in the storage, and what the mirror says of it. -/
namespace Unimoc.Settings

/-- A call that fails leaves the entry as it was. -/
def SaveEvent.onFlash (flash : Flash) : SaveEvent → Flash
  | .write r bytes .success => Function.update flash r.name (some bytes)
  | .erase r .success => Function.update flash r.name none
  | _ => flash

def flashed (flash : Flash) (calls : List SaveEvent) : Flash := calls.foldl SaveEvent.onFlash flash

/-- A write is not answered with a missing key, an erase only when the entry is missing. -/
def SaveEvent.Truthful (flash : Flash) : SaveEvent → Prop
  | .write _ _ answer => answer ≠ .notFound
  | .erase r answer => answer = .notFound → flash r.name = none
  | _ => True

/-- The mirror encodes like the storage, and an entry that cannot be decoded waits for the next save. -/
structure Mirrors {F : Type} (store : SettingsStore F) (flash : Flash) : Prop where
  same : ∀ r : Register,
    sameEncoding r.kind (heldValue store.factorySettings flash r) (store.stored r) = true
  decodable : ∀ (r : Register) bytes, flash r.name = some bytes → decodeRegisterValue r.kind bytes = none →
    store.eraseDefaults = true

namespace SettingsStore

variable {F : Type} {store : SettingsStore F} {flash : Flash}

/-- What a register that was saved leaves behind. -/
def entryOf (store : SettingsStore F) (r : Register) : Option (List UInt8) :=
  if store.atFactory r then none else some (encodeRegisterValue r.kind (store.settings r))

theorem held_entryOf {r : Register} (entry : flash r.name = store.entryOf r) :
    sameEncoding r.kind (heldValue store.factorySettings flash r) (store.settings r) = true := by
  unfold heldValue
  rw [entry, entryOf]
  split
  · rename_i factory
    exact sameEncoding_symm factory
  · obtain ⟨read, decoded, same⟩ := decode_encode r.kind (store.settings r)
    rw [Option.bind_some, decoded]
    exact same

theorem decodable_entryOf {r : Register} {bytes : List UInt8} (entry : flash r.name = store.entryOf r)
    (stored : flash r.name = some bytes) : decodeRegisterValue r.kind bytes ≠ none := by
  rw [entry, entryOf] at stored
  split at stored
  · contradiction
  · obtain ⟨read, decoded, -⟩ := decode_encode r.kind (store.settings r)
    rw [← Option.some.inj stored, decoded]
    exact Option.some_ne_none read

theorem onFlash_done {r : Register} {answer : SettingsStorageStatus}
    (truthful : (store.callOf r answer).Truthful flash) (done : toSettingsStatus answer = .success) :
    (store.callOf r answer).onFlash flash = Function.update flash r.name (store.entryOf r) := by
  unfold callOf entryOf at *
  cases answer with
  | success => split <;> rfl
  | notFound =>
    split at truthful
    · rename_i factory
      rw [if_pos factory, if_pos factory]
      have missing := truthful rfl
      exact (Function.update_eq_self_iff.mpr missing.symm).symm
    · exact absurd rfl truthful
  | unavailable => exact absurd done (by decide)
  | ioError => exact absurd done (by decide)

theorem onFlash_failed {r : Register} {answer : SettingsStorageStatus}
    (failed : toSettingsStatus answer ≠ .success) : (store.callOf r answer).onFlash flash = flash := by
  unfold callOf
  cases answer with
  | success => exact absurd rfl failed
  | notFound => exact absurd rfl failed
  | unavailable => split <;> rfl
  | ioError => split <;> rfl

theorem truthful_congr {other : Flash} {r : Register} {answer : SettingsStorageStatus}
    (same : other r.name = flash r.name) (truthful : (store.callOf r answer).Truthful flash) :
    (store.callOf r answer).Truthful other := by
  unfold callOf at *
  split
  · rename_i factory
    rw [if_pos factory] at truthful
    exact fun missing => same.trans (truthful missing)
  · rename_i changed
    rw [if_neg changed] at truthful
    exact truthful

theorem calls_mem {rs : List Register} {storage : List SettingsStorageStatus} {call : SaveEvent}
    (inside : call ∈ store.calls rs storage) : ∃ r ∈ rs, ∃ answer, call = store.callOf r answer := by
  induction rs generalizing storage with
  | nil => contradiction
  | cons r rs ih =>
    unfold calls at inside
    rcases List.mem_cons.mp inside with rfl | later
    · exact ⟨r, List.mem_cons_self, _, rfl⟩
    · split at later
      · obtain ⟨q, listed, answer, rfl⟩ := ih later
        exact ⟨q, List.mem_cons_of_mem r listed, answer, rfl⟩
      · contradiction

theorem calls_working {rs : List Register} {storage : List SettingsStorageStatus}
    (working : ∀ answer ∈ storage, answer = .success) :
    store.calls rs storage = rs.map (store.callOf · .success) := by
  induction rs generalizing storage with
  | nil => rfl
  | cons r rs ih =>
    have first : storage.headD .success = .success := by
      cases storage with
      | nil => rfl
      | cons answer rest => exact working answer List.mem_cons_self
    unfold calls
    dsimp only
    rw [first, if_pos (show toSettingsStatus .success = .success from rfl),
      ih fun answer inside => working answer (List.mem_of_mem_tail inside), List.map_cons]

theorem truthful_working {rs : List Register} {storage : List SettingsStorageStatus}
    (working : ∀ answer ∈ storage, answer = .success) :
    ∀ call ∈ store.calls rs storage, call.Truthful flash := by
  intro call inside
  rw [calls_working working] at inside
  obtain ⟨r, -, rfl⟩ := List.mem_map.mp inside
  unfold callOf
  split
  · exact nofun
  · exact nofun

theorem progress_mem {rs : List Register} {storage : List SettingsStorageStatus} {r : Register}
    (saved : r ∈ (progress rs storage).1) : r ∈ rs := by
  induction rs generalizing storage with
  | nil => exact saved
  | cons q rs ih =>
    unfold progress at saved
    dsimp only at saved
    split at saved
    · rcases List.mem_cons.mp saved with rfl | later
      · exact List.mem_cons_self
      · exact List.mem_cons_of_mem q (ih later)
    · contradiction

theorem progress_all {rs : List Register} {storage : List SettingsStorageStatus}
    (success : (progress rs storage).2 = .success) : (progress rs storage).1 = rs := by
  induction rs generalizing storage with
  | nil => rfl
  | cons r rs ih =>
    unfold progress at success ⊢
    dsimp only at success ⊢
    split at success
    · rename_i took
      rw [if_pos took]
      exact congrArg (r :: ·) (ih success)
    · contradiction

/-- A register that was saved leaves its entry, any other keeps its own. -/
theorem flashed_calls (rs : List Register) (storage : List SettingsStorageStatus) (flash : Flash)
    (distinct : rs.Nodup) (truthful : ∀ call ∈ store.calls rs storage, call.Truthful flash) (r : Register) :
    flashed flash (store.calls rs storage) r.name =
      if r ∈ (progress rs storage).1 then store.entryOf r else flash r.name := by
  induction rs generalizing storage flash with
  | nil => rfl
  | cons q rs ih =>
    obtain ⟨apart, distinct⟩ := List.nodup_cons.mp distinct
    unfold calls progress
    dsimp only
    have first : (store.callOf q (storage.headD .success)).Truthful flash :=
      truthful _ (by unfold calls; exact List.mem_cons_self)
    by_cases done : toSettingsStatus (storage.headD .success) = .success
    · rw [if_pos done, if_pos done]
      have after := onFlash_done first done
      have later : ∀ call ∈ store.calls rs storage.tail,
          call.Truthful ((store.callOf q (storage.headD .success)).onFlash flash) := by
        intro call inside
        obtain ⟨r, listed, answer, rfl⟩ := calls_mem inside
        have named : r.name ≠ q.name := fun same => apart (Loading.name_injective same ▸ listed)
        refine truthful_congr ?_ (truthful _ ?_)
        · rw [after, Function.update_of_ne named]
        · unfold calls
          dsimp only
          rw [if_pos done]
          exact List.mem_cons_of_mem _ inside
      have rest := ih storage.tail _ distinct later
      rw [flashed, List.foldl_cons]
      change flashed _ _ _ = _
      rw [rest, after]
      by_cases here : r = q
      · subst here
        have unsaved : r ∉ (progress rs storage.tail).1 := fun saved => apart (progress_mem saved)
        rw [if_neg unsaved, if_pos List.mem_cons_self, Function.update_self]
      · have named : r.name ≠ q.name := fun same => here (Loading.name_injective same)
        simp [here, Function.update_of_ne named]
    · rw [if_neg done, if_neg done, flashed, List.foldl_cons, onFlash_failed done]
      exact (if_neg List.not_mem_nil).symm

/-! ### A save keeps the mirror -/

/-- The storage after a save. -/
def flashAfter (store : SettingsStore F) (gateOpens : Bool) (storage : List SettingsStorageStatus)
    (flash : Flash) : Flash :=
  flashed flash (store.saveChanged gateOpens storage).events

/-- The registers a save reaches before its first failure. -/
def saved (store : SettingsStore F) (gateOpens : Bool) (storage : List SettingsStorageStatus) : List Register :=
  if gateOpens then (progress store.unsaved storage).1 else []

variable {gateOpens : Bool} {storage : List SettingsStorageStatus}

theorem unsaved_distinct : store.unsaved.Nodup := registers_distinct.filter _

theorem saveToFlash_stored : (store.saveToFlash gateOpens storage).2.1.stored =
    store.withSaved store.stored (store.saved gateOpens storage) := by
  rw [saveChanged_store, saveChanged_eq, saved]
  by_cases nothing : store.unsaved = []
  · simp [nothing, progress]
  · cases gateOpens <;> simp [nothing]

theorem saveToFlash_eraseDefaults (store : SettingsStore F) (gateOpens : Bool)
    (storage : List SettingsStorageStatus) : (store.saveToFlash gateOpens storage).2.1.eraseDefaults =
    if (store.saveToFlash gateOpens storage).1 = .success then false else store.eraseDefaults := by
  rw [saveChanged_store]

theorem flashAfter_entry (gateOpens : Bool)
    (truthful : ∀ call ∈ store.calls store.unsaved storage, call.Truthful flash)
    (r : Register) : store.flashAfter gateOpens storage flash r.name =
      if r ∈ store.saved gateOpens storage then store.entryOf r else flash r.name := by
  have entries := flashed_calls store.unsaved storage flash unsaved_distinct truthful r
  rw [flashAfter, saveChanged_eq, saved]
  by_cases nothing : store.unsaved = []
  · simp [nothing, progress, flashed]
  · cases gateOpens with
    | false => simp [nothing, flashed, SaveEvent.onFlash]
    | true =>
      simp only [nothing, ↓reduceIte, Bool.true_eq_false]
      rw [← entries]
      simp [flashed, SaveEvent.onFlash]

theorem flashAfter_nothing (nothing : store.unsaved = []) :
    store.flashAfter gateOpens storage flash = flash := by
  rw [flashAfter, saveChanged_eq, if_pos nothing]
  rfl

theorem saved_success (success : (store.saveToFlash gateOpens storage).1 = .success) :
    store.saved gateOpens storage = store.unsaved := by
  rw [saveToFlash_success] at success
  rw [saved]
  rcases success with nothing | ⟨opens, answered⟩
  · simp [nothing, progress]
  · rw [if_pos opens]
    exact progress_all ((progress_success _ _).mpr answered)

theorem needsSave_of_mem {r : Register} (inside : r ∈ store.unsaved) : store.needsSave r = true :=
  (List.mem_filter.mp inside).2

theorem mem_unsaved {r : Register} : r ∈ store.unsaved ↔ store.needsSave r = true :=
  ⟨needsSave_of_mem, fun needed => List.mem_filter.mpr ⟨Register.mem_all r, needed⟩⟩

/-- After a save that succeeded the mirror encodes like the live settings. -/
theorem stored_success (success : (store.saveToFlash gateOpens storage).1 = .success) (r : Register) :
    sameEncoding r.kind ((store.saveToFlash gateOpens storage).2.1.stored r) (store.settings r) = true := by
  rw [saveToFlash_stored, saved_success success, withSaved]
  by_cases unsaved : r ∈ store.unsaved
  · rw [if_pos unsaved]
    exact sameEncoding_self ..
  · rw [if_neg unsaved]
    rw [mem_unsaved, needsSave, Bool.or_eq_true, not_or, Bool.not_eq_true', Bool.not_eq_false] at unsaved
    exact sameEncoding_symm unsaved.1

theorem mirrors_saveToFlash (gateOpens : Bool) (mirrors : Mirrors store flash)
    (truthful : ∀ call ∈ store.calls store.unsaved storage, call.Truthful flash) :
    Mirrors (store.saveToFlash gateOpens storage).2.1 (store.flashAfter gateOpens storage flash) := by
  constructor
  · intro r
    have entry := flashAfter_entry gateOpens truthful r
    rw [saveToFlash_factorySettings, saveToFlash_stored, withSaved]
    by_cases reached : r ∈ store.saved gateOpens storage
    · rw [if_pos reached] at entry ⊢
      exact held_entryOf entry
    · rw [if_neg reached] at entry ⊢
      unfold heldValue
      rw [entry]
      exact mirrors.same r
  · intro r bytes stored undecodable
    have entry := flashAfter_entry gateOpens truthful r
    by_cases reached : r ∈ store.saved gateOpens storage
    · rw [if_pos reached] at entry
      exact absurd undecodable (decodable_entryOf entry stored)
    · rw [if_neg reached, stored] at entry
      have erases := mirrors.decodable r bytes entry.symm undecodable
      rw [saveToFlash_eraseDefaults]
      split
      · -- a save that succeeded has reached every register that is at its factory value
        rename_i success
        rw [saved_success success, mem_unsaved, needsSave, erases, Bool.or_eq_true, not_or, Bool.not_eq_true',
          Bool.not_eq_false] at reached
        obtain ⟨unchanged, changed⟩ := reached
        have held := mirrors.same r
        unfold heldValue at held
        rw [← entry, Option.bind_some, undecodable] at held
        have factory : store.atFactory r = true := sameEncoding_trans unchanged (sameEncoding_symm held)
        exact absurd factory changed
      · exact erases

end SettingsStore

end Unimoc.Settings
