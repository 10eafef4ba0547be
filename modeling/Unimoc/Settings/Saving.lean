import Unimoc.Settings.Store

/-! A save with its calls: what it asks of the gate and of the storage, and what it leaves in
the mirror. -/
namespace Unimoc.Settings

/-- A call of a save; the key of an entry is the name of its register. -/
inductive SaveEvent
  | tryBegin (held : Bool)
  | write (r : Register) (value : List UInt8) (answer : SettingsStorageStatus)
  | erase (r : Register) (answer : SettingsStorageStatus)
  | finish
deriving DecidableEq, Repr

structure SaveTrace extends Saving where
  events : List SaveEvent

namespace SettingsStore

variable {F : Type} (store : SettingsStore F)

def atFactory (r : Register) : Bool := sameEncoding r.kind (store.settings r) (store.factorySettings r)

/-- The entry of the register is written, or erased at its factory value. -/
def callOf (r : Register) (answer : SettingsStorageStatus) : SaveEvent :=
  if store.atFactory r then .erase r answer
  else .write r (encodeRegisterValue r.kind (store.settings r)) answer

/-- One register of a save, with its calls. -/
def traceRegister (gateOpens : Bool) (s : SaveTrace) (r : Register) : SaveTrace :=
  if s.result ≠ .success then s
  else
    let live := store.settings r
    let changed := !sameEncoding r.kind live (s.stored r)
    if !changed && !(store.eraseDefaults && store.atFactory r) then s
    else if !s.saving && !gateOpens then
      { s with result := .persistBlocked, events := s.events ++ [.tryBegin false] }
    else
      let answer := s.storage.headD .success
      let result := toSettingsStatus answer
      { result := result, saving := true
        stored := if result = .success then s.stored.set r live else s.stored
        storage := s.storage.tail
        events := s.events ++ (if s.saving then [] else [.tryBegin true]) ++ [store.callOf r answer] }

/-- The gate is given back at the end of a save that took it. -/
def saveChanged (gateOpens : Bool) (storage : List SettingsStorageStatus) : SaveTrace :=
  let s := Register.all.foldl (store.traceRegister gateOpens) ⟨⟨.success, false, store.stored, storage⟩, []⟩
  if s.saving then { s with events := s.events ++ [.finish] } else s

theorem traceRegister_saving (gateOpens : Bool) (s : SaveTrace) (r : Register) :
    (store.traceRegister gateOpens s r).toSaving = store.saveRegister gateOpens s.toSaving r := by
  simp only [traceRegister, saveRegister, atFactory]
  split_ifs <;> rfl

theorem trace_saving (gateOpens : Bool) (rs : List Register) (s : SaveTrace) :
    (rs.foldl (store.traceRegister gateOpens) s).toSaving =
      rs.foldl (store.saveRegister gateOpens) s.toSaving := by
  induction rs generalizing s with
  | nil => rfl
  | cons r rs ih =>
    rw [List.foldl_cons, List.foldl_cons, ih, traceRegister_saving]

/-- The calls of a save do not change what it does to the store. -/
theorem saveChanged_store (gateOpens : Bool) (storage : List SettingsStorageStatus) :
    store.saveToFlash gateOpens storage =
      let s := store.saveChanged gateOpens storage
      (s.result,
        { store with
          stored := s.stored
          eraseDefaults := if s.result = .success then false else store.eraseDefaults },
        s.storage) := by
  have same := store.trace_saving gateOpens Register.all ⟨⟨.success, false, store.stored, storage⟩, []⟩
  unfold saveToFlash saveChanged
  rw [← same]
  generalize Register.all.foldl (store.traceRegister gateOpens) _ = s
  cases held : s.saving with
  | false => simp [held]
  | true => simp [held]

/-! ### What is left to save -/

/-- The register differs from the mirror, or an entry that could not be read may stand for it. -/
def needsSave (r : Register) : Bool :=
  !sameEncoding r.kind (store.settings r) (store.stored r) || (store.eraseDefaults && store.atFactory r)

def unsaved : List Register := Register.all.filter store.needsSave

/-- `UnsavedCount()`. -/
def countUnsaved : Nat :=
  Register.all.countP fun r => !sameEncoding r.kind (store.settings r) (store.stored r)

/-- The registers the storage takes before its first failure, and how the save ends. -/
def progress : List Register → List SettingsStorageStatus → List Register × SettingsStatus
  | [], _ => ([], .success)
  | r :: rs, storage =>
    let result := toSettingsStatus (storage.headD .success)
    if result = .success then
      let (saved, result) := progress rs storage.tail
      (r :: saved, result)
    else ([], result)

/-- The calls up to and with the first failure. -/
def calls : List Register → List SettingsStorageStatus → List SaveEvent
  | [], _ => []
  | r :: rs, storage =>
    let answer := storage.headD .success
    store.callOf r answer ::
      if toSettingsStatus answer = .success then calls rs storage.tail else []

def withSaved (stored : NvmSettings) (saved : List Register) : NvmSettings := fun r =>
  if r ∈ saved then store.settings r else stored r

/-- The store after a reset to the factory settings. -/
def atDefaults : SettingsStore F := { store with settings := store.factorySettings }

variable {store} {gateOpens : Bool} {s : SaveTrace} {r : Register}

theorem traceRegister_unneeded (same : s.stored r = store.stored r) (unneeded : store.needsSave r = false) :
    store.traceRegister gateOpens s r = s := by
  simp only [needsSave, Bool.or_eq_false_iff, Bool.not_eq_false'] at unneeded
  unfold traceRegister
  simp [same, unneeded]

theorem traceRegister_failed (failed : s.result ≠ .success) : store.traceRegister gateOpens s r = s :=
  if_pos failed

theorem traceRegister_blocked (running : s.result = .success) (same : s.stored r = store.stored r)
    (needed : store.needsSave r = true) (first : s.saving = false) (closed : gateOpens = false) :
    store.traceRegister gateOpens s r =
      { s with result := .persistBlocked, events := s.events ++ [.tryBegin false] } := by
  have due : (!(!sameEncoding r.kind (store.settings r) (s.stored r)) &&
      !(store.eraseDefaults && store.atFactory r)) = false := by
    rw [same, ← Bool.not_or]
    exact congrArg not needed
  unfold traceRegister
  simp only [running, due, first, closed, ne_eq, not_true_eq_false, ↓reduceIte, Bool.false_eq_true,
    Bool.not_false, Bool.and_self]

theorem traceRegister_called (running : s.result = .success) (same : s.stored r = store.stored r)
    (needed : store.needsSave r = true) (opening : s.saving = true ∨ gateOpens = true) :
    store.traceRegister gateOpens s r =
      { result := toSettingsStatus (s.storage.headD .success), saving := true
        stored := if toSettingsStatus (s.storage.headD .success) = .success then
          s.stored.set r (store.settings r) else s.stored
        storage := s.storage.tail
        events := s.events ++ (if s.saving then [] else [.tryBegin true]) ++
          [store.callOf r (s.storage.headD .success)] } := by
  have due : (!(!sameEncoding r.kind (store.settings r) (s.stored r)) &&
      !(store.eraseDefaults && store.atFactory r)) = false := by
    rw [same, ← Bool.not_or]
    exact congrArg not needed
  have held : (!s.saving && !gateOpens) = false := by
    rcases opening with saving | opens
    · rw [saving]; rfl
    · rw [opens, Bool.not_true, Bool.and_false]
  unfold traceRegister
  simp only [running, due, held, ne_eq, not_true_eq_false, ↓reduceIte, Bool.false_eq_true]

theorem trace_failed (failed : s.result ≠ .success) (rs : List Register) :
    rs.foldl (store.traceRegister gateOpens) s = s := by
  induction rs with
  | nil => rfl
  | cons r rs ih => rw [List.foldl_cons, traceRegister_failed failed, ih]

@[simp] theorem withSaved_nil (stored : NvmSettings) : store.withSaved stored [] = stored := by
  funext q
  exact if_neg List.not_mem_nil

theorem withSaved_cons (stored : NvmSettings) (r : Register) (saved : List Register) :
    store.withSaved (stored.set r (store.settings r)) saved = store.withSaved stored (r :: saved) := by
  funext q
  unfold withSaved
  by_cases inside : q ∈ saved
  · rw [if_pos inside, if_pos (List.mem_cons_of_mem r inside)]
  · rw [if_neg inside]
    by_cases here : q = r
    · subst here
      rw [if_pos List.mem_cons_self, NvmSettings.set_self]
    · rw [if_neg (by simp [here, inside]), NvmSettings.set_other _ _ here]

/-- With the gate held the storage is called for the registers that need it, up to the first
failure. -/
theorem trace_held (rs : List Register) (s : SaveTrace) (distinct : rs.Nodup) (running : s.result = .success)
    (held : s.saving = true) (same : ∀ r ∈ rs, s.stored r = store.stored r) :
    rs.foldl (store.traceRegister gateOpens) s =
      { result := (progress (rs.filter store.needsSave) s.storage).2, saving := true
        stored := store.withSaved s.stored (progress (rs.filter store.needsSave) s.storage).1
        storage := s.storage.drop (store.calls (rs.filter store.needsSave) s.storage).length
        events := s.events ++ store.calls (rs.filter store.needsSave) s.storage } := by
  induction rs generalizing s with
  | nil =>
    obtain ⟨⟨result, saving, stored, storage⟩, events⟩ := s
    cases running
    cases held
    simp [progress, calls]
  | cons r rs ih =>
    obtain ⟨apart, distinct⟩ := List.nodup_cons.mp distinct
    have here := same r List.mem_cons_self
    have later : ∀ q ∈ rs, s.stored q = store.stored q := fun q inside => same q (List.mem_cons_of_mem r inside)
    rw [List.foldl_cons, List.filter_cons]
    cases needed : store.needsSave r with
    | false =>
      rw [traceRegister_unneeded here needed, ih s distinct running held later]
      rfl
    | true =>
      rw [traceRegister_called running here needed (.inl held)]
      simp only [held, ↓reduceIte, List.append_nil, progress, calls]
      by_cases took : toSettingsStatus (s.storage.headD .success) = .success
      · have rest : ∀ q ∈ rs, (s.stored.set r (store.settings r)) q = store.stored q := by
          intro q inside
          have differ : q ≠ r := fun equal => apart (equal ▸ inside)
          rw [NvmSettings.set_other _ _ differ, later q inside]
        rw [ih _ distinct took rfl (by simpa only [took, ↓reduceIte] using rest)]
        simp only [took, ↓reduceIte, withSaved_cons, List.append_assoc, List.singleton_append,
          List.length_cons, List.drop_tail]
      · rw [trace_failed took]
        simp only [took, ↓reduceIte, List.length_singleton, List.drop_one, withSaved_nil]

/-- Without the gate the first register that needs it asks for the gate. -/
theorem trace_unheld (rs : List Register) (s : SaveTrace) (distinct : rs.Nodup) (running : s.result = .success)
    (first : s.saving = false) (same : ∀ r ∈ rs, s.stored r = store.stored r) :
    rs.foldl (store.traceRegister gateOpens) s =
      let unsaved := rs.filter store.needsSave
      if unsaved = [] then s
      else if gateOpens = false then
        { s with result := .persistBlocked, events := s.events ++ [.tryBegin false] }
      else
        { result := (progress unsaved s.storage).2, saving := true
          stored := store.withSaved s.stored (progress unsaved s.storage).1
          storage := s.storage.drop (store.calls unsaved s.storage).length
          events := s.events ++ .tryBegin true :: store.calls unsaved s.storage } := by
  induction rs with
  | nil => rfl
  | cons r rs ih =>
    obtain ⟨apart, distinct'⟩ := List.nodup_cons.mp distinct
    have here := same r List.mem_cons_self
    have later : ∀ q ∈ rs, s.stored q = store.stored q := fun q inside => same q (List.mem_cons_of_mem r inside)
    cases needed : store.needsSave r with
    | false =>
      rw [List.foldl_cons, traceRegister_unneeded here needed, ih distinct' later, List.filter_cons_of_neg]
      exact Bool.eq_false_iff.mp needed
    | true =>
      have nonempty : (r :: rs).filter store.needsSave ≠ [] := by simp [needed]
      simp only [nonempty, ↓reduceIte]
      cases opens : gateOpens with
      | false =>
        rw [List.foldl_cons, traceRegister_blocked running here needed first rfl, trace_failed (by simp)]
        rfl
      | true =>
        -- the same calls as with the gate held from the start, after the call of the gate
        let taken : SaveTrace := { s with saving := true, events := s.events ++ [.tryBegin true] }
        have called : store.traceRegister true taken r = _ :=
          traceRegister_called running here needed (.inl rfl)
        have held : (r :: rs).foldl (store.traceRegister true) taken = _ :=
          trace_held (r :: rs) taken distinct running rfl same
        rw [List.foldl_cons, called] at held
        rw [List.foldl_cons, traceRegister_called running here needed (.inr rfl)]
        simp only [taken, first, ↓reduceIte, Bool.false_eq_true, Bool.true_eq_false, List.append_assoc,
          List.cons_append, List.nil_append] at held ⊢
        exact held

theorem registers_distinct : Register.all.Nodup := by decide +kernel

theorem saveChanged_eq (storage : List SettingsStorageStatus) : store.saveChanged gateOpens storage =
    if store.unsaved = [] then ⟨⟨.success, false, store.stored, storage⟩, []⟩
    else if gateOpens = false then ⟨⟨.persistBlocked, false, store.stored, storage⟩, [.tryBegin false]⟩
    else
      ⟨⟨(progress store.unsaved storage).2, true, store.withSaved store.stored (progress store.unsaved storage).1,
        storage.drop (store.calls store.unsaved storage).length⟩,
        .tryBegin true :: store.calls store.unsaved storage ++ [.finish]⟩ := by
  unfold saveChanged
  rw [trace_unheld Register.all _ registers_distinct rfl rfl fun _ _ => rfl]
  by_cases nothing : store.unsaved = []
  · have none' : Register.all.filter store.needsSave = [] := nothing
    simp [none', nothing]
  · have some' : Register.all.filter store.needsSave ≠ [] := nothing
    cases gateOpens with
    | false => simp [some', nothing]
    | true => simp [some', unsaved]

/-- A save succeeds when the gate opens for what is left and the storage takes all of it. -/
theorem progress_success (rs : List Register) (storage : List SettingsStorageStatus) :
    (progress rs storage).2 = .success ↔
      ∀ answer ∈ storage.take rs.length, toSettingsStatus answer = .success := by
  induction rs generalizing storage with
  | nil => simp [progress]
  | cons r rs ih =>
    unfold progress
    cases storage with
    | nil => simpa [toSettingsStatus] using (ih []).mpr (by simp)
    | cons answer rest =>
      by_cases took : toSettingsStatus answer = .success
      · simp [took, ih rest]
      · simp [took]

theorem saveToFlash_success (storage : List SettingsStorageStatus) :
    (store.saveToFlash gateOpens storage).1 = .success ↔ store.unsaved = [] ∨
      gateOpens = true ∧
        ∀ answer ∈ storage.take store.unsaved.length, toSettingsStatus answer = .success := by
  rw [saveChanged_store, saveChanged_eq, ← progress_success]
  by_cases nothing : store.unsaved = []
  · simp [nothing]
  · cases opens : gateOpens with
    | false => simp [nothing]
    | true => simp [nothing]

end SettingsStore

end Unimoc.Settings
