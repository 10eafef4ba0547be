import Unimoc.Settings.RoundTrip

/-! The gate around a save, and the save that follows one that failed. -/
namespace Unimoc.Settings

/-- A write or an erase. -/
def SaveEvent.isCall : SaveEvent → Bool
  | .write _ _ _ => true
  | .erase _ _ => true
  | _ => false

/-- The gate is asked for at most once, before the first call; calls are made with the gate held,
which is given back once. -/
def Bracketed (events : List SaveEvent) : Prop :=
  events = [] ∨ events = [.tryBegin false] ∨
    ∃ calls, (∀ call ∈ calls, call.isCall = true) ∧ events = .tryBegin true :: calls ++ [.finish]

namespace SettingsStore

section Retry

variable {F : Type} (store : SettingsStore F)

/-- What is left after a save that got to `saved`; while the flag is set, what is at its factory
value is erased again. -/
def leftToSave (saved : List Register) : List Register :=
  Register.all.filter fun r => if r ∈ saved then store.eraseDefaults && store.atFactory r else store.needsSave r

variable {store} {gateOpens : Bool} {storage : List SettingsStorageStatus}

theorem isCall_callOf (r : Register) (answer : SettingsStorageStatus) :
    (store.callOf r answer).isCall = true := by
  unfold callOf
  split
  · rfl
  · rfl

theorem isCall_calls {rs : List Register} : ∀ call ∈ store.calls rs storage, call.isCall = true := by
  intro call inside
  obtain ⟨r, -, answer, rfl⟩ := calls_mem inside
  exact isCall_callOf r answer

theorem saveChanged_bracketed (gateOpens : Bool) (storage : List SettingsStorageStatus) :
    Bracketed (store.saveChanged gateOpens storage).events := by
  rw [saveChanged_eq]
  split
  · exact .inl rfl
  · split
    · exact .inr (.inl rfl)
    · exact .inr (.inr ⟨_, isCall_calls, rfl⟩)

/-- A save that failed leaves its flag and what it did not get to. -/
theorem unsaved_failed (failed : (store.saveToFlash gateOpens storage).1 ≠ .success) :
    (store.saveToFlash gateOpens storage).2.1.unsaved =
      store.leftToSave (store.saved gateOpens storage) := by
  have live := @saveToFlash_settings F store gateOpens storage
  have factory := @saveToFlash_factorySettings F store gateOpens storage
  have stored := @saveToFlash_stored F store gateOpens storage
  have flag := saveToFlash_eraseDefaults store gateOpens storage
  rw [if_neg failed] at flag
  generalize (store.saveToFlash gateOpens storage).2.1 = after at *
  apply List.filter_congr
  intro r _
  unfold needsSave atFactory
  rw [live, factory, stored, flag, withSaved]
  by_cases saved : r ∈ store.saved gateOpens storage
  · simp [saved]
  · simp [saved]

end Retry

section Working

variable {F : Type} {store : SettingsStore F} {working : List SettingsStorageStatus}

theorem working_success (works : ∀ answer ∈ working, answer = .success) :
    (store.saveToFlash true working).1 = .success := by
  apply (saveToFlash_success working).mpr
  refine .inr ⟨rfl, ?_⟩
  intro answer inside
  rw [works answer (List.mem_of_mem_take inside)]
  rfl

theorem working_calls (works : ∀ answer ∈ working, answer = .success) :
    (store.saveChanged true working).events.filter SaveEvent.isCall =
      store.unsaved.map (store.callOf · .success) := by
  rw [saveChanged_eq, ← calls_working works]
  have every := List.filter_eq_self.mpr (@isCall_calls F store working store.unsaved)
  split
  · rename_i nothing
    rw [nothing]
    rfl
  · rw [if_neg (by decide), List.filter_append]
    change List.filter SaveEvent.isCall (store.calls store.unsaved working) ++ [] = _
    rw [every, List.append_nil]

end Working

end SettingsStore

variable {F : Type} [Arithmetic F]

/-- The bracket of every save, and the save that follows one that failed: it succeeds, calls the
storage for what is left, and what it leaves can be loaded again. -/
theorem save_bracket_retry (store : SettingsStore F) (gateOpens : Bool) (storage : List SettingsStorageStatus) :
    Bracketed (store.saveChanged gateOpens storage).events ∧
    ∀ working : List SettingsStorageStatus,
      (store.saveToFlash gateOpens storage).1 ≠ .success → (∀ answer ∈ working, answer = .success) →
      let after := (store.saveToFlash gateOpens storage).2.1
      (after.saveToFlash true working).1 = .success ∧
      (after.saveChanged true working).events.filter SaveEvent.isCall =
        (store.leftToSave (store.saved gateOpens storage)).map (after.callOf · .success) ∧
      ∀ flash : Flash,
        SettingsStore.isValidProfile store.factorySettings store.capabilities = true → store.Settled →
        Mirrors store flash → (∀ call ∈ store.calls store.unsaved storage, call.Truthful flash) →
        let later := after.flashAfter true working (store.flashAfter gateOpens storage flash)
        ∀ reading : Reading, reading.succeeded = true → reading.Complete later → ∀ r : Register,
          sameEncoding r.kind
            (((SettingsStore.fresh store.factorySettings store.capabilities).load reading).2.settings r)
            (store.settings r) = true := by
  refine ⟨SettingsStore.saveChanged_bracketed gateOpens storage, ?_⟩
  intro working failed works
  have unsaved := SettingsStore.unsaved_failed failed
  have live := @SettingsStore.saveToFlash_settings F store gateOpens storage
  have factory := @SettingsStore.saveToFlash_factorySettings F store gateOpens storage
  have limits := @SettingsStore.saveToFlash_capabilities F store gateOpens storage
  have settles (settled : store.Settled) := SettingsStore.saveToFlash_settled settled gateOpens storage
  have mirrored (flash : Flash) (mirrors : Mirrors store flash)
      (truthful : ∀ call ∈ store.calls store.unsaved storage, call.Truthful flash) :=
    SettingsStore.mirrors_saveToFlash gateOpens mirrors truthful
  generalize (store.saveToFlash gateOpens storage).2.1 = after at *
  have success := @SettingsStore.working_success F after working works
  refine ⟨success, ?_, ?_⟩
  · rw [SettingsStore.working_calls works, unsaved]
  · intro flash profile settled mirrors truthful later reading succeeded complete r
    rw [← live, ← factory, ← limits]
    rw [← factory, ← limits] at profile
    exact SettingsStore.saved_load profile (settles settled) (mirrored flash mirrors truthful)
      (SettingsStore.truthful_working works) success complete succeeded r

/-- The default settings with a node-ID, in a storage with nothing else. -/
def unsavedStore : SettingsStore Binary32 :=
  { SettingsStore.fresh .default simCapabilities with settings := NvmSettings.default.set .nodeId (42 : UInt8) }

theorem save_bracket_retry_nodeId :
    ((unsavedStore.saveToFlash true [.ioError]).2.1.saveToFlash true []).1 = .success ∧
      ∀ reading : Reading, reading.succeeded = true →
        reading.Complete ((unsavedStore.saveToFlash true [.ioError]).2.1.flashAfter true []
          (unsavedStore.flashAfter true [.ioError] fun _ => none)) →
        ∀ r : Register, sameEncoding r.kind
          (((SettingsStore.fresh unsavedStore.factorySettings unsavedStore.capabilities).load reading).2.settings r)
          (unsavedStore.settings r) = true := by
  obtain ⟨success, -, loads⟩ := (save_bracket_retry unsavedStore true [.ioError]).2 [] (by decide +kernel) nofun
  refine ⟨success, loads (fun _ => none) (by decide +kernel) (.inl (by decide)) ?_ ?_⟩
  · exact ⟨fun r => sameEncoding_self .., nofun⟩
  · have calls : unsavedStore.calls unsavedStore.unsaved [.ioError] = [.write .nodeId [42] .ioError] := by
      decide +kernel
    intro call inside
    rw [calls, List.mem_singleton] at inside
    subst inside
    exact nofun

/-- An entry could not be decoded at the last load. -/
def undecodedStore : SettingsStore Binary32 := { SettingsStore.fresh .default simCapabilities with eraseDefaults := true }

/-- The node-ID is erased, the name is not; the next save erases both. -/
theorem save_erases_again :
    Register.nodeId ∈ undecodedStore.saved true [.success, .ioError] ∧
    (undecodedStore.saveToFlash true [.success, .ioError]).1 = .storageError ∧
    .erase .nodeId .success ∈
      ((undecodedStore.saveToFlash true [.success, .ioError]).2.1.saveChanged true []).events := by
  decide +kernel

end Unimoc.Settings
