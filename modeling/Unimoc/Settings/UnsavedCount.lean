import Unimoc.Settings.Retry

/-! The number of unsaved registers, and the calls of the save that follows. -/
namespace Unimoc.Settings

namespace SettingsStore

section Count

variable {F : Type} (store : SettingsStore F)

/-- The writes and erases of a save whose gate opens. -/
def callCount (storage : List SettingsStorageStatus) : Nat :=
  (store.saveChanged true storage).events.countP SaveEvent.isCall

/-- At its factory value in the mirror too: erased while the flag is set, but not counted. -/
def overlooked (r : Register) : Bool :=
  store.eraseDefaults && store.atFactory r && sameEncoding r.kind (store.settings r) (store.stored r)

variable {store} {storage : List SettingsStorageStatus}

/-- Every register to save is counted or overlooked, and none is both. -/
theorem needsSave_count (rs : List Register) : rs.countP store.needsSave =
    rs.countP (fun r => !sameEncoding r.kind (store.settings r) (store.stored r)) + rs.countP store.overlooked := by
  induction rs with
  | nil => rfl
  | cons r rs ih =>
    rw [List.countP_cons, List.countP_cons, List.countP_cons, ih]
    unfold needsSave overlooked
    cases sameEncoding r.kind (store.settings r) (store.stored r) with
    | false => simp; omega
    | true => simp; omega

theorem calls_length (works : ∀ answer ∈ storage, toSettingsStatus answer = .success) (rs : List Register) :
    (store.calls rs storage).length = rs.length := by
  induction rs generalizing storage with
  | nil => rfl
  | cons r rs ih =>
    have first : toSettingsStatus (storage.headD .success) = .success := by
      cases storage with
      | nil => rfl
      | cons answer rest => exact works answer List.mem_cons_self
    have rest := ih fun answer inside => works answer (List.mem_of_mem_tail inside)
    unfold calls
    dsimp only
    rw [if_pos first, List.length_cons, rest, List.length_cons]

theorem callCount_eq (works : ∀ answer ∈ storage, toSettingsStatus answer = .success) :
    store.callCount storage = Register.all.countP store.needsSave := by
  have every := List.countP_eq_length.mpr (@isCall_calls F store storage store.unsaved)
  have length := @calls_length F store storage works store.unsaved
  have listed : Register.all.countP store.needsSave = store.unsaved.length := List.countP_eq_length_filter
  unfold callCount
  rw [saveChanged_eq, listed]
  by_cases nothing : store.unsaved = []
  · rw [if_pos nothing, nothing]
    rfl
  · rw [if_neg nothing, if_neg (by decide), List.countP_append]
    change List.countP SaveEvent.isCall (store.calls store.unsaved storage) + 0 = _
    rw [every, length]
    rfl

theorem count_exact (works : ∀ answer ∈ storage, toSettingsStatus answer = .success) :
    store.countUnsaved = store.callCount storage ↔ ∀ r : Register, store.overlooked r = false := by
  rw [callCount_eq works, needsSave_count, countUnsaved]
  constructor
  · intro same r
    have unoverlooked : Register.all.countP store.overlooked = 0 := by omega
    exact Bool.eq_false_iff.mpr (List.countP_eq_zero.mp unoverlooked r (Register.mem_all r))
  · intro seen
    have unoverlooked : Register.all.countP store.overlooked = 0 := by
      apply List.countP_eq_zero.mpr
      intro r _
      exact Bool.eq_false_iff.mp (seen r)
    omega

theorem callCount_zero : store.callCount storage = 0 ↔
    ∀ event ∈ (store.saveChanged true storage).events, event.isCall = false := by
  unfold callCount
  rw [List.countP_eq_zero]
  simp only [Bool.not_eq_true]

end Count

end SettingsStore

variable {F : Type} [Arithmetic F]

/-- The count is that of the writes and erases exactly in a store that overlooks no register. -/
theorem unsaved_count (factorySettings : NvmSettings) (capabilities : HardwareCapabilities F) (flash : Flash)
    (trace : List StoreEvent) (storage : List SettingsStorageStatus)
    (works : ∀ answer ∈ storage, toSettingsStatus answer = .success) :
    let store := ((Persistent.machine factorySettings capabilities flash).replay trace).store
    (store.countUnsaved = store.callCount storage ∧
      (store.countUnsaved = 0 ↔ ∀ event ∈ (store.saveChanged true storage).events, event.isCall = false)) ↔
    ∀ r : Register, store.overlooked r = false := by
  intro store
  have exactCount := @SettingsStore.count_exact F store storage works
  have zero := @SettingsStore.callCount_zero F store storage
  constructor
  · intro counted
    exact exactCount.mp counted.1
  · intro seen
    have same := exactCount.mpr seen
    rw [same]
    exact ⟨rfl, zero⟩

theorem unsaved_count_nodeId :
    let store := ((Persistent.machine .default simCapabilities fun _ => none).replay savedNodeId).store
    (store.countUnsaved = store.callCount [] ∧
      (store.countUnsaved = 0 ↔ ∀ event ∈ (store.saveChanged true []).events, event.isCall = false)) ↔
    ∀ r : Register, store.overlooked r = false :=
  unsaved_count .default simCapabilities (fun _ => none) savedNodeId [] (by simp)

/-- The node-ID is stored without a byte. -/
def undecodableNodeId : List StoreEvent := [.load ⟨[(Register.nodeId.name, [])], .success⟩]

/-- The count is 0, and the save that follows erases the node-ID. -/
theorem unsaved_count_undecodable :
    let store := ((Persistent.machine NvmSettings.default simCapabilities fun _ => none).replay
      undecodableNodeId).store
    store.countUnsaved = 0 ∧ store.callCount [] ≠ 0 ∧
      .erase .nodeId .success ∈ (store.saveChanged true []).events := by
  decide +kernel

end Unimoc.Settings
