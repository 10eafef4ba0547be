import Unimoc.Drive.DriveNode
import Unimoc.Settings.RoundTrip

/-! Register writes of the settings register provider, and every other way the live settings may
change. -/
namespace Unimoc.Settings

open Cyphal

namespace SettingsStore

variable {F : Type} [Arithmetic F] (store : SettingsStore F)

/-- What `FromValue()` makes of a value for a register; none beyond the last register. -/
abbrev FieldValue := Option (Σ r : Register, Except RegisterWriteResult r.kind.Carrier)

/-- The update runs also when the value does not fit; the field is left unchanged then. -/
def write (field : FieldValue) : RegisterWriteResult × SettingsStore F :=
  let (result, operation) : RegisterWriteResult × (NvmSettings → NvmSettings) :=
    match field with
    | none => (.typeMismatch, id)
    | some ⟨_, .error result⟩ => (result, id)
    | some ⟨r, .ok value⟩ => (.accepted, (·.set r value))
  let (status, store) := store.update operation
  if result ≠ .accepted then (result, store)
  else if status ≠ .success then (.outOfRange, store)
  else (.accepted, store)

variable {store}

theorem commit_refused {candidate : NvmSettings} (refused : (store.commit candidate).1 ≠ .success) :
    (store.commit candidate).2 = store := by
  obtain committed | ⟨status, -, unchanged⟩ := commit_cases store candidate
  · rw [committed] at refused
    exact absurd rfl refused
  · rw [unchanged]

theorem update_id : (store.update id).2 = store := by
  obtain committed | ⟨status, -, unchanged⟩ := commit_cases store store.settings
  · exact congrArg Prod.snd committed
  · exact congrArg Prod.snd unchanged

theorem write_error (r : Register) (result : RegisterWriteResult) :
    (store.write (some ⟨r, .error result⟩)).2 = store := by
  have same := @update_id F _ store
  unfold write
  dsimp only
  split_ifs <;> exact same

theorem write_ok (r : Register) (value : r.kind.Carrier) :
    store.write (some ⟨r, .ok value⟩) =
      if (store.update (·.set r value)).1 ≠ .success then (.outOfRange, (store.update (·.set r value)).2)
      else (.accepted, (store.update (·.set r value)).2) := by
  unfold write
  rfl

theorem write_refused {field : FieldValue} (refused : (store.write field).1 ≠ .accepted) :
    (store.write field).2 = store := by
  rcases field with _ | ⟨r, result | value⟩
  · exact update_id
  · exact write_error r result
  · rw [write_ok] at refused ⊢
    split at refused
    · rename_i rejected
      rw [if_pos rejected]
      exact commit_refused rejected
    · exact absurd rfl refused

end SettingsStore

inductive Mutation (F : Type)
  | load (reading : Reading)
  | update (operation : NvmSettings → NvmSettings)
  | write (field : SettingsStore.FieldValue)
  | setNodeId (nodeId : UInt8)
  | applyAdcCalibration (calibration : AdcCalibration F)
  | resetToFactoryDefaults
  | saveToFlash (gateOpens : Bool) (storage : List SettingsStorageStatus)

namespace Mutation

variable {F : Type} [Arithmetic F]

def next (store : SettingsStore F) : Mutation F → SettingsStore F
  | .load reading => (store.load reading).2
  | .update operation => (store.update operation).2
  | .write field => (store.write field).2
  | .setNodeId nodeId => (store.setNodeId nodeId).2
  | .applyAdcCalibration calibration => (store.applyAdcCalibration calibration).2
  | .resetToFactoryDefaults => store.resetToFactoryDefaults.2
  | .saveToFlash gateOpens storage => (store.saveToFlash gateOpens storage).2.1

/-- Whether a transaction or a write is refused. -/
def Refused (store : SettingsStore F) : Mutation F → Prop
  | .update operation => (store.update operation).1 ≠ .success
  | .write field => (store.write field).1 ≠ .accepted
  | .setNodeId nodeId => (store.setNodeId nodeId).1 ≠ .success
  | .applyAdcCalibration calibration => (store.applyAdcCalibration calibration).1 ≠ .success
  | .resetToFactoryDefaults => store.resetToFactoryDefaults.1 ≠ .success
  | _ => False

def machine (factorySettings : NvmSettings) (capabilities : HardwareCapabilities F) :
    Runs.Machine (SettingsStore F) (Mutation F) where
  start := .fresh factorySettings capabilities
  next := next
  admits _ _ := True

/-- A refused change leaves the settings and the number of unsaved registers as they were. -/
def LeavesAlone (factorySettings : NvmSettings) (capabilities : HardwareCapabilities F) (e : Mutation F)
    (past : List (Mutation F)) : Prop :=
  let store := (machine factorySettings capabilities).replay past
  Refused store e →
    (next store e).settings = store.settings ∧ (next store e).countUnsaved = store.countUnsaved

/-- The profile and the validated live settings. -/
structure Valid (factorySettings : NvmSettings) (capabilities : HardwareCapabilities F)
    (store : SettingsStore F) : Prop where
  profile : store.factorySettings = factorySettings ∧ store.capabilities = capabilities
  accepted : validate store.settings capabilities = .success

variable {factorySettings : NvmSettings} {capabilities : HardwareCapabilities F} {store : SettingsStore F}

theorem valid_commit (valid : Valid factorySettings capabilities store) (candidate : NvmSettings) :
    Valid factorySettings capabilities (store.commit candidate).2 := by
  obtain committed | ⟨status, -, unchanged⟩ := SettingsStore.commit_cases store candidate
  · have accepted := SettingsStore.commit_success committed
    rw [valid.profile.2] at accepted
    rw [committed]
    exact ⟨valid.profile, accepted⟩
  · rw [unchanged]
    exact valid

theorem valid_write (valid : Valid factorySettings capabilities store) (field : SettingsStore.FieldValue) :
    Valid factorySettings capabilities (store.write field).2 := by
  rcases field with _ | ⟨r, result | value⟩
  · exact valid_commit valid _
  · rw [SettingsStore.write_error]
    exact valid
  · rw [SettingsStore.write_ok]
    split
    · exact valid_commit valid _
    · exact valid_commit valid _

theorem valid_load (factory : validate factorySettings capabilities = .success)
    (valid : Valid factorySettings capabilities store) (reading : Reading) :
    Valid factorySettings capabilities (store.load reading).2 := by
  obtain ⟨rfl, rfl⟩ := valid.profile
  rcases SettingsStore.load_cases store reading with
    ⟨-, unchanged⟩ | ⟨-, failed⟩ | ⟨-, status, settings, loaded, rfl | ⟨-, accepted⟩⟩
  · rw [unchanged]
    exact valid
  · rw [failed]
    exact ⟨⟨rfl, rfl⟩, factory⟩
  · rw [loaded]
    exact ⟨⟨rfl, rfl⟩, factory⟩
  · rw [loaded]
    exact ⟨⟨rfl, rfl⟩, accepted⟩

theorem valid_next (factory : validate factorySettings capabilities = .success)
    (valid : Valid factorySettings capabilities store) (e : Mutation F) :
    Valid factorySettings capabilities (next store e) := by
  cases e with
  | load reading => exact valid_load factory valid reading
  | update operation => exact valid_commit valid _
  | write field => exact valid_write valid field
  | setNodeId nodeId => exact valid_commit valid _
  | applyAdcCalibration calibration => exact valid_commit valid _
  | resetToFactoryDefaults => exact valid_commit valid _
  | saveToFlash gateOpens storage =>
    have live := @SettingsStore.saveToFlash_settings F store gateOpens storage
    have factory := @SettingsStore.saveToFlash_factorySettings F store gateOpens storage
    have limits := @SettingsStore.saveToFlash_capabilities F store gateOpens storage
    unfold next
    dsimp only
    generalize (store.saveToFlash gateOpens storage).2.1 = after at *
    exact ⟨⟨factory.trans valid.profile.1, limits.trans valid.profile.2⟩, live ▸ valid.accepted⟩

theorem refused_next {e : Mutation F} (refused : Refused store e) : next store e = store := by
  cases e with
  | load reading => exact refused.elim
  | update operation => exact SettingsStore.commit_refused refused
  | write field => exact SettingsStore.write_refused refused
  | setNodeId nodeId => exact SettingsStore.commit_refused refused
  | applyAdcCalibration calibration => exact SettingsStore.commit_refused refused
  | resetToFactoryDefaults => exact SettingsStore.commit_refused refused
  | saveToFlash gateOpens storage => exact refused.elim

end Mutation

variable {F : Type} [Arithmetic F]

/-- Validated factory settings stay the ground of every run. -/
theorem live_settings_accepted (factorySettings : NvmSettings) (capabilities : HardwareCapabilities F)
    (factory : validate factorySettings capabilities = .success) (trace : List (Mutation F)) :
    validate ((Mutation.machine factorySettings capabilities).replay trace).settings capabilities = .success ∧
    Runs.Throughout (Mutation.LeavesAlone factorySettings capabilities) trace := by
  constructor
  · have legal : ∀ trace, (Mutation.machine factorySettings capabilities).Legal trace := by
      intro trace
      induction trace with
      | nil => trivial
      | cons e past ih => exact ⟨trivial, ih⟩
    have valid := Runs.Machine.invariant
      (fun store _ => Mutation.Valid factorySettings capabilities store) ⟨⟨rfl, rfl⟩, factory⟩
      (fun e past valid _ => Mutation.valid_next factory valid e) trace (legal trace)
    exact valid.accepted
  · apply Runs.Throughout.of_forall
    intro e past refused
    rw [Mutation.refused_next refused]
    exact ⟨rfl, rfl⟩

/-- A node-ID that is refused after a load of an entry that cannot be decoded, the newest event
first. -/
def refusedNodeId : List (Mutation Binary32) :=
  [.update (·.set .nodeId (200 : UInt8)), .load ⟨[(Register.nodeId.name, [])], .success⟩]

theorem live_settings_accepted_refused :
    validate ((Mutation.machine .default simCapabilities).replay refusedNodeId).settings simCapabilities =
      .success :=
  (live_settings_accepted .default simCapabilities (by decide +kernel) refusedNodeId).1

/-- Finite factory settings without pole pairs. -/
def noPolePairs : NvmSettings := NvmSettings.default.set .polePairs (0 : UInt8)

theorem finite_profile_rejected :
    SettingsStore.isValidProfile noPolePairs simCapabilities = true ∧
    validate ((Mutation.machine noPolePairs simCapabilities).replay [.load ⟨[], .success⟩]).settings
      simCapabilities = .invalidSettings := by
  decide

end Unimoc.Settings

namespace Unimoc.Drive

open Settings Cyphal

variable {F E : Type} [Arithmetic F]

theorem System.writeRegister_store (s : System F E) (r : Register)
    (value : Except RegisterWriteResult r.kind.Carrier) :
    (s.writeRegister r value).2.board.store = (s.board.store.write (some ⟨r, value⟩)).2 := by
  cases value with
  | error result => exact (SettingsStore.write_error r result).symm
  | ok value =>
    rw [SettingsStore.write_ok]
    unfold writeRegister SettingsStore.update
    obtain committed | ⟨status, refused, unchanged⟩ :=
      SettingsStore.commit_cases s.board.store (s.board.store.settings.set r value)
    · simp [committed, Firmware.Board.change, Firmware.Board.record]
    · have failed : (s.board.change (.write r) (status, s.board.store)) = (status, s.board) := by
        unfold Firmware.Board.change
        split
        · rename_i same
          exact absurd (Prod.mk.inj same).1 refused
        · rename_i same
          rw [(Prod.mk.inj same).1]
      simp [unchanged, failed, refused]

end Unimoc.Drive
