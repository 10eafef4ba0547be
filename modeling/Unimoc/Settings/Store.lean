import Unimoc.Settings.Validate

/-! The settings store: live settings in RAM, changed by validated transactions, and
a mirror of what the storage holds, which tells a save what changed. -/
namespace Unimoc.Settings

/-- Calibration of the current and DC-link sense (the startup aid). -/
structure AdcCalibration (F : Type) where
  offsetA : F
  offsetB : F
  offsetC : F
  gainA : F
  gainB : F
  gainC : F
  gainVdc : F

/-- What the storage adapter answers to a write or an erase. -/
inductive SettingsStorageStatus
  | success
  | notFound
  | unavailable
  | ioError
deriving DecidableEq, Repr

def toSettingsStatus : SettingsStorageStatus → SettingsStatus
  | .success | .notFound => .success
  | .unavailable => .storageUnavailable
  | .ioError => .storageError

structure SettingsStore (F : Type) where
  factorySettings : NvmSettings
  capabilities : HardwareCapabilities F
  settings : NvmSettings
  stored : NvmSettings
  eraseDefaults : Bool

/-- A save under way: its result so far, whether the gate is held, the mirror and the
answers the storage has still to give. -/
structure Saving where
  result : SettingsStatus
  saving : Bool
  stored : NvmSettings
  storage : List SettingsStorageStatus

namespace SettingsStore

variable {F : Type} [Arithmetic F] (store : SettingsStore F)

def commit (candidate : NvmSettings) : SettingsStatus × SettingsStore F :=
  match validate candidate store.capabilities with
  | .success => (.success, { store with settings := candidate })
  | status => (status, store)

def update (operation : NvmSettings → NvmSettings) : SettingsStatus × SettingsStore F :=
  store.commit (operation store.settings)

def setNodeId (nodeId : UInt8) : SettingsStatus × SettingsStore F :=
  store.update fun settings => settings.set .nodeId nodeId

def adcRegisters : List Register :=
  [.adcOffsetA, .adcOffsetB, .adcOffsetC, .adcGainA, .adcGainB, .adcGainC, .adcGainVdc]

def withAdcCalibration (calibration : AdcCalibration F) (settings : NvmSettings) : NvmSettings :=
  ((((((settings.set .adcOffsetA (Arithmetic.toReal32 calibration.offsetA)).set
    .adcOffsetB (Arithmetic.toReal32 calibration.offsetB)).set
    .adcOffsetC (Arithmetic.toReal32 calibration.offsetC)).set
    .adcGainA (Arithmetic.toReal32 calibration.gainA)).set
    .adcGainB (Arithmetic.toReal32 calibration.gainB)).set
    .adcGainC (Arithmetic.toReal32 calibration.gainC)).set
    .adcGainVdc (Arithmetic.toReal32 calibration.gainVdc)

def applyAdcCalibration (calibration : AdcCalibration F) : SettingsStatus × SettingsStore F :=
  store.update (withAdcCalibration calibration)

def resetToFactoryDefaults : SettingsStatus × SettingsStore F := store.commit store.factorySettings

/-- One register of a save. The gate is taken before the first write and held to the
end; after an error the rest is left as it is. -/
def saveRegister (gateOpens : Bool) (s : Saving) (r : Register) : Saving :=
  if s.result ≠ .success then s
  else
    let live := store.settings r
    let atFactory := sameEncoding r.kind live (store.factorySettings r)
    let changed := !sameEncoding r.kind live (s.stored r)
    if !changed && !(store.eraseDefaults && atFactory) then s
    else if !s.saving && !gateOpens then { s with result := .persistBlocked }
    else
      let result := toSettingsStatus (s.storage.headD .success)
      { result := result, saving := true,
        stored := if result = .success then s.stored.set r live else s.stored,
        storage := s.storage.tail }

/-- Writes the registers that differ from the mirror, erases those back at their
factory value. `storage` lists the answers of the storage, success when it ends. -/
def saveToFlash (gateOpens : Bool) (storage : List SettingsStorageStatus) :
    SettingsStatus × SettingsStore F × List SettingsStorageStatus :=
  let s := Register.all.foldl (store.saveRegister gateOpens) ⟨.success, false, store.stored, storage⟩
  (s.result,
    { store with
      stored := s.stored
      eraseDefaults := if s.result = .success then false else store.eraseDefaults },
    s.storage)

theorem commit_cases (candidate : NvmSettings) :
    store.commit candidate = (.success, { store with settings := candidate }) ∨
      ∃ status, status ≠ .success ∧ store.commit candidate = (status, store) := by
  unfold commit
  split
  · exact .inl rfl
  · rename_i status rejected
    exact .inr ⟨_, rejected, rfl⟩

variable {store}

theorem commit_success {candidate : NvmSettings} {after : SettingsStore F}
    (committed : store.commit candidate = (.success, after)) :
    validate candidate store.capabilities = .success := by
  unfold commit at committed
  split at committed
  · assumption
  · rename_i status rejected
    exact absurd (congrArg Prod.fst committed) rejected

theorem commit_settings {candidate : NvmSettings} (taken : (store.commit candidate).1 = .success) :
    (store.commit candidate).2.settings = candidate := by
  obtain committed | ⟨status, refused, unchanged⟩ := commit_cases store candidate
  · rw [committed]
  · rw [unchanged] at taken
    exact absurd taken refused

omit [Arithmetic F] in
@[simp] theorem saveToFlash_settings (gateOpens : Bool) (storage : List SettingsStorageStatus) :
    (store.saveToFlash gateOpens storage).2.1.settings = store.settings := by
  unfold saveToFlash
  rfl

omit [Arithmetic F] in
@[simp] theorem saveToFlash_factorySettings (gateOpens : Bool) (storage : List SettingsStorageStatus) :
    (store.saveToFlash gateOpens storage).2.1.factorySettings = store.factorySettings := by
  unfold saveToFlash
  rfl

theorem withAdcCalibration_other (calibration : AdcCalibration F) (settings : NvmSettings) {r : Register}
    (other : r ∉ adcRegisters) : withAdcCalibration calibration settings r = settings r := by
  simp only [adcRegisters, List.mem_cons, List.not_mem_nil, not_or, or_false] at other
  obtain ⟨a, b, c, d, e, f, g⟩ := other
  refine (NvmSettings.set_other _ _ g).trans ?_
  refine (NvmSettings.set_other _ _ f).trans ?_
  refine (NvmSettings.set_other _ _ e).trans ?_
  refine (NvmSettings.set_other _ _ d).trans ?_
  refine (NvmSettings.set_other _ _ c).trans ?_
  refine (NvmSettings.set_other _ _ b).trans ?_
  exact NvmSettings.set_other _ _ a

end SettingsStore

end Unimoc.Settings
