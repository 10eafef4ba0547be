import Unimoc.Lib.Runs
import Unimoc.Settings.Flash
import Unimoc.Settings.Factory

/-! A save and a load on another store of the same profile, over runs of one store. -/
namespace Unimoc.Settings

/-! ### The validation sees nothing but the encoding -/

namespace NvmSettings

variable (s : NvmSettings) (name : Register.nodeDescription.kind.Carrier)

theorem real32_name (r : Register) : (s.set .nodeDescription name).real32 r = s.real32 r := by
  by_cases same : r = .nodeDescription
  · rw [same]
    rfl
  · unfold real32
    rw [set_other s name same]

theorem real_name {F : Type} [Arithmetic F] (r : Register) :
    ((s.set .nodeDescription name).real r : F) = s.real r := by
  unfold real
  rw [real32_name]

theorem natural8_name (r : Register) : (s.set .nodeDescription name).natural8 r = s.natural8 r := by
  by_cases same : r = .nodeDescription
  · rw [same]
    rfl
  · unfold natural8
    rw [set_other s name same]

theorem natural16_name (r : Register) : (s.set .nodeDescription name).natural16 r = s.natural16 r := by
  by_cases same : r = .nodeDescription
  · rw [same]
    rfl
  · unfold natural16
    rw [set_other s name same]

end NvmSettings

section Encoding

variable {F : Type} [Arithmetic F] {s t : NvmSettings} {limits : HardwareCapabilities F}

theorem validate_name (s : NvmSettings) (name : Register.nodeDescription.kind.Carrier) :
    validate (s.set .nodeDescription name) limits = validate s limits := by
  unfold validate
  simp only [isFinite, isValidEnumValues, isNegative, isPositive, isNotAbove, isRatio, isGain, exceeds,
    hasPortIdCollision, List.map_cons, List.map_nil, NvmSettings.real_name, NvmSettings.natural8_name,
    NvmSettings.natural16_name]

theorem kind_text {r : Register} : r.kind = .text → r = .nodeDescription := by
  cases r <;> decide

theorem validate_encoding (same : ∀ r : Register, sameEncoding r.kind (s r) (t r) = true) :
    validate s limits = validate t limits := by
  have named : s = t.set .nodeDescription (s .nodeDescription) := by
    funext r
    by_cases name : r = .nodeDescription
    · subst name
      exact (NvmSettings.set_self ..).symm
    · rw [NvmSettings.set_other _ _ name]
      exact eq_of_sameEncoding (fun text => name (kind_text text)) (same r)
  rw [named, validate_name]

end Encoding

namespace SettingsStore

section Fresh

variable {F : Type} [Arithmetic F] {store : SettingsStore F} {flash : Flash} {reading : Reading}

/-- The live settings passed the validation or encode like the factory settings. -/
def Settled (store : SettingsStore F) : Prop :=
  validate store.settings store.capabilities = .success ∨
  ∀ r : Register, sameEncoding r.kind (store.settings r) (store.factorySettings r) = true

/-- A storage that holds nothing but what encodes like the live settings loads to them. -/
theorem fresh_load {factorySettings live : NvmSettings} {capabilities : HardwareCapabilities F}
    (profile : isValidProfile factorySettings capabilities = true)
    (settled : validate live capabilities = .success ∨
      ∀ r : Register, sameEncoding r.kind (live r) (factorySettings r) = true)
    (same : ∀ r : Register, sameEncoding r.kind (heldValue factorySettings flash r) (live r) = true)
    (decodable : ∀ (r : Register) bytes, flash r.name = some bytes → decodeRegisterValue r.kind bytes ≠ none)
    (complete : reading.Complete flash) (succeeded : reading.succeeded = true) (r : Register) :
    sameEncoding r.kind (((fresh factorySettings capabilities).load reading).2.settings r) (live r) = true := by
  have decoded : (reading.loading factorySettings).undecodable = false := by
    apply Bool.eq_false_iff.mpr
    intro undecodable
    obtain ⟨r, bytes, entry, failed⟩ := (undecodable_complete complete _).mp undecodable
    exact decodable r bytes entry failed
  have accepted : validate (heldValue factorySettings flash) capabilities = validate live capabilities :=
    validate_encoding same
  unfold load fresh
  dsimp only
  simp only [profile, succeeded, Bool.not_true, Bool.false_eq_true, ↓reduceIte, decoded,
    loaded_complete complete, accepted]
  rcases settled with valid | factory
  · simp only [valid, ne_eq, not_true_eq_false, ↓reduceIte]
    exact same r
  · split
    · exact sameEncoding_symm (factory r)
    · exact same r

theorem load_settled (settled : store.Settled) (reading : Reading) : (store.load reading).2.Settled := by
  rcases load_cases store reading with
    ⟨-, unchanged⟩ | ⟨-, failed⟩ | ⟨-, status, settings, loaded, factory | ⟨-, accepted⟩⟩
  · rw [unchanged]
    exact settled
  · rw [failed]
    exact .inr fun r => sameEncoding_self ..
  · rw [loaded, factory]
    exact .inr fun r => sameEncoding_self ..
  · rw [loaded]
    exact .inl accepted

theorem load_mirrors (profile : isValidProfile store.factorySettings store.capabilities = true)
    (complete : reading.Complete flash) (succeeded : reading.succeeded = true) :
    Mirrors (store.load reading).2 flash := by
  rcases load_cases store reading with ⟨invalid, -⟩ | ⟨failed, -⟩ | ⟨-, status, settings, loaded, -⟩
  · rw [profile] at invalid
    contradiction
  · rw [succeeded] at failed
    contradiction
  · rw [loaded]
    constructor
    · intro r
      rw [loaded_complete complete]
      exact sameEncoding_self ..
    · intro r bytes entry failed
      exact (undecodable_complete complete _).mpr ⟨r, bytes, entry, failed⟩

theorem load_profile (store : SettingsStore F) (reading : Reading) :
    (store.load reading).2.factorySettings = store.factorySettings ∧
    (store.load reading).2.capabilities = store.capabilities := by
  rcases load_cases store reading with ⟨-, unchanged⟩ | ⟨-, failed⟩ | ⟨-, status, settings, loaded, -⟩
  · rw [unchanged]
    exact ⟨rfl, rfl⟩
  · rw [failed]
    exact ⟨rfl, rfl⟩
  · rw [loaded]
    exact ⟨rfl, rfl⟩

theorem commit_profile (store : SettingsStore F) (candidate : NvmSettings) :
    (store.commit candidate).2.factorySettings = store.factorySettings ∧
    (store.commit candidate).2.capabilities = store.capabilities := by
  obtain committed | ⟨status, -, unchanged⟩ := commit_cases store candidate
  · rw [committed]
    exact ⟨rfl, rfl⟩
  · rw [unchanged]
    exact ⟨rfl, rfl⟩

theorem commit_settled (settled : store.Settled) (candidate : NvmSettings) :
    (store.commit candidate).2.Settled := by
  obtain committed | ⟨status, -, unchanged⟩ := commit_cases store candidate
  · have accepted := commit_success committed
    rw [committed]
    exact .inl accepted
  · rw [unchanged]
    exact settled

theorem commit_mirrors (mirrors : Mirrors store flash) (candidate : NvmSettings) :
    Mirrors (store.commit candidate).2 flash := by
  obtain committed | ⟨status, -, unchanged⟩ := commit_cases store candidate
  · rw [committed]
    exact ⟨mirrors.same, mirrors.decodable⟩
  · rw [unchanged]
    exact mirrors

omit [Arithmetic F] in
@[simp] theorem saveToFlash_capabilities (gateOpens : Bool) (storage : List SettingsStorageStatus) :
    (store.saveToFlash gateOpens storage).2.1.capabilities = store.capabilities := by
  unfold saveToFlash
  rfl

theorem saveToFlash_settled (settled : store.Settled) (gateOpens : Bool)
    (storage : List SettingsStorageStatus) : (store.saveToFlash gateOpens storage).2.1.Settled := by
  unfold Settled
  rw [saveToFlash_settings, saveToFlash_factorySettings, saveToFlash_capabilities]
  exact settled

theorem saved_load {gateOpens : Bool} {storage : List SettingsStorageStatus}
    (profile : isValidProfile store.factorySettings store.capabilities = true) (settled : store.Settled)
    (mirrors : Mirrors store flash)
    (truthful : ∀ call ∈ store.calls store.unsaved storage, call.Truthful flash)
    (success : (store.saveToFlash gateOpens storage).1 = .success)
    (complete : reading.Complete (store.flashAfter gateOpens storage flash))
    (succeeded : reading.succeeded = true) (r : Register) :
    sameEncoding r.kind (((fresh store.factorySettings store.capabilities).load reading).2.settings r)
      (store.settings r) = true := by
  have kept := mirrors_saveToFlash gateOpens mirrors truthful
  have factory := @saveToFlash_factorySettings F store gateOpens storage
  have clean := saveToFlash_eraseDefaults store gateOpens storage
  rw [if_pos success] at clean
  apply fresh_load profile settled _ _ complete succeeded r
  · intro r
    have mirrored := kept.same r
    rw [factory] at mirrored
    exact sameEncoding_trans mirrored (stored_success success r)
  · intro r bytes entry undecodable
    exact Bool.false_ne_true (clean.symm.trans (kept.decodable r bytes entry undecodable))

end Fresh

end SettingsStore

/-! ### Runs -/

inductive StoreEvent
  | load (reading : Reading)
  | update (operation : NvmSettings → NvmSettings)
  | resetToFactoryDefaults
  | saveToFlash (gateOpens : Bool) (storage : List SettingsStorageStatus)

/-- A store with its storage. -/
structure Persistent (F : Type) where
  store : SettingsStore F
  flash : Flash

namespace Persistent

variable {F : Type} [Arithmetic F]

def next (s : Persistent F) : StoreEvent → Persistent F
  | .load reading => { s with store := (s.store.load reading).2 }
  | .update operation => { s with store := (s.store.update operation).2 }
  | .resetToFactoryDefaults => { s with store := s.store.resetToFactoryDefaults.2 }
  | .saveToFlash gateOpens storage =>
    ⟨(s.store.saveToFlash gateOpens storage).2.1, s.store.flashAfter gateOpens storage s.flash⟩

/-- A load that the storage answers with success has delivered what is stored. -/
def admits (s : Persistent F) : StoreEvent → Prop
  | .load reading => reading.succeeded = true → reading.Complete s.flash
  | _ => True

def machine (factorySettings : NvmSettings) (capabilities : HardwareCapabilities F) (flash : Flash) :
    Runs.Machine (Persistent F) StoreEvent where
  start := ⟨.fresh factorySettings capabilities, flash⟩
  next := next
  admits := admits

/-- No register has an entry. -/
def Blank (flash : Flash) : Prop := ∀ r : Register, flash r.name = none

/-- The last load was answered with success; without a load nothing is stored. -/
def Read (flash : Flash) : List StoreEvent → Prop :=
  Runs.latest (fun e _ =>
    match e with
    | .load reading => some (reading.succeeded = true)
    | _ => none) (Blank flash)

section Runs

variable (factorySettings : NvmSettings) (capabilities : HardwareCapabilities F) (flash : Flash)

/-- A save follows a load that succeeded, and the storage answers its calls truthfully. -/
def SavesAsRead : StoreEvent → List StoreEvent → Prop
  | .saveToFlash _ storage, past =>
    let s := (machine factorySettings capabilities flash).replay past
    Read flash past ∧ ∀ call ∈ s.store.calls s.store.unsaved storage, call.Truthful s.flash
  | _, _ => True

/-- After a save that succeeds another store of the profile loads to the live settings. -/
def RoundTrips : StoreEvent → List StoreEvent → Prop
  | .saveToFlash gateOpens storage, past =>
    let s := (machine factorySettings capabilities flash).replay past
    (s.store.saveToFlash gateOpens storage).1 = .success →
      ∀ reading : Reading, reading.succeeded = true →
        reading.Complete (s.store.flashAfter gateOpens storage s.flash) → ∀ r : Register,
          sameEncoding r.kind
            (((SettingsStore.fresh factorySettings capabilities).load reading).2.settings r)
            (s.store.settings r) = true
  | _, _ => True

variable {factorySettings capabilities flash}

/-- What holds of a store and its storage in every run. -/
structure InStep (s : Persistent F) (past : List StoreEvent) : Prop where
  profile : s.store.factorySettings = factorySettings ∧ s.store.capabilities = capabilities
  settled : s.store.Settled
  mirrors : Read flash past → Mirrors s.store s.flash

theorem next_save (s : Persistent F) (gateOpens : Bool) (storage : List SettingsStorageStatus) :
    next s (.saveToFlash gateOpens storage) =
      ⟨(s.store.saveToFlash gateOpens storage).2.1, s.store.flashAfter gateOpens storage s.flash⟩ := rfl

omit [Arithmetic F] in
theorem mirrors_blank (blank : Blank flash) : Mirrors (SettingsStore.fresh factorySettings capabilities) flash := by
  constructor
  · intro r
    unfold heldValue
    rw [blank r]
    exact sameEncoding_self ..
  · intro r bytes entry
    rw [blank r] at entry
    contradiction

theorem inStep_next (valid : SettingsStore.isValidProfile factorySettings capabilities = true)
    {s : Persistent F} {past : List StoreEvent} {e : StoreEvent}
    (inStep : @InStep F _ factorySettings capabilities flash s past) (admitted : admits s e)
    (saves : ∀ gateOpens storage, e = .saveToFlash gateOpens storage →
      ∀ call ∈ s.store.calls s.store.unsaved storage, call.Truthful s.flash) :
    @InStep F _ factorySettings capabilities flash (next s e) (e :: past) := by
  obtain ⟨⟨rfl, rfl⟩, settled, mirrors⟩ := inStep
  cases e with
  | load reading =>
    refine ⟨SettingsStore.load_profile _ _, SettingsStore.load_settled settled reading, ?_⟩
    intro succeeded
    exact SettingsStore.load_mirrors valid (admitted succeeded) succeeded
  | update operation =>
    exact ⟨SettingsStore.commit_profile _ _, SettingsStore.commit_settled settled _,
      fun read => SettingsStore.commit_mirrors (mirrors read) _⟩
  | resetToFactoryDefaults =>
    exact ⟨SettingsStore.commit_profile _ _, SettingsStore.commit_settled settled _,
      fun read => SettingsStore.commit_mirrors (mirrors read) _⟩
  | saveToFlash gateOpens storage =>
    have truthful := saves gateOpens storage rfl
    have kept : Read flash past → _ := fun read =>
      SettingsStore.mirrors_saveToFlash gateOpens (mirrors read) truthful
    have profile := @SettingsStore.saveToFlash_factorySettings F s.store gateOpens storage
    have limits := @SettingsStore.saveToFlash_capabilities F s.store gateOpens storage
    have settled := SettingsStore.saveToFlash_settled settled gateOpens storage
    rw [next_save]
    generalize (s.store.saveToFlash gateOpens storage).2.1 = after at *
    generalize s.store.flashAfter gateOpens storage s.flash = stored at *
    exact ⟨⟨profile, limits⟩, settled, kept⟩

theorem roundTrips_of_inStep (valid : SettingsStore.isValidProfile factorySettings capabilities = true)
    {e : StoreEvent} {past : List StoreEvent}
    (inStep : @InStep F _ factorySettings capabilities flash
      ((machine factorySettings capabilities flash).replay past) past)
    (saves : SavesAsRead factorySettings capabilities flash e past) :
    RoundTrips factorySettings capabilities flash e past := by
  cases e with
  | saveToFlash gateOpens storage =>
    unfold SavesAsRead at saves
    unfold RoundTrips
    dsimp only at saves ⊢
    generalize (machine factorySettings capabilities flash).replay past = s at *
    obtain ⟨read, truthful⟩ := saves
    obtain ⟨⟨rfl, rfl⟩, settled, mirrors⟩ := inStep
    intro success reading succeeded complete r
    exact SettingsStore.saved_load valid settled (mirrors read) truthful success complete succeeded r
  | _ => trivial

end Runs

end Persistent

variable {F : Type} [Arithmetic F]

theorem save_load_round_trip (factorySettings : NvmSettings) (capabilities : HardwareCapabilities F)
    (flash : Flash) (valid : SettingsStore.isValidProfile factorySettings capabilities = true)
    (trace : List StoreEvent) (legal : (Persistent.machine factorySettings capabilities flash).Legal trace)
    (saves : Runs.Throughout (Persistent.SavesAsRead factorySettings capabilities flash) trace) :
    Runs.Throughout (Persistent.RoundTrips factorySettings capabilities flash) trace := by
  refine Runs.Machine.throughout_under (Persistent.SavesAsRead factorySettings capabilities flash)
    (@Persistent.InStep F _ factorySettings capabilities flash) _ ?_ ?_ trace legal saves
  · refine Runs.Machine.invariant_under _ _ ?_ ?_
    · exact ⟨⟨rfl, rfl⟩, .inr fun r => sameEncoding_self .., Persistent.mirrors_blank⟩
    · intro e past inStep admitted saves
      apply Persistent.inStep_next valid inStep admitted
      rintro gateOpens storage rfl
      exact saves.2
  · intro e past inStep _ saves
    exact Persistent.roundTrips_of_inStep valid inStep saves

/-- A node-ID set after a load of an empty storage, then saved; the newest event first. -/
def savedNodeId : List StoreEvent :=
  [.saveToFlash true [], .update (·.set .nodeId (42 : UInt8)), .load ⟨[], .success⟩]

theorem save_load_round_trip_nodeId :
    Runs.Throughout (Persistent.RoundTrips .default simCapabilities fun _ => none) savedNodeId := by
  apply save_load_round_trip .default simCapabilities (fun _ => none) (by decide) savedNodeId
  · refine ⟨trivial, trivial, ?_, trivial⟩
    intro _ key bytes
    exact ⟨nofun, nofun⟩
  · refine (Runs.throughout_cons ..).mpr ⟨⟨rfl, ?_⟩, (Runs.throughout_cons ..).mpr ⟨trivial, ?_⟩⟩
    · exact SettingsStore.truthful_working nofun
    · exact (Runs.throughout_cons ..).mpr ⟨trivial, Runs.throughout_nil _⟩

/-- A storage with a node-ID. -/
def nodeIdStored : Flash := Function.update (fun _ => none) Register.nodeId.name (some [42])

/-- A load that fails leaves the mirror at the factory settings. -/
def unreadSave : List StoreEvent := [.saveToFlash true [], .load ⟨[], .ioError⟩]

theorem unread_save_lost :
    (Persistent.machine NvmSettings.default simCapabilities nodeIdStored).Legal unreadSave ∧
    ¬Runs.Throughout (Persistent.RoundTrips .default simCapabilities nodeIdStored) unreadSave := by
  constructor
  · exact ⟨trivial, nofun, trivial⟩
  · intro kept
    have save := ((Runs.throughout_cons ..).mp kept).1
    have same := save (by decide +kernel) ⟨[(Register.nodeId.name, [42])], .success⟩ rfl ?_ .nodeId
    · revert same
      decide +kernel
    · rw [SettingsStore.flashAfter_nothing (by decide +kernel)]
      intro key bytes
      change _ ↔ nodeIdStored key = some bytes
      by_cases named : key = Register.nodeId.name
      · simp [nodeIdStored, named, eq_comm]
      · simp [nodeIdStored, named]

end Unimoc.Settings
