import Unimoc.Settings.RoundTrip

/-! The storage of the settings in the settings subsystem of Zephyr: names of entries, a bounded
buffer to read them, and the store that runs on it. -/
namespace Unimoc.Hardware

open Settings

/-- The subsystem with the memory below it. A loaded subtree is listed with the names behind it and
what reading gave; the flag says that `settings_load_subtree_direct()` returned 0. -/
structure ZephyrSettings (Z : Type) where
  subsysInit : Z → Bool × Z
  saveOne : String → List UInt8 → Z → Bool × Z
  delete : String → Z → Bool × Z
  loadSubtree : String → Z → List (String × Option (List UInt8)) × Bool
  /-- What it holds, by its full names. -/
  entries : Z → Flash

/-- A call that fails leaves the entries as they were; a load that returns 0 has delivered all of
the subtree. -/
structure ZephyrSettings.Works {Z : Type} (zephyr : ZephyrSettings Z) : Prop where
  subsysInit : ∀ z, zephyr.entries (zephyr.subsysInit z).2 = zephyr.entries z
  saved : ∀ name value z, value ≠ [] → (zephyr.saveOne name value z).1 = true →
    zephyr.entries (zephyr.saveOne name value z).2 = Function.update (zephyr.entries z) name (some value)
  unsaved : ∀ name value z, (zephyr.saveOne name value z).1 = false →
    zephyr.entries (zephyr.saveOne name value z).2 = zephyr.entries z
  deleted : ∀ name z, (zephyr.delete name z).1 = true →
    zephyr.entries (zephyr.delete name z).2 = Function.update (zephyr.entries z) name none
  undeleted : ∀ name z, (zephyr.delete name z).1 = false →
    zephyr.entries (zephyr.delete name z).2 = zephyr.entries z
  loaded : ∀ subtree z, (zephyr.loadSubtree subtree z).2 = true → ∀ key value,
    (key, value) ∈ (zephyr.loadSubtree subtree z).1 ↔
      value.isSome ∧ zephyr.entries z (subtree ++ "/" ++ key) = value

def maxRegisterValueSize : Nat := Cyphal.nodeNameMaxLen + 1

/-- `initialized` is the flag of the file. -/
structure ZephyrSettingsStorage (Z : Type) where
  initialized : Bool
  settings : Z

namespace ZephyrSettingsStorage

variable {Z : Type} (zephyr : ZephyrSettings Z) (storage : ZephyrSettingsStorage Z)

def subtree : String := "unimoc"

def nameBufferSize : Nat := 64

def ensureInitialized : Bool × ZephyrSettingsStorage Z :=
  if storage.initialized then (true, storage)
  else
    let (initialized, settings) := zephyr.subsysInit storage.settings
    (initialized, ⟨initialized, settings⟩)

/-- None when the key does not fit the buffer with its terminator. -/
def makeName (key : String) : Option String :=
  if nameBufferSize < subtree.utf8ByteSize + 1 + key.utf8ByteSize + 1 then none else some (subtree ++ "/" ++ key)

/-- One byte more than any value: an oversized entry stays one that no decoder accepts. -/
def readBuffer (value : List UInt8) : List UInt8 := value.take (maxRegisterValueSize + 1)

/-- The entries up to the first one that cannot be read. -/
def onEntries : List (String × Option (List UInt8)) → List (String × List UInt8)
  | (key, some value) :: rest => (key, readBuffer value) :: onEntries rest
  | _ => []

def loadAll : Reading × ZephyrSettingsStorage Z :=
  match storage.ensureInitialized zephyr with
  | (false, storage) => (⟨[], .ioError⟩, storage)
  | (true, storage) =>
    let (entries, loaded) := zephyr.loadSubtree subtree storage.settings
    (⟨onEntries entries, if loaded then .success else .ioError⟩, storage)

/-- A call of the subsystem with the name of a key. -/
def called (key : String) (operation : String → Z → Bool × Z) : SettingsStorageStatus × ZephyrSettingsStorage Z :=
  match makeName key with
  | none => (.ioError, storage)
  | some name =>
    match storage.ensureInitialized zephyr with
    | (false, storage) => (.ioError, storage)
    | (true, storage) =>
      let (done, settings) := operation name storage.settings
      (if done then .success else .ioError, { storage with settings })

/-- An empty value would delete the entry. -/
def write (key : String) (value : List UInt8) : SettingsStorageStatus × ZephyrSettingsStorage Z :=
  if value.isEmpty then (.ioError, storage)
  else storage.called zephyr key fun name => zephyr.saveOne name value

def erase (key : String) : SettingsStorageStatus × ZephyrSettingsStorage Z := storage.called zephyr key zephyr.delete

/-- What a load can read, by the keys of the store. -/
def flash : Flash := fun key => (zephyr.entries storage.settings (subtree ++ "/" ++ key)).map readBuffer

/-- The calls of a save up to the first failure: what the storage answers. -/
def answers {F : Type} (store : SettingsStore F) :
    List Register → ZephyrSettingsStorage Z → List SettingsStorageStatus × ZephyrSettingsStorage Z
  | [], storage => ([], storage)
  | r :: rs, storage =>
    let (answer, storage) :=
      if store.atFactory r then storage.erase zephyr r.name
      else storage.write zephyr r.name (encodeRegisterValue r.kind (store.settings r))
    if toSettingsStatus answer = .success then
      let (rest, storage) := answers store rs storage
      (answer :: rest, storage)
    else ([answer], storage)

/-! ### What the adapter keeps -/

theorem makeName_register (r : Register) : makeName r.name = some (subtree ++ "/" ++ r.name) := by
  have short : ∀ r ∈ Register.all, r.name.utf8ByteSize ≤ 55 := by decide +kernel
  have fits := short r (Register.mem_all r)
  have directory : subtree.utf8ByteSize = 6 := by decide
  rw [makeName, if_neg]
  rw [directory, nameBufferSize]
  omega

theorem readBuffer_encoded (k : Kind) (value : k.Carrier) :
    readBuffer (encodeRegisterValue k value) = encodeRegisterValue k value := by
  apply List.take_of_length_le
  cases k with
  | real32 => exact of_decide_eq_true rfl
  | natural8 => exact of_decide_eq_true rfl
  | natural16 => exact of_decide_eq_true rfl
  | text =>
    have short := charactersOf_length value
    show (charactersOf value ++ [0]).length ≤ _
    rw [List.length_append, List.length_singleton, maxRegisterValueSize]
    omega

theorem encoded_nonempty (k : Kind) (value : k.Carrier) : encodeRegisterValue k value ≠ [] := by
  cases k <;> simp [encodeRegisterValue]

variable {zephyr} {storage} (works : zephyr.Works)

include works

theorem flash_init : (storage.ensureInitialized zephyr).2.flash zephyr = storage.flash zephyr := by
  unfold ensureInitialized flash
  split
  · rfl
  · simp [works.subsysInit]

/-- A call for a register touches its entry when it is answered with success, and nothing else. -/
theorem called_flash (r : Register) {operation : String → Z → Bool × Z} {entry : Option (List UInt8)}
    (done : ∀ name z, (operation name z).1 = true →
      zephyr.entries (operation name z).2 = Function.update (zephyr.entries z) name entry)
    (failed : ∀ name z, (operation name z).1 = false → zephyr.entries (operation name z).2 = zephyr.entries z) :
    ((storage.called zephyr r.name operation).1 = .success ∧
        (storage.called zephyr r.name operation).2.flash zephyr =
          Function.update (storage.flash zephyr) r.name (entry.map readBuffer)) ∨
      ((storage.called zephyr r.name operation).1 = .ioError ∧
        (storage.called zephyr r.name operation).2.flash zephyr = storage.flash zephyr) := by
  have ready := @flash_init Z zephyr storage works
  rw [called, makeName_register]
  cases init : storage.ensureInitialized zephyr with
  | mk initialized started =>
    rw [init] at ready
    rw [← ready]
    cases initialized with
    | false => exact .inr ⟨rfl, rfl⟩
    | true =>
      dsimp only
      cases answered : (operation (subtree ++ "/" ++ r.name) started.settings).1 with
      | false =>
        refine .inr ⟨rfl, ?_⟩
        unfold flash
        rw [failed _ _ answered]
      | true =>
        refine .inl ⟨rfl, ?_⟩
        funext key
        unfold flash
        rw [done _ _ answered]
        by_cases here : key = r.name
        · rw [here, Function.update_self, Function.update_self]
        · have apart : subtree ++ "/" ++ key ≠ subtree ++ "/" ++ r.name :=
            fun same => here ((String.append_right_inj _).mp same)
          rw [Function.update_of_ne here, Function.update_of_ne apart]

theorem write_flash (r : Register) (value : r.kind.Carrier) :
    (storage.write zephyr r.name (encodeRegisterValue r.kind value)).2.flash zephyr =
        SaveEvent.onFlash (storage.flash zephyr) (.write r (encodeRegisterValue r.kind value)
          (storage.write zephyr r.name (encodeRegisterValue r.kind value)).1) ∧
      (storage.write zephyr r.name (encodeRegisterValue r.kind value)).1 ≠ .notFound := by
  have nonempty := encoded_nonempty r.kind value
  rw [write, if_neg (by simpa using nonempty)]
  rcases called_flash works r (fun name z => works.saved name _ z nonempty) (fun name z => works.unsaved name _ z) with
    ⟨answer, after⟩ | ⟨answer, after⟩
  · rw [answer, after, Option.map_some, readBuffer_encoded]
    exact ⟨rfl, nofun⟩
  · rw [answer, after]
    exact ⟨rfl, nofun⟩

theorem erase_flash (r : Register) :
    (storage.erase zephyr r.name).2.flash zephyr =
        SaveEvent.onFlash (storage.flash zephyr) (.erase r (storage.erase zephyr r.name).1) ∧
      (storage.erase zephyr r.name).1 ≠ .notFound := by
  rw [erase]
  rcases called_flash works r works.deleted works.undeleted with ⟨answer, after⟩ | ⟨answer, after⟩
  · rw [answer, after]
    exact ⟨rfl, nofun⟩
  · rw [answer, after]
    exact ⟨rfl, nofun⟩

omit works in
theorem onEntries_mem {entries : List (String × Option (List UInt8))} (read : ∀ entry ∈ entries, entry.2.isSome)
    (key : String) (bytes : List UInt8) :
    (key, bytes) ∈ onEntries entries ↔ ∃ value, (key, some value) ∈ entries ∧ readBuffer value = bytes := by
  induction entries with
  | nil => simp [onEntries]
  | cons entry rest ih =>
    obtain ⟨name, value⟩ := entry
    have first := read (name, value) List.mem_cons_self
    obtain ⟨value, rfl⟩ := Option.isSome_iff_exists.mp first
    have later := ih fun entry mem => read entry (List.mem_cons_of_mem _ mem)
    simp only [onEntries, List.mem_cons, later, Prod.mk.injEq, Option.some.injEq]
    grind

theorem loadAll_complete : (storage.loadAll zephyr).2.flash zephyr = storage.flash zephyr ∧
    ((storage.loadAll zephyr).1.succeeded = true → (storage.loadAll zephyr).1.Complete (storage.flash zephyr)) := by
  have ready := @flash_init Z zephyr storage works
  rw [loadAll]
  cases init : storage.ensureInitialized zephyr with
  | mk initialized started =>
    rw [init] at ready
    rw [← ready]
    cases initialized with
    | false => exact ⟨rfl, nofun⟩
    | true =>
      refine ⟨rfl, fun succeeded key bytes => ?_⟩
      have delivered : (zephyr.loadSubtree subtree started.settings).2 = true := by
        cases loaded : (zephyr.loadSubtree subtree started.settings).2 with
        | false => simp [Reading.succeeded, loaded] at succeeded
        | true => rfl
      have every := works.loaded subtree started.settings delivered
      dsimp only
      rw [onEntries_mem fun entry mem => ((every entry.1 entry.2).mp mem).1, flash, Option.map_eq_some_iff]
      simp only [every, Option.isSome_some, true_and]

theorem answers_flash {F : Type} (store : SettingsStore F) (rs : List Register) (storage : ZephyrSettingsStorage Z) :
    flashed (storage.flash zephyr) (store.calls rs (answers zephyr store rs storage).1) =
        (answers zephyr store rs storage).2.flash zephyr ∧
      .notFound ∉ (answers zephyr store rs storage).1 := by
  induction rs generalizing storage with
  | nil => exact ⟨rfl, nofun⟩
  | cons r rs ih =>
    have called : ∀ answer after,
        (answer, after) = (if store.atFactory r then storage.erase zephyr r.name
          else storage.write zephyr r.name (encodeRegisterValue r.kind (store.settings r))) →
        (store.callOf r answer).onFlash (storage.flash zephyr) = after.flash zephyr ∧ answer ≠ .notFound := by
      intro answer after same
      unfold SettingsStore.callOf
      split at same
      · rename_i factory
        rw [if_pos factory]
        have erased := @erase_flash Z zephyr storage works r
        rw [← same] at erased
        exact ⟨erased.1.symm, erased.2⟩
      · rename_i changed
        rw [if_neg changed]
        have written := @write_flash Z zephyr storage works r (store.settings r)
        rw [← same] at written
        exact ⟨written.1.symm, written.2⟩
    simp only [answers]
    generalize (if store.atFactory r then storage.erase zephyr r.name
      else storage.write zephyr r.name (encodeRegisterValue r.kind (store.settings r))) = first at called ⊢
    obtain ⟨answer, after⟩ := first
    obtain ⟨entry, known⟩ := called answer after rfl
    obtain ⟨later, rest⟩ := ih after
    dsimp only
    split
    · rename_i done
      dsimp only
      simp only [SettingsStore.calls, List.headD_cons, List.tail_cons, done, if_true, flashed, List.foldl_cons, entry]
      exact ⟨later, by simp [known.symm, rest]⟩
    · rename_i failed
      simp only [SettingsStore.calls, List.headD_cons, failed, if_false, flashed, List.foldl_cons, List.foldl_nil]
      exact ⟨entry, by simpa using known.symm⟩

omit works in
theorem calls_truthful {F : Type} {store : SettingsStore F} {flash : Flash} (rs : List Register)
    {storage : List SettingsStorageStatus} (known : .notFound ∉ storage) :
    ∀ call ∈ store.calls rs storage, call.Truthful flash := by
  induction rs generalizing storage with
  | nil => nofun
  | cons r rs ih =>
    have first : storage.headD .success ≠ .notFound := by
      cases storage with
      | nil => nofun
      | cons answer rest => exact fun same => known (by simp [show answer = .notFound from same])
    intro call inside
    rcases List.mem_cons.mp inside with rfl | later
    · unfold SettingsStore.callOf
      split
      · exact fun missing => absurd missing first
      · exact first
    · split at later
      · exact ih (fun mem => known (List.mem_of_mem_tail mem)) call later
      · contradiction

end ZephyrSettingsStorage

/-! ### The store on the adapter -/

inductive ZephyrStoreEvent
  | load
  | update (operation : NvmSettings → NvmSettings)
  | resetToFactoryDefaults
  | saveToFlash (gateOpens : Bool)

structure ZephyrStore (F Z : Type) where
  store : SettingsStore F
  storage : ZephyrSettingsStorage Z

namespace ZephyrStore

variable {F Z : Type} [Arithmetic F] (zephyr : ZephyrSettings Z) (c : ZephyrStore F Z)

/-- The storage is called only behind the gate. -/
def saveAnswers (gateOpens : Bool) : List SettingsStorageStatus × ZephyrSettingsStorage Z :=
  if gateOpens then ZephyrSettingsStorage.answers zephyr c.store c.store.unsaved c.storage else ([], c.storage)

def next : ZephyrStoreEvent → ZephyrStore F Z
  | .load => ⟨(c.store.load (c.storage.loadAll zephyr).1).2, (c.storage.loadAll zephyr).2⟩
  | .update operation => { c with store := (c.store.update operation).2 }
  | .resetToFactoryDefaults => { c with store := c.store.resetToFactoryDefaults.2 }
  | .saveToFlash gateOpens =>
    ⟨(c.store.saveToFlash gateOpens (c.saveAnswers zephyr gateOpens).1).2.1, (c.saveAnswers zephyr gateOpens).2⟩

/-- After boot. -/
def machine (factorySettings : NvmSettings) (capabilities : HardwareCapabilities F) (z : Z) :
    Runs.Machine (ZephyrStore F Z) ZephyrStoreEvent where
  start := ⟨.fresh factorySettings capabilities, ⟨false, z⟩⟩
  next := next zephyr
  admits _ _ := True

/-- The event as the store with an abstract storage sees it. -/
def seen : ZephyrStoreEvent → StoreEvent
  | .load => .load (c.storage.loadAll zephyr).1
  | .update operation => .update operation
  | .resetToFactoryDefaults => .resetToFactoryDefaults
  | .saveToFlash gateOpens => .saveToFlash gateOpens (c.saveAnswers zephyr gateOpens).1

/-- The store with what its storage holds. -/
def persistent : Persistent F := ⟨c.store, c.storage.flash zephyr⟩

variable {zephyr} {c} (works : zephyr.Works)

include works

omit [Arithmetic F] in
theorem seen_admitted (event : ZephyrStoreEvent) : Persistent.admits (c.persistent zephyr) (c.seen zephyr event) := by
  cases event with
  | load => exact (ZephyrSettingsStorage.loadAll_complete works).2
  | _ => trivial

omit [Arithmetic F] in
theorem save_flash (gateOpens : Bool) :
    c.store.flashAfter gateOpens (c.saveAnswers zephyr gateOpens).1 (c.storage.flash zephyr) =
      (c.saveAnswers zephyr gateOpens).2.flash zephyr := by
  have answered := ZephyrSettingsStorage.answers_flash works c.store c.store.unsaved c.storage
  rw [SettingsStore.flashAfter, SettingsStore.saveChanged_eq, saveAnswers]
  by_cases nothing : c.store.unsaved = []
  · rw [if_pos nothing, nothing]
    cases gateOpens <;> rfl
  · rw [if_neg nothing]
    cases gateOpens with
    | false => rfl
    | true => simpa [flashed, SaveEvent.onFlash] using answered.1

theorem next_persistent (event : ZephyrStoreEvent) :
    Persistent.next (c.persistent zephyr) (c.seen zephyr event) = (c.next zephyr event).persistent zephyr := by
  cases event with
  | load =>
    show (⟨_, c.storage.flash zephyr⟩ : Persistent F) = ⟨_, (c.storage.loadAll zephyr).2.flash zephyr⟩
    rw [(ZephyrSettingsStorage.loadAll_complete works).1]
    rfl
  | update operation => rfl
  | resetToFactoryDefaults => rfl
  | saveToFlash gateOpens =>
    have after := @save_flash F Z zephyr c works gateOpens
    rw [seen, Persistent.next_save]
    exact congrArg (Persistent.mk _) after

omit [Arithmetic F] in
theorem seen_truthful {gateOpens : Bool} :
    ∀ call ∈ c.store.calls c.store.unsaved (c.saveAnswers zephyr gateOpens).1, call.Truthful (c.storage.flash zephyr) := by
  apply ZephyrSettingsStorage.calls_truthful
  cases gateOpens with
  | false => nofun
  | true => exact (ZephyrSettingsStorage.answers_flash works c.store c.store.unsaved c.storage).2

section Runs

variable (zephyr) (factorySettings : NvmSettings) (capabilities : HardwareCapabilities F) (z : Z)

omit works

/-- A run as the store with an abstract storage sees it. -/
def seenRun : List ZephyrStoreEvent → List StoreEvent
  | [] => []
  | event :: past => ((machine zephyr factorySettings capabilities z).replay past).seen zephyr event :: seenRun past

/-- What the storage holds at boot. -/
def bootFlash : Flash := (⟨false, z⟩ : ZephyrSettingsStorage Z).flash zephyr

variable {zephyr factorySettings capabilities z}

include works

/-- The store on the adapter refines the store with an abstract storage. -/
theorem seenRun_refines (trace : List ZephyrStoreEvent) :
    (Persistent.machine factorySettings capabilities (bootFlash zephyr z)).Legal
        (seenRun zephyr factorySettings capabilities z trace) ∧
      (Persistent.machine factorySettings capabilities (bootFlash zephyr z)).replay
          (seenRun zephyr factorySettings capabilities z trace) =
        ((machine zephyr factorySettings capabilities z).replay trace).persistent zephyr := by
  induction trace with
  | nil => exact ⟨trivial, rfl⟩
  | cons event past ih =>
    obtain ⟨legal, same⟩ := ih
    refine ⟨⟨?_, legal⟩, ?_⟩
    · rw [same]
      exact seen_admitted works event
    · rw [seenRun, Runs.Machine.replay_cons, same]
      exact next_persistent works event

omit works in
/-- A save follows a load that succeeded. -/
def SavesRead : ZephyrStoreEvent → List ZephyrStoreEvent → Prop
  | .saveToFlash _, past =>
    Persistent.Read (bootFlash zephyr z) (seenRun zephyr factorySettings capabilities z past)
  | _, _ => True

theorem seenRun_saves (trace : List ZephyrStoreEvent)
    (reads : Runs.Throughout (@SavesRead F Z _ zephyr factorySettings capabilities z) trace) :
    Runs.Throughout (Persistent.SavesAsRead factorySettings capabilities (bootFlash zephyr z))
      (seenRun zephyr factorySettings capabilities z trace) := by
  induction trace with
  | nil => exact Runs.throughout_nil _
  | cons event past ih =>
    obtain ⟨here, before⟩ := (Runs.throughout_cons ..).mp reads
    refine (Runs.throughout_cons ..).mpr ⟨?_, ih before⟩
    cases event with
    | saveToFlash gateOpens =>
      have same := (@seenRun_refines F Z _ zephyr works factorySettings capabilities z past).2
      refine ⟨here, ?_⟩
      rw [same]
      exact seen_truthful works
    | _ => trivial

theorem seenRun_inStep (valid : SettingsStore.isValidProfile factorySettings capabilities = true)
    (trace : List ZephyrStoreEvent)
    (reads : Runs.Throughout (@SavesRead F Z _ zephyr factorySettings capabilities z) trace) :
    @Persistent.InStep F _ factorySettings capabilities (bootFlash zephyr z)
      (((machine zephyr factorySettings capabilities z).replay trace).persistent zephyr)
      (seenRun zephyr factorySettings capabilities z trace) := by
  have refines := @seenRun_refines F Z _ zephyr works factorySettings capabilities z trace
  rw [← refines.2]
  refine Runs.Machine.invariant_under (Persistent.SavesAsRead factorySettings capabilities (bootFlash zephyr z))
    _ ?_ ?_ _ refines.1 (seenRun_saves works trace reads)
  · exact ⟨⟨rfl, rfl⟩, .inr fun r => sameEncoding_self .., Persistent.mirrors_blank⟩
  · intro e past inStep admitted saves
    apply Persistent.inStep_next valid inStep admitted
    rintro gateOpens storage rfl
    exact saves.2

end Runs

end ZephyrStore

variable {F Z : Type} [Arithmetic F]

/-- Over every run of the store on the settings subsystem, whichever of its calls fail: after a save
that succeeds, the next boot loads the live settings, unless its load fails. -/
theorem save_survives_boot {zephyr : ZephyrSettings Z} (works : zephyr.Works) {factorySettings : NvmSettings}
    {capabilities : HardwareCapabilities F} (valid : SettingsStore.isValidProfile factorySettings capabilities = true)
    (z : Z) (past : List ZephyrStoreEvent) (gateOpens : Bool)
    (reads : Runs.Throughout (@ZephyrStore.SavesRead F Z _ zephyr factorySettings capabilities z)
      (.saveToFlash gateOpens :: past)) :
    ∀ before after, before = (ZephyrStore.machine zephyr factorySettings capabilities z).replay past →
      after = (ZephyrStore.machine zephyr factorySettings capabilities z).replay (.saveToFlash gateOpens :: past) →
      (before.store.saveToFlash gateOpens (before.saveAnswers zephyr gateOpens).1).1 = .success →
      ∀ reading, reading = ((⟨false, after.storage.settings⟩ : ZephyrSettingsStorage Z).loadAll zephyr).1 →
        reading.succeeded = true → ∀ r : Register,
          sameEncoding r.kind (((SettingsStore.fresh factorySettings capabilities).load reading).2.settings r)
            (after.store.settings r) = true := by
  rintro before after rfl rfl success reading rfl succeeded r
  obtain ⟨read, pastReads⟩ := (Runs.throughout_cons ..).mp reads
  have inStep := ZephyrStore.seenRun_inStep works valid past pastReads
  rw [Runs.Machine.replay_cons] at succeeded ⊢
  generalize (ZephyrStore.machine zephyr factorySettings capabilities z).replay past = c at inStep success succeeded ⊢
  obtain ⟨⟨factory, limits⟩, settled, mirrors⟩ := inStep
  have complete := (@ZephyrSettingsStorage.loadAll_complete Z zephyr
    ⟨false, (c.saveAnswers zephyr gateOpens).2.settings⟩ works).2 succeeded
  have live : ((ZephyrStore.machine zephyr factorySettings capabilities z).next c (.saveToFlash gateOpens)).store.settings =
      c.store.settings := SettingsStore.saveToFlash_settings ..
  rw [live]
  have same := @SettingsStore.saved_load F _ c.store _ _ gateOpens _ (factory ▸ limits ▸ valid) settled (mirrors read)
    (ZephyrStore.seen_truthful works) success
    (@ZephyrStore.save_flash F Z zephyr c works gateOpens ▸ complete) succeeded r
  rw [show c.store.factorySettings = factorySettings from factory,
    show c.store.capabilities = capabilities from limits] at same
  exact same

/-! ### A subsystem in memory -/

/-- The key behind a subtree. -/
def keyBehind (subtree name : String) : Option String :=
  ((subtree ++ "/").toList.isPrefixOf? name.toList).map String.ofList

theorem keyBehind_some {subtree name key : String} : keyBehind subtree name = some key ↔ subtree ++ "/" ++ key = name := by
  unfold keyBehind
  rw [Option.map_eq_some_iff]
  constructor
  · rintro ⟨characters, found, rfl⟩
    rw [List.isPrefixOf?_eq_some_iff_append_eq] at found
    apply String.toList_inj.mp
    rw [String.toList_append, String.toList_ofList, found]
  · rintro rfl
    refine ⟨key.toList, ?_, String.ofList_toList⟩
    rw [List.isPrefixOf?_eq_some_iff_append_eq, String.toList_append (s := subtree ++ "/")]

/-- Entries by name, with a list of the names to go through. -/
structure Memory where
  names : List String
  held : Flash
  listed : ∀ name, (held name).isSome → name ∈ names

def Memory.put (name : String) (value : Option (List UInt8)) (memory : Memory) : Memory where
  names := name :: memory.names
  held := Function.update memory.held name value
  listed other some := by
    by_cases here : other = name
    · simp [here]
    · rw [Function.update_of_ne here] at some
      exact List.mem_cons_of_mem _ (memory.listed other some)

/-- Nothing fails. -/
def memorySettings : ZephyrSettings Memory where
  subsysInit memory := (true, memory)
  saveOne name value memory := (true, memory.put name (some value))
  delete name memory := (true, memory.put name none)
  loadSubtree subtree memory :=
    ((memory.names.filterMap (keyBehind subtree)).filterMap fun key =>
      (memory.held (subtree ++ "/" ++ key)).map fun value => (key, some value), true)
  entries := Memory.held

theorem memorySettings_works : memorySettings.Works where
  subsysInit _ := rfl
  saved _ _ _ _ _ := rfl
  unsaved _ _ _ := nofun
  deleted _ _ _ := rfl
  undeleted _ _ := nofun
  loaded subtree memory _ key value := by
    simp only [memorySettings, List.mem_filterMap, keyBehind_some, Option.map_eq_some_iff, Prod.mk.injEq]
    constructor
    · rintro ⟨other, -, found, held, rfl, rfl⟩
      exact ⟨rfl, held⟩
    · rintro ⟨some, rfl⟩
      obtain ⟨found, held⟩ := Option.isSome_iff_exists.mp some
      exact ⟨key, ⟨_, memory.listed _ some, rfl⟩, found, held, rfl, held.symm⟩

/-- A node-ID, saved after a load of nothing. -/
theorem save_survives_boot_nodeId :
    sameEncoding Register.nodeId.kind (((SettingsStore.fresh .default simCapabilities).load
      ((⟨false, ((ZephyrStore.machine memorySettings .default simCapabilities ⟨[], fun _ => none, nofun⟩).replay
        [.saveToFlash true, .update (·.set .nodeId (42 : UInt8)), .load]).storage.settings⟩ :
          ZephyrSettingsStorage Memory).loadAll memorySettings).1).2.settings .nodeId)
      (((ZephyrStore.machine memorySettings .default simCapabilities ⟨[], fun _ => none, nofun⟩).replay
        [.saveToFlash true, .update (·.set .nodeId (42 : UInt8)), .load]).store.settings .nodeId) = true := by
  refine save_survives_boot memorySettings_works (by decide) ⟨[], fun _ => none, nofun⟩
    [.update (·.set .nodeId (42 : UInt8)), .load] true ?_ _ _ rfl rfl ?_ _ rfl ?_ .nodeId
  · refine (Runs.throughout_cons ..).mpr ⟨rfl, (Runs.throughout_cons ..).mpr ⟨trivial, ?_⟩⟩
    exact (Runs.throughout_cons ..).mpr ⟨trivial, Runs.throughout_nil _⟩
  · decide +kernel
  · decide +kernel

end Unimoc.Hardware
