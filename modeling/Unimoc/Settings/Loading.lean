import Mathlib.Data.List.Nodup
import Mathlib.Data.List.TakeWhile
import Unimoc.Lib.Bytes
import Unimoc.Settings.Saving

/-! Stored bytes back to values, and a load of the stored entries over the factory settings. -/
namespace Unimoc.Settings

open Cyphal

/-- The characters, padded with terminators. -/
def padName (characters : List UInt8) : Vector UInt8 (nodeNameMaxLen + 1) :=
  Vector.ofFn fun i => characters.getD i.val 0

/-- None when the bytes do not fit the register type; a name ends with its terminator. -/
def decodeRegisterValue : (k : Kind) → List UInt8 → Option k.Carrier
  | .real32, [a, b, c, d] =>
    some (a.toUInt32 ||| b.toUInt32 <<< 8 ||| c.toUInt32 <<< 16 ||| d.toUInt32 <<< 24 : UInt32)
  | .natural8, [value] => some (value : UInt8)
  | .natural16, [low, high] => some (low.toUInt16 ||| high.toUInt16 <<< 8 : UInt16)
  | .text, stored =>
    if nodeNameMaxLen + 1 < stored.length || stored.getLast? ≠ some 0 then none
    else some (padName stored.dropLast)
  | _, _ => none

/-! ### The round trip of a value -/

theorem natural16_bytes (value : UInt16) :
    value.toUInt8.toUInt16 ||| (value >>> 8).toUInt8.toUInt16 <<< 8 = value :=
  Bytes.word16_bytes value

theorem real32_bytes (bits : UInt32) :
    bits.toUInt8.toUInt32 ||| (bits >>> 8).toUInt8.toUInt32 <<< 8 |||
      (bits >>> 16).toUInt8.toUInt32 <<< 16 ||| (bits >>> 24).toUInt8.toUInt32 <<< 24 = bits := by
  obtain ⟨first, second, third, last⟩ := Bytes.bytes_halves bits
  rw [← Bytes.word32_bytes, first, second, third, last, Bytes.word16_bytes, Bytes.word16_bytes,
    Bytes.word32_halves]

theorem ofFn_padded (name : List UInt8) (n : Nat) (fits : name.length < n) :
    (List.ofFn fun i : Fin n => name.getD i.val 0) = name ++ List.replicate (n - name.length) 0 := by
  apply List.ext_getElem
  · simp only [List.length_ofFn, List.length_append, List.length_replicate]
    omega
  · intro i inside _
    rw [List.getElem_ofFn, List.getElem_append]
    split
    · rename_i character
      exact (List.getElem_eq_getD 0).symm
    · rename_i padding
      rw [List.getElem_replicate]
      exact List.getD_eq_default _ _ (Nat.le_of_not_lt padding)

theorem takeWhile_padded {name : List UInt8} {n : Nat} (stops : ∀ c ∈ name, c ≠ 0) (fits : name.length < n) :
    ((List.ofFn fun i : Fin n => name.getD i.val 0).take (n - 1)).takeWhile (· ≠ 0) = name := by
  rw [ofFn_padded name n fits, List.take_append, List.take_of_length_le (by omega), List.take_replicate,
    List.takeWhile_append_of_pos (by simpa using stops), List.takeWhile_replicate]
  simp

theorem decode_number {k : Kind} (number : k ≠ .text) (value : k.Carrier) :
    decodeRegisterValue k (encodeRegisterValue k value) = some value := by
  cases k with
  | real32 => exact congrArg some (real32_bytes value)
  | natural8 => rfl
  | natural16 => exact congrArg some (natural16_bytes value)
  | text => exact absurd rfl number

def charactersOf (name : Vector UInt8 (nodeNameMaxLen + 1)) : List UInt8 :=
  (name.toList.take nodeNameMaxLen).takeWhile (· ≠ 0)

theorem encode_text (name : Vector UInt8 (nodeNameMaxLen + 1)) :
    encodeRegisterValue .text name = charactersOf name ++ [0] := rfl

theorem charactersOf_padName {characters : List UInt8} (stops : ∀ c ∈ characters, c ≠ 0)
    (fits : characters.length < nodeNameMaxLen + 1) : charactersOf (padName characters) = characters := by
  unfold charactersOf padName
  rw [Vector.toList_ofFn]
  exact takeWhile_padded stops fits

theorem charactersOf_length (name : Vector UInt8 (nodeNameMaxLen + 1)) :
    (charactersOf name).length ≤ nodeNameMaxLen := by
  have short := (List.takeWhile_prefix (· ≠ 0) (l := name.toList.take nodeNameMaxLen)).length_le
  rw [List.length_take] at short
  exact Nat.le_trans short (Nat.min_le_left ..)

theorem charactersOf_stops (name : Vector UInt8 (nodeNameMaxLen + 1)) : ∀ c ∈ charactersOf name, c ≠ 0 := by
  intro c inside
  simpa using List.mem_takeWhile_imp inside

theorem decode_name (name : Vector UInt8 (nodeNameMaxLen + 1)) :
    decodeRegisterValue .text (encodeRegisterValue .text name) = some (padName (charactersOf name)) := by
  have fits := Nat.lt_succ_of_le (charactersOf_length name)
  have accepted : (decide (nodeNameMaxLen + 1 < (charactersOf name ++ [0]).length) ||
      decide ((charactersOf name ++ [0]).getLast? ≠ some 0)) = false := by
    simp [Nat.not_lt.mpr fits]
  rw [encode_text, decodeRegisterValue, accepted, if_neg Bool.false_ne_true, List.dropLast_concat]
  rfl

theorem decode_text (name : Vector UInt8 (nodeNameMaxLen + 1)) :
    ∃ read, decodeRegisterValue .text (encodeRegisterValue .text name) = some read ∧
      sameEncoding .text read name = true := by
  refine ⟨padName (charactersOf name), decode_name name, ?_⟩
  apply beq_iff_eq.mpr
  rw [encode_text, encode_text, charactersOf_padName (charactersOf_stops name)
    (Nat.lt_succ_of_le (charactersOf_length name))]

theorem decode_encode (k : Kind) (value : k.Carrier) :
    ∃ read, decodeRegisterValue k (encodeRegisterValue k value) = some read ∧
      sameEncoding k read value = true := by
  by_cases text : k = .text
  · subst text
    exact decode_text value
  · exact ⟨value, decode_number text value, sameEncoding_self ..⟩

theorem sameEncoding_symm {k : Kind} {first second : k.Carrier} (same : sameEncoding k first second = true) :
    sameEncoding k second first = true := by
  rw [sameEncoding, beq_iff_eq] at *
  exact same.symm

theorem eq_of_sameEncoding {k : Kind} (number : k ≠ .text) {first second : k.Carrier}
    (same : sameEncoding k first second = true) : first = second := by
  rw [sameEncoding, beq_iff_eq] at same
  have read := congrArg (decodeRegisterValue k) same
  rw [decode_number number, decode_number number] at read
  exact Option.some.inj read

/-! ### A load -/

/-- What the storage makes of a load: the entries it delivers, in this order, and its answer. -/
structure Reading where
  entries : List (String × List UInt8)
  status : SettingsStorageStatus

/-- The answers a load goes on with. -/
def Reading.succeeded (reading : Reading) : Bool :=
  reading.status == .success || reading.status == .notFound

structure Loading where
  loaded : NvmSettings
  loadedCount : Nat
  undecodable : Bool

namespace Loading

def readRegister (entry : String × List UInt8) (l : Loading) (r : Register) : Loading :=
  if r.name ≠ entry.1 then l
  else
    let l := { l with loadedCount := l.loadedCount + 1 }
    match decodeRegisterValue r.kind entry.2 with
    | some value => { l with loaded := l.loaded.set r value }
    | none => { l with undecodable := true }

/-- An unknown key is ignored. -/
def readEntry (l : Loading) (entry : String × List UInt8) : Loading :=
  Register.all.foldl (readRegister entry) l

end Loading

/-- The factory settings with the delivered entries over them. -/
def Reading.loading (reading : Reading) (factorySettings : NvmSettings) : Loading :=
  reading.entries.foldl Loading.readEntry ⟨factorySettings, 0, false⟩

namespace SettingsStore

section Load

variable {F : Type} [Arithmetic F] (store : SettingsStore F)

/-- The store as constructed. -/
def fresh (factorySettings : NvmSettings) (capabilities : HardwareCapabilities F) : SettingsStore F :=
  ⟨factorySettings, capabilities, factorySettings, factorySettings, false⟩

def isValidProfile (factorySettings : NvmSettings) (limits : HardwareCapabilities F) : Bool :=
  isFinite F factorySettings && Scalar.isFinite limits.maxPhaseCurrent &&
    Scalar.isFinite limits.maxMotorCurrent && Scalar.isFinite limits.maxBatteryDriveCurrent &&
    Scalar.isFinite limits.maxBatteryChargeCurrent &&
    Scalar.zero < limits.maxPhaseCurrent && Scalar.zero < limits.maxMotorCurrent &&
    limits.maxMotorCurrent ≤ limits.maxPhaseCurrent &&
    Scalar.zero < limits.maxBatteryDriveCurrent &&
    Scalar.zero ≤ limits.maxBatteryChargeCurrent &&
    Scalar.isFinite limits.maxDcLinkVoltage && Scalar.zero < limits.maxDcLinkVoltage

/-- Loads the stored registers over the factory profile; a missing key keeps its factory value.
An entry that cannot be decoded or a set that is not valid leaves the factory settings live. -/
def load (reading : Reading) : SettingsStatus × SettingsStore F :=
  if !isValidProfile store.factorySettings store.capabilities then (.invalidSettings, store)
  else
    let store := { store with
      settings := store.factorySettings, stored := store.factorySettings, eraseDefaults := false }
    if !reading.succeeded then (toSettingsStatus reading.status, store)
    else
      let l := reading.loading store.factorySettings
      let store := { store with stored := l.loaded, eraseDefaults := l.undecodable }
      let validation := if l.undecodable then .invalidImage else validate l.loaded store.capabilities
      if validation ≠ .success then (validation, store)
      else (if l.loadedCount = 0 then .factoryDefaults else .success, { store with settings := l.loaded })

theorem load_cases (reading : Reading) :
    (isValidProfile store.factorySettings store.capabilities = false ∧
      store.load reading = (.invalidSettings, store)) ∨
    (reading.succeeded = false ∧
      store.load reading =
        (toSettingsStatus reading.status, fresh store.factorySettings store.capabilities)) ∨
    (reading.succeeded = true ∧ ∃ status settings,
      store.load reading = (status, ⟨store.factorySettings, store.capabilities, settings,
        (reading.loading store.factorySettings).loaded,
        (reading.loading store.factorySettings).undecodable⟩) ∧
      (settings = store.factorySettings ∨
        settings = (reading.loading store.factorySettings).loaded ∧
          validate settings store.capabilities = .success)) := by
  unfold load
  cases profile : isValidProfile store.factorySettings store.capabilities with
  | false => exact .inl ⟨rfl, rfl⟩
  | true =>
    cases answered : reading.succeeded with
    | false => exact .inr (.inl ⟨rfl, rfl⟩)
    | true =>
      refine .inr (.inr ⟨rfl, ?_⟩)
      simp only [Bool.not_true, Bool.false_eq_true, ↓reduceIte]
      generalize reading.loading store.factorySettings = l
      cases undecodable : l.undecodable with
      | true => exact ⟨_, _, rfl, .inl rfl⟩
      | false =>
        by_cases accepted : validate l.loaded store.capabilities = .success
        · rw [accepted]
          exact ⟨_, _, rfl, .inr ⟨rfl, accepted⟩⟩
        · simp only [accepted, Bool.false_eq_true, ↓reduceIte, ne_eq, not_false_eq_true]
          exact ⟨_, _, rfl, .inl rfl⟩

end Load

end SettingsStore

/-! ### What the entries of a load come to -/

namespace Loading

/-- The bytes of a name as one number, which the kernel compares faster. -/
def nameCode (name : String) : Nat := name.toByteArray.data.toList.foldl (fun code byte => 256 * code + byte.toNat) 0

theorem name_injective {r q : Register} (same : r.name = q.name) : r = q := by
  have distinct : (Register.all.map fun r => nameCode r.name).Nodup := by decide +kernel
  exact List.inj_on_of_nodup_map distinct (Register.mem_all r) (Register.mem_all q) (congrArg nameCode same)

variable {entry : String × List UInt8} {l : Loading}

theorem readRegister_loaded (r q : Register) :
    (readRegister entry l r).loaded q =
      if q = r ∧ q.name = entry.1 then (decodeRegisterValue q.kind entry.2).getD (l.loaded q)
      else l.loaded q := by
  unfold readRegister
  by_cases named : r.name = entry.1
  · rw [if_neg (not_not.mpr named)]
    by_cases here : q = r
    · subst here
      rw [if_pos ⟨rfl, named⟩]
      cases decodeRegisterValue q.kind entry.2 with
      | none => rfl
      | some value => exact NvmSettings.set_self ..
    · rw [if_neg fun holds => here holds.1]
      cases decodeRegisterValue r.kind entry.2 with
      | none => rfl
      | some value => exact NvmSettings.set_other _ _ here
  · rw [if_pos named, if_neg]
    rintro ⟨rfl, holds⟩
    exact named holds

theorem readRegister_undecodable (r : Register) :
    (readRegister entry l r).undecodable =
      (l.undecodable || (r.name = entry.1 && (decodeRegisterValue r.kind entry.2).isNone)) := by
  unfold readRegister
  by_cases named : r.name = entry.1
  · cases decodeRegisterValue r.kind entry.2 <;> simp [named]
  · simp [named]

/-- Every register but the one named keeps its value. -/
theorem readRegisters_loaded (rs : List Register) (distinct : rs.Nodup) (q : Register) (l : Loading) :
    (rs.foldl (readRegister entry) l).loaded q =
      if q ∈ rs ∧ q.name = entry.1 then (decodeRegisterValue q.kind entry.2).getD (l.loaded q)
      else l.loaded q := by
  induction rs generalizing l with
  | nil => simp
  | cons r rs ih =>
    obtain ⟨apart, distinct⟩ := List.nodup_cons.mp distinct
    rw [List.foldl_cons, ih distinct, readRegister_loaded]
    by_cases here : q = r
    · subst here
      simp [apart]
    · simp [here]

theorem readRegisters_undecodable (rs : List Register) (l : Loading) :
    (rs.foldl (readRegister entry) l).undecodable = true ↔ l.undecodable = true ∨
      ∃ r ∈ rs, r.name = entry.1 ∧ decodeRegisterValue r.kind entry.2 = none := by
  induction rs generalizing l with
  | nil => simp
  | cons r rs ih =>
    rw [List.foldl_cons, ih, readRegister_undecodable]
    simp [or_assoc]

theorem readEntry_loaded (q : Register) (l : Loading) :
    (readEntry l entry).loaded q =
      if entry.1 = q.name then (decodeRegisterValue q.kind entry.2).getD (l.loaded q) else l.loaded q := by
  unfold readEntry
  rw [readRegisters_loaded Register.all SettingsStore.registers_distinct]
  simp [Register.mem_all, eq_comm]

theorem readEntry_undecodable (l : Loading) :
    (readEntry l entry).undecodable = true ↔ l.undecodable = true ∨
      ∃ r : Register, r.name = entry.1 ∧ decodeRegisterValue r.kind entry.2 = none := by
  unfold readEntry
  rw [readRegisters_undecodable]
  simp [Register.mem_all]

theorem readEntries_undecodable (entries : List (String × List UInt8)) (l : Loading) :
    (entries.foldl readEntry l).undecodable = true ↔ l.undecodable = true ∨
      ∃ entry ∈ entries, ∃ r : Register, r.name = entry.1 ∧ decodeRegisterValue r.kind entry.2 = none := by
  induction entries generalizing l with
  | nil => simp
  | cons entry entries ih =>
    rw [List.foldl_cons, ih, readEntry_undecodable]
    simp [or_assoc]

/-- Entries of one register that all hold the same bytes leave their value. -/
theorem readEntries_loaded (q : Register) (bytes : List UInt8) (entries : List (String × List UInt8))
    (l : Loading) (same : ∀ entry ∈ entries, entry.1 = q.name → entry.2 = bytes) :
    (entries.foldl readEntry l).loaded q =
      if ∃ entry ∈ entries, entry.1 = q.name then (decodeRegisterValue q.kind bytes).getD (l.loaded q)
      else l.loaded q := by
  induction entries generalizing l with
  | nil => simp
  | cons entry entries ih =>
    rw [List.foldl_cons, ih _ fun e inside => same e (List.mem_cons_of_mem _ inside), readEntry_loaded]
    by_cases named : entry.1 = q.name
    · have read := same entry List.mem_cons_self named
      simp only [named, read, ↓reduceIte, List.mem_cons, exists_eq_or_imp, true_or]
      cases decodeRegisterValue q.kind bytes <;> simp
    · simp only [named, ↓reduceIte, List.mem_cons, exists_eq_or_imp, false_or]

end Loading

/-- The entries the storage holds, by key. -/
abbrev Flash := String → Option (List UInt8)

/-- The value a register has in the storage; without an entry that can be decoded it is the
factory value. -/
def heldValue (factorySettings : NvmSettings) (flash : Flash) (r : Register) : r.kind.Carrier :=
  ((flash r.name).bind (decodeRegisterValue r.kind)).getD (factorySettings r)

/-- Every stored entry was delivered, and no other. -/
def Reading.Complete (reading : Reading) (flash : Flash) : Prop :=
  ∀ key bytes, (key, bytes) ∈ reading.entries ↔ flash key = some bytes

section Complete

variable {reading : Reading} {flash : Flash}

theorem loaded_complete (complete : reading.Complete flash) (factorySettings : NvmSettings) :
    (reading.loading factorySettings).loaded = heldValue factorySettings flash := by
  funext r
  unfold heldValue Reading.loading
  cases entry : flash r.name with
  | none =>
    have absent : ¬∃ entry ∈ reading.entries, entry.1 = r.name := by
      rintro ⟨⟨key, bytes⟩, inside, rfl⟩
      rw [(complete _ bytes).mp inside] at entry
      contradiction
    rw [Loading.readEntries_loaded r [] reading.entries]
    · rw [if_neg absent]
      rfl
    · intro e inside named
      exact absurd ⟨e, inside, named⟩ absent
  | some bytes =>
    rw [Loading.readEntries_loaded r bytes reading.entries]
    · rw [if_pos ⟨(r.name, bytes), (complete _ _).mpr entry, rfl⟩]
      rfl
    · rintro ⟨key, other⟩ inside rfl
      rw [(complete _ other).mp inside] at entry
      exact Option.some.inj entry

theorem undecodable_complete (complete : reading.Complete flash) (factorySettings : NvmSettings) :
    (reading.loading factorySettings).undecodable = true ↔
      ∃ r : Register, ∃ bytes, flash r.name = some bytes ∧ decodeRegisterValue r.kind bytes = none := by
  rw [Reading.loading, Loading.readEntries_undecodable]
  simp only [Bool.false_eq_true, false_or]
  constructor
  · rintro ⟨⟨key, bytes⟩, inside, r, rfl, failed⟩
    exact ⟨r, bytes, (complete _ bytes).mp inside, failed⟩
  · rintro ⟨r, bytes, entry, failed⟩
    exact ⟨(r.name, bytes), (complete _ _).mpr entry, r, rfl, failed⟩

end Complete

end Unimoc.Settings
