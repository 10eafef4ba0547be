import Unimoc.Cyphal.RegisterValue
import Unimoc.Drive.RegisterProvider
import Unimoc.Settings.Codec

/-! The settings as registers of the node: what a read shows, and what a write of any value leaves. -/
namespace Unimoc.Settings

open Cyphal

/-- The field of a register as a value; the node-ID has the type of the standard. -/
def toValue (r : Register) : r.kind.Carrier → RegisterValue :=
  match r.kind with
  | .real32 => fun (bits : UInt32) => .real32 [bits]
  | .natural8 => fun (field : UInt8) =>
    if r.name = Register.nodeId.name then .natural16 [field.toUInt16] else .natural8 [field]
  | .natural16 => fun (field : UInt16) => .natural16 [field]
  | .text => fun (field : Vector UInt8 (nodeNameMaxLen + 1)) => .string (charactersOf field)

/-- The number when the type of the field holds it. -/
def toInteger (value : RegisterValue) (most : Nat) : Option Nat :=
  match value.getInteger with
  | none => none
  | some n => if n < 0 || (most : Int) < n then none else some n.toNat

/-- The field is left unchanged unless the value is accepted. -/
def fromValue (value : RegisterValue) : (k : Kind) → Except RegisterWriteResult k.Carrier
  | .real32 =>
    match value.getNumber with
    | none => .error .typeMismatch
    | some bits => if !(Binary32.ofBits bits.toNat).isFinite then .error .outOfRange else .ok bits
  | .natural8 =>
    if value.getNumber.isNone then .error .typeMismatch
    else
      match toInteger value 255 with
      | none => .error .outOfRange
      | some n => .ok (UInt8.ofNat n : UInt8)
  | .natural16 =>
    if value.getNumber.isNone then .error .typeMismatch
    else
      match toInteger value 65535 with
      | none => .error .outOfRange
      | some n => .ok (UInt16.ofNat n : UInt16)
  | .text =>
    match value.getString with
    | none => .error .typeMismatch
    | some text => if nodeNameMaxLen < text.length then .error .outOfRange else .ok (copyName text text.length)

namespace SettingsRegisterProvider

variable {F : Type} [Arithmetic F] (store : SettingsStore F)

/-- The value is left as it was beyond the last register. -/
def read (index : Nat) (value : RegisterValue) : RegisterValue :=
  match Register.all[index]? with
  | none => value
  | some r => toValue r (store.settings r)

def write (index : Nat) (value : RegisterValue) : RegisterWriteResult × SettingsStore F :=
  store.write (Register.all[index]?.map fun r => ⟨r, fromValue value r.kind⟩)

end SettingsRegisterProvider

/-- The value shows the number that was written, rounded to its format, or the whole text. -/
def Shows (written : RegisterValue) : RegisterValue → Prop
  | .real32 [bits] => ∃ x, written.number = some x ∧ RegisterValue.Float x bits
  | .natural8 [n] => ∃ x, written.number = some x ∧ round x = n.toNat
  | .natural16 [n] => ∃ x, written.number = some x ∧ round x = n.toNat
  | .string text => written = .string text
  | _ => False

/-! ### One field -/

section Field

variable {value : RegisterValue}

theorem toInteger_round {most n : Nat} (small : most ≤ 65535) (taken : toInteger value most = some n) :
    n ≤ most ∧ ∃ x, value.number = some x ∧ round x = n := by
  unfold toInteger at taken
  split at taken
  · cases taken
  · rename_i whole integer
    split at taken
    · cases taken
    · rename_i inside
      simp only [Bool.or_eq_true, decide_eq_true_eq, not_or, not_lt] at inside
      obtain ⟨positive, bound⟩ := inside
      have same := Option.some.inj taken
      obtain ⟨x, written, near⟩ := RegisterValue.getInteger_round integer positive (by omega)
      have wholeEq : whole = n := by omega
      exact ⟨by omega, x, written, wholeEq ▸ near⟩

theorem shows_natural8 {field : UInt8} (taken : fromValue value .natural8 = .ok field) :
    ∃ x, value.number = some x ∧ round x = field.toNat := by
  unfold fromValue at taken
  dsimp only at taken
  split at taken
  · cases taken
  · split at taken
    · cases taken
    · rename_i n integer
      obtain ⟨inside, shown⟩ := toInteger_round (by decide) integer
      have held : (UInt8.ofNat n).toNat = n := Nat.mod_eq_of_lt (Nat.lt_succ_of_le inside)
      have same : UInt8.ofNat n = field := Except.ok.inj taken
      rw [← same, held]
      exact shown

theorem shows_natural16 {field : UInt16} (taken : fromValue value .natural16 = .ok field) :
    ∃ x, value.number = some x ∧ round x = field.toNat := by
  unfold fromValue at taken
  dsimp only at taken
  split at taken
  · cases taken
  · split at taken
    · cases taken
    · rename_i n integer
      obtain ⟨inside, shown⟩ := toInteger_round (by decide) integer
      have held : (UInt16.ofNat n).toNat = n := Nat.mod_eq_of_lt (Nat.lt_succ_of_le inside)
      have same : UInt16.ofNat n = field := Except.ok.inj taken
      rw [← same, held]
      exact shown

theorem shows_real32 {field : UInt32} (taken : fromValue value .real32 = .ok field) :
    ∃ x, value.number = some x ∧ RegisterValue.Float x field := by
  unfold fromValue at taken
  dsimp only at taken
  split at taken
  · cases taken
  · rename_i bits number
    split at taken
    · cases taken
    · rename_i finite
      rw [Bool.not_eq_true', Bool.not_eq_false] at finite
      have same : bits = field := Except.ok.inj taken
      exact same ▸ RegisterValue.getNumber_float number finite

theorem fromValue_text {field : Vector UInt8 (nodeNameMaxLen + 1)} (taken : fromValue value .text = .ok field) :
    ∃ text, value = .string text ∧ text.length ≤ nodeNameMaxLen ∧ field = padName text := by
  unfold fromValue at taken
  dsimp only at taken
  split at taken
  · cases taken
  · rename_i text string
    split at taken
    · cases taken
    · rename_i short
      have same : copyName text text.length = field := Except.ok.inj taken
      rw [copyName_eq, List.take_length] at same
      cases value with
      | string elements => exact ⟨text, congrArg _ (Option.some.inj string), Nat.le_of_not_lt short, same.symm⟩
      | _ => cases string

theorem fromValue_error {k : Kind} {result : RegisterWriteResult} (refused : fromValue value k = .error result) :
    result ≠ .accepted := by
  unfold fromValue at refused
  rintro rfl
  cases k with
  | real32 =>
    dsimp only at refused
    split at refused
    · cases refused
    · split at refused <;> cases refused
  | natural8 | natural16 =>
    dsimp only at refused
    split at refused
    · cases refused
    · split at refused <;> cases refused
  | text =>
    dsimp only at refused
    split at refused
    · cases refused
    · split at refused <;> cases refused

/-- An accepted value is shown again, a text that has no terminator within. -/
theorem shows_toValue {r : Register} {field : r.kind.Carrier} (taken : fromValue value r.kind = .ok field)
    (whole : ∀ text, r.kind = .text → value = .string text → 0 ∉ text) : Shows value (toValue r field) := by
  unfold toValue
  revert field
  generalize r.kind = k at whole
  intro field taken
  cases k with
  | real32 => exact shows_real32 taken
  | natural8 =>
    have shown := shows_natural8 taken
    dsimp only
    split
    · obtain ⟨x, written, near⟩ := shown
      refine ⟨x, written, ?_⟩
      rw [near]
      exact congrArg Int.ofNat (UInt8.toNat_toUInt16 field).symm
    · exact shown
  | natural16 => exact shows_natural16 taken
  | text =>
    obtain ⟨text, rfl, short, same⟩ := fromValue_text taken
    have stops : ∀ c ∈ text, c ≠ 0 := by
      intro c inside zero
      exact whole text rfl rfl (zero ▸ inside)
    have kept := charactersOf_padName stops (Nat.lt_succ_of_le short)
    change RegisterValue.string text = .string (charactersOf field)
    rw [same, kept]

end Field

namespace SettingsRegisterProvider

section Law

variable {F : Type} [Arithmetic F] {store : SettingsStore F}

/-- What a write does to what the registers show. -/
def Lawful (store : SettingsStore F) (index : Nat) (value : RegisterValue) : Prop :=
  ((write store index value).1 = .accepted →
    Shows value (read (write store index value).2 index .empty) ∧
    ∀ other initial, other ≠ index →
      read (write store index value).2 other initial = read store other initial) ∧
  ((write store index value).1 ≠ .accepted →
    ∀ other initial, read (write store index value).2 other initial = read store other initial)

/-- The name, for a text that fits and holds a terminator. -/
def Truncated (store : SettingsStore F) (index : Nat) (value : RegisterValue) : Prop :=
  Register.all[index]? = some .nodeDescription ∧ validate store.settings store.capabilities = .success ∧
    ∃ text, value = .string text ∧ text.length ≤ nodeNameMaxLen ∧ 0 ∈ text

theorem write_accepted {index : Nat} {value : RegisterValue} (accepted : (write store index value).1 = .accepted) :
    ∃ r field, Register.all[index]? = some r ∧ fromValue value r.kind = .ok field ∧
      validate (store.settings.set r field) store.capabilities = .success ∧
      (write store index value).2.settings = store.settings.set r field := by
  unfold write at accepted ⊢
  cases listed : Register.all[index]? with
  | none =>
    rw [listed] at accepted
    cases accepted
  | some r =>
    rw [listed] at accepted
    rw [Option.map_some] at accepted ⊢
    cases taken : fromValue value r.kind with
    | error result =>
      have failed := fromValue_error taken
      rw [taken] at accepted
      unfold SettingsStore.write at accepted
      dsimp only at accepted
      rw [if_pos failed] at accepted
      exact absurd accepted failed
    | ok field =>
      rw [taken] at accepted
      rw [SettingsStore.write_ok] at accepted ⊢
      split at accepted
      · cases accepted
      · rename_i success
        have committed := not_not.mp success
        have valid := SettingsStore.commit_success (Prod.ext committed rfl)
        rw [if_neg success]
        exact ⟨r, field, rfl, taken, valid, SettingsStore.commit_settings committed⟩

omit [Arithmetic F] in
theorem read_other {after : SettingsStore F} {index other : Nat} {r : Register} {field : r.kind.Carrier}
    (listed : Register.all[index]? = some r) (changed : after.settings = store.settings.set r field)
    (differ : other ≠ index) (initial : RegisterValue) : read after other initial = read store other initial := by
  unfold read
  cases listed' : Register.all[other]? with
  | none => rfl
  | some q =>
    have apart : q ≠ r := by
      intro same
      have inside : other < Register.all.length := (List.getElem?_eq_some_iff.mp listed').1
      apply differ
      apply (List.getElem?_inj inside SettingsStore.registers_distinct).mp
      rw [listed', listed, same]
    dsimp only
    rw [changed, NvmSettings.set_other _ _ apart]

theorem lawful_of {index : Nat} {value : RegisterValue} (whole : ¬Truncated store index value) :
    Lawful store index value := by
  constructor
  · intro accepted
    obtain ⟨r, field, listed, taken, valid, changed⟩ := write_accepted accepted
    constructor
    · unfold read
      rw [listed]
      dsimp only
      rw [changed, NvmSettings.set_self]
      apply shows_toValue taken
      rintro text kind rfl stop
      obtain rfl := kind_text kind
      obtain ⟨same, written, short, -⟩ := fromValue_text taken
      cases written
      rw [validate_name] at valid
      exact whole ⟨listed, valid, text, rfl, short, stop⟩
    · intro other initial differ
      exact read_other listed changed differ initial
  · intro refused other initial
    rw [write, SettingsStore.write_refused refused]

/-- A truncated name is accepted. -/
theorem write_truncated {index : Nat} {value : RegisterValue} (truncated : Truncated store index value) :
    (write store index value).1 = .accepted ∧
      ¬Shows value (read (write store index value).2 index .empty) := by
  obtain ⟨listed, valid, text, rfl, short, stop⟩ := truncated
  have taken : ∃ field, fromValue (.string text) Register.nodeDescription.kind = .ok field ∧
      toValue .nodeDescription field = .string (charactersOf (copyName text text.length)) :=
    ⟨copyName text text.length, if_neg (Nat.not_lt.mpr short), rfl⟩
  obtain ⟨field, taken, shown⟩ := taken
  have accepted : validate (store.settings.set .nodeDescription field) store.capabilities = .success := by
    rw [validate_name, valid]
  have written : write store index (.string text) =
      (.accepted, { store with settings := store.settings.set .nodeDescription field }) := by
    unfold write
    rw [listed, Option.map_some, taken, SettingsStore.write_ok]
    simp [SettingsStore.update, SettingsStore.commit, accepted]
  rw [written]
  refine ⟨rfl, ?_⟩
  unfold read
  rw [listed]
  dsimp only
  rw [NvmSettings.set_self, shown]
  intro whole
  have same : RegisterValue.string text = .string (charactersOf (copyName text text.length)) := whole
  have cut := charactersOf_stops (copyName text text.length)
  rw [← RegisterValue.string.inj same] at cut
  exact cut 0 stop rfl

theorem lawful_iff (store : SettingsStore F) (index : Nat) (value : RegisterValue) :
    Lawful store index value ↔ ¬Truncated store index value := by
  constructor
  · intro lawful truncated
    obtain ⟨accepted, hidden⟩ := write_truncated truncated
    exact hidden (lawful.1 accepted).1
  · exact lawful_of

end Law

end SettingsRegisterProvider

variable {F : Type} [Arithmetic F]

/-- A write shows what was written and changes nothing else, but for a name that is cut short. -/
theorem register_write_law (factorySettings : NvmSettings) (capabilities : HardwareCapabilities F)
    (trace : List (Mutation F)) (index : Nat) (value : RegisterValue) :
    let store := (Mutation.machine factorySettings capabilities).replay trace
    SettingsRegisterProvider.Lawful store index value ↔
      ¬SettingsRegisterProvider.Truncated store index value :=
  SettingsRegisterProvider.lawful_iff _ index value

/-- A name with a NUL after its first letter. -/
theorem register_write_law_cut :
    let store := SettingsStore.fresh NvmSettings.default simCapabilities
    let written := SettingsRegisterProvider.write store 1 (.string [97, 0, 98])
    written.1 = .accepted ∧ SettingsRegisterProvider.read written.2 1 .empty = .string [97] := by
  decide +kernel

end Unimoc.Settings
