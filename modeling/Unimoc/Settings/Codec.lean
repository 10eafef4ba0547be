import Unimoc.Settings.Loading

/-! The stored encoding both ways, and the field that a value is read into. -/
namespace Unimoc.Settings

open Cyphal

def maxRegisterValueSize : Nat := nodeNameMaxLen + 1

/-- Four bytes, the lowest first. -/
def getFloat (bytes : List UInt8) : UInt32 :=
  (List.range 4).foldl (fun bits i => bits ||| (bytes.getD i 0).toUInt32 <<< UInt32.ofNat (8 * i)) 0

/-- The first characters over a field of terminators. -/
def copyName (bytes : List UInt8) (count : Nat) : Vector UInt8 (nodeNameMaxLen + 1) :=
  (List.range count).foldl (fun name i => name.setIfInBounds i (bytes.getD i 0))
    (Vector.replicate (nodeNameMaxLen + 1) 0)

/-- Whether the bytes fit the register type, and the field afterwards. -/
def decodeRegisterField : (k : Kind) → List UInt8 → k.Carrier → Bool × k.Carrier
  | .real32, stored, value => if stored.length ≠ 4 then (false, value) else (true, getFloat stored)
  | .natural8, stored, value => if stored.length ≠ 1 then (false, value) else (true, stored.getD 0 0)
  | .natural16, stored, value =>
    if stored.length ≠ 2 then (false, value)
    else (true, ((stored.getD 0 0).toUInt16 ||| (stored.getD 1 0).toUInt16 <<< 8 : UInt16))
  | .text, stored, value =>
    if stored.isEmpty || maxRegisterValueSize < stored.length || stored.getLast? ≠ some 0 then (false, value)
    else (true, copyName stored (stored.length - 1))

/-! ### Bytes -/

theorem encode_natural16 (low high : UInt8) :
    encodeRegisterValue .natural16 (low.toUInt16 ||| high.toUInt16 <<< 8 : UInt16) = [low, high] := by
  obtain ⟨lowest, highest⟩ := Bytes.bytes_word16 low high
  exact congrArg₂ (fun low high => [low, high]) lowest highest

theorem encode_real32 (a b c d : UInt8) :
    encodeRegisterValue .real32 (a.toUInt32 ||| b.toUInt32 <<< 8 ||| c.toUInt32 <<< 16 |||
      d.toUInt32 <<< 24 : UInt32) = [a, b, c, d] := by
  rw [← Bytes.word32_bytes]
  obtain ⟨low, high⟩ := Bytes.halves_word32 (Bytes.word16 a b) (Bytes.word16 c d)
  obtain ⟨first, second, third, last⟩ := Bytes.bytes_halves (Bytes.word32 (Bytes.word16 a b) (Bytes.word16 c d))
  obtain ⟨isA, isB⟩ := Bytes.bytes_word16 a b
  obtain ⟨isC, isD⟩ := Bytes.bytes_word16 c d
  change [_, _, _, _] = _
  rw [first, second, third, last, low, high, isA, isB, isC, isD]

theorem getFloat_bytes (a b c d : UInt8) : getFloat [a, b, c, d] =
    a.toUInt32 ||| b.toUInt32 <<< 8 ||| c.toUInt32 <<< 16 ||| d.toUInt32 <<< 24 := by
  simp [getFloat, List.range_succ]

/-! ### Names -/

theorem fill_get {n : Nat} (stored : List UInt8) (name : Vector UInt8 n) (count : Nat) (i : Nat) (inside : i < n) :
    ((List.range count).foldl (fun name i => name.setIfInBounds i (stored.getD i 0)) name)[i] =
      if i < count then stored.getD i 0 else name[i] := by
  induction count with
  | zero => simp
  | succ count ih =>
    rw [List.range_succ, List.foldl_append, List.foldl_cons, List.foldl_nil, Vector.getElem_setIfInBounds, ih]
    by_cases here : count = i
    · simp [here]
    · have same : i < count + 1 ↔ i < count := by omega
      simp [here, same]

theorem copyName_eq (bytes : List UInt8) (count : Nat) : copyName bytes count = padName (bytes.take count) := by
  apply Vector.ext
  intro i inside
  unfold copyName padName
  rw [fill_get, Vector.getElem_ofFn, Vector.getElem_replicate]
  by_cases character : i < count
  · rw [if_pos character]
    simp [List.getD, character]
  · rw [if_neg character]
    simp [List.getD, character]

theorem characters_get (name : List UInt8) (i : Nat) (inside : i < name.length) :
    (name.takeWhile (· ≠ 0)).getD i 0 = name[i] ∨ ∃ j, j < i ∧ name[j]? = some 0 := by
  induction name generalizing i with
  | nil => exact absurd inside (Nat.not_lt_zero i)
  | cons c rest ih =>
    by_cases stop : c = 0
    · cases i with
      | zero => exact .inl (by simp [stop])
      | succ i => exact .inr ⟨0, Nat.succ_pos i, by simp [stop]⟩
    · rw [List.takeWhile_cons_of_pos (by simpa using stop)]
      cases i with
      | zero => exact .inl rfl
      | succ i =>
        rcases ih i (Nat.lt_of_succ_lt_succ inside) with same | ⟨j, before, found⟩
        · exact .inl same
        · exact .inr ⟨j + 1, Nat.succ_lt_succ before, found⟩

/-- Nothing of a value is lost but what stands after the terminator of a name. A name without one
ends with a terminator in place of its last character. -/
def Kept : (k : Kind) → k.Carrier → k.Carrier → Prop
  | .text, (name : Vector UInt8 (nodeNameMaxLen + 1)), (read : Vector UInt8 (nodeNameMaxLen + 1)) =>
    ∀ i, read.get i = name.get i ∨ (∃ j < i, name.get j = 0) ∨
      i = Fin.last nodeNameMaxLen ∧ ∀ j, name.get j ≠ 0
  | _, value, read => read = value

theorem kept_padName (name : Vector UInt8 (nodeNameMaxLen + 1)) : Kept .text name (padName (charactersOf name)) := by
  intro i
  have read : (padName (charactersOf name)).get i = (charactersOf name).getD i 0 := by
    change (Vector.ofFn fun i : Fin (nodeNameMaxLen + 1) => (charactersOf name).getD i.val 0)[i.val] = _
    rw [Vector.getElem_ofFn]
  rw [read]
  by_cases last : i = Fin.last nodeNameMaxLen
  · have ended : (charactersOf name).getD i 0 = 0 := by
      apply List.getD_eq_default
      rw [last]
      exact charactersOf_length name
    rw [ended]
    by_cases stops : ∃ j, name.get j = 0
    · obtain ⟨j, stop⟩ := stops
      rcases Nat.lt_or_ge j.val i.val with before | after
      · exact .inr (.inl ⟨j, before, stop⟩)
      · have same : j = i := by
          apply Fin.ext
          have bound := j.isLt
          rw [last] at after ⊢
          exact Nat.le_antisymm (Nat.le_of_lt_succ bound) after
        rw [← same]
        exact .inl stop.symm
    · exact .inr (.inr ⟨last, not_exists.mp stops⟩)
  · have before : i.val < nodeNameMaxLen := Fin.val_lt_last last
    have inside : i.val < (name.toList.take nodeNameMaxLen).length := by
      rw [List.length_take, Vector.length_toList]
      omega
    rcases characters_get (name.toList.take nodeNameMaxLen) i inside with same | ⟨j, earlier, found⟩
    · left
      rw [List.getElem_take, Vector.getElem_toList] at same
      exact same
    · right
      left
      have bound : j < nodeNameMaxLen + 1 := by omega
      refine ⟨⟨j, bound⟩, earlier, ?_⟩
      rw [List.getElem?_take_of_lt (by omega), List.getElem?_eq_some_iff] at found
      obtain ⟨_, stop⟩ := found
      exact stop

/-! ### Both ways -/

variable {k : Kind}

theorem decodeRegisterField_eq (stored : List UInt8) (target : k.Carrier) :
    decodeRegisterField k stored target =
      match decodeRegisterValue k stored with
      | some read => (true, read)
      | none => (false, target) := by
  cases k with
  | real32 =>
    match stored with
    | [a, b, c, d] => exact congrArg (true, ·) (getFloat_bytes a b c d)
    | [] | [_] | [_, _] | [_, _, _] | _ :: _ :: _ :: _ :: _ :: _ => rfl
  | natural8 =>
    match stored with
    | [_] => rfl
    | [] | _ :: _ :: _ => rfl
  | natural16 =>
    match stored with
    | [_, _] => rfl
    | [] | [_] | _ :: _ :: _ :: _ => rfl
  | text =>
    have field : decodeRegisterField .text stored target =
        if stored.isEmpty || maxRegisterValueSize < stored.length || stored.getLast? ≠ some 0 then (false, target)
        else (true, copyName stored (stored.length - 1)) := rfl
    have value : decodeRegisterValue .text stored =
        if nodeNameMaxLen + 1 < stored.length || stored.getLast? ≠ some 0 then none
        else some (padName stored.dropLast) := rfl
    -- an empty span has no last byte
    have empty : (stored.isEmpty || decide (maxRegisterValueSize < stored.length) ||
        decide (stored.getLast? ≠ some 0)) =
          (decide (nodeNameMaxLen + 1 < stored.length) || decide (stored.getLast? ≠ some 0)) := by
      cases stored with
      | nil => rfl
      | cons c rest => rfl
    rw [field, value, empty, copyName_eq, ← List.dropLast_eq_take]
    split
    · rfl
    · rfl

theorem encode_nonempty (value : k.Carrier) : encodeRegisterValue k value ≠ [] := by
  cases k with
  | text => exact List.append_ne_nil_of_right_ne_nil _ (List.cons_ne_nil 0 [])
  | real32 | natural8 | natural16 => exact List.cons_ne_nil _ _

theorem encode_decode (number : k ≠ .text) {stored : List UInt8} {read : k.Carrier}
    (decoded : decodeRegisterValue k stored = some read) : encodeRegisterValue k read = stored := by
  cases k with
  | real32 =>
    match stored with
    | [a, b, c, d] =>
      cases decoded
      exact encode_real32 a b c d
    | [] | [_] | [_, _] | [_, _, _] | _ :: _ :: _ :: _ :: _ :: _ => cases decoded
  | natural8 =>
    match stored with
    | [_] =>
      cases decoded
      rfl
    | [] | _ :: _ :: _ => cases decoded
  | natural16 =>
    match stored with
    | [low, high] =>
      cases decoded
      exact encode_natural16 low high
    | [] | [_] | _ :: _ :: _ :: _ => cases decoded
  | text => exact absurd rfl number

theorem decode_kept (value : k.Carrier) :
    ∃ read, decodeRegisterValue k (encodeRegisterValue k value) = some read ∧ Kept k value read := by
  cases k with
  | text => exact ⟨_, decode_name value, kept_padName value⟩
  | real32 | natural8 | natural16 => exact ⟨value, decode_number (by decide) value, rfl⟩

/-- What is written is read back, and a number that is read back was written so. -/
theorem register_encoding (k : Kind) :
    (∀ value : k.Carrier, encodeRegisterValue k value ≠ [] ∧
      ∀ target : k.Carrier, ∃ read,
        decodeRegisterField k (encodeRegisterValue k value) target = (true, read) ∧
        encodeRegisterValue k read = encodeRegisterValue k value ∧ Kept k value read) ∧
    ∀ (stored : List UInt8) (target : k.Carrier),
      decodeRegisterField k stored target = (false, target) ∨
      ∃ read, decodeRegisterField k stored target = (true, read) ∧
        (k ≠ .text → encodeRegisterValue k read = stored) := by
  constructor
  · intro value
    refine ⟨encode_nonempty value, ?_⟩
    intro target
    obtain ⟨read, decoded, same⟩ := decode_encode k value
    obtain ⟨kept, decoded', keeps⟩ := decode_kept value
    have one := Option.some.inj (decoded.symm.trans decoded')
    refine ⟨read, ?_, beq_iff_eq.mp same, one ▸ keeps⟩
    rw [decodeRegisterField_eq, decoded]
  · intro stored target
    rw [decodeRegisterField_eq]
    cases decoded : decodeRegisterValue k stored with
    | none => exact .inl rfl
    | some read => exact .inr ⟨read, rfl, fun number => encode_decode number decoded⟩

def unterminatedName : Kind.text.Carrier := (Vector.replicate (nodeNameMaxLen + 1) 97 : Vector UInt8 _)

/-- A name without a terminator does not come back as it was. -/
theorem register_encoding_unterminated :
    (∀ i, @Vector.get UInt8 (nodeNameMaxLen + 1) unterminatedName i ≠ 0) ∧
    (decodeRegisterField .text (encodeRegisterValue .text unterminatedName) unterminatedName).1 = true ∧
    (decodeRegisterField .text (encodeRegisterValue .text unterminatedName) unterminatedName).2 ≠
      unterminatedName := by
  decide +kernel

end Unimoc.Settings
