import Mathlib.Tactic.IntervalCases
import Unimoc.Sim.SlcanMedia

/-! The lines of CAN frames: a formatted frame is read back up to the length of a classic frame,
which is what another tool gets of a forwarded line. -/
namespace Unimoc.Sim

namespace Slcan

/-! ### Digits -/

theorem nibble_digitAt : ∀ value : Fin 16, nibble (digitAt value.val) = some (UInt32.ofNat value.val) := by
  decide

theorem nibble_word (word : UInt32) : nibble (digitAt (word &&& 0xF).toNat) = some (word &&& 0xF) := by
  have small : (word &&& 0xF).toNat < 16 := by
    rw [UInt32.toNat_and]
    exact Nat.lt_succ_of_le Nat.and_le_right
  have read := nibble_digitAt ⟨_, small⟩
  rwa [UInt32.ofNat_toNat] at read

theorem shiftIn_digitAt (value word : UInt32) :
    shiftIn value (digitAt (word &&& 0xF).toNat) = some ((value <<< 4) ||| (word &&& 0xF)) := by
  rw [shiftIn, nibble_word, Option.map_some]

theorem word_ext {a b : UInt32} (same : ∀ i < 32, a.toBitVec.getLsbD i = b.toBitVec.getLsbD i) : a = b := by
  apply UInt32.eq_of_toBitVec_eq
  ext i inside
  exact same i inside

theorem parseHex_idDigits (id : UInt32) : parseHex (idDigits id) = some id := by
  simp only [parseHex, idDigits, List.map_cons, List.map_nil, List.foldlM_cons, List.foldlM_nil, shiftIn_digitAt,
    Option.bind_eq_bind, Option.bind_some, Option.pure_def]
  apply congrArg some
  apply word_ext
  intro i inside
  interval_cases i <;> simp

theorem parseHex_byteDigits (byte : UInt8) : (parseHex (byteDigits byte)).map (·.toUInt8) = some byte := by
  have high : (byte >>> 4).toNat = ((byte >>> 4).toUInt32 &&& 0xF).toNat := by
    have small : (byte >>> 4).toNat < 2 ^ 4 := by
      have bound := byte.toNat_lt
      rw [UInt8.toNat_shiftRight]
      change byte.toNat >>> 4 < 16
      rw [Nat.shiftRight_eq_div_pow]
      omega
    rw [UInt32.toNat_and, UInt8.toNat_toUInt32]
    exact (Nat.and_two_pow_sub_one_of_lt_two_pow small).symm
  have low : (byte &&& 0xF).toNat = (byte.toUInt32 &&& 0xF).toNat := by
    rw [UInt8.toNat_and, UInt32.toNat_and, UInt8.toNat_toUInt32]
    rfl
  simp only [parseHex, byteDigits, high, low, List.foldlM_cons, List.foldlM_nil, shiftIn_digitAt,
    Option.bind_eq_bind, Option.bind_some, Option.pure_def, Option.map_some]
  apply congrArg some
  apply UInt8.eq_of_toBitVec_eq
  ext i inside
  interval_cases i <;> simp

theorem parseHex_digit (value : Fin 16) : parseHex [digitAt value.val] = some (UInt32.ofNat value.val) := by
  revert value
  decide

/-! ### Lines of frames -/

theorem drop_flatMap_byteDigits (bytes : List UInt8) (i : Nat) (inside : i < bytes.length) :
    ((bytes.flatMap byteDigits).drop (2 * i)).take 2 = byteDigits bytes[i] := by
  induction bytes generalizing i with
  | nil => cases inside
  | cons byte bytes ih =>
    cases i with
    | zero => rfl
    | succ i => exact ih i (Nat.lt_of_succ_lt_succ inside)

theorem length_flatMap_byteDigits (bytes : List UInt8) : (bytes.flatMap byteDigits).length = 2 * bytes.length := by
  induction bytes with
  | nil => rfl
  | cons byte bytes ih =>
    rw [List.flatMap_cons, List.length_append, ih, List.length_cons]
    change 2 + 2 * bytes.length = _
    omega

theorem mapM_eq_some {α β : Type} {list : List α} {f : α → Option β} {g : α → β}
    (found : ∀ a ∈ list, f a = some (g a)) : list.mapM f = some (list.map g) := by
  induction list with
  | nil => rfl
  | cons a list ih =>
    rw [List.mapM_cons, found a (.head _), ih fun b listed => found b (.tail _ listed)]
    rfl

theorem parseData_digits {head : Text} {bytes : List UInt8} (length : head.length = 10) :
    parseData (head ++ bytes.flatMap byteDigits) bytes.length = some bytes := by
  have enough : ¬(head ++ bytes.flatMap byteDigits).length < 10 + 2 * bytes.length := by
    rw [List.length_append, length_flatMap_byteDigits, length]
    exact Nat.lt_irrefl _
  have each : ∀ i ∈ List.range bytes.length,
      (parseHex (substr (head ++ bytes.flatMap byteDigits) (10 + 2 * i) 2)).map (·.toUInt8) =
        some (bytes.getD i 0) := by
    intro i listed
    have inside := List.mem_range.mp listed
    rw [substr, ← length, List.drop_length_add_append, drop_flatMap_byteDigits bytes i inside, parseHex_byteDigits,
      List.getD_eq_getElem?_getD, List.getElem?_eq_getElem inside]
    rfl
  rw [parseData, if_neg enough, mapM_eq_some each]
  apply congrArg some
  apply List.ext_getElem
  · rw [List.length_map, List.length_range]
  · intro i _ inside
    simp [inside]

def frameLine (id : UInt32) (bytes : List UInt8) : Text :=
  'T' :: idDigits id ++ [digitAt bytes.length] ++ bytes.flatMap byteDigits

theorem dlcToLength_classic : ∀ n : Fin 9, dlcToLength.getD n.val 0 = UInt8.ofNat n.val := by decide

theorem parseFrame_frameLine (id : UInt32) {bytes : List UInt8} (short : bytes.length ≤ canClassicMtu) :
    parseFrame 'T' (frameLine id bytes) =
      some ⟨id &&& 0x1FFFFFFF, UInt8.ofNat bytes.length, Vector.ofFn fun i => bytes.getD i 0⟩ := by
  have few : bytes.length < 9 := Nat.lt_succ_of_le short
  have length : (frameLine id bytes).length = 10 + 2 * bytes.length := by
    rw [frameLine, List.length_append, length_flatMap_byteDigits]
    rfl
  have number : (UInt32.ofNat bytes.length).toNat = bytes.length := by
    rw [UInt32.toNat_ofNat']
    exact Nat.mod_eq_of_lt (by omega)
  have size : (UInt8.ofNat bytes.length).toNat = bytes.length := by
    rw [UInt8.toNat_ofNat']
    exact Nat.mod_eq_of_lt (by omega)
  have idRead : parseHex (substr (frameLine id bytes) 1 8) = some id := parseHex_idDigits id
  have codeRead : parseHex (substr (frameLine id bytes) 9 1) = some (UInt32.ofNat bytes.length) :=
    parseHex_digit ⟨bytes.length, by omega⟩
  have code : ¬8 < UInt32.ofNat bytes.length := by
    rw [UInt32.lt_iff_toNat_lt, number]
    exact Nat.not_lt_of_le short
  have dataRead : parseData (frameLine id bytes) bytes.length = some bytes := parseData_digits rfl
  have lookup : dlcToLength[bytes.length]?.getD 0 = UInt8.ofNat bytes.length :=
    dlcToLength_classic ⟨bytes.length, few⟩
  rw [parseFrame, idRead, codeRead, length]
  simp [code, number, lookup, size, dataRead]

/-- The size a frame keeps on a line. -/
def keptSize (frame : CanFrame) : Nat :=
  if canClassicMtu < frame.size.toNat then canClassicMtu else frame.size.toNat

def keptData (frame : CanFrame) : List UInt8 := frame.data.toList.take (keptSize frame)

theorem length_keptData (frame : CanFrame) : (keptData frame).length = keptSize frame := by
  have small : keptSize frame ≤ canFdMtu := by
    unfold keptSize canClassicMtu canFdMtu
    split <;> omega
  rw [keptData, List.length_take, Vector.length_toList, Nat.min_eq_left small]

theorem keptSize_le (frame : CanFrame) : keptSize frame ≤ canClassicMtu := by
  unfold keptSize
  split <;> omega

theorem formatFrame_eq (frame : CanFrame) {textSize : Nat} (room : maxFrameText ≤ textSize) :
    formatFrame frame textSize = frameLine frame.extendedCanId (keptData frame) ++ [carriageReturn] := by
  rw [frameLine, length_keptData, formatFrame, if_neg (Nat.not_lt_of_le room)]
  rfl

/-- A frame cut to a 29-bit id and to the length of a classic one. -/
def classic (frame : CanFrame) : CanFrame where
  extendedCanId := frame.extendedCanId &&& 0x1FFFFFFF
  size := UInt8.ofNat (keptSize frame)
  data := Vector.ofFn fun i => (keptData frame).getD i 0

theorem parseLine_classic {rest : Text} {frame : CanFrame} (read : parseFrame 'T' ('T' :: rest) = some frame) :
    parseLine ('T' :: rest) = ⟨[], some frame, none⟩ := by
  simp [parseLine, read]

/-- The line of a frame is read back as its classic part. -/
theorem parse_format (frame : CanFrame) {textSize : Nat} (room : maxFrameText ≤ textSize) :
    parseLine (formatFrame frame textSize).dropLast = ⟨[], some (classic frame), none⟩ := by
  have short : (keptData frame).length ≤ canClassicMtu := by
    rw [length_keptData]
    exact keptSize_le frame
  have read := parseFrame_frameLine frame.extendedCanId short
  rw [length_keptData] at read
  rw [formatFrame_eq frame room, List.dropLast_concat]
  exact parseLine_classic read

/-- Frames with the same valid bytes. -/
structure Same (a b : CanFrame) : Prop where
  id : a.extendedCanId = b.extendedCanId
  size : a.size = b.size
  data : a.data.toList.take a.size.toNat = b.data.toList.take b.size.toNat

theorem classic_same_iff {frame : CanFrame} (extended : frame.extendedCanId.toNat < 2 ^ 29) :
    Same (classic frame) frame ↔ frame.size.toNat ≤ canClassicMtu := by
  have short := keptSize_le frame
  have number : (UInt8.ofNat (keptSize frame)).toNat = keptSize frame := by
    unfold canClassicMtu at short
    rw [UInt8.toNat_ofNat']
    exact Nat.mod_eq_of_lt (by omega)
  constructor
  · intro same
    rw [← same.size]
    exact Nat.le_trans (Nat.le_of_eq number) short
  · intro fits
    have kept : keptSize frame = frame.size.toNat := if_neg (Nat.not_lt_of_le fits)
    have size : (classic frame).size = frame.size := by
      rw [← UInt8.toNat_inj, ← kept]
      exact number
    refine ⟨?_, size, ?_⟩
    · apply UInt32.toNat_inj.mp
      change (frame.extendedCanId &&& 0x1FFFFFFF).toNat = _
      rw [UInt32.toNat_and]
      exact Nat.and_two_pow_sub_one_of_lt_two_pow extended
    · rw [size]
      apply List.ext_getElem
      · simp
      · intro i inside _
        have below : i < frame.size.toNat := by
          rw [List.length_take] at inside
          omega
        simp [classic, keptData, kept, List.getElem?_take, below]

end Slcan

end Unimoc.Sim
