import Unimoc.Sim.SlcanCodec

/-! The ports of the adapter as a bridge: the frame of one tool on the terminals of the others. -/
namespace Unimoc.Sim

open Slcan

namespace Slcan

def lengthCode (line : Text) : Option UInt32 := parseHex (substr line 9 1)

theorem nibble_lt {digit : Char} {n : UInt32} (read : nibble digit = some n) : n.toNat < 16 := by
  unfold nibble at read
  split at read
  · rename_i range
    have upper : digit.toNat ≤ 57 := range.2
    cases read
    rw [UInt32.toNat_ofNat']
    change (digit.toNat - 48) % 2 ^ 32 < 16
    omega
  split at read
  · rename_i range
    have upper : digit.toNat ≤ 70 := range.2
    cases read
    rw [UInt32.toNat_add, UInt32.toNat_ofNat']
    change ((digit.toNat - 65) % 2 ^ 32 + 10) % 2 ^ 32 < 16
    have lower : 65 ≤ digit.toNat := range.1
    omega
  split at read
  · rename_i range
    have upper : digit.toNat ≤ 102 := range.2
    cases read
    rw [UInt32.toNat_add, UInt32.toNat_ofNat']
    change ((digit.toNat - 97) % 2 ^ 32 + 10) % 2 ^ 32 < 16
    omega
  · cases read

theorem parseHex_digit_lt {digits : Text} (one : digits.length ≤ 1) {n : UInt32} (read : parseHex digits = some n) :
    n.toNat < 16 := by
  match digits, one with
  | [], _ =>
    cases read
    decide
  | [digit], _ =>
    simp only [parseHex, List.foldlM_cons, List.foldlM_nil, shiftIn, Option.bind_eq_bind, Option.bind_eq_some_iff,
      Option.map_eq_some_iff, Option.pure_def] at read
    obtain ⟨value, ⟨low, found, rfl⟩, same⟩ := read
    cases same
    have small := nibble_lt found
    simpa using small

theorem size_of_code : ∀ code : Fin 16, (dlcToLength.getD code.val 0).toNat ≤ canClassicMtu ↔ code.val ≤ 8 := by
  decide

theorem of_parseFrame {command : Char} {line : Text} {frame : CanFrame}
    (read : parseFrame command line = some frame) :
    frame.extendedCanId.toNat < 2 ^ 29 ∧
      ∃ code, lengthCode line = some code ∧ frame.size = dlcToLength.getD code.toNat 0 ∧ code.toNat < 16 := by
  unfold parseFrame at read
  split at read
  · cases read
  simp only [Option.bind_eq_bind, Option.bind_eq_some_iff] at read
  obtain ⟨id, -, code, coded, read⟩ := read
  split at read
  · cases read
  simp only [Option.bind_eq_some_iff] at read
  obtain ⟨bytes, -, read⟩ := read
  cases read
  refine ⟨?_, code, coded, rfl, parseHex_digit_lt ?_ coded⟩
  · change (id &&& 0x1FFFFFFF).toNat < 2 ^ 29
    rw [UInt32.toNat_and]
    exact Nat.lt_succ_of_le Nat.and_le_right
  · rw [substr, List.length_take]
    exact Nat.min_le_left _ _

theorem of_parseLine {line : Text} {frame : CanFrame} (read : (parseLine line).frame = some frame) :
    frame.extendedCanId.toNat < 2 ^ 29 ∧
      ∃ code, lengthCode line = some code ∧ frame.size = dlcToLength.getD code.toNat 0 ∧ code.toNat < 16 := by
  cases line with
  | nil => cases read
  | cons command rest =>
    simp only [parseLine] at read
    split at read
    · cases read
    split at read
    · cases read
    split at read
    · split at read
      · rename_i parsed
        cases read
        exact of_parseFrame parsed
      · cases read
    split at read
    · cases read
    · cases read

end Slcan

namespace SlcanMedia

/-- A complete line on one port reaches each other open port as the line of its frame. -/
theorem written_complete {media : SlcanMedia} {index other : Nat} {line : Text} {frame : CanFrame}
    (read : (parseLine line).frame = some frame) (apart : other ≠ index) {port : Port}
    (present : media.ports[other]? = some port) (listens : port.opened = true) :
    ∃ after, (media.complete index line).ports[other]? = some after ∧
      after.written = port.written ++ [formatFrame frame maxFrameText] := by
  have inside : other < media.ports.length := (List.getElem?_eq_some_iff.mp present).1
  have text : formatFrame frame maxFrameText ≠ [] := by
    rw [formatFrame_eq frame (Nat.le_refl _)]
    simp
  refine ⟨port.send frame, ?_, ?_⟩
  · simp only [complete, read]
    rw [forward, ports_sends]
    change (if other < (media.modifyPort index _).ports.length ∧ other ≠ index then
      ((media.modifyPort index _).ports[other]?).map _ else _) = _
    rw [length_modifyPort, if_pos ⟨inside, apart⟩, ports_modifyPort, if_neg (Ne.symm apart), present, Option.map_some]
  · rw [Port.send, if_pos listens]
    exact Port.written_write text port

end SlcanMedia

/-- The line forwarded to another open port is read there as the frame exactly when its length code
is one of a classic frame. -/
theorem forwarded_frame (frame : CanFrame) :
    (∀ textSize : Nat, frame.extendedCanId.toNat < 2 ^ 29 → frame.size.toNat ≤ canClassicMtu →
      maxFrameText ≤ textSize →
        ∃ read, parseLine (formatFrame frame textSize).dropLast = ⟨[], some read, none⟩ ∧ Same read frame) ∧
    ∀ (media : SlcanMedia) (index other : Nat) (line : Text) (port : Port),
      (parseLine line).frame = some frame → other ≠ index → media.ports[other]? = some port →
        port.opened = true →
          ∃ after text, (media.complete index line).ports[other]? = some after ∧
            after.written = port.written ++ [text] ∧
            ((∃ read, (parseLine text.dropLast).frame = some read ∧ Same read frame) ↔
              ∃ code ≤ 8, lengthCode line = some code) := by
  constructor
  · intro textSize extended short room
    exact ⟨classic frame, parse_format frame room, (classic_same_iff extended).mpr short⟩
  · intro media index other line port read apart present listens
    obtain ⟨after, left, written⟩ := SlcanMedia.written_complete read apart present listens
    obtain ⟨extended, code, coded, size, small⟩ := of_parseLine read
    have lengths := size_of_code ⟨code.toNat, small⟩
    rw [← size] at lengths
    refine ⟨after, _, left, written, ?_⟩
    rw [parse_format frame (Nat.le_refl _)]
    constructor
    · rintro ⟨_, found, same⟩
      cases found
      exact ⟨code, lengths.mp ((classic_same_iff extended).mp same), coded⟩
    · rintro ⟨code', classicCode, coded'⟩
      rw [coded] at coded'
      cases coded'
      exact ⟨classic frame, rfl, (classic_same_iff extended).mpr (lengths.mpr classicCode)⟩

/-! ### Two tools -/

def tool : Port := { Port.initial ⟨fun _ => 140, 0, [], [], []⟩ with opened := true }

def twoTools : SlcanMedia := { SlcanMedia.init [] with ports := [tool, tool] }

def fdLine : Text := "D000000019000102030405060708090A0B".toList

/-- The other tool gets eight of the twelve bytes. -/
theorem forwards_cut :
    (parseLine fdLine).frame.map (·.size) = some 12 ∧
    ¬∀ (media : SlcanMedia) (index other : Nat) (line : Text) (frame : CanFrame) (port : Port),
      (parseLine line).frame = some frame → other ≠ index → media.ports[other]? = some port →
        port.opened = true →
          ∃ after text, (media.complete index line).ports[other]? = some after ∧
            after.written = port.written ++ [text] ∧
            ∃ read, (parseLine text.dropLast).frame = some read ∧ Same read frame := by
  refine ⟨by decide, ?_⟩
  intro always
  obtain ⟨frame, parsed⟩ := Option.isSome_iff_exists.mp (show (parseLine fdLine).frame.isSome = true by decide)
  obtain ⟨after, text, left, written, read, again, same⟩ :=
    always twoTools 0 1 fdLine frame tool parsed (by decide) rfl rfl
  have sent : (twoTools.complete 0 fdLine).ports[1]?.map (·.written) =
      some ["T0000000180001020304050607\r".toList] := by decide
  rw [left, Option.map_some, written] at sent
  have text_eq : text = "T0000000180001020304050607\r".toList := by
    simpa [tool, Port.initial] using sent
  have short : (parseLine text.dropLast).frame.map (·.size) = some 8 := by
    rw [text_eq]
    decide
  have long : (parseLine fdLine).frame.map (·.size) = some 12 := by decide
  rw [again, Option.map_some] at short
  rw [parsed, Option.map_some, ← same.size] at long
  have both := short.symm.trans long
  revert both
  decide

def threeBytes : CanFrame := { CanFrame.initial with extendedCanId := 0x107D550A, size := 3 }

/-- A frame of three bytes is read back, and so is its line on the other terminal. -/
theorem forwarded_frame_three :
    (∃ read, parseLine (formatFrame threeBytes 32).dropLast = ⟨[], some read, none⟩ ∧ Same read threeBytes) ∧
    ∃ after text, (twoTools.complete 0 "T107D550A300ABE1".toList).ports[1]? = some after ∧
      after.written = [] ++ [text] ∧
      ∃ read, (parseLine text.dropLast).frame = some read ∧ read.extendedCanId = 0x107D550A := by
  obtain ⟨frame, parsed⟩ :=
    Option.isSome_iff_exists.mp (show (parseLine "T107D550A300ABE1".toList).frame.isSome = true by decide)
  have id : (parseLine "T107D550A300ABE1".toList).frame.map (·.extendedCanId) = some 0x107D550A := by decide
  rw [parsed, Option.map_some] at id
  have back := (forwarded_frame threeBytes).1 32 (by decide) (by decide) (by decide)
  obtain ⟨after, text, left, written, same⟩ :=
    (forwarded_frame frame).2 twoTools 0 1 "T107D550A300ABE1".toList tool parsed (by decide) rfl rfl
  obtain ⟨read, again, equal⟩ := same.mpr ⟨3, by decide, by decide⟩
  exact ⟨back, after, text, left, written, read, again, equal.id.trans (Option.some.inj id)⟩

end Unimoc.Sim
