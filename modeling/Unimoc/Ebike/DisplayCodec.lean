import Mathlib.Tactic.IntervalCases
import Unimoc.Ebike.DisplayStream

/-! Requests of the display: what the encoder packs the decoder reads back, and which frames the
encoder writes again as they came. -/
namespace Unimoc.Ebike.Kunteng

/-! ### Bits of a byte -/

theorem byte_ext {a b : UInt8} (same : ∀ i < 8, a.toBitVec.getLsbD i = b.toBitVec.getLsbD i) : a = b := by
  apply UInt8.eq_of_toBitVec_eq
  ext i inside
  exact same i inside

theorem and_of_lt {value mask : UInt8} (k : Nat) (low : mask.toNat = 2 ^ k - 1) (small : value.toNat < 2 ^ k) :
    value &&& mask = value := by
  apply UInt8.toNat_inj.mp
  rw [UInt8.toNat_and, low, Nat.and_two_pow_sub_one_eq_mod, Nat.mod_eq_of_lt small]

set_option maxRecDepth 4000 in
theorem one_bit : ∀ byte : BitVec 8,
    (byte &&& 0x80#8 = 0#8 ∨ byte &&& 0x80#8 = 0x80#8) ∧ (byte &&& 0x20#8 = 0#8 ∨ byte &&& 0x20#8 = 0x20#8) ∧
      (byte &&& 0x08#8 = 0#8 ∨ byte &&& 0x08#8 = 0x08#8) := by
  decide

theorem bit_of_and {byte mask : UInt8} (one : byte &&& mask = 0 ∨ byte &&& mask = mask) :
    bit (decide (byte &&& mask ≠ 0)) mask = byte &&& mask := by
  by_cases none : byte &&& mask = 0
  · simp [bit, none]
  · rw [decide_eq_true none]
    exact (one.resolve_left none).symm

theorem bit_light (byte : UInt8) : bit (decide (byte &&& 0x80 ≠ 0)) 0x80 = byte &&& 0x80 := by
  apply bit_of_and
  cases (one_bit byte.toBitVec).1 with
  | inl none => exact .inl (UInt8.eq_of_toBitVec_eq none)
  | inr all => exact .inr (UInt8.eq_of_toBitVec_eq all)

theorem bit_mode (byte : UInt8) : bit (decide (byte &&& 0x08 ≠ 0)) 0x08 = byte &&& 0x08 := by
  apply bit_of_and
  cases (one_bit byte.toBitVec).2.2 with
  | inl none => exact .inl (UInt8.eq_of_toBitVec_eq none)
  | inr all => exact .inr (UInt8.eq_of_toBitVec_eq all)

theorem bit_speed (byte : UInt8) : bit (decide (byte &&& 0x20 ≠ 0)) 0x20 = byte &&& 0x20 := by
  apply bit_of_and
  cases (one_bit byte.toBitVec).2.1 with
  | inl none => exact .inl (UInt8.eq_of_toBitVec_eq none)
  | inr all => exact .inr (UInt8.eq_of_toBitVec_eq all)

theorem decide_bit (set : Bool) {mask : UInt8} (some : mask ≠ 0) : decide (bit set mask ≠ 0) = set := by
  cases set <;> simp [bit, some]

/-! ### The packed bytes -/

/-- Byte 1: the assist level and the light. -/
def levelByte (level : UInt8) (light : Bool) : UInt8 := (level &&& 7) ||| bit light 0x80

theorem levelByte_level (level : UInt8) (light : Bool) : levelByte level light &&& 7 = level &&& 7 := by
  apply byte_ext
  intro i inside
  cases light <;> interval_cases i <;> simp [levelByte, bit]

theorem levelByte_light (level : UInt8) (light : Bool) : levelByte level light &&& 0x80 = bit light 0x80 := by
  apply byte_ext
  intro i inside
  cases light <;> interval_cases i <;> simp [levelByte, bit]

/-- Byte 2: the high bits of the wheel size, and the speed. -/
def wheelByte (wheel field : UInt8) : UInt8 := ((wheel >>> 2) &&& (7 : UInt8)) ||| (field <<< 3)

theorem wheelByte_field (wheel field : UInt8) :
    (wheelByte wheel field &&& 0xF8) >>> 3 = field &&& (0x1F : UInt8) := by
  apply byte_ext
  intro i inside
  interval_cases i <;> simp [wheelByte]

/-- Byte 4: undecoded bits, the low bits of the wheel size, the high bit of the speed, the mode. -/
def modeByte (kept wheel : UInt8) (speedBit mode : Bool) : UInt8 :=
  (kept &&& (0x17 : UInt8)) ||| ((wheel &&& (3 : UInt8)) <<< 6) ||| bit speedBit 0x20 ||| bit mode 0x08

theorem modeByte_wheel (kept wheel : UInt8) (speedBit mode : Bool) (field : UInt8) :
    ((modeByte kept wheel speedBit mode &&& 0xC0) >>> 6) ||| ((wheelByte wheel field &&& 7) <<< 2) =
      wheel &&& 0x1F := by
  apply byte_ext
  intro i inside
  cases speedBit <;> cases mode <;> interval_cases i <;> simp [modeByte, wheelByte, bit]

theorem modeByte_speed (kept wheel : UInt8) (speedBit mode : Bool) :
    modeByte kept wheel speedBit mode &&& 0x20 = bit speedBit 0x20 := by
  apply byte_ext
  intro i inside
  cases speedBit <;> cases mode <;> interval_cases i <;> simp [modeByte, bit]

theorem modeByte_mode (kept wheel : UInt8) (speedBit mode : Bool) :
    modeByte kept wheel speedBit mode &&& 0x08 = bit mode 0x08 := by
  apply byte_ext
  intro i inside
  cases speedBit <;> cases mode <;> interval_cases i <;> simp [modeByte, bit]

theorem currentByte_code (kept code : UInt8) : ((kept &&& 0xF0) ||| (code &&& 0x0F)) &&& 0x0F = code &&& 0x0F := by
  apply byte_ext
  intro i inside
  interval_cases i <;> simp

/-! ### What the encoder writes -/

def speedOf (request : DisplayRequest) : UInt8 := min (max request.maxSpeed 10) 63

def speedBitOf (request : DisplayRequest) : Bool := 41 < speedOf request

def speedFieldOf (request : DisplayRequest) : UInt8 :=
  (if speedBitOf request then speedOf request &&& 0x1F else speedOf request) - 10

def bodyOf (request : DisplayRequest) : List UInt8 :=
  [request.raw.getD 0 0, levelByte request.assistLevel request.light,
    wheelByte request.wheelSizeCode (speedFieldOf request), request.motorCharacteristic,
    modeByte (request.raw.getD 4 0) request.wheelSizeCode (speedBitOf request) request.powerAssistMode,
    request.raw.getD 5 0, request.raw.getD 6 0,
    (request.raw.getD 7 0 &&& 0xF0) ||| (request.maxCurrentCode &&& 0x0F), request.raw.getD 8 0,
    request.raw.getD 9 0, request.raw.getD 10 0, displayEndMarkerB, displayEnd]

theorem encodeDisplayRequest_eq (request : DisplayRequest) (seed : UInt8) :
    encodeDisplayRequest request seed = (bodyOf request).set displayChecksumIndex
      (xorExcept (bodyOf request) displayChecksumIndex ^^^ seed) := rfl

theorem checksumSeed_set {body : List UInt8} (size : body.length = displayFrameSize) (seed : UInt8) :
    checksumSeed (body.set displayChecksumIndex (xorExcept body displayChecksumIndex ^^^ seed)) = seed := by
  have inside : displayChecksumIndex < body.length := by
    rw [size]
    decide
  rw [checksumSeed, xorExcept, List.eraseIdx_set_eq, ← xorExcept, List.getD_eq_getElem?_getD,
    List.getElem?_set_self inside, Option.getD_some, ← UInt8.xor_assoc, UInt8.xor_self, UInt8.zero_xor]

def encoded (request : DisplayRequest) (seed : UInt8) : RequestFrame seed where
  bytes := encodeDisplayRequest request seed
  size := rfl
  ends := rfl
  checksum := checksumSeed_set rfl seed

/-- The ranges of the fields on the line. -/
structure Encodable (request : DisplayRequest) : Prop where
  assist : request.assistLevel.toNat < 8
  wheel : request.wheelSizeCode.toNat < 32
  slowest : 10 ≤ request.maxSpeed.toNat
  fastest : request.maxSpeed.toNat ≤ 63
  current : request.maxCurrentCode.toNat < 16

theorem speed_parts : ∀ n : Fin 64, 10 ≤ n.val →
    let speed := min (max (UInt8.ofNat n.val) 10) 63
    let high : Bool := 41 < speed
    let field : UInt8 := (if high then speed &&& 0x1F else speed) - 10
    field &&& 0x1F = field ∧ ((10 : UInt8) + field) ||| bit high 0x20 = UInt8.ofNat n.val := by
  decide

theorem speed_of_parts {request : DisplayRequest} (fits : Encodable request) :
    ((10 : UInt8) + (speedFieldOf request &&& 0x1F)) ||| bit (speedBitOf request) 0x20 = request.maxSpeed := by
  have parts := speed_parts ⟨request.maxSpeed.toNat, Nat.lt_succ_of_le fits.fastest⟩ fits.slowest
  simp only [UInt8.ofNat_toNat] at parts
  obtain ⟨field, speed⟩ := parts
  change speedFieldOf request &&& 0x1F = speedFieldOf request at field
  rw [field]
  exact speed

theorem decode_encoded (request : DisplayRequest) (seed : UInt8) :
    decode (encodeDisplayRequest request seed) =
      { assistLevel := request.assistLevel &&& 7
        light := request.light
        wheelSizeCode := request.wheelSizeCode &&& 0x1F
        maxSpeed := ((10 : UInt8) + (speedFieldOf request &&& 0x1F)) ||| bit (speedBitOf request) 0x20
        motorCharacteristic := request.motorCharacteristic
        powerAssistMode := request.powerAssistMode
        maxCurrentCode := request.maxCurrentCode &&& 0x0F
        raw := encodeDisplayRequest request seed } := by
  let second := levelByte request.assistLevel request.light
  let third := wheelByte request.wheelSizeCode (speedFieldOf request)
  let fifth := modeByte (request.raw.getD 4 0) request.wheelSizeCode (speedBitOf request) request.powerAssistMode
  have fields : decode (encodeDisplayRequest request seed) =
      { assistLevel := second &&& 7
        light := decide (second &&& 0x80 ≠ 0)
        wheelSizeCode := ((fifth &&& 0xC0) >>> 6) ||| ((third &&& 7) <<< 2)
        maxSpeed := ((10 : UInt8) + ((third &&& 0xF8) >>> 3)) ||| (fifth &&& 0x20)
        motorCharacteristic := request.motorCharacteristic
        powerAssistMode := decide (fifth &&& 0x08 ≠ 0)
        maxCurrentCode := ((request.raw.getD 7 0 &&& 0xF0) ||| (request.maxCurrentCode &&& 0x0F)) &&& 0x0F
        raw := encodeDisplayRequest request seed } := rfl
  rw [fields, levelByte_level, levelByte_light, modeByte_wheel, wheelByte_field, modeByte_speed, modeByte_mode,
    currentByte_code, decide_bit _ (by decide), decide_bit _ (by decide)]

theorem decode_encode {request : DisplayRequest} (fits : Encodable request) (seed : UInt8) :
    decode (encodeDisplayRequest request seed) =
      { request with raw := encodeDisplayRequest request seed } := by
  rw [decode_encoded, and_of_lt 3 rfl fits.assist, and_of_lt 5 rfl fits.wheel, speed_of_parts fits,
    and_of_lt 4 rfl fits.current]

/-! ### Frames written again -/

/-- The speed has its high bit only where the rest cannot hold it. -/
def SpeedSplit (frame : List UInt8) : Prop :=
  frame.getD 4 0 &&& 0x20 ≠ 0 → (frame.getD 2 0 >>> 3).toNat < 22

/-- Byte 1 holds the assist level and the light, and nothing else. -/
def LevelOnly (frame : List UInt8) : Prop := frame.getD 1 0 &&& 0x78 = 0

theorem level_again (byte : UInt8) :
    levelByte (byte &&& 7) (decide (byte &&& 0x80 ≠ 0)) = byte &&& 0x87 := by
  rw [levelByte, bit_light]
  apply byte_ext
  intro i inside
  interval_cases i <;> simp

theorem current_again (byte : UInt8) : (byte &&& 0xF0) ||| (byte &&& 0x0F &&& 0x0F) = byte := by
  apply byte_ext
  intro i inside
  interval_cases i <;> simp

theorem wheel_again (third fifth : UInt8) :
    wheelByte (((fifth &&& 0xC0) >>> 6) ||| ((third &&& 7) <<< 2)) ((third &&& 0xF8) >>> 3) = third := by
  apply byte_ext
  intro i inside
  interval_cases i <;> simp [wheelByte]

theorem mode_again (third fifth : UInt8) (speedBit : Bool) :
    modeByte fifth (((fifth &&& 0xC0) >>> 6) ||| ((third &&& 7) <<< 2)) speedBit (decide (fifth &&& 0x08 ≠ 0)) =
      (fifth &&& 0xDF) ||| bit speedBit 0x20 := by
  rw [modeByte, bit_mode]
  apply byte_ext
  intro i inside
  cases speedBit <;> interval_cases i <;> simp [bit]

theorem parts_of_speed : ∀ (n : Fin 32) (high : Bool),
    let speed := min (max (((10 : UInt8) + UInt8.ofNat n.val) ||| bit high 0x20) 10) 63
    let again : Bool := 41 < speed
    (if again then speed &&& 0x1F else speed) - 10 = UInt8.ofNat n.val ∧ again = (high && n.val < 22) := by
  decide

theorem field_eq (third : UInt8) : (third &&& 0xF8) >>> 3 = third >>> 3 := by
  apply byte_ext
  intro i inside
  interval_cases i <;> simp

theorem field_lt (third : UInt8) : (third >>> 3).toNat < 32 := by
  have bound := third.toNat_lt
  rw [UInt8.toNat_shiftRight]
  change third.toNat >>> 3 < 32
  rw [Nat.shiftRight_eq_div_pow]
  omega

theorem parts_of_decode (frame : List UInt8) :
    speedFieldOf (decode frame) = (frame.getD 2 0 &&& 0xF8) >>> 3 ∧
      speedBitOf (decode frame) =
        (decide (frame.getD 4 0 &&& 0x20 ≠ 0) && decide ((frame.getD 2 0 >>> 3).toNat < 22)) := by
  have small := field_lt (frame.getD 2 0)
  rw [← field_eq] at small
  rw [← field_eq (frame.getD 2 0)]
  have parts := parts_of_speed ⟨_, small⟩ (decide (frame.getD 4 0 &&& 0x20 ≠ 0))
  simp only [UInt8.ofNat_toNat, bit_speed] at parts
  exact parts

/-- The bytes the encoder makes of a decoded frame, before the checksum. -/
def rewritten (frame : List UInt8) : List UInt8 :=
  [frame.getD 0 0, frame.getD 1 0 &&& 0x87, frame.getD 2 0, frame.getD 3 0,
    (frame.getD 4 0 &&& 0xDF) ||| bit (speedBitOf (decode frame)) 0x20, frame.getD 5 0, frame.getD 6 0,
    frame.getD 7 0, frame.getD 8 0, frame.getD 9 0, frame.getD 10 0, displayEndMarkerB, displayEnd]

theorem bodyOf_decode (frame : List UInt8) : bodyOf (decode frame) = rewritten frame := by
  have body : bodyOf (decode frame) =
      [frame.getD 0 0, levelByte (frame.getD 1 0 &&& 7) (decide (frame.getD 1 0 &&& 0x80 ≠ 0)),
        wheelByte (((frame.getD 4 0 &&& 0xC0) >>> 6) ||| ((frame.getD 2 0 &&& 7) <<< 2)) (speedFieldOf (decode frame)),
        frame.getD 3 0,
        modeByte (frame.getD 4 0) (((frame.getD 4 0 &&& 0xC0) >>> 6) ||| ((frame.getD 2 0 &&& 7) <<< 2))
          (speedBitOf (decode frame)) (decide (frame.getD 4 0 &&& 0x08 ≠ 0)),
        frame.getD 5 0, frame.getD 6 0, (frame.getD 7 0 &&& 0xF0) ||| (frame.getD 7 0 &&& 0x0F &&& 0x0F),
        frame.getD 8 0, frame.getD 9 0, frame.getD 10 0, displayEndMarkerB, displayEnd] := rfl
  rw [body, (parts_of_decode frame).1, level_again, wheel_again, mode_again, current_again, rewritten]

theorem bytes_eq {frame : List UInt8} (size : frame.length = displayFrameSize) :
    frame = [frame.getD 0 0, frame.getD 1 0, frame.getD 2 0, frame.getD 3 0, frame.getD 4 0, frame.getD 5 0,
      frame.getD 6 0, frame.getD 7 0, frame.getD 8 0, frame.getD 9 0, frame.getD 10 0, frame.getD 11 0,
      frame.getD 12 0] := by
  apply List.ext_getElem size
  intro i inside _
  rw [size, displayFrameSize] at inside
  interval_cases i <;> exact (List.getElem_eq_getD 0)

theorem level_kept {byte : UInt8} (plain : byte &&& 0x78 = 0) : byte &&& 0x87 = byte := by
  have whole : byte = (byte &&& 0x87) ||| (byte &&& 0x78) := by
    apply byte_ext
    intro i inside
    interval_cases i <;> simp
  rw [plain, UInt8.or_zero] at whole
  exact whole.symm

theorem split_speed (byte : UInt8) : (byte &&& 0xDF) ||| (byte &&& 0x20) = byte := by
  apply byte_ext
  intro i inside
  interval_cases i <;> simp

/-- The high bit of the speed stays exactly when it is needed. -/
theorem mode_kept_iff (frame : List UInt8) :
    (frame.getD 4 0 &&& 0xDF) ||| bit (speedBitOf (decode frame)) 0x20 = frame.getD 4 0 ↔ SpeedSplit frame := by
  rw [(parts_of_decode frame).2, SpeedSplit]
  by_cases low : (frame.getD 2 0 >>> 3).toNat < 22
  · simp only [low, decide_true, Bool.and_true, bit_speed, split_speed, implies_true]
  · have cleared : (frame.getD 4 0 &&& 0xDF) ||| 0 = frame.getD 4 0 ↔ frame.getD 4 0 &&& 0x20 = 0 := by
      constructor
      · intro same
        rw [← same]
        apply byte_ext
        intro i inside
        interval_cases i <;> simp
      · intro none
        have whole := split_speed (frame.getD 4 0)
        rwa [none] at whole
    rw [decide_eq_false low, Bool.and_false]
    refine cleared.trans ⟨fun none some => absurd none some, fun split => ?_⟩
    by_contra some
    exact low (split some)

/-- The encoder writes the frame of a decoded request again, up to byte 1, the high bit of the
speed, the end marker and the checksum over them. -/
theorem encode_decode (frame : List UInt8) (seed : UInt8) :
    encodeDisplayRequest (decode frame) seed =
      (rewritten frame).set displayChecksumIndex (xorExcept (rewritten frame) displayChecksumIndex ^^^ seed) := by
  rw [encodeDisplayRequest_eq, bodyOf_decode]

theorem encode_decode_eq_iff {seed : UInt8} (frame : RequestFrame seed) (plain : LevelOnly frame.bytes) :
    encodeDisplayRequest (decode frame.bytes) seed = frame.bytes ↔
      frame.bytes.getD 11 0 = displayEndMarkerB ∧ SpeedSplit frame.bytes := by
  rw [encode_decode]
  constructor
  · intro same
    constructor
    · exact (congrArg (·.getD 11 0) same).symm
    · exact (mode_kept_iff _).mp (congrArg (·.getD 4 0) same)
  · rintro ⟨marker, split⟩
    have ends := frame.ends
    rw [isEnd, Bool.and_eq_true] at ends
    have last : frame.bytes.getD 12 0 = displayEnd := of_decide_eq_true ends.2
    have again : rewritten frame.bytes = frame.bytes := by
      rw [rewritten, level_kept plain, (mode_kept_iff _).mpr split, ← marker, ← last]
      exact (bytes_eq frame.size).symm
    have inside : displayChecksumIndex < frame.bytes.length := by
      rw [frame.size]
      decide
    have checksum := frame.checksum
    rw [checksumSeed, List.getD_eq_getElem?_getD, List.getElem?_eq_getElem inside, Option.getD_some] at checksum
    have closing := congrArg (xorExcept frame.bytes displayChecksumIndex ^^^ ·) checksum
    simp only [← UInt8.xor_assoc, UInt8.xor_self, UInt8.zero_xor] at closing
    rw [again, ← closing, List.set_getElem_self]

theorem toNat_lt_of_and {value : UInt8} (mask : UInt8) (k : Nat) (low : mask.toNat = 2 ^ k - 1)
    (masked : value &&& mask = value) : value.toNat < 2 ^ k := by
  rw [← masked, UInt8.toNat_and, low, Nat.and_two_pow_sub_one_eq_mod]
  exact Nat.mod_lt _ (Nat.two_pow_pos k)

theorem speed_range : ∀ (n : Fin 32) (high : Bool),
    10 ≤ (((10 : UInt8) + UInt8.ofNat n.val) ||| bit high 0x20).toNat ∧
      (((10 : UInt8) + UInt8.ofNat n.val) ||| bit high 0x20).toNat ≤ 63 := by
  decide

theorem encodable_decode (frame : List UInt8) : Encodable (decode frame) := by
  have small := field_lt (frame.getD 2 0)
  rw [← field_eq] at small
  have speed := speed_range ⟨_, small⟩ (decide (frame.getD 4 0 &&& 0x20 ≠ 0))
  simp only [UInt8.ofNat_toNat, bit_speed] at speed
  refine ⟨toNat_lt_of_and 7 3 rfl ?_, toNat_lt_of_and 0x1F 5 rfl ?_, speed.1, speed.2,
    toNat_lt_of_and 0x0F 4 rfl ?_⟩
  all_goals
    apply byte_ext
    intro i inside
    interval_cases i <;> simp [decode]

theorem speed_inside : ∀ n : Fin 64, 10 ≤ n.val →
    decide (41 < min (max (UInt8.ofNat n.val) 10) 63) = decide (41 < UInt8.ofNat n.val) := by
  decide

theorem speedBitOf_decode (frame : List UInt8) :
    speedBitOf (decode frame) = decide (41 < (decode frame).maxSpeed) := by
  have fits := encodable_decode frame
  have inside := speed_inside ⟨(decode frame).maxSpeed.toNat, Nat.lt_succ_of_le fits.fastest⟩ fits.slowest
  simp only [UInt8.ofNat_toNat] at inside
  exact inside

/-- What the encoder writes for a decoded frame: the same bytes but for the high bit of the speed, which is
set for more than 41 km/h, the end marker, which is its own, and the checksum over them. -/
structure Rewrites (seed : UInt8) (frame again : List UInt8) : Prop where
  size : again.length = displayFrameSize
  kept : ∀ i < displayFrameSize, i ∉ [4, displayChecksumIndex, 11] → again.getD i 0 = frame.getD i 0
  bits : again.getD 4 0 &&& 0xDF = frame.getD 4 0 &&& 0xDF
  speed : again.getD 4 0 &&& 0x20 = bit (41 < (decode frame).maxSpeed) 0x20
  marker : again.getD 11 0 = displayEndMarkerB
  checksum : checksumSeed again = seed

theorem rewrites {seed : UInt8} (frame : RequestFrame seed) (plain : LevelOnly frame.bytes) :
    Rewrites seed frame.bytes (encodeDisplayRequest (decode frame.bytes) seed) := by
  have ends := frame.ends
  rw [isEnd, Bool.and_eq_true] at ends
  have last : frame.bytes.getD 12 0 = displayEnd := of_decide_eq_true ends.2
  have level := level_kept plain
  constructor
  · exact (encoded (decode frame.bytes) seed).size
  · intro i inside apart
    rw [encode_decode]
    rw [displayFrameSize] at inside
    interval_cases i <;> first | rfl | exact level | exact last.symm | exact absurd (by decide) apart
  · rw [encode_decode]
    change ((frame.bytes.getD 4 0 &&& 0xDF) ||| bit (speedBitOf (decode frame.bytes)) 0x20) &&& 0xDF = _
    apply byte_ext
    intro i inside
    cases speedBitOf (decode frame.bytes) <;> interval_cases i <;> simp [bit]
  · rw [encode_decode, ← speedBitOf_decode]
    change ((frame.bytes.getD 4 0 &&& 0xDF) ||| bit (speedBitOf (decode frame.bytes)) 0x20) &&& 0x20 = _
    apply byte_ext
    intro i inside
    cases speedBitOf (decode frame.bytes) <;> interval_cases i <;> simp [bit]
  · rfl
  · exact (encoded (decode frame.bytes) seed).checksum

/-- A request in range comes back from its frame, which a decoder with the seed reports; and a
reported frame whose byte 1 holds nothing else is written again up to the high bit of the speed, the
end marker and the checksum, so as it came exactly when these are the encoder's. -/
theorem request_codec :
    (∀ (request : DisplayRequest) (seed : UInt8) (decoder : DisplayDecoder), Encodable request →
      decoder.Sized → decoder.seed = seed → decoder.count = 0 →
        decode (encodeDisplayRequest request seed) =
          { request with raw := encodeDisplayRequest request seed } ∧
        decoder.reports (encodeDisplayRequest request seed) =
          DisplayDecoder.frameReport (encodeDisplayRequest request seed)) ∧
    ∀ (decoder : DisplayDecoder) (byte : UInt8) (request : DisplayRequest), decoder.Sized →
      (decoder.push byte).1 = some request → LevelOnly request.raw →
        let again := encodeDisplayRequest request (decoder.push byte).2.seed
        Rewrites (decoder.push byte).2.seed request.raw again ∧ decode again = { request with raw := again } ∧
          (again = request.raw ↔ request.raw.getD 11 0 = displayEndMarkerB ∧ SpeedSplit request.raw) := by
  constructor
  · rintro request seed decoder fits sized rfl fresh
    refine ⟨decode_encode fits _, (DisplayDecoder.run_frame sized (encoded request _) ?_).1⟩
    apply DisplayDecoder.quiet_of_few
    rw [fresh, List.length_dropLast, (encoded request _).size]
    decide
  · intro decoder byte request sized reported plain
    obtain ⟨frame, rfl⟩ := DisplayDecoder.frame_of_push sized reported
    exact ⟨rewrites frame plain, decode_encode (encodable_decode _) _, encode_decode_eq_iff frame plain⟩

def otherMarker : List UInt8 := [0, 3, 0x78, 0, 0, 0x4D, 0, 0, 0, 0, 0, displayEndMarkerA, displayEnd]

set_option maxRecDepth 4000 in
/-- The encoder closes every frame with its own end marker. -/
theorem changes_marker : ¬∀ (decoder : DisplayDecoder) (byte : UInt8) (request : DisplayRequest),
    decoder.Sized → (decoder.push byte).1 = some request →
      encodeDisplayRequest request (decoder.push byte).2.seed = request.raw := by
  intro same
  have wrong := same (DisplayDecoder.initial.after otherMarker.dropLast) displayEnd (decode otherMarker)
    ⟨rfl, by decide⟩ (by decide)
  revert wrong
  decide

def fastRequest : DisplayRequest := { DisplayRequest.initial with assistLevel := 3, maxSpeed := 45 }

set_option maxRecDepth 4000 in
theorem request_codec_fast :
    (decode (encodeDisplayRequest fastRequest defaultChecksumSeed)).maxSpeed = 45 ∧
    encodeDisplayRequest (decode (encodeDisplayRequest fastRequest defaultChecksumSeed)) defaultChecksumSeed =
      encodeDisplayRequest fastRequest defaultChecksumSeed := by
  obtain ⟨forth, back⟩ := request_codec
  have first := forth fastRequest defaultChecksumSeed .initial ⟨by decide, by decide, by decide, by decide, by decide⟩
    ⟨rfl, by decide⟩ rfl rfl
  have second := back
    (DisplayDecoder.initial.after (encodeDisplayRequest fastRequest defaultChecksumSeed).dropLast) displayEnd
    (decode (encodeDisplayRequest fastRequest defaultChecksumSeed)) ⟨rfl, by decide⟩ (by decide) rfl
  refine ⟨congrArg DisplayRequest.maxSpeed first.1, second.2.2.mpr ⟨rfl, ?_⟩⟩
  unfold SpeedSplit
  decide

end Unimoc.Ebike.Kunteng
