import Mathlib.Algebra.Order.Ring.Nat
import Mathlib.Data.Nat.Bitwise

/-! Words from their bytes, the lowest first, and the bytes of a word. -/
namespace Bytes

theorem low_bits (n k j : Nat) : n % 2 ^ k ||| (n >>> k % 2 ^ j) <<< k = n % 2 ^ (k + j) := by
  apply Nat.eq_of_testBit_eq
  intro i
  simp only [Nat.testBit_lor, Nat.testBit_mod_two_pow, Nat.testBit_shiftLeft, Nat.testBit_shiftRight]
  by_cases low : i < k
  · have inside : i < k + j := by omega
    have below : ¬k ≤ i := by omega
    simp [low, inside, below]
  · have above : k ≤ i := by omega
    have same : k + (i - k) = i := by omega
    have moved : i - k < j ↔ i < k + j := by omega
    simp [low, above, same, moved]

theorem shifted {n j k w : Nat} (bits : n < 2 ^ j) (inside : k + j ≤ w) : n <<< k % 2 ^ w = n <<< k := by
  apply Nat.mod_eq_of_lt
  rw [Nat.shiftLeft_eq]
  calc n * 2 ^ k < 2 ^ j * 2 ^ k := Nat.mul_lt_mul_of_pos_right bits (Nat.two_pow_pos k)
    _ = 2 ^ (k + j) := by rw [← pow_add, Nat.add_comm]
    _ ≤ 2 ^ w := Nat.pow_le_pow_right (by decide) inside

theorem split {low j : Nat} (bits : low < 2 ^ j) (rest : Nat) :
    (low ||| rest <<< j) % 2 ^ j = low ∧ (low ||| rest <<< j) >>> j = rest := by
  have above {i : Nat} (outside : j ≤ i) : low.testBit i = false :=
    Nat.testBit_lt_two_pow (Nat.lt_of_lt_of_le bits (Nat.pow_le_pow_right (by decide) outside))
  constructor
  · apply Nat.eq_of_testBit_eq
    intro i
    rw [Nat.testBit_mod_two_pow, Nat.testBit_lor, Nat.testBit_shiftLeft]
    by_cases inside : i < j
    · have below : ¬j ≤ i := by omega
      simp [inside, below]
    · simp [inside, above (Nat.le_of_not_lt inside)]
  · apply Nat.eq_of_testBit_eq
    intro i
    rw [Nat.testBit_shiftRight, Nat.testBit_lor, Nat.testBit_shiftLeft, above (Nat.le_add_right j i)]
    simp

/-! ### Words of 16 bits -/

def word16 (low high : UInt8) : UInt16 := low.toUInt16 ||| high.toUInt16 <<< 8

theorem word16_toNat (low high : UInt8) : (word16 low high).toNat = low.toNat ||| high.toNat <<< 8 := by
  have kept := @shifted high.toNat 8 8 16 high.toNat_lt (by decide)
  simpa [word16] using congrArg (low.toNat ||| ·) kept

theorem word16_bytes (value : UInt16) : word16 value.toUInt8 (value >>> 8).toUInt8 = value := by
  apply UInt16.toNat_inj.mp
  have joined := low_bits value.toNat 8 8
  rw [Nat.mod_eq_of_lt value.toNat_lt] at joined
  rw [word16_toNat]
  simpa using joined

theorem bytes_word16 (low high : UInt8) :
    (word16 low high).toUInt8 = low ∧ (word16 low high >>> 8).toUInt8 = high := by
  obtain ⟨first, second⟩ := split low.toNat_lt high.toNat
  constructor
  · apply UInt8.toNat_inj.mp
    rw [UInt16.toNat_toUInt8, word16_toNat, first]
  · apply UInt8.toNat_inj.mp
    rw [UInt16.toNat_toUInt8, UInt16.toNat_shiftRight, word16_toNat]
    exact (congrArg (· % 2 ^ 8) second).trans (Nat.mod_eq_of_lt high.toNat_lt)

/-! ### Words of 32 bits -/

def word32 (low high : UInt16) : UInt32 := low.toUInt32 ||| high.toUInt32 <<< 16

theorem word32_toNat (low high : UInt16) : (word32 low high).toNat = low.toNat ||| high.toNat <<< 16 := by
  have kept := @shifted high.toNat 16 16 32 high.toNat_lt (by decide)
  simpa [word32] using congrArg (low.toNat ||| ·) kept

theorem word32_halves (value : UInt32) : word32 value.toUInt16 (value >>> 16).toUInt16 = value := by
  apply UInt32.toNat_inj.mp
  have joined := low_bits value.toNat 16 16
  rw [Nat.mod_eq_of_lt value.toNat_lt] at joined
  rw [word32_toNat]
  simpa using joined

theorem halves_word32 (low high : UInt16) :
    (word32 low high).toUInt16 = low ∧ (word32 low high >>> 16).toUInt16 = high := by
  obtain ⟨first, second⟩ := split low.toNat_lt high.toNat
  constructor
  · apply UInt16.toNat_inj.mp
    rw [UInt32.toNat_toUInt16, word32_toNat, first]
  · apply UInt16.toNat_inj.mp
    rw [UInt32.toNat_toUInt16, UInt32.toNat_shiftRight, word32_toNat]
    exact (congrArg (· % 2 ^ 16) second).trans (Nat.mod_eq_of_lt high.toNat_lt)

theorem bytes_halves (value : UInt32) :
    value.toUInt8 = value.toUInt16.toUInt8 ∧ (value >>> 8).toUInt8 = (value.toUInt16 >>> 8).toUInt8 ∧
    (value >>> 16).toUInt8 = (value >>> 16).toUInt16.toUInt8 ∧
    (value >>> 24).toUInt8 = ((value >>> 16).toUInt16 >>> 8).toUInt8 := by
  refine ⟨?_, ?_, ?_, ?_⟩ <;> apply UInt8.toNat_inj.mp <;> simp [Nat.shiftRight_eq_div_pow] <;> omega

theorem word32_bytes (a b c d : UInt8) : word32 (word16 a b) (word16 c d) =
    a.toUInt32 ||| b.toUInt32 <<< 8 ||| c.toUInt32 <<< 16 ||| d.toUInt32 <<< 24 := by
  have kept (byte : UInt8) {k : Nat} (inside : k + 8 ≤ 32) : byte.toNat <<< k % 2 ^ 32 = byte.toNat <<< k :=
    shifted byte.toNat_lt inside
  apply UInt32.toNat_inj.mp
  rw [word32_toNat, word16_toNat, word16_toNat, Nat.shiftLeft_or_distrib, ← Nat.shiftLeft_add]
  change _ ||| (_ ||| _ <<< 24) = _
  rw [← @kept b 8 (by decide), ← @kept c 16 (by decide), ← @kept d 24 (by decide)]
  simp [Nat.or_assoc]

end Bytes
