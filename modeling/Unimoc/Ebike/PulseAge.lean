import Unimoc.Units.Exact
import Unimoc.Units.Float
import Unimoc.Lib.BinaryQuotient
import Unimoc.Ebike.EdgeQueue

/-! The age of a pulse, in seconds. In single precision the ticks and the quotient are rounded. -/
namespace Unimoc.Ebike

def ageOf {F : Type} [Scalar F] (ticks : UInt32) : F :=
  Scalar.ofUInt64 ticks.toUInt64 / Scalar.ofUInt64 (UInt64.ofNat timestampFrequency)

theorem ageOf_eq (ticks : UInt32) : (ageOf ticks : ℝ) = ((ticks.toNat : ℤ) : ℝ) / 170000000 := by
  change ((ticks.toUInt64.toNat : ℝ) : ℝ) / _ = _
  rw [UInt32.toNat_toUInt64]
  rfl

/-! ### Single precision -/

/-- The significand and the exponent of a number of ticks. -/
def tickSignificand (ticks : Nat) : Nat := Binary.significandOf ticks 0 (Nat.log2 ticks - 23)

/-- `significand * 2 ^ exponent` ticks in seconds. -/
def seconds (significand : Nat) (exponent : Int) : Binary32 := Binary.roundQuotient false significand 10625000 (exponent - 4)

theorem frequency_eq : (Scalar.ofUInt64 (UInt64.ofNat timestampFrequency) : Binary32) = .finite 10625000 4 := by
  decide

theorem ticks_unit (ticks : Nat) : Binary.unitOf 24 (-149) ticks 0 = Nat.log2 ticks - 23 := by
  unfold Binary.unitOf
  push_cast
  omega

theorem ticks_width {ticks : Nat} (inside : ticks < 2 ^ 32) : (Nat.log2 ticks : Int) - 23 ≤ 8 := by
  by_cases zero : ticks = 0
  · rw [zero]
    decide
  · have width := (Nat.log2_lt zero).mpr inside
    omega

theorem ticks_isFinite {ticks : Nat} (inside : ticks < 2 ^ 32) : (Binary.round false ticks 0 : Binary32).isFinite = true := by
  refine Binary.round_isFinite (by decide) false ?_
  have ticks : (ticks : ℝ) < 2 ^ 32 := by exact_mod_cast inside
  have room : (2 : ℝ) ^ 32 ≤ 2 ^ ((128 : Int) - 1) := by norm_num
  rw [zpow_zero, mul_one]
  exact ticks.trans_le room

theorem ticks_value {ticks : Nat} (some : ticks ≠ 0) (inside : ticks < 2 ^ 32) :
    (Binary.round false ticks 0 : Binary32).value = tickSignificand ticks * 2 ^ ((Nat.log2 ticks : Int) - 23) := by
  rw [Binary.round_value some (ticks_isFinite inside), ticks_unit]
  rfl

/-- The significand has all its digits. -/
theorem tickSignificand_digits {ticks : Nat} (some : ticks ≠ 0) (inside : ticks < 2 ^ 32) :
    2 ^ 23 ≤ tickSignificand ticks ∧ tickSignificand ticks ≤ 2 ^ 24 := by
  constructor
  · have nearest := Binary.round_nearest (by decide) (ticks_isFinite inside)
    have first : ((2 ^ Nat.log2 ticks : Nat) : ℝ) ≤ ticks := by exact_mod_cast Nat.log2_self_le some
    have has : Binary.Has 24 (-149) ((2 : ℝ) ^ (Nat.log2 ticks : Int)) :=
      ⟨1, Nat.log2 ticks, by norm_num, by omega, by rw [Int.cast_one, one_mul]⟩
    have below := nearest.ge has (by
      rw [Binary.scaled, if_neg (by decide), zpow_zero, mul_one, zpow_natCast]
      exact_mod_cast first)
    rw [ticks_value some inside, zpow_sub₀ two_ne_zero, ← mul_div_assoc, le_div_iff₀ (by positivity), mul_comm] at below
    have digits := le_of_mul_le_mul_right below (by positivity)
    exact_mod_cast digits
  · exact Binary.significand_digits (by push_cast; omega)

theorem tickSignificand_mono {ticks more : Nat} (some : ticks ≠ 0) (order : ticks ≤ more) (inside : more < 2 ^ 32)
    (same : Nat.log2 ticks = Nat.log2 more) : tickSignificand ticks ≤ tickSignificand more := by
  have rounded := Binary.round_mono (by decide) (by decide) order (ticks_isFinite (order.trans_lt inside)) (ticks_isFinite inside)
  rw [ticks_value some (order.trans_lt inside), ticks_value (by omega) inside, same] at rounded
  exact_mod_cast le_of_mul_le_mul_right rounded (by positivity)

theorem seconds_isFinite {significand : Nat} {exponent : Int} (digits : significand ≤ 2 ^ 24) (small : exponent ≤ 8) :
    (seconds significand exponent).isFinite = true := by
  have quotient : Binary.sticky 24 significand 10625000 ≤ 2 ^ 76 := by
    have scaled : significand * 2 ^ 50 ≤ 2 ^ 24 * 2 ^ 50 := Nat.mul_le_mul_right _ digits
    have divided := Nat.div_le_self (significand * 2 ^ 50) 10625000
    change 2 * (significand * 2 ^ 50 / 10625000) + (if significand * 2 ^ 50 % 10625000 = 0 then 0 else 1) ≤ 2 ^ 76
    split_ifs <;> omega
  have unit : (2 : ℝ) ^ (exponent - 4 - 50 - 1) ≤ 2 ^ (-47 : Int) := zpow_le_zpow_right₀ one_le_two (by omega)
  have number : (Binary.sticky 24 significand 10625000 : ℝ) ≤ 2 ^ 76 := by exact_mod_cast quotient
  refine Binary.round_isFinite (by decide) false ?_
  calc (Binary.sticky 24 significand 10625000 : ℝ) * 2 ^ (exponent - 4 - 50 - 1)
      ≤ 2 ^ 76 * 2 ^ (-47 : Int) := mul_le_mul number unit (by positivity) (by positivity)
    _ < 2 ^ ((128 : Int) - 1) := by norm_num

theorem seconds_mono {significand more : Nat} {exponent : Int} (order : significand ≤ more) (digits : more ≤ 2 ^ 24)
    (small : exponent ≤ 8) : (seconds significand exponent).value ≤ (seconds more exponent).value :=
  Binary.roundQuotient_mono (by decide) (by decide) order (seconds_isFinite (order.trans digits) small)
    (seconds_isFinite digits small)

/-- A significand rounded up to the next power of two. -/
theorem seconds_carry : ∀ width : Nat, width < 32 → seconds (2 ^ 24) (width - 23) = seconds (2 ^ 23) (width - 22) := by
  decide

/-- The exponent decides before the significand. -/
theorem seconds_width {significand more : Nat} (digits : significand ≤ 2 ^ 24) (first : 2 ^ 23 ≤ more)
    (last : more ≤ 2 ^ 24) (narrow : Nat) : ∀ {wide : Nat}, narrow < wide → wide < 32 →
      (seconds significand (narrow - 23)).value ≤ (seconds more (wide - 23)).value := by
  intro wide wider
  induction wide, wider using Nat.le_induction with
  | base =>
    intro inside
    have exponent : ((narrow + 1 : Nat) : Int) - 23 = narrow - 22 := by push_cast; ring
    rw [exponent]
    calc (seconds significand (narrow - 23)).value
        ≤ (seconds (2 ^ 24) (narrow - 23)).value := seconds_mono digits le_rfl (by omega)
      _ = (seconds (2 ^ 23) (narrow - 22)).value := by rw [seconds_carry narrow (by omega)]
      _ ≤ (seconds more (narrow - 22)).value := seconds_mono first last (by omega)
  | succ wide _ before =>
    intro inside
    have exponent : ((wide + 1 : Nat) : Int) - 23 = wide - 22 := by push_cast; ring
    rw [exponent]
    calc (seconds significand (narrow - 23)).value
        ≤ (seconds more (wide - 23)).value := before (by omega)
      _ ≤ (seconds (2 ^ 24) (wide - 23)).value := seconds_mono last le_rfl (by omega)
      _ = (seconds (2 ^ 23) (wide - 22)).value := by rw [seconds_carry wide (by omega)]
      _ ≤ (seconds more (wide - 22)).value := seconds_mono first last (by omega)

theorem ticks_eq {ticks : Nat} (some : ticks ≠ 0) (inside : ticks < 2 ^ 32) :
    (Binary.round false ticks 0 : Binary32) = .finite (tickSignificand ticks) (Nat.log2 ticks - 23) := by
  have first := (tickSignificand_digits some inside).1
  have finite := ticks_isFinite inside
  have nonzero : Binary.significandOf ticks 0 (Nat.log2 ticks - 23) ≠ 0 := by
    intro none
    rw [tickSignificand, none] at first
    omega
  rw [Binary.round_eq some, ticks_unit] at finite ⊢
  dsimp only at finite ⊢
  rw [if_neg nonzero] at finite ⊢
  split at finite
  · cases finite
  · rename_i inside
    rw [if_neg inside]
    rfl

theorem ageOf_single {ticks : UInt32} (some : ticks ≠ 0) :
    (ageOf ticks : Binary32) = seconds (tickSignificand ticks.toNat) (Nat.log2 ticks.toNat - 23) := by
  have nonzero : ticks.toNat ≠ 0 := fun zero => some (UInt32.toNat_inj.mp zero)
  have quotient : (ageOf ticks : Binary32) = (Binary.round false ticks.toNat 0 : Binary32).div (.finite 10625000 4) := by
    rw [← frequency_eq, ← UInt32.toNat_toUInt64]
    rfl
  have positive : ¬(tickSignificand ticks.toNat * 10625000 : Int) < 0 := by omega
  rw [quotient, ticks_eq nonzero ticks.toNat_lt, Binary.div, if_neg (by decide), decide_eq_false positive]
  rfl

theorem ageOf_finite (ticks : UInt32) : (ageOf ticks : Binary32).isFinite = true := by
  by_cases zero : ticks = 0
  · rw [zero]
    decide
  · have nonzero : ticks.toNat ≠ 0 := fun none => zero (UInt32.toNat_inj.mp none)
    rw [ageOf_single zero]
    exact seconds_isFinite (tickSignificand_digits nonzero ticks.toNat_lt).2 (ticks_width ticks.toNat_lt)

theorem ageOf_zero : (ageOf 0 : Binary32) = Scalar.zero := by
  decide

theorem ageOf_nonneg (ticks : UInt32) : (Scalar.zero : Binary32) ≤ ageOf ticks := by
  refine (Binary.le_value rfl (ageOf_finite ticks)).mpr ?_
  by_cases zero : ticks = 0
  · rw [zero, ageOf_zero]
  · have nonzero : ticks.toNat ≠ 0 := fun none => zero (UInt32.toNat_inj.mp none)
    have digits := (tickSignificand_digits nonzero ticks.toNat_lt).2
    have least := seconds_mono (Nat.zero_le _) digits (ticks_width ticks.toNat_lt)
    rw [ageOf_single zero]
    exact least

/-- The ages of single precision are in the order of the ticks. -/
theorem ageOf_mono {ticks more : UInt32} (order : ticks ≤ more) : (ageOf ticks : Binary32) ≤ ageOf more := by
  by_cases zero : ticks = 0
  · rw [zero, ageOf_zero]
    exact ageOf_nonneg more
  · have order : ticks.toNat ≤ more.toNat := order
    have some : ticks.toNat ≠ 0 := fun none => zero (UInt32.toNat_inj.mp none)
    have also : more.toNat ≠ 0 := by omega
    have wide := (Nat.log2_lt also).mpr more.toNat_lt
    have digits := (tickSignificand_digits some ticks.toNat_lt).2
    obtain ⟨first, last⟩ := tickSignificand_digits also more.toNat_lt
    refine (Binary.le_value (ageOf_finite ticks) (ageOf_finite more)).mpr ?_
    rw [ageOf_single zero, ageOf_single fun none => also (by rw [none]; rfl)]
    have widths : Nat.log2 ticks.toNat ≤ Nat.log2 more.toNat :=
      (Nat.le_log2 also).mpr ((Nat.log2_self_le some).trans order)
    rcases widths.lt_or_eq with narrower | same
    · exact seconds_width digits first last _ narrower wide
    · rw [same]
      exact seconds_mono (tickSignificand_mono some order more.toNat_lt same) last (ticks_width more.toNat_lt)

end Unimoc.Ebike
