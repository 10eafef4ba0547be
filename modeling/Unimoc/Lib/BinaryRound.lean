import Mathlib.Tactic.Linarith
import Mathlib.Tactic.Positivity
import Mathlib.Tactic.Ring
import Unimoc.Lib.BinaryValue

/-! What rounding to a binary format gives: the nearest value, and the value itself when the
format has it. -/
namespace Binary

variable {precision : Nat} {least limit : Int}

/-- The exponent of the last digit that is kept. -/
def unitOf (precision : Nat) (least : Int) (n : Nat) (exponent : Int) : Int :=
  max (exponent + (Nat.log2 n + 1 : Nat) - precision) least

def significandOf (n : Nat) (exponent unit : Int) : Nat :=
  if unit ≤ exponent then n * 2 ^ (exponent - unit).toNat else roundShift n (unit - exponent).toNat

theorem round_zero (negative : Bool) (exponent : Int) :
    (round negative 0 exponent : Binary precision least limit) = zero := rfl

theorem round_eq {n : Nat} (nonzero : n ≠ 0) (negative : Bool) (exponent : Int) :
    (round negative n exponent : Binary precision least limit) =
      let unit := unitOf precision least n exponent
      let significand := significandOf n exponent unit
      if significand = 0 then zero
      else if limit < unit + (Nat.log2 significand + 1 : Nat) then .infinite negative
      else .finite (if negative then -significand else significand) unit := by
  unfold round
  rw [if_neg nonzero]
  rfl

theorem round_value {n : Nat} (nonzero : n ≠ 0) {negative : Bool} {exponent : Int}
    (finite : (round negative n exponent : Binary precision least limit).isFinite = true) :
    (round negative n exponent : Binary precision least limit).value =
      scaled negative (significandOf n exponent (unitOf precision least n exponent))
        (unitOf precision least n exponent) := by
  rw [round_eq nonzero] at finite ⊢
  dsimp only at finite ⊢
  generalize unitOf precision least n exponent = unit at finite ⊢
  generalize significandOf n exponent unit = significand at finite ⊢
  split at finite
  · rename_i isZero
    rw [if_pos isZero, isZero]
    simp [zero, value, scaled]
  · rename_i significant
    split at finite
    · cases finite
    · rename_i inside
      rw [if_neg significant, if_neg inside]
      cases negative with
      | false => simp [value, scaled]
      | true => simp [value, scaled]

/-! ### The nearest value -/

theorem roundShift_error (n shift : Nat) :
    2 * (roundShift n shift * 2 ^ shift) ≤ 2 * n + 2 ^ shift ∧
    2 * n ≤ 2 * (roundShift n shift * 2 ^ shift) + 2 ^ shift := by
  have divided := Nat.div_add_mod n (2 ^ shift)
  have rest := Nat.mod_lt n (Nat.two_pow_pos shift)
  have product : n / 2 ^ shift * 2 ^ shift = 2 ^ shift * (n / 2 ^ shift) := Nat.mul_comm _ _
  have next : (n / 2 ^ shift + 1) * 2 ^ shift = 2 ^ shift * (n / 2 ^ shift) + 2 ^ shift := by
    rw [Nat.add_mul, Nat.one_mul, product]
  unfold roundShift
  dsimp only
  split
  · rw [next]
    omega
  · split
    · rename_i tie
      rw [next]
      omega
    · rw [product]
      omega

theorem zpow_above {low high : Int} (below : low ≤ high) :
    (2 : ℝ) ^ high = (2 : ℝ) ^ (high - low).toNat * (2 : ℝ) ^ low := by
  have distance : ((high - low).toNat : Int) = high - low := Int.toNat_of_nonneg (by omega)
  rw [← zpow_natCast, distance, ← zpow_add₀ two_ne_zero, sub_add_cancel]

theorem significand_error (n : Nat) (exponent unit : Int) :
    |(n : ℝ) * 2 ^ exponent - significandOf n exponent unit * 2 ^ unit| ≤ (2 : ℝ) ^ unit / 2 := by
  have positive : (0 : ℝ) < 2 ^ unit := by positivity
  unfold significandOf
  split
  · rename_i above
    have same : (n : ℝ) * 2 ^ exponent - (n * 2 ^ (exponent - unit).toNat : Nat) * 2 ^ unit = 0 := by
      rw [zpow_above above]
      push_cast
      ring
    rw [same, abs_zero]
    linarith
  · rename_i below
    have power := zpow_above (le_of_not_ge below)
    have small : (0 : ℝ) < 2 ^ exponent := by positivity
    obtain ⟨overshoot, under⟩ := roundShift_error n (unit - exponent).toNat
    have upper : 2 * ((roundShift n (unit - exponent).toNat : ℝ) * 2 ^ (unit - exponent).toNat) ≤
        2 * n + 2 ^ (unit - exponent).toNat := by exact_mod_cast overshoot
    have lower : 2 * (n : ℝ) ≤ 2 * ((roundShift n (unit - exponent).toNat : ℝ) * 2 ^ (unit - exponent).toNat) +
        2 ^ (unit - exponent).toNat := by exact_mod_cast under
    rw [power, abs_le]
    constructor <;> nlinarith

theorem nearest_multiple {x g : ℝ} {q : Nat} (positive : 0 < g) (half : |x - q * g| ≤ g / 2) (j : Int) :
    |x - q * g| ≤ |x - j * g| := by
  by_cases same : (q : Int) = j
  · rw [← same]
    simp
  · have apart : (1 : ℝ) ≤ |(q : ℝ) - j| := by
      have step : (1 : Int) ≤ |(q : Int) - j| := Int.one_le_abs (sub_ne_zero.mpr same)
      exact_mod_cast step
    have gap : g ≤ |(q - j) * g| := by
      rw [abs_mul, abs_of_pos positive]
      nlinarith
    have triangle : |(q - j) * g| ≤ |x - j * g| + |x - q * g| := by
      have sum : ((q : ℝ) - j) * g = (x - j * g) - (x - q * g) := by ring
      rw [sum]
      exact abs_sub _ _
    linarith

theorem significand_nearest {n : Nat} (nonzero : n ≠ 0) (digits : 0 < precision) (exponent : Int) {m e : Int}
    (small : |m| < 2 ^ precision) (inside : least ≤ e) :
    |(n : ℝ) * 2 ^ exponent - significandOf n exponent (unitOf precision least n exponent) *
      2 ^ unitOf precision least n exponent| ≤ |(n : ℝ) * 2 ^ exponent - m * 2 ^ e| := by
  have error := significand_error n exponent (unitOf precision least n exponent)
  have unitEq : unitOf precision least n exponent = max (exponent + (Nat.log2 n + 1 : Nat) - precision) least := rfl
  generalize unitOf precision least n exponent = unit at error unitEq ⊢
  generalize significandOf n exponent unit = q at error ⊢
  have positive : (0 : ℝ) < 2 ^ unit := by positivity
  rcases le_or_gt unit e with above | below
  · have multiple : (m : ℝ) * 2 ^ e = ((m * 2 ^ (e - unit).toNat : Int) : ℝ) * 2 ^ unit := by
      rw [zpow_above above]
      push_cast
      ring
    rw [multiple]
    exact nearest_multiple positive error _
  · -- the other value is below the first digit of the number
    have first : unit + (precision - 1 : Nat) = exponent + Nat.log2 n := by omega
    have power : ((2 : Int) ^ (precision - 1) : Int) * (2 : ℝ) ^ unit = 2 ^ (exponent + Nat.log2 n) := by
      rw [← first, zpow_add₀ two_ne_zero, zpow_natCast]
      push_cast
      ring
    have digit : (2 : ℝ) ^ (exponent + Nat.log2 n) ≤ n * 2 ^ exponent := by
      rw [zpow_add₀ two_ne_zero, zpow_natCast, mul_comm]
      have low : 2 ^ Nat.log2 n ≤ n := Nat.log2_self_le nonzero
      gcongr
      exact_mod_cast low
    have other : (m : ℝ) * 2 ^ e ≤ 2 ^ (exponent + Nat.log2 n) := by
      have bound : (m : ℝ) ≤ 2 ^ precision := by exact_mod_cast le_of_lt (lt_of_le_of_lt (le_abs_self m) small)
      calc (m : ℝ) * 2 ^ e ≤ 2 ^ precision * 2 ^ e := by gcongr
        _ = 2 ^ ((precision : Int) + e) := by rw [zpow_add₀ two_ne_zero, zpow_natCast]
        _ ≤ 2 ^ (exponent + Nat.log2 n) := zpow_le_zpow_right₀ one_le_two (by omega)
    calc |(n : ℝ) * 2 ^ exponent - q * 2 ^ unit|
        ≤ |(n : ℝ) * 2 ^ exponent - ((2 : Int) ^ (precision - 1) : Int) * 2 ^ unit| :=
          nearest_multiple positive error _
      _ = n * 2 ^ exponent - 2 ^ (exponent + Nat.log2 n) := by
          rw [power, abs_of_nonneg (by linarith)]
      _ ≤ |(n : ℝ) * 2 ^ exponent - m * 2 ^ e| := by
          refine le_trans ?_ (le_abs_self _)
          linarith

theorem round_nearest (digits : 0 < precision) {negative : Bool} {n : Nat} {exponent : Int}
    (finite : (round negative n exponent : Binary precision least limit).isFinite = true) :
    Nearest (scaled negative n exponent) (round negative n exponent : Binary precision least limit) := by
  intro m e small inside
  by_cases isZero : n = 0
  · subst isZero
    rw [round_zero]
    simp only [zero, value, scaled, Nat.cast_zero, neg_zero, ite_self, zero_mul, Int.cast_zero, sub_zero, abs_zero]
    positivity
  · rw [round_value isZero finite]
    unfold scaled
    cases negative with
    | false => simpa using significand_nearest isZero digits exponent small inside
    | true =>
      have other := significand_nearest isZero digits exponent ((abs_neg m).symm ▸ small) inside
      have mirrored (a b c : ℝ) : |-a * b - c| = |a * b - -c| := by
        rw [← abs_neg]
        ring_nf
      simp only [↓reduceIte, mirrored]
      push_cast at other
      convert other using 2 <;> ring

/-! ### The digits of a result -/

/-- A finite value with at most the digits of the format. -/
def Canonical : Binary precision least limit → Prop
  | .finite m e => m ≠ 0 → m.natAbs ≤ 2 ^ precision ∧ least ≤ e ∧ e + (Nat.log2 m.natAbs + 1 : Nat) ≤ limit
  | _ => False

theorem significand_digits {n : Nat} {exponent unit : Int}
    (wide : exponent + (Nat.log2 n + 1 : Nat) - precision ≤ unit) :
    significandOf n exponent unit ≤ 2 ^ precision := by
  have digits : n < 2 ^ (Nat.log2 n + 1) := Nat.lt_log2_self
  unfold significandOf
  split
  · rename_i above
    have power : Nat.log2 n + 1 + (exponent - unit).toNat ≤ precision := by omega
    calc n * 2 ^ (exponent - unit).toNat ≤ 2 ^ (Nat.log2 n + 1) * 2 ^ (exponent - unit).toNat :=
          Nat.mul_le_mul_right _ (le_of_lt digits)
      _ = 2 ^ (Nat.log2 n + 1 + (exponent - unit).toNat) := (pow_add ..).symm
      _ ≤ 2 ^ precision := Nat.pow_le_pow_right (by decide) power
  · rename_i below
    have quotient : n / 2 ^ (unit - exponent).toNat < 2 ^ precision := by
      apply (Nat.div_lt_iff_lt_mul (Nat.two_pow_pos _)).mpr
      rw [← pow_add]
      exact Nat.lt_of_lt_of_le digits (Nat.pow_le_pow_right (by decide) (by omega))
    unfold roundShift
    dsimp only
    split_ifs <;> omega

theorem round_canonical {negative : Bool} {n : Nat} {exponent : Int}
    (finite : (round negative n exponent : Binary precision least limit).isFinite = true) :
    Canonical (round negative n exponent : Binary precision least limit) := by
  by_cases isZero : n = 0
  · subst isZero
    intro nonzero
    exact absurd rfl nonzero
  · have digits := @significand_digits precision n exponent (unitOf precision least n exponent) (le_max_left ..)
    have above : least ≤ unitOf precision least n exponent := le_max_right ..
    rw [round_eq isZero] at finite ⊢
    dsimp only at finite ⊢
    generalize unitOf precision least n exponent = unit at *
    generalize significandOf n exponent unit = significand at *
    split at finite
    · rename_i same
      rw [if_pos same]
      intro nonzero
      exact absurd rfl nonzero
    · rename_i significant
      split at finite
      · cases finite
      · rename_i inside
        rw [if_neg significant, if_neg inside]
        intro nonzero
        have magnitude : (if negative = true then -(significand : Int) else significand).natAbs = significand := by
          cases negative <;> simp
        rw [magnitude]
        exact ⟨digits, above, le_of_not_gt inside⟩

theorem round_exact {n : Nat} {exponent : Int} (negative : Bool) (digits : n < 2 ^ precision)
    (inside : least ≤ exponent) (fits : n ≠ 0 → exponent + (Nat.log2 n + 1 : Nat) ≤ limit) :
    (round negative n exponent : Binary precision least limit).isFinite = true ∧
    (round negative n exponent : Binary precision least limit).value = scaled negative n exponent := by
  by_cases isZero : n = 0
  · subst isZero
    rw [round_zero]
    simp [zero, isFinite, value, scaled]
  · have bits : Nat.log2 n < precision := (Nat.log2_lt isZero).mpr digits
    have below : unitOf precision least n exponent ≤ exponent := by
      unfold unitOf
      omega
    have kept : significandOf n exponent (unitOf precision least n exponent) =
        n * 2 ^ (exponent - unitOf precision least n exponent).toNat := if_pos below
    have fits := fits isZero
    have finite : (round negative n exponent : Binary precision least limit).isFinite = true := by
      rw [round_eq isZero]
      dsimp only
      rw [kept]
      generalize unitOf precision least n exponent = unit at below ⊢
      have positive : n * 2 ^ (exponent - unit).toNat ≠ 0 := Nat.mul_ne_zero isZero (Nat.two_pow_pos _).ne'
      have width : Nat.log2 (n * 2 ^ (exponent - unit).toNat) < Nat.log2 n + 1 + (exponent - unit).toNat := by
        apply (Nat.log2_lt positive).mpr
        rw [pow_add]
        exact Nat.mul_lt_mul_of_pos_right Nat.lt_log2_self (Nat.two_pow_pos _)
      rw [if_neg positive, if_neg (by omega)]
      rfl
    refine ⟨finite, ?_⟩
    rw [round_value isZero finite, kept]
    unfold scaled
    rw [zpow_above below]
    cases negative with
    | false => simp [mul_assoc]
    | true => simp [mul_assoc]

end Binary

namespace Binary32

open Binary

/-- The bit of the sign. -/
def signBit (negative : Bool) : Nat := if negative then 2 ^ 31 else 0

theorem ofBits_normal (negative : Bool) {s field : Nat} (first : 2 ^ 23 ≤ s) (digits : s < 2 ^ 24)
    (normal : 0 < field) (inside : field < 255) :
    ofBits (signBit negative + field * 2 ^ 23 + (s - 2 ^ 23)) = Binary.round negative s ((field : Int) - 150) := by
  obtain ⟨fraction, rfl⟩ := Nat.exists_eq_add_of_le first
  have exponent : (signBit negative + field * 2 ^ 23 + (2 ^ 23 + fraction - 2 ^ 23)) / 2 ^ 23 % 256 = field := by
    unfold signBit
    split_ifs <;> omega
  have rest : (signBit negative + field * 2 ^ 23 + (2 ^ 23 + fraction - 2 ^ 23)) % 2 ^ 23 = fraction := by
    unfold signBit
    split_ifs <;> omega
  have sign : decide ((signBit negative + field * 2 ^ 23 + (2 ^ 23 + fraction - 2 ^ 23)) / 2 ^ 31 % 2 = 1) = negative := by
    unfold signBit
    cases negative with
    | false => simp; omega
    | true => simp; omega
  unfold ofBits
  dsimp only
  rw [exponent, rest, sign, if_neg (by omega), if_neg (by omega)]

theorem ofBits_subnormal (negative : Bool) {fraction : Nat} (inside : fraction < 2 ^ 23) :
    ofBits (signBit negative + fraction) = Binary.round negative fraction (-149) := by
  have exponent : (signBit negative + fraction) / 2 ^ 23 % 256 = 0 := by
    unfold signBit
    split_ifs <;> omega
  have rest : (signBit negative + fraction) % 2 ^ 23 = fraction := by
    unfold signBit
    split_ifs <;> omega
  have sign : decide ((signBit negative + fraction) / 2 ^ 31 % 2 = 1) = negative := by
    unfold signBit
    cases negative with
    | false => simp; omega
    | true => simp; omega
  unfold ofBits
  dsimp only
  rw [exponent, rest, sign, if_neg (by decide), if_pos rfl]

/-- What the bits of a value stand for. -/
def Stands (bits : Nat) (x : ℝ) : Prop := (ofBits bits).isFinite = true ∧ (ofBits bits).value = x

theorem stands_normal (negative : Bool) {s field : Nat} (first : 2 ^ 23 ≤ s) (digits : s < 2 ^ 24)
    (normal : 0 < field) (inside : field < 255) :
    Stands (signBit negative + field * 2 ^ 23 + (s - 2 ^ 23)) (scaled negative s ((field : Int) - 150)) := by
  unfold Stands
  rw [ofBits_normal negative first digits normal inside]
  apply round_exact negative digits (by omega)
  intro nonzero
  have width := (Nat.log2_lt nonzero).mpr digits
  omega

theorem stands_subnormal (negative : Bool) {fraction : Nat} (inside : fraction < 2 ^ 23) :
    Stands (signBit negative + fraction) (scaled negative fraction (-149)) := by
  unfold Stands
  rw [ofBits_subnormal negative inside]
  apply round_exact negative (by omega) (by decide)
  intro nonzero
  have width := (Nat.log2_lt nonzero).mpr inside
  omega

theorem scaled_shift (negative : Bool) (n k : Nat) (exponent : Int) :
    scaled negative (n * 2 ^ k) exponent = scaled negative n (exponent + k) := by
  unfold scaled
  rw [zpow_add₀ two_ne_zero, zpow_natCast]
  cases negative with
  | false =>
    simp only [Bool.false_eq_true, ↓reduceIte]
    push_cast
    ring
  | true =>
    simp only [↓reduceIte]
    push_cast
    ring

theorem value_scaled (m e : Int) :
    (.finite m e : Binary32).value = scaled (decide (m < 0)) m.natAbs e := by
  unfold scaled value
  rcases lt_or_ge m 0 with negative | positive
  · have size : ((m.natAbs : Nat) : ℝ) = -(m : ℝ) := by
      rw [Nat.cast_natAbs, abs_of_neg negative, Int.cast_neg]
    simp only [negative, decide_true, ↓reduceIte, size, neg_neg]
  · have size : ((m.natAbs : Nat) : ℝ) = (m : ℝ) := by
      rw [Nat.cast_natAbs, abs_of_nonneg positive]
    simp only [not_lt.mpr positive, decide_false, Bool.false_eq_true, ↓reduceIte, size]

theorem stands_toBits {b : Binary32} (canonical : b.Canonical) : Stands (toBits b) b.value ∧ toBits b < 2 ^ 32 := by
  cases b with
  | nan | infinite _ => exact canonical.elim
  | finite m e =>
    by_cases isZero : m = 0
    · subst isZero
      have bits : toBits (.finite 0 e) = signBit false + 0 := by simp [toBits, signBit]
      have stands := stands_subnormal false (show 0 < 2 ^ 23 by decide)
      rw [bits]
      exact ⟨by simpa [value, scaled] using stands, by decide⟩
    · obtain ⟨digits, inside, fits⟩ := canonical isZero
      have positive : m.natAbs ≠ 0 := by omega
      have low : 2 ^ Nat.log2 m.natAbs ≤ m.natAbs := Nat.log2_self_le positive
      have high : m.natAbs < 2 ^ (Nat.log2 m.natAbs + 1) := Nat.lt_log2_self
      have sign : (if m < 0 then 2 ^ 31 else 0) = signBit (decide (m < 0)) := by simp [signBit]
      have signed : signBit (decide (m < 0)) ≤ 2 ^ 31 := by
        unfold signBit
        split_ifs <;> omega
      rw [value_scaled]
      unfold toBits
      dsimp only
      rw [if_neg isZero, sign]
      generalize decide (m < 0) = negative at *
      generalize m.natAbs = s at *
      generalize Nat.log2 s = top at *
      split
      · rename_i subnormal
        have small : s * 2 ^ (e + 149).toNat < 2 ^ 23 := by
          calc s * 2 ^ (e + 149).toNat < 2 ^ (top + 1) * 2 ^ (e + 149).toNat :=
                Nat.mul_lt_mul_of_pos_right high (Nat.two_pow_pos _)
            _ = 2 ^ (top + 1 + (e + 149).toNat) := (pow_add ..).symm
            _ ≤ 2 ^ 23 := Nat.pow_le_pow_right (by decide) (by omega)
        have same : (-149 : Int) + ((e + 149).toNat : Nat) = e := by omega
        have stands := stands_subnormal negative small
        rw [scaled_shift, same] at stands
        exact ⟨stands, by omega⟩
      · rename_i normal
        rcases Nat.lt_or_ge top 24 with within | full
        · have first : 2 ^ 23 ≤ s * 2 ^ (23 - top) := by
            calc 2 ^ 23 = 2 ^ (top + (23 - top)) := by rw [Nat.add_sub_cancel' (by omega)]
              _ = 2 ^ top * 2 ^ (23 - top) := pow_add ..
              _ ≤ s * 2 ^ (23 - top) := Nat.mul_le_mul_right _ low
          have last : s * 2 ^ (23 - top) < 2 ^ 24 := by
            calc s * 2 ^ (23 - top) < 2 ^ (top + 1) * 2 ^ (23 - top) :=
                  Nat.mul_lt_mul_of_pos_right high (Nat.two_pow_pos _)
              _ = 2 ^ (top + 1 + (23 - top)) := (pow_add ..).symm
              _ = 2 ^ 24 := by congr 1; omega
          have stands := @stands_normal negative _ (e - (23 - top : Nat) + 150).toNat first last (by omega) (by omega)
          have same : (((e - (23 - top : Nat) + 150).toNat : Nat) : Int) - 150 + (23 - top : Nat) = e := by omega
          rw [scaled_shift, same] at stands
          refine ⟨stands, ?_⟩
          have bound : (e - (23 - top : Nat) + 150).toNat < 255 := by omega
          omega
        · -- rounded up to the next power of two
          have whole : s = 2 ^ 24 := by
            have above : 2 ^ 24 ≤ 2 ^ top := Nat.pow_le_pow_right (by decide) full
            omega
          have width : top = 24 := by
            have below : top < 25 := (Nat.pow_lt_pow_iff_right (by decide : 1 < 2)).mp (by omega : 2 ^ top < 2 ^ 25)
            omega
          subst width whole
          have stands := @stands_normal negative (2 ^ 23) ((e + 150).toNat + 1) (by decide) (by decide) (by omega)
            (by omega)
          have same : (((e + 150).toNat + 1 : Nat) : Int) - 150 = e + (1 : Nat) := by omega
          rw [same, ← scaled_shift] at stands
          have bits : signBit negative + (e - (23 - 24 : Nat) + 150).toNat * 2 ^ 23 + (2 ^ 24 * 2 ^ (23 - 24) - 2 ^ 23) =
              signBit negative + ((e + 150).toNat + 1) * 2 ^ 23 + (2 ^ 23 - 2 ^ 23) := by
            have unshifted : (e - (23 - 24 : Nat) + 150).toNat = (e + 150).toNat := by omega
            rw [unshifted]
            omega
          rw [bits]
          exact ⟨stands, by omega⟩

end Binary32
