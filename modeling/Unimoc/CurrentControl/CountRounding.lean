import Unimoc.CurrentControl.Position
import Unimoc.Lib.BinaryExact
import Unimoc.Units.Float

/-! The counts that single precision gives: conversions to and from integers, and the rounding of
`RoundToInt64`, which is not to the nearest for every number. -/
namespace Unimoc.CurrentControl

namespace RotorAngle

/-- Towards zero. -/
noncomputable def integerPart (x : ℝ) : ℤ := if x < 0 then -⌊-x⌋ else ⌊x⌋

/-- The nearest integer, of two the one away from zero. -/
noncomputable def nearestCount (x : ℝ) : ℤ := if x < 0 then -⌊-x + 0.5⌋ else ⌊x + 0.5⌋

theorem nearestCount_eq (x : ℝ) : nearestCount x = if x < 0 then -⌊-x + 1 / 2⌋ else ⌊x + 1 / 2⌋ := by
  have half : (0.5 : ℝ) = 1 / 2 := by norm_num
  rw [nearestCount, half]

theorem half_eq : (0.5 : Binary32) = .finite 8388608 (-24) := by decide

theorem half_value : (0.5 : Binary32).value = 1 / 2 := by
  rw [half_eq]
  norm_num [Binary.value]

theorem zero_value : (Scalar.zero : Binary32).value = 0 := by
  have zero : (Scalar.zero : Binary32) = .finite 0 0 := by decide
  rw [zero]
  norm_num [Binary.value]

theorem negative_value {v : Binary32} (finite : v.isFinite = true) : v < Scalar.zero ↔ v.value < 0 := by
  have order := Binary.lt_value finite (show (Scalar.zero : Binary32).isFinite = true by decide)
  rw [zero_value] at order
  exact order

theorem nonneg_value {v : Binary32} (finite : v.isFinite = true) : Scalar.zero ≤ v ↔ 0 ≤ v.value := by
  have order := Binary.le_value (show (Scalar.zero : Binary32).isFinite = true by decide) finite
  rw [zero_value] at order
  exact order

theorem toUInt64_value {v : Binary32} (finite : v.isFinite = true) (nonneg : 0 ≤ v.value)
    (below : v.value < 2 ^ 64) : ((Scalar.toUInt64 v).toNat : Int) = ⌊v.value⌋ := by
  have floor := Binary.truncate_floor finite nonneg
  have small : v.truncate < 2 ^ 64 := by
    have real : ⌊v.value⌋ < 2 ^ 64 := by
      rw [Int.floor_lt]
      exact_mod_cast below
    rw [← floor] at real
    exact_mod_cast real
  show ((UInt64.ofNat v.truncate).toNat : Int) = _
  rw [UInt64.toNat_ofNat_of_lt' small, floor]

theorem toInt_value {v : Binary32} (finite : v.isFinite = true) (below : |v.value| < 2 ^ 64) :
    Scalar.toInt v = integerPart v.value := by
  obtain ⟨least, most⟩ := abs_lt.mp below
  have negated : (-v : Binary32).value = -v.value := Binary.negate_value v
  unfold Scalar.toInt integerPart
  by_cases negative : v.value < 0
  · have floor := toUInt64_value (v := -v) ((Binary.negate_isFinite v).trans finite) (by rw [negated]; linarith)
      (by rw [negated]; linarith)
    rw [if_pos ((negative_value finite).mpr negative), if_pos negative, floor, negated]
  · rw [if_neg (mt (negative_value finite).mp negative), if_neg negative]
    exact toUInt64_value finite (not_lt.mp negative) most

theorem integerPart_neg (x : ℝ) : integerPart (-x) = -integerPart x := by
  unfold integerPart
  rcases lt_trichotomy x 0 with negative | rfl | positive
  · rw [if_pos negative, if_neg (by linarith), neg_neg]
  · simp
  · rw [if_pos (neg_lt_zero.mpr positive), if_neg (not_lt.mpr positive.le), neg_neg]

theorem nearestCount_within {x : ℝ} (below : |x| ≤ 2 ^ 32) : |nearestCount x| ≤ 2 ^ 32 := by
  have floors {y : ℝ} (nonneg : 0 ≤ y) (most : y ≤ 2 ^ 32) : |⌊y + 1 / 2⌋| ≤ 2 ^ 32 := by
    rw [abs_of_nonneg (Int.floor_nonneg.mpr (by linarith)), ← Int.lt_add_one_iff, Int.floor_lt]
    push_cast
    linarith
  obtain ⟨least, most⟩ := abs_le.mp below
  rw [nearestCount_eq]
  split_ifs with negative
  · rw [abs_neg]
    exact floors (by linarith) (by linarith)
  · exact floors (by linarith) most

/-- A number that `roundToInt64` rounds to a count that is not the nearest: half a count added to
it is halfway between two values of the format, and the even one is a count too far. -/
def Misrounded (x : ℝ) : Prop :=
  |x| = 0.5 - 0.5 ^ 25 ∨ ∃ n : Nat, n % 2 = 1 ∧ 2 ^ 23 < n ∧ n < 2 ^ 24 ∧ |x| = n

section HalfUp

variable {v : Binary32} (finite : v.isFinite = true)
include finite

theorem addHalf_rounded (below : |v.value| < 2 ^ 64) : Binary.Rounded (v.value + 1 / 2) (v.add (0.5 : Binary32)) := by
  have bound : |v.value + (0.5 : Binary32).value| < 2 ^ ((128 : Int) - 1) := by
    rw [half_value]
    refine (abs_add_le _ _).trans_lt ?_
    norm_num at below ⊢
    linarith
  have rounded := Binary.add_rounded (by decide) (by decide) finite (show (0.5 : Binary32).isFinite = true by decide)
    bound
  rwa [half_value] at rounded

theorem addHalf_halfway (below : |v.value| < 2 ^ 64) (q : Nat) (unit : Int) (first : 2 ^ 23 ≤ q) (last : q < 2 ^ 24)
    (inside : -149 ≤ unit) (halfway : v.value + 1 / 2 = (q + 1 / 2) * 2 ^ unit) :
    (v.add (0.5 : Binary32)).value = (q + q % 2 : Nat) * 2 ^ unit := by
  refine Binary.add_halfway (by decide) (addHalf_rounded finite below).finite first last inside ?_ finite
    (by decide)
  rw [half_value]
  exact halfway

theorem addHalf_misrounded (below : |v.value| < 2 ^ 64) (nonneg : 0 ≤ v.value) (misrounded : Misrounded v.value) :
    ⌊(v.add (0.5 : Binary32)).value⌋ = ⌊v.value + 1 / 2⌋ + 1 := by
  rcases misrounded with small | ⟨n, odd, first, last, whole⟩
  · rw [abs_of_nonneg nonneg] at small
    have sum := addHalf_halfway finite below (2 ^ 24 - 1) (-24) (by decide) (by decide) (by decide)
      (by rw [small]; norm_num)
    have floorZero : ⌊v.value + 1 / 2⌋ = 0 := by
      rw [small, Int.floor_eq_iff]
      norm_num
    rw [sum, floorZero]
    norm_num
  · rw [abs_of_nonneg nonneg] at whole
    have sum := addHalf_halfway finite below n 0 first.le last (by decide) (by rw [whole]; simp)
    have same : ⌊v.value + 1 / 2⌋ = n := by
      rw [whole, Int.floor_eq_iff]
      constructor
      · push_cast
        linarith
      · push_cast
        linarith
    rw [sum, same, odd, zpow_zero, mul_one, Int.floor_natCast]
    push_cast
    rfl

variable (below : |v.value| < 2 ^ 64)
include below

theorem addHalf_exact (sum : Binary.Has 24 (-149) (v.value + 1 / 2)) :
    ⌊(v.add (0.5 : Binary32)).value⌋ = ⌊v.value + 1 / 2⌋ := by
  rw [(addHalf_rounded finite below).exact sum]

theorem addHalf_near {n : Int} (count : Binary.Has 24 (-149) n) (least : (n : ℝ) ≤ v.value + 1 / 2)
    (near : v.value < n) : ⌊(v.add (0.5 : Binary32)).value⌋ = ⌊v.value + 1 / 2⌋ := by
  have nearest := (addHalf_rounded finite below).nearest
  have above := nearest.ge count least
  have closest := nearest.closest count
  rw [abs_of_nonneg (by linarith : (0 : ℝ) ≤ v.value + 1 / 2 - n)] at closest
  have under := (abs_le.mp closest).1
  have same : ⌊v.value + 1 / 2⌋ = n := by
    rw [Int.floor_eq_iff]
    constructor <;> linarith
  rw [same, Int.floor_eq_iff]
  constructor <;> linarith

theorem addHalf_beyond {n : Nat} (has : Binary.Has 24 (-149) v.value) (whole : v.value = n) (large : 2 ^ 24 ≤ n) :
    ⌊(v.add (0.5 : Binary32)).value⌋ = n := by
  have rounded := addHalf_rounded finite below
  have above := rounded.nearest.ge has (by linarith)
  have closest := rounded.nearest.closest has
  have even := (whole ▸ has).even large
  have result := (Binary.add_canonical finite (by decide) rounded.finite).has (by decide) (by decide)
  rw [add_sub_cancel_left, abs_of_pos (one_half_pos : (0 : ℝ) < 1 / 2)] at closest
  have under := (abs_le.mp closest).1
  rw [whole] at above under
  rw [Int.floor_eq_iff]
  refine ⟨above, lt_of_le_of_ne (by push_cast; linarith) fun next => ?_⟩
  have odd : Binary.Has 24 (-149) ((n + 1 : Nat) : ℝ) := by
    push_cast at next ⊢
    rwa [next] at result
  have following := odd.even (by omega)
  omega

theorem addHalf_whole {n : Nat} (has : Binary.Has 24 (-149) v.value) (whole : v.value = n)
    (correct : ¬Misrounded v.value) : ⌊(v.add (0.5 : Binary32)).value⌋ = ⌊v.value + 1 / 2⌋ := by
  have same : ⌊v.value + 1 / 2⌋ = n := by
    rw [whole, Int.floor_eq_iff]
    constructor
    · push_cast
      linarith
    · push_cast
      linarith
  rcases Nat.lt_or_ge n (2 ^ 23) with small | large
  · refine addHalf_exact finite below ⟨2 * n + 1, -1, ?_, by decide, ?_⟩
    · rw [abs_of_nonneg (by omega)]
      omega
    · rw [whole]
      push_cast
      ring
  · rcases Nat.lt_or_ge n (2 ^ 24) with within | beyond
    · have sum := addHalf_halfway finite below n 0 large within (by decide) (by rw [whole]; simp)
      have even : n % 2 = 0 := by
        by_contra odd
        refine correct (.inr ⟨n, by omega, by omega, within, ?_⟩)
        rw [whole, Nat.abs_cast]
      rw [sum, same, even, zpow_zero, mul_one, Int.floor_natCast]
      rfl
    · rw [addHalf_beyond finite below has whole beyond, same]

theorem addHalf_small (nonneg : 0 ≤ v.value) (small : v.value ≤ 1 / 2 - 1 / 2 ^ 24) :
    ⌊(v.add (0.5 : Binary32)).value⌋ = ⌊v.value + 1 / 2⌋ := by
  have nearest := (addHalf_rounded finite below).nearest
  have one : Binary.Has 24 (-149) (((2 : Int) ^ 24 - 1 : Int) * 2 ^ (-24 : Int)) :=
    ⟨2 ^ 24 - 1, -24, by norm_num, by decide, rfl⟩
  have zero : Binary.Has 24 (-149) 0 := ⟨0, 0, by norm_num, by decide, by norm_num⟩
  have under := nearest.le one (by norm_num; norm_num at small; linarith)
  have above := nearest.ge zero (by linarith)
  norm_num at under small
  have floorZero : ⌊v.value + 1 / 2⌋ = 0 := by
    rw [Int.floor_eq_iff]
    constructor <;> norm_num <;> linarith
  rw [floorZero, Int.floor_eq_iff]
  constructor <;> norm_num <;> linarith

theorem addHalf_floor (has : Binary.Has 24 (-149) v.value) (nonneg : 0 ≤ v.value)
    (correct : ¬Misrounded v.value) : ⌊(v.add (0.5 : Binary32)).value⌋ = ⌊v.value + 1 / 2⌋ := by
  obtain ⟨m, e, short, inside, number⟩ := id has
  have positive : (0 : ℝ) < 2 ^ e := by positivity
  have sign : 0 ≤ m := by
    rw [number] at nonneg
    exact_mod_cast nonneg_of_mul_nonneg_left nonneg positive
  rw [abs_of_nonneg sign] at short
  rcases le_or_gt 0 e with whole | fraction
  · obtain ⟨k, rfl⟩ := Int.eq_ofNat_of_zero_le whole
    obtain ⟨m, rfl⟩ := Int.eq_ofNat_of_zero_le sign
    refine addHalf_whole finite below (n := m * 2 ^ k) has ?_ correct
    rw [number]
    push_cast
    rfl
  obtain ⟨k, rfl⟩ : ∃ k : Nat, e = -(k + 1 : Nat) := ⟨(-e - 1).toNat, by omega⟩
  have half : (1 : ℝ) / 2 = (2 ^ k : Int) * 2 ^ (-(k + 1 : Nat) : Int) := by
    rw [zpow_neg, zpow_natCast, pow_succ]
    push_cast
    field_simp
  by_cases narrow : m + 2 ^ k < 2 ^ 24
  · refine addHalf_exact finite below ⟨m + 2 ^ k, -(k + 1 : Nat), ?_, inside, ?_⟩
    · rwa [abs_of_nonneg (by positivity)]
    · rw [number, half]
      push_cast
      ring
  -- the sum needs one more digit
  rcases Nat.lt_or_ge k 24 with coarse | fine
  · have power : ((2 ^ (23 - k) : Int) : ℝ) = (2 ^ 24 : Int) * 2 ^ (-(k + 1 : Nat) : Int) := by
      have digits : (2 : ℝ) ^ 24 = 2 ^ (23 - k) * 2 ^ (k + 1) := by
        rw [← pow_add]
        congr 1
        omega
      rw [zpow_neg, zpow_natCast, Int.cast_pow, Int.cast_pow, Int.cast_ofNat, digits]
      field_simp
    refine addHalf_near finite below (n := 2 ^ (23 - k)) ?_ ?_ ?_
    · refine Binary.Has.int ?_ (by decide)
      rw [abs_of_nonneg (by positivity)]
      exact pow_lt_pow_right₀ (by decide) (by omega)
    · rw [power, number, half, ← add_mul]
      refine mul_le_mul_of_nonneg_right ?_ positive.le
      exact_mod_cast not_lt.mp narrow
    · rw [power, number]
      refine mul_lt_mul_of_pos_right ?_ positive
      exact_mod_cast short
  · refine addHalf_small finite below nonneg ?_
    rcases Nat.eq_or_lt_of_le fine with rfl | finer
    · have other : m ≠ 2 ^ 24 - 1 := by
        rintro rfl
        refine correct (.inl ?_)
        rw [abs_of_nonneg nonneg, number]
        norm_num
      have most : (m : ℝ) ≤ 2 ^ 24 - 2 := by
        have integer : m ≤ 2 ^ 24 - 2 := by omega
        exact_mod_cast integer
      rw [number]
      norm_num at most ⊢
      linarith
    · have unit : (2 : ℝ) ^ (-(k + 1 : Nat) : Int) ≤ 2 ^ (-26 : Int) :=
        zpow_le_zpow_right₀ one_le_two (by omega)
      have most : (m : ℝ) ≤ 2 ^ 24 := by exact_mod_cast short.le
      calc v.value = m * 2 ^ (-(k + 1 : Nat) : Int) := number
        _ ≤ 2 ^ 24 * 2 ^ (-26 : Int) := mul_le_mul most unit positive.le (by positivity)
        _ ≤ 1 / 2 - 1 / 2 ^ 24 := by norm_num

end HalfUp

theorem addHalf_bound {v : Binary32} (finite : v.isFinite = true) (nonneg : 0 ≤ v.value) (below : v.value ≤ 2 ^ 32) :
    0 ≤ (v.add (0.5 : Binary32)).value ∧ (v.add (0.5 : Binary32)).value ≤ 2 ^ 33 := by
  have nearest := (addHalf_rounded finite (by rw [abs_of_nonneg nonneg]; linarith)).nearest
  have zero : Binary.Has 24 (-149) 0 := ⟨0, 0, by norm_num, by decide, by norm_num⟩
  have top : Binary.Has 24 (-149) (2 ^ 33) := ⟨1, 33, by norm_num, by decide, by norm_num⟩
  exact ⟨nearest.ge zero (by linarith), nearest.le top (by linarith)⟩

theorem roundToInt64_nonneg {v : Binary32} (finite : v.isFinite = true) (nonneg : 0 ≤ v.value)
    (below : v.value ≤ 2 ^ 32) : roundToInt64 v = ⌊(v.add (0.5 : Binary32)).value⌋ := by
  have small : |v.value| < 2 ^ 64 := by
    rw [abs_of_nonneg nonneg]
    linarith
  obtain ⟨least, most⟩ := addHalf_bound finite nonneg below
  have bound : |(v.add (0.5 : Binary32)).value| < 2 ^ 64 := by
    rw [abs_of_nonneg least]
    linarith
  unfold roundToInt64
  rw [if_pos ((nonneg_value finite).mpr nonneg)]
  refine (toInt_value (addHalf_rounded finite small).finite bound).trans ?_
  unfold integerPart
  rw [if_neg (not_lt.mpr least)]

theorem roundToInt64_negative {v : Binary32} (finite : v.isFinite = true) (negative : v.value < 0)
    (below : -2 ^ 32 ≤ v.value) : roundToInt64 v = -roundToInt64 v.negate := by
  have value := Binary.negate_value v
  have finite' := (Binary.negate_isFinite v).trans finite
  obtain ⟨least, most⟩ := addHalf_bound finite' (by linarith) (by linarith)
  have small : |v.negate.value| < 2 ^ 64 := by
    rw [value, abs_of_pos (by linarith)]
    linarith
  have bound : |(v.negate.add (0.5 : Binary32)).value| < 2 ^ 64 := by
    rw [abs_of_nonneg least]
    linarith
  have mirrored : (v - 0.5 : Binary32) = (v.negate.add (0.5 : Binary32)).negate := by
    rw [Binary.add_negate, Binary.negate_negate]
    rfl
  have sum := (addHalf_rounded finite' small).finite
  have negated := Binary.negate_value (v.negate.add (0.5 : Binary32))
  rw [roundToInt64_nonneg finite' (by linarith) (by linarith)]
  unfold roundToInt64
  rw [if_neg (mt (nonneg_value finite).mp (not_le.mpr negative)), mirrored,
    toInt_value ((Binary.negate_isFinite _).trans sum) (by rwa [negated, abs_neg]), negated, integerPart_neg]
  unfold integerPart
  rw [if_neg (not_lt.mpr least)]

section Round

variable {v : Binary32} (finite : v.isFinite = true) (has : Binary.Has 24 (-149) v.value) (below : |v.value| ≤ 2 ^ 32)
include finite has below

theorem roundToInt64_correct (correct : ¬Misrounded v.value) : roundToInt64 v = nearestCount v.value := by
  obtain ⟨least, most⟩ := abs_le.mp below
  rcases lt_or_ge v.value 0 with negative | nonneg
  · have value := Binary.negate_value v
    have finite' := (Binary.negate_isFinite v).trans finite
    have mirrored : ¬Misrounded v.negate.value := by
      unfold Misrounded at correct ⊢
      rwa [value, abs_neg]
    rw [roundToInt64_negative finite negative least, roundToInt64_nonneg finite' (by linarith) (by linarith),
      addHalf_floor finite' (by rw [value, abs_neg]; linarith) (value ▸ has.neg) (by linarith) mirrored, value]
    rw [nearestCount_eq]
    rw [if_pos negative]
  · rw [roundToInt64_nonneg finite nonneg most, addHalf_floor finite (by linarith) has nonneg correct]
    rw [nearestCount_eq]
    rw [if_neg (not_lt.mpr nonneg)]

omit has in
theorem roundToInt64_misrounded (misrounded : Misrounded v.value) :
    |roundToInt64 v - nearestCount v.value| = 1 := by
  obtain ⟨least, most⟩ := abs_le.mp below
  rcases lt_or_ge v.value 0 with negative | nonneg
  · have value := Binary.negate_value v
    have finite' := (Binary.negate_isFinite v).trans finite
    have mirrored : Misrounded v.negate.value := by
      unfold Misrounded at misrounded ⊢
      rwa [value, abs_neg]
    rw [roundToInt64_negative finite negative least, roundToInt64_nonneg finite' (by linarith) (by linarith),
      addHalf_misrounded finite' (by rw [value, abs_neg]; linarith) (by linarith) mirrored, value]
    rw [nearestCount_eq]
    rw [if_pos negative, neg_add, add_sub_cancel_left, abs_neg, abs_one]
  · rw [roundToInt64_nonneg finite nonneg most, addHalf_misrounded finite (by linarith) nonneg misrounded]
    rw [nearestCount_eq]
    rw [if_neg (not_lt.mpr nonneg), add_sub_cancel_left, abs_one]

end Round

/-! ### The fraction of a revolution -/

theorem integerPart_near (x : ℝ) : |x - integerPart x| < 1 := by
  unfold integerPart
  split_ifs with negative
  · have least := Int.floor_le (-x)
    have most := Int.lt_floor_add_one (-x)
    push_cast
    rw [abs_lt]
    constructor <;> linarith
  · have least := Int.floor_le x
    have most := Int.lt_floor_add_one x
    rw [abs_lt]
    constructor <;> linarith

theorem integerPart_toward (x : ℝ) : |x - integerPart x| ≤ |x| := by
  unfold integerPart
  split_ifs with negative
  · have least := Int.floor_le (-x)
    have sign : (0 : ℝ) ≤ ⌊-x⌋ := by exact_mod_cast Int.floor_nonneg.mpr (by linarith)
    push_cast
    rw [abs_of_nonpos (by linarith), abs_of_neg negative]
    linarith
  · have least := Int.floor_le x
    have sign : (0 : ℝ) ≤ ⌊x⌋ := by exact_mod_cast Int.floor_nonneg.mpr (by linarith)
    rw [abs_of_nonneg (by linarith), abs_of_nonneg (by linarith)]
    linarith

theorem integerPart_inside (x : ℝ) : |(integerPart x : ℝ)| ≤ |x| := by
  unfold integerPart
  split_ifs with negative
  · have sign : (0 : ℝ) ≤ ⌊-x⌋ := by exact_mod_cast Int.floor_nonneg.mpr (by linarith)
    rw [Int.cast_neg, abs_neg, abs_of_nonneg sign, abs_of_neg negative]
    exact Int.floor_le (-x)
  · have sign : (0 : ℝ) ≤ ⌊x⌋ := by exact_mod_cast Int.floor_nonneg.mpr (by linarith)
    rw [abs_of_nonneg sign, abs_of_nonneg (by linarith)]
    exact Int.floor_le x

theorem integerPart_intCast (n : ℤ) : integerPart n = n := by
  unfold integerPart
  split_ifs
  · rw [← Int.cast_neg, Int.floor_intCast, neg_neg]
  · exact Int.floor_intCast n

section Fraction

variable {x : ℝ} (has : Binary.Has 24 (-149) x)
include has

theorem integerPart_has : Binary.Has 24 (-149) (integerPart x) ∧ Binary.Has 24 (-149) (x - integerPart x) := by
  have zero : Binary.Has 24 (-149) 0 := ⟨0, 0, by norm_num, by decide, by norm_num⟩
  obtain ⟨m, e, small, inside, number⟩ := id has
  have positive : (0 : ℝ) < 2 ^ e := by positivity
  rcases le_or_gt 0 e with whole | fraction
  · obtain ⟨k, rfl⟩ := Int.eq_ofNat_of_zero_le whole
    have integer : x = ((m * 2 ^ k : ℤ) : ℝ) := by
      rw [number]
      push_cast
      rfl
    rw [integer, integerPart_intCast, sub_self, ← integer]
    exact ⟨has, zero⟩
  · have size : |x| < 2 ^ 24 := by
      have digits : |(m : ℝ)| < 2 ^ 24 := by exact_mod_cast small
      rw [number, abs_mul, abs_of_pos positive]
      exact (mul_le_of_le_one_right (abs_nonneg _) (zpow_le_one_of_nonpos₀ one_le_two fraction.le)).trans_lt digits
    constructor
    · refine Binary.Has.int ?_ (by decide)
      exact_mod_cast (integerPart_inside x).trans_lt size
    · obtain ⟨k, rfl⟩ : ∃ k : Nat, e = -(k : Int) := ⟨(-e).toNat, by omega⟩
      have remainder : x - integerPart x = ((m - integerPart x * 2 ^ k : ℤ) : ℝ) * 2 ^ (-(k : Int)) := by
        rw [number, zpow_neg, zpow_natCast]
        push_cast
        field_simp
      refine ⟨m - integerPart x * 2 ^ k, -(k : Int), ?_, inside, remainder⟩
      have toward := integerPart_toward x
      have scaled : |x| = |(m : ℝ)| * |(2 : ℝ) ^ (-(k : Int))| := by rw [number, abs_mul]
      rw [remainder, abs_mul, scaled, mul_le_mul_iff_left₀ (abs_pos.mpr positive.ne')] at toward
      have digits : |m - integerPart x * 2 ^ k| ≤ |m| := by exact_mod_cast toward
      exact digits.trans_lt small

end Fraction

theorem ofInt_value {n : Int} (small : |n| < 2 ^ 64) (has : Binary.Has 24 (-149) n) :
    (Scalar.ofInt n : Binary32).isFinite = true ∧ (Scalar.ofInt n : Binary32).value = n := by
  have size : n.natAbs < 2 ^ 64 := by
    have bounds := abs_lt.mp small
    omega
  have converted : (Scalar.ofUInt64 (UInt64.ofNat n.natAbs) : Binary32) = Binary.round false n.natAbs 0 := by
    show Binary.round false (UInt64.ofNat n.natAbs).toNat 0 = _
    rw [UInt64.toNat_ofNat_of_lt' size]
  have magnitude : Binary.Has 24 (-149) ((n.natAbs : ℤ) : ℝ) := by
    rcases Int.natAbs_eq n with same | negated
    · rwa [← same]
    · rw [← neg_eq_iff_eq_neg.mpr negated, Int.cast_neg]
      exact has.neg
  have rounded := @Binary.round_int 24 (-149) 128 (by decide) (by decide) (n.natAbs : Int) 0 (by
    have bound : ((n.natAbs : ℤ) : ℝ) < 2 ^ 64 := by exact_mod_cast size
    rw [zpow_zero, mul_one, abs_of_nonneg (by positivity)]
    norm_num at bound ⊢
    linarith)
  rw [zpow_zero, mul_one, decide_eq_false (by omega), Int.natAbs_natCast] at rounded
  have valueEq := rounded.exact magnitude
  unfold Scalar.ofInt
  rw [converted]
  split_ifs with negative
  · refine ⟨(Binary.negate_isFinite _).trans rounded.finite, (Binary.negate_value _).trans ?_⟩
    rw [valueEq]
    have sign : (n.natAbs : ℤ) = -n := by omega
    rw [sign]
    push_cast
    ring
  · refine ⟨rounded.finite, valueEq.trans ?_⟩
    have sign : (n.natAbs : ℤ) = n := by omega
    rw [sign]

end RotorAngle

end Unimoc.CurrentControl
