import Mathlib.Algebra.Order.Archimedean.Real.Basic
import Unimoc.Lib.BinaryRound

/-! Arithmetic of a binary format whose exact results the format has, the order that rounding
keeps, and results halfway between two values. -/
namespace Binary

variable {precision : Nat} {least limit : Int}

theorem Has.neg {x : ℝ} (has : Has precision least x) : Has precision least (-x) := by
  obtain ⟨m, e, small, inside, rfl⟩ := has
  refine ⟨-m, e, by rwa [abs_neg], inside, ?_⟩
  push_cast
  ring

/-- Of the integers beyond the significands, the format has only even ones. -/
theorem Has.even {n : Nat} (has : Has precision least n) (beyond : 2 ^ precision ≤ n) : n % 2 = 0 := by
  obtain ⟨m, e, small, -, number⟩ := has
  have size : (n : ℝ) < 2 ^ precision * 2 ^ e := by
    have below : |(m : ℝ)| < 2 ^ precision := by exact_mod_cast small
    rw [number]
    exact mul_lt_mul_of_pos_right ((le_abs_self _).trans_lt below) (by positivity)
  have large : (2 : ℝ) ^ precision ≤ n := by exact_mod_cast beyond
  have positive : 0 < e := by
    by_contra negative
    have shrinks : (2 : ℝ) ^ e ≤ 1 := zpow_le_one_of_nonpos₀ one_le_two (not_lt.mp negative)
    have bound : (2 : ℝ) ^ precision * 2 ^ e ≤ 2 ^ precision := mul_le_of_le_one_right (by positivity) shrinks
    linarith
  obtain ⟨k, rfl⟩ : ∃ k : Nat, e = (k + 1 : Nat) := ⟨(e - 1).toNat, by omega⟩
  rw [zpow_natCast, pow_succ] at number
  have whole : (n : Int) = m * (2 ^ k * 2) := by exact_mod_cast number
  rw [← mul_assoc] at whole
  omega

theorem Has.int {n : Int} (small : |n| < 2 ^ precision) (fine : least ≤ 0) : Has precision least n :=
  ⟨n, 0, small, fine, by simp⟩

section Nearest

variable {x y : ℝ} {b : Binary precision least limit} (nearest : Nearest x b) (has : Has precision least y)
include nearest has

theorem Nearest.closest : |x - b.value| ≤ |x - y| := by
  obtain ⟨m, e, small, inside, rfl⟩ := has
  exact nearest m e small inside

theorem Nearest.le (above : x ≤ y) : b.value ≤ y := by
  by_contra beyond
  have closest := nearest.closest has
  rw [abs_of_neg (by linarith), abs_of_nonpos (by linarith)] at closest
  linarith

theorem Nearest.ge (below : y ≤ x) : y ≤ b.value := by
  by_contra beyond
  have closest := nearest.closest has
  rw [abs_of_pos (by linarith), abs_of_nonneg (by linarith)] at closest
  linarith

end Nearest

/-- Rounding keeps the order. -/
theorem Nearest.mono {x y : ℝ} {a b : Binary precision least limit} (first : Nearest x a) (second : Nearest y b)
    (hasFirst : Has precision least a.value) (hasSecond : Has precision least b.value) (below : x < y) :
    a.value ≤ b.value := by
  by_contra above
  have firstCloser := sq_le_sq.mpr (first.closest hasSecond)
  have secondCloser := sq_le_sq.mpr (second.closest hasFirst)
  nlinarith

theorem Nearest.exact {x : ℝ} {b : Binary precision least limit} (nearest : Nearest x b)
    (has : Has precision least x) : b.value = x :=
  le_antisymm (nearest.le has le_rfl) (nearest.ge has le_rfl)

/-! ### Results that are finite -/

theorem round_isFinite (room : least + precision < limit) {n : Nat} {exponent : Int} (negative : Bool)
    (below : (n : ℝ) * 2 ^ exponent < 2 ^ (limit - 1)) :
    (round negative n exponent : Binary precision least limit).isFinite = true := by
  by_cases isZero : n = 0
  · rw [isZero, round_zero]
    rfl
  · have first : ((2 ^ Nat.log2 n : Nat) : ℝ) ≤ n := by exact_mod_cast Nat.log2_self_le isZero
    have top : (2 : ℝ) ^ (Nat.log2 n + exponent) < 2 ^ (limit - 1) := by
      rw [zpow_add₀ two_ne_zero, zpow_natCast]
      push_cast at first
      exact lt_of_le_of_lt (mul_le_mul_of_nonneg_right first (by positivity)) below
    have width := (zpow_lt_zpow_iff_right₀ one_lt_two).mp top
    have digits := @significand_digits precision n exponent (unitOf precision least n exponent) (le_max_left ..)
    have unitEq : unitOf precision least n exponent = max (exponent + (Nat.log2 n + 1 : Nat) - precision) least := rfl
    rw [round_eq isZero]
    dsimp only
    generalize unitOf precision least n exponent = unit at digits unitEq ⊢
    generalize significandOf n exponent unit = s at digits ⊢
    by_cases empty : s = 0
    · rw [if_pos empty]
      rfl
    · have short : Nat.log2 s ≤ precision := by
        rw [← Nat.lt_succ_iff]
        exact (Nat.log2_lt empty).mpr (lt_of_le_of_lt digits (Nat.pow_lt_pow_right (by decide) (by omega)))
      rw [if_neg empty, if_neg (by omega)]
      rfl

theorem scaled_int (m e : Int) : scaled (decide (m < 0)) m.natAbs e = m * (2 : ℝ) ^ e := by
  unfold scaled
  rcases lt_or_ge m 0 with negative | positive
  · simp only [negative, decide_true, ↓reduceIte, Nat.cast_natAbs, abs_of_neg negative]
    push_cast
    ring
  · simp only [not_lt.mpr positive, decide_false, Bool.false_eq_true, ↓reduceIte, Nat.cast_natAbs,
      abs_of_nonneg positive]

/-- The result of an operation whose exact value is in range. -/
structure Rounded (x : ℝ) (b : Binary precision least limit) : Prop where
  finite : b.isFinite = true
  nearest : Nearest x b

theorem Rounded.exact {x : ℝ} {b : Binary precision least limit} (rounded : Rounded x b)
    (has : Has precision least x) : b.value = x := rounded.nearest.exact has

section Operations

variable (digits : 0 < precision) (room : least + precision < limit)
include digits room

theorem round_int (m e : Int) (below : |m * (2 : ℝ) ^ e| < 2 ^ (limit - 1)) :
    Rounded (m * (2 : ℝ) ^ e) (round (decide (m < 0)) m.natAbs e : Binary precision least limit) := by
  have finite : (round (decide (m < 0)) m.natAbs e : Binary precision least limit).isFinite = true := by
    refine round_isFinite room _ ?_
    rw [abs_mul, abs_of_pos (by positivity : (0 : ℝ) < 2 ^ e)] at below
    rwa [Nat.cast_natAbs, Int.cast_abs]
  refine ⟨finite, ?_⟩
  rw [← scaled_int]
  exact round_nearest digits finite

variable {a b : Binary precision least limit} (first : a.isFinite = true) (second : b.isFinite = true)
include first second

theorem add_rounded (below : |a.value + b.value| < 2 ^ (limit - 1)) : Rounded (a.value + b.value) (a.add b) := by
  cases a with
  | finite m e =>
    cases b with
    | finite n f =>
      obtain ⟨one, other⟩ := align_value m e n f
      have sum : value (finite m e : Binary precision least limit) + value (finite n f : Binary precision least limit) =
          (((align m e n f).1 + (align m e n f).2.1 : Int) : ℝ) * 2 ^ min e f := by
        push_cast
        rw [add_mul, one, other]
        rfl
      rw [sum] at below ⊢
      exact round_int digits room _ _ below
    | nan | infinite _ => cases second
  | nan | infinite _ => cases first

theorem mul_rounded (below : |a.value * b.value| < 2 ^ (limit - 1)) : Rounded (a.value * b.value) (a.mul b) := by
  cases a with
  | finite m e =>
    cases b with
    | finite n f =>
      have product : value (finite m e : Binary precision least limit) * value (finite n f : Binary precision least limit) =
          ((m * n : Int) : ℝ) * 2 ^ (e + f) := by
        simp only [value]
        rw [zpow_add₀ two_ne_zero]
        push_cast
        ring
      rw [product] at below ⊢
      exact round_int digits room _ _ below
    | nan | infinite _ => cases second
  | nan | infinite _ => cases first

end Operations

theorem add_canonical {a b : Binary precision least limit} (first : a.isFinite = true) (second : b.isFinite = true)
    (finite : (a.add b).isFinite = true) : (a.add b).Canonical := by
  cases a with
  | finite m e =>
    cases b with
    | finite n f => exact round_canonical finite
    | nan | infinite _ => cases second
  | nan | infinite _ => cases first

theorem mul_canonical {a b : Binary precision least limit} (finite : (a.mul b).isFinite = true) :
    (a.mul b).Canonical := by
  cases a with
  | nan => cases b <;> cases finite
  | infinite s =>
    cases b with
    | nan | infinite _ => cases finite
    | finite n f =>
      unfold mul at finite
      dsimp only at finite
      split_ifs at finite <;> cases finite
  | finite m e =>
    cases b with
    | nan => cases finite
    | infinite t =>
      unfold mul at finite
      dsimp only at finite
      split_ifs at finite <;> cases finite
    | finite n f => exact round_canonical finite

/-- A product that is finite has finite factors. -/
theorem mul_nearest (digits : 0 < precision) {a b : Binary precision least limit} (finite : (a.mul b).isFinite = true) :
    a.isFinite = true ∧ b.isFinite = true ∧ Nearest (a.value * b.value) (a.mul b) := by
  cases a with
  | nan => cases b <;> cases finite
  | infinite s =>
    cases b with
    | nan | infinite _ => cases finite
    | finite n f =>
      unfold mul at finite
      dsimp only at finite
      split_ifs at finite <;> cases finite
  | finite m e =>
    cases b with
    | nan => cases finite
    | infinite t =>
      unfold mul at finite
      dsimp only at finite
      split_ifs at finite <;> cases finite
    | finite n f =>
      have product : value (Binary.finite m e : Binary precision least limit) *
          value (Binary.finite n f : Binary precision least limit) = ((m * n : Int) : ℝ) * 2 ^ (e + f) := by
        simp only [value]
        rw [zpow_add₀ two_ne_zero]
        push_cast
        ring
      refine ⟨rfl, rfl, ?_⟩
      rw [product, ← scaled_int]
      exact round_nearest digits finite

theorem negate_value (b : Binary precision least limit) : b.negate.value = -b.value := by
  cases b with
  | finite m e => simp [negate, value]
  | nan | infinite _ => simp [negate, value]

theorem negate_isFinite (b : Binary precision least limit) : b.negate.isFinite = b.isFinite := by
  cases b <;> rfl

theorem sub_rounded (digits : 0 < precision) (room : least + precision < limit)
    {a b : Binary precision least limit} (first : a.isFinite = true) (second : b.isFinite = true)
    (below : |a.value - b.value| < 2 ^ (limit - 1)) : Rounded (a.value - b.value) (a.sub b) := by
  have negated := negate_value b
  rw [sub_eq_add_neg, ← negated] at below ⊢
  exact add_rounded digits room first ((negate_isFinite b).trans second) below

theorem Canonical.has {b : Binary precision least limit} (digits : 0 < precision) (canonical : b.Canonical)
    (fine : least ≤ 0) : Has precision least b.value := by
  cases b with
  | nan | infinite _ => exact canonical.elim
  | finite m e =>
    by_cases isZero : m = 0
    · refine ⟨0, 0, by simp, fine, ?_⟩
      simp [value, isZero]
    · obtain ⟨size, inside, -⟩ := canonical isZero
      have size : |m| ≤ 2 ^ precision := by
        rw [Int.abs_eq_natAbs]
        exact_mod_cast size
      rcases lt_or_eq_of_le size with short | full
      · exact ⟨m, e, short, inside, rfl⟩
      · -- a significand rounded up to the next power of two
        obtain ⟨p, rfl⟩ := Nat.exists_eq_succ_of_ne_zero digits.ne'
        have twice : (2 : Int) ∣ m := by
          rw [← dvd_abs, full]
          exact dvd_pow_self 2 (Nat.succ_ne_zero p)
        obtain ⟨half, rfl⟩ := twice
        refine ⟨half, e + 1, ?_, by omega, ?_⟩
        · rw [abs_mul, abs_two] at full
          have positive : (0 : Int) < 2 ^ (p + 1) := by positivity
          omega
        · rw [value, zpow_add_one₀ two_ne_zero]
          push_cast
          ring

theorem round_mono (digits : 0 < precision) (fine : least ≤ 0) {n k : Nat} {exponent : Int} (order : n ≤ k)
    (first : (round false n exponent : Binary precision least limit).isFinite = true)
    (second : (round false k exponent : Binary precision least limit).isFinite = true) :
    (round false n exponent : Binary precision least limit).value ≤
      (round false k exponent : Binary precision least limit).value := by
  rcases order.lt_or_eq with less | rfl
  · have hasFirst := (round_canonical first).has digits fine
    have hasSecond := (round_canonical second).has digits fine
    refine (round_nearest digits first).mono (round_nearest digits second) hasFirst hasSecond ?_
    have unit : (0 : ℝ) < 2 ^ exponent := by positivity
    have numbers : (n : ℝ) < k := Nat.cast_lt.mpr less
    exact mul_lt_mul_of_pos_right numbers unit
  · exact le_rfl

/-! ### The integer part -/

theorem truncate_floor {b : Binary precision least limit} (finite : b.isFinite = true) (nonneg : 0 ≤ b.value) :
    (b.truncate : Int) = ⌊b.value⌋ := by
  cases b with
  | nan | infinite _ => cases finite
  | finite m e =>
    have positive : (0 : ℝ) < 2 ^ e := by positivity
    have sign : 0 ≤ m := by
      rw [value] at nonneg
      exact_mod_cast nonneg_of_mul_nonneg_left nonneg positive
    obtain ⟨n, rfl⟩ := Int.eq_ofNat_of_zero_le sign
    simp only [truncate, value, Int.toNat_natCast, Int.cast_natCast]
    split_ifs with small
    · have exponent : (2 : ℝ) ^ e = ((2 ^ (-e).toNat : Nat) : ℝ)⁻¹ := by
        have same : (((-e).toNat : Nat) : Int) = -e := Int.toNat_of_nonneg (by omega)
        push_cast
        rw [← zpow_natCast, same, zpow_neg, inv_inv]
      rw [exponent, ← div_eq_mul_inv, Int.floor_div_natCast, Int.floor_natCast]
      rfl
    · have exponent : (2 : ℝ) ^ e = ((2 ^ e.toNat : Nat) : ℝ) := by
        have same : ((e.toNat : Nat) : Int) = e := Int.toNat_of_nonneg (by omega)
        push_cast
        rw [← zpow_natCast, same]
      rw [exponent, ← Nat.cast_mul, Int.floor_natCast]

/-! ### Halfway between two values -/

theorem roundShift_halfway (q shift : Nat) : roundShift ((2 * q + 1) * 2 ^ shift) (shift + 1) = q + q % 2 := by
  have power : 2 ^ (shift + 1) = 2 * 2 ^ shift := Nat.pow_succ'
  have number : (2 * q + 1) * 2 ^ shift = 2 ^ shift + 2 ^ (shift + 1) * q := by
    rw [power]
    ring
  have positive := Nat.two_pow_pos shift
  have low : 2 ^ shift < 2 ^ (shift + 1) := by omega
  unfold roundShift
  dsimp only
  rw [number, Nat.add_mul_div_left _ _ (Nat.two_pow_pos _), Nat.add_mul_mod_self_left, Nat.div_eq_of_lt low,
    Nat.mod_eq_of_lt low, Nat.zero_add, ← power, if_neg (lt_irrefl _)]
  split_ifs with odd
  · omega
  · have even : q % 2 ≠ 1 := fun found => odd ⟨rfl, Nat.succ_ne_zero shift, found⟩
    omega

theorem significand_halfway {n q : Nat} {exponent unit : Int} (first : 2 ^ (precision - 1) ≤ q)
    (last : q < 2 ^ precision) (digits : 0 < precision) (inside : least ≤ unit)
    (halfway : (n : ℝ) * 2 ^ exponent = (q + 1 / 2) * 2 ^ unit) :
    unitOf precision least n exponent = unit ∧ significandOf n exponent unit = q + q % 2 := by
  have below : exponent < unit := by
    by_contra above
    have power := zpow_above (not_lt.mp above)
    have positive : (0 : ℝ) < 2 ^ unit := by positivity
    rw [power, ← mul_assoc] at halfway
    have whole := mul_right_cancel₀ positive.ne' halfway
    have twice : 2 * (n * 2 ^ (exponent - unit).toNat) = 2 * q + 1 := by
      have real : 2 * ((n : ℝ) * 2 ^ (exponent - unit).toNat) = 2 * q + 1 := by linarith
      exact_mod_cast real
    omega
  obtain ⟨shift, distance⟩ : ∃ shift : Nat, unit - exponent = shift + 1 :=
    ⟨(unit - exponent - 1).toNat, by omega⟩
  have unitEq : unit = exponent + (shift + 1 : Nat) := by
    push_cast
    omega
  have number : n = (2 * q + 1) * 2 ^ shift := by
    have positive : (0 : ℝ) < 2 ^ exponent := by positivity
    rw [unitEq, zpow_add₀ two_ne_zero, zpow_natCast, pow_succ] at halfway
    have scaled : (n : ℝ) * 2 ^ exponent = (2 * q + 1) * 2 ^ shift * 2 ^ exponent := by
      rw [halfway]
      ring
    exact_mod_cast mul_right_cancel₀ positive.ne' scaled
  have top : Nat.log2 n = precision + shift := by
    obtain ⟨p, rfl⟩ := Nat.exists_eq_succ_of_ne_zero digits.ne'
    have power : 2 ^ (p + 1) = 2 * 2 ^ p := Nat.pow_succ'
    simp only [Nat.succ_eq_add_one, Nat.add_sub_cancel] at first last
    refine (Nat.log2_eq_iff (by rw [number]; positivity)).mpr ⟨?_, ?_⟩
    · rw [number, Nat.succ_eq_add_one, pow_add]
      exact Nat.mul_le_mul_right _ (by omega)
    · rw [number, Nat.succ_eq_add_one, Nat.add_right_comm, pow_add]
      exact Nat.mul_lt_mul_of_pos_right (by rw [pow_succ]; omega) (Nat.two_pow_pos _)
  constructor
  · unfold unitOf
    omega
  · have gap : (unit - exponent).toNat = shift + 1 := by omega
    unfold significandOf
    rw [if_neg (by omega), gap, number]
    exact roundShift_halfway q shift

theorem add_halfway (digits : 0 < precision) {a b : Binary precision least limit} {q : Nat} {unit : Int}
    (finite : (a.add b).isFinite = true) (first : 2 ^ (precision - 1) ≤ q) (last : q < 2 ^ precision)
    (inside : least ≤ unit) (halfway : a.value + b.value = (q + 1 / 2) * 2 ^ unit) (one : a.isFinite = true)
    (other : b.isFinite = true) : (a.add b).value = (q + q % 2 : Nat) * 2 ^ unit := by
  cases a with
  | nan | infinite _ => cases one
  | finite m e =>
    cases b with
    | nan | infinite _ => cases other
    | finite n f =>
      obtain ⟨left, right⟩ := align_value m e n f
      have sum : (((align m e n f).1 + (align m e n f).2.1 : Int) : ℝ) * 2 ^ min e f = (q + 1 / 2) * 2 ^ unit := by
        rw [← halfway]
        push_cast
        rw [add_mul, left, right]
        rfl
      have shape : (Binary.finite m e : Binary precision least limit).add (.finite n f) =
          round (decide ((align m e n f).1 + (align m e n f).2.1 < 0))
            ((align m e n f).1 + (align m e n f).2.1).natAbs (min e f) := rfl
      rw [shape] at finite ⊢
      generalize (align m e n f).1 + (align m e n f).2.1 = s at sum finite ⊢
      have positive : 0 < s := by
        have right : (0 : ℝ) < (q + 1 / 2) * 2 ^ unit := by positivity
        rw [← sum] at right
        exact_mod_cast pos_of_mul_pos_left right (by positivity)
      obtain ⟨k, rfl⟩ := Int.eq_ofNat_of_zero_le positive.le
      have nonzero : k ≠ 0 := by omega
      obtain ⟨unitEq, significand⟩ := significand_halfway first last digits inside (n := k) (by simpa using sum)
      have sign : decide ((k : Int) < 0) = false := decide_eq_false (by omega)
      rw [sign, Int.natAbs_natCast] at finite ⊢
      rw [round_value nonzero finite, unitEq, significand]
      rfl

theorem negate_negate (b : Binary precision least limit) : b.negate.negate = b := by
  cases b <;> simp [negate]

theorem round_negate {n : Nat} (negative : Bool) (exponent : Int) :
    (round negative n exponent : Binary precision least limit).negate = round (!negative) n exponent := by
  by_cases isZero : n = 0
  · rw [isZero, round_zero, round_zero]
    rfl
  · rw [round_eq isZero, round_eq isZero]
    dsimp only
    split_ifs <;> simp_all [negate, zero]

theorem add_negate (a b : Binary precision least limit) : (a.add b).negate = a.negate.add b.negate := by
  cases a with
  | nan => rfl
  | infinite s =>
    cases b with
    | nan | finite _ _ => rfl
    | infinite t => cases s <;> cases t <;> rfl
  | finite m e =>
    cases b with
    | nan | infinite _ => rfl
    | finite n f =>
      have sum : (align (-m) e (-n) f).1 + (align (-m) e (-n) f).2.1 =
          -((align m e n f).1 + (align m e n f).2.1) := by
        simp only [align]
        ring
      show (round _ _ (min e f)).negate = round _ _ (min e f)
      rw [round_negate]
      show round (!decide ((align m e n f).1 + (align m e n f).2.1 < 0))
          ((align m e n f).1 + (align m e n f).2.1).natAbs (min e f) =
        round (decide ((align (-m) e (-n) f).1 + (align (-m) e (-n) f).2.1 < 0))
          ((align (-m) e (-n) f).1 + (align (-m) e (-n) f).2.1).natAbs (min e f)
      rw [sum, Int.natAbs_neg]
      generalize (align m e n f).1 + (align m e n f).2.1 = s
      by_cases isZero : s = 0
      · rw [isZero]
        rfl
      · congr 1
        by_cases negative : s < 0
        · simp [negative, negative.le]
        · have positive : 0 < s := by omega
          simp [negative, positive]

end Binary
