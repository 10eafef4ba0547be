import Mathlib.Algebra.Order.Round
import Mathlib.Algebra.Order.Archimedean.Real.Basic
import Unimoc.Lib.BinaryRound

/-! The values of the register service and the number or the text a register takes from one. -/
namespace Binary64

def ofBits (bits : Nat) : Binary64 :=
  let exponent : Nat := bits / 2 ^ 52 % 2048
  let fraction : Nat := bits % 2 ^ 52
  let negative : Bool := bits / 2 ^ 63 % 2 = 1
  if exponent = 2047 then if fraction = 0 then .infinite negative else .nan
  else if exponent = 0 then Binary.round negative fraction (-1074)
  else Binary.round negative (2 ^ 52 + fraction) ((exponent : Int) - 1075)

end Binary64

namespace Binary

variable {precision : Nat} {least limit : Int}

def isWhole : Binary precision least limit → Bool
  | .finite m e => 0 ≤ e || m % 2 ^ (-e).toNat = 0
  | _ => false

def toInt : Binary precision least limit → Int
  | .finite m e => if 0 ≤ e then m * 2 ^ e.toNat else m / 2 ^ (-e).toNat
  | _ => 0

def abs : Binary precision least limit → Binary precision least limit
  | .finite m e => .finite |m| e
  | .infinite _ => .infinite false
  | .nan => .nan

end Binary

namespace Unimoc.Cyphal

/-- The elements up to the count; reals by their bit patterns, those of 16 bits held as floats. -/
inductive RegisterValue
  | empty
  | string (elements : List UInt8)
  | unstructured (elements : List UInt8)
  | bit (elements : List Bool)
  | integer64 (elements : List Int64)
  | integer32 (elements : List Int32)
  | integer16 (elements : List Int16)
  | integer8 (elements : List Int8)
  | natural64 (elements : List UInt64)
  | natural32 (elements : List UInt32)
  | natural16 (elements : List UInt16)
  | natural8 (elements : List UInt8)
  | real64 (elements : List UInt64)
  | real32 (elements : List UInt32)
  | real16 (elements : List UInt32)
deriving DecidableEq

def floatOfInt (n : Int) : UInt32 := UInt32.ofNat (Binary32.toBits (Binary.round (n < 0) n.natAbs 0))

/-- A double as a float; what rounds to zero keeps its sign. -/
def floatOfDouble (bits : UInt64) : UInt32 :=
  let x : Binary32 := Binary.convert (Binary64.ofBits bits.toNat)
  if x = Binary.zero then (bits >>> 63).toUInt32 <<< 31 else UInt32.ofNat (Binary32.toBits x)

namespace RegisterValue

def getNumber : RegisterValue → Option UInt32
  | .bit elements => elements.head?.map fun bit => if bit then floatOfInt 1 else floatOfInt 0
  | .integer64 elements => elements.head?.map fun n => floatOfInt n.toInt
  | .integer32 elements => elements.head?.map fun n => floatOfInt n.toInt
  | .integer16 elements => elements.head?.map fun n => floatOfInt n.toInt
  | .integer8 elements => elements.head?.map fun n => floatOfInt n.toInt
  | .natural64 elements => elements.head?.map fun n => floatOfInt n.toNat
  | .natural32 elements => elements.head?.map fun n => floatOfInt n.toNat
  | .natural16 elements => elements.head?.map fun n => floatOfInt n.toNat
  | .natural8 elements => elements.head?.map fun n => floatOfInt n.toNat
  | .real64 elements => elements.head?.map floatOfDouble
  | .real32 elements => elements.head?
  | .real16 elements => elements.head?
  | .empty | .string _ | .unstructured _ => none

/-- 64 bits are read exactly, everything else fits into a float. -/
def getInteger (value : RegisterValue) : Option Int :=
  match value with
  | .integer64 elements => elements.head?.map fun n => n.toInt
  | .natural64 elements =>
    elements.head?.bind fun n => if 9223372036854775807 < n then none else some (n.toNat : Int)
  | .natural32 elements => elements.head?.map fun n => (n.toNat : Int)
  | .integer32 elements => elements.head?.map fun n => n.toInt
  | _ =>
    value.getNumber.bind fun bits =>
      let x := Binary32.ofBits bits.toNat
      if !x.isFinite || !x.isWhole || Binary.lt (Binary.ofDecimal 9 false 15) x.abs then none else some x.toInt

def getString : RegisterValue → Option (List UInt8)
  | .string elements => some elements
  | _ => none

/-! ### The number that was written -/

/-- The first element, exactly. -/
noncomputable def number : RegisterValue → Option ℝ
  | .bit elements => elements.head?.map fun bit => if bit then 1 else 0
  | .integer64 elements => elements.head?.map fun n => (n.toInt : ℝ)
  | .integer32 elements => elements.head?.map fun n => (n.toInt : ℝ)
  | .integer16 elements => elements.head?.map fun n => (n.toInt : ℝ)
  | .integer8 elements => elements.head?.map fun n => (n.toInt : ℝ)
  | .natural64 elements => elements.head?.map fun n => (n.toNat : ℝ)
  | .natural32 elements => elements.head?.map fun n => (n.toNat : ℝ)
  | .natural16 elements => elements.head?.map fun n => (n.toNat : ℝ)
  | .natural8 elements => elements.head?.map fun n => (n.toNat : ℝ)
  | .real64 elements => elements.head?.map fun bits => (Binary64.ofBits bits.toNat).value
  | .real32 elements | .real16 elements => elements.head?.map fun bits => (Binary32.ofBits bits.toNat).value
  | .empty | .string _ | .unstructured _ => none

/-- The bits of a finite float that is nearest to the number. -/
def Float (x : ℝ) (bits : UInt32) : Prop :=
  (Binary32.ofBits bits.toNat).isFinite = true ∧ Binary.Nearest x (Binary32.ofBits bits.toNat)

theorem float_self {bits : UInt32} (finite : (Binary32.ofBits bits.toNat).isFinite = true) :
    Float (Binary32.ofBits bits.toNat).value bits := by
  refine ⟨finite, ?_⟩
  intro m e _ _
  rw [sub_self, abs_zero]
  exact abs_nonneg _

theorem float_round {negative : Bool} {n : Nat} {exponent : Int}
    (finite : (Binary32.ofBits (UInt32.ofNat (Binary32.toBits (Binary.round negative n exponent))).toNat).isFinite =
      true) :
    Float (Binary.scaled negative n exponent)
      (UInt32.ofNat (Binary32.toBits (Binary.round negative n exponent))) := by
  cases rounded : (Binary.round negative n exponent : Binary32).isFinite with
  | true =>
    have nearest := Binary.round_nearest (by decide) rounded
    obtain ⟨⟨held, same⟩, inside⟩ := Binary32.stands_toBits (Binary.round_canonical rounded)
    have bits : (UInt32.ofNat (Binary32.toBits (Binary.round negative n exponent))).toNat =
        Binary32.toBits (Binary.round negative n exponent) := Nat.mod_eq_of_lt inside
    unfold Float
    rw [bits]
    refine ⟨held, ?_⟩
    intro m e small above
    rw [same]
    exact nearest m e small above
  | false =>
    exfalso
    generalize (Binary.round negative n exponent : Binary32) = b at finite rounded
    cases b with
    | nan => revert finite; decide
    | infinite s => revert finite; cases s <;> decide
    | finite m e => cases rounded

theorem float_int {n : Int} (finite : (Binary32.ofBits (floatOfInt n).toNat).isFinite = true) :
    Float n (floatOfInt n) := by
  have rounded := float_round finite
  have same : Binary.scaled (decide (n < 0)) n.natAbs 0 = n := by
    rw [← Binary32.value_scaled]
    simp [Binary.value]
  rw [same] at rounded
  exact rounded

theorem signed_zero (sign : UInt64) :
    Binary32.Stands ((sign >>> 63).toUInt32 <<< 31).toNat 0 := by
  have one : (sign >>> 63).toNat = 0 ∨ (sign >>> 63).toNat = 1 := by
    have bound := sign.toNat_lt
    simp only [UInt64.toNat_shiftRight, Nat.shiftRight_eq_div_pow]
    change sign.toNat / 2 ^ 63 = 0 ∨ sign.toNat / 2 ^ 63 = 1
    omega
  have stands (negative : Bool) : Binary32.Stands (Binary32.signBit negative + 0) 0 := by
    have zero := Binary32.stands_subnormal negative (show 0 < 2 ^ 23 by decide)
    cases negative with
    | false => simpa [Binary.scaled] using zero
    | true => simpa [Binary.scaled] using zero
  rcases one with positive | negative
  · have bits : sign >>> 63 = 0 := UInt64.toNat_inj.mp positive
    rw [bits]
    exact stands false
  · have bits : sign >>> 63 = 1 := UInt64.toNat_inj.mp negative
    rw [bits]
    exact stands true

theorem float_double {bits : UInt64} (finite : (Binary32.ofBits (floatOfDouble bits).toNat).isFinite = true) :
    Float (Binary64.ofBits bits.toNat).value (floatOfDouble bits) := by
  unfold floatOfDouble at finite ⊢
  dsimp only at finite ⊢
  generalize Binary64.ofBits bits.toNat = double at *
  cases double with
  | nan =>
    exfalso
    rw [if_neg (by decide)] at finite
    revert finite
    decide
  | infinite s =>
    exfalso
    rw [if_neg (by cases s <;> decide)] at finite
    revert finite
    cases s <;> decide
  | finite m e =>
    have rounded : (.finite m e : Binary64).value = Binary.scaled (decide (m < 0)) m.natAbs e := by
      rw [← Binary32.value_scaled]
      rfl
    rw [rounded]
    change (Binary32.ofBits (if Binary.round (decide (m < 0)) m.natAbs e = Binary.zero then _ else
      UInt32.ofNat (Binary32.toBits (Binary.round (decide (m < 0)) m.natAbs e))).toNat).isFinite = true at finite
    change Float _ (if Binary.round (decide (m < 0)) m.natAbs e = Binary.zero then _ else
      UInt32.ofNat (Binary32.toBits (Binary.round (decide (m < 0)) m.natAbs e)))
    by_cases tiny : (Binary.round (decide (m < 0)) m.natAbs e : Binary32) = Binary.zero
    · have near := @Binary.round_nearest 24 (-149) 128 (by decide) (decide (m < 0)) m.natAbs e (by rw [tiny]; rfl)
      obtain ⟨held, same⟩ := signed_zero bits
      rw [if_pos tiny]
      rw [tiny] at near
      refine ⟨held, ?_⟩
      intro n f small above
      rw [same]
      have closest := near n f small above
      simpa [Binary.zero, Binary.value] using closest
    · rw [if_neg tiny] at finite ⊢
      exact float_round finite

theorem getNumber_float {value : RegisterValue} {bits : UInt32} (taken : value.getNumber = some bits)
    (finite : (Binary32.ofBits bits.toNat).isFinite = true) : ∃ x, value.number = some x ∧ Float x bits := by
  cases value with
  | empty | string | unstructured => cases taken
  | bit elements =>
    obtain ⟨first, head, rfl⟩ := Option.map_eq_some_iff.mp taken
    refine ⟨_, congrArg (Option.map _) head, ?_⟩
    cases first with
    | false => simpa using float_int finite
    | true => simpa using float_int finite
  | integer64 elements | integer32 elements | integer16 elements | integer8 elements =>
    obtain ⟨first, head, rfl⟩ := Option.map_eq_some_iff.mp taken
    exact ⟨_, congrArg (Option.map _) head, float_int finite⟩
  | natural64 elements | natural32 elements | natural16 elements | natural8 elements =>
    obtain ⟨first, head, rfl⟩ := Option.map_eq_some_iff.mp taken
    refine ⟨_, congrArg (Option.map _) head, ?_⟩
    exact_mod_cast float_int finite
  | real64 elements =>
    obtain ⟨first, head, rfl⟩ := Option.map_eq_some_iff.mp taken
    exact ⟨_, congrArg (Option.map _) head, float_double finite⟩
  | real32 elements | real16 elements =>
    exact ⟨_, congrArg (Option.map _) taken, float_self finite⟩

/-! ### Whole numbers -/

theorem toInt_value {x : Binary32} (whole : x.isWhole = true) : (x.toInt : ℝ) = x.value := by
  cases x with
  | nan | infinite _ => cases whole
  | finite m e =>
    simp only [Binary.isWhole, Bool.or_eq_true, decide_eq_true_eq] at whole
    unfold Binary.toInt Binary.value
    dsimp only
    by_cases above : 0 ≤ e
    · rw [if_pos above]
      have power := Binary.zpow_above above
      rw [sub_zero, zpow_zero, mul_one] at power
      rw [power]
      push_cast
      rfl
    · rw [if_neg above]
      have divides := Int.dvd_of_emod_eq_zero (whole.resolve_left above)
      have power : (2 : ℝ) ^ e = ((2 : ℝ) ^ (-e).toNat)⁻¹ := by
        rw [← zpow_natCast, Int.toNat_of_nonneg (by omega), zpow_neg, inv_inv]
      rw [Int.cast_div divides (by positivity), power]
      push_cast
      rfl

/-- A whole float within the registers is the closest integer. -/
theorem float_nearest_int {x : ℝ} {bits : UInt32} (taken : Float x bits) {n : Int}
    (same : (Binary32.ofBits bits.toNat).value = n) (positive : 0 ≤ n) (small : n ≤ 65535) : round x = n := by
  obtain ⟨-, near⟩ := taken
  rw [Binary.Nearest, same] at near
  have half : (2 : ℝ) ^ (-1 : Int) = 1 / 2 := by norm_num
  have above := near (2 * n + 1) (-1) (by rw [abs_lt]; constructor <;> omega) (by decide)
  have below := near (2 * n - 1) (-1) (by rw [abs_lt]; constructor <;> omega) (by decide)
  rw [half] at above below
  push_cast at above below
  rw [round_eq, Int.floor_eq_iff]
  constructor
  · by_contra low
    have negative : x - n < 0 := by linarith
    rw [abs_of_neg negative] at below
    have closer : |x - (2 * n - 1) * (1 / 2)| < -(x - n) := by
      rw [abs_lt]
      constructor <;> linarith
    linarith
  · by_contra high
    have far : 0 ≤ x - n := by linarith
    rw [abs_of_nonneg far] at above
    have closer : |x - (2 * n + 1) * (1 / 2)| < x - n := by
      rw [abs_lt]
      constructor <;> linarith
    linarith

theorem getInteger_round {value : RegisterValue} {n : Int} (taken : value.getInteger = some n)
    (positive : 0 ≤ n) (small : n ≤ 65535) : ∃ x, value.number = some x ∧ round x = n := by
  have float (other : value.getInteger = value.getNumber.bind fun bits =>
      let x := Binary32.ofBits bits.toNat
      if !x.isFinite || !x.isWhole || Binary.lt (Binary.ofDecimal 9 false 15) x.abs then none else some x.toInt) :
      ∃ x, value.number = some x ∧ round x = n := by
    rw [other] at taken
    obtain ⟨bits, number, integer⟩ := Option.bind_eq_some_iff.mp taken
    dsimp only at integer
    split at integer
    · cases integer
    · rename_i accepted
      simp only [Bool.or_eq_true, Bool.not_eq_true', not_or, Bool.not_eq_false] at accepted
      obtain ⟨⟨finite, whole⟩, -⟩ := accepted
      obtain ⟨x, written, near⟩ := getNumber_float number finite
      refine ⟨x, written, float_nearest_int near ?_ positive small⟩
      rw [← Option.some.inj integer, toInt_value whole]
  cases value with
  | integer64 elements | integer32 elements =>
    obtain ⟨first, head, rfl⟩ := Option.map_eq_some_iff.mp taken
    exact ⟨_, congrArg (Option.map _) head, round_intCast _⟩
  | natural32 elements =>
    obtain ⟨first, head, rfl⟩ := Option.map_eq_some_iff.mp taken
    exact ⟨_, congrArg (Option.map _) head, round_natCast _⟩
  | natural64 elements =>
    obtain ⟨first, head, integer⟩ := Option.bind_eq_some_iff.mp taken
    split at integer
    · cases integer
    · cases integer
      exact ⟨_, congrArg (Option.map _) head, round_natCast _⟩
  | _ => exact float rfl

end RegisterValue

end Unimoc.Cyphal
