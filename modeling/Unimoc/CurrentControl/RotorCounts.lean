import Unimoc.CurrentControl.CountRounding

/-! The position of the rotor in counts: what an advance adds to it, and when that is its offset
rounded to the nearest count. -/
namespace Unimoc.CurrentControl

namespace RotorAngle

/-! ### The phase and its revolutions -/

/-- The exact position in counts. -/
def position (angle : RotorAngle) : Int := angle.revolutions.toInt * countsPerRevolution + angle.raw.toInt

/-- The revolution nearest to a position is one of the counter. -/
def Counted (position : Int) : Prop :=
  -countsPerHalfRevolution ≤ (position + countsPerHalfRevolution) / countsPerRevolution ∧
    (position + countsPerHalfRevolution) / countsPerRevolution < countsPerHalfRevolution

/-- A position that 64 bits hold. -/
def Held (position : Int) : Prop := -2 ^ 63 ≤ position ∧ position < 2 ^ 63

theorem counted_iff {position : Int} : Counted position ↔
    -2 ^ 63 ≤ position + 2 ^ 31 ∧ position + 2 ^ 31 < 2 ^ 63 := by
  unfold Counted countsPerHalfRevolution countsPerRevolution
  omega

theorem position_counted (angle : RotorAngle) : Counted angle.position := by
  have revolutions := angle.revolutions.toInt_lt
  have revolutions' := angle.revolutions.le_toInt
  have raw := angle.raw.toInt_lt
  have raw' := angle.raw.le_toInt
  rw [counted_iff]
  unfold position countsPerRevolution
  omega

theorem counted_unique {first second : Int} (one : Counted first) (other : Counted second) {runs : Int}
    (apart : first = second + runs * 2 ^ 64) : first = second := by
  rw [counted_iff] at one other
  omega

theorem toInt_ofInt {n : Int} (least : -2 ^ 31 ≤ n) (most : n < 2 ^ 31) : (Int32.ofInt n).toInt = n :=
  Int32.toInt_ofInt_of_le least most

theorem toInt_absoluteRaw (angle : RotorAngle) : angle.absoluteRaw.toInt = angle.position.bmod (2 ^ 64) := by
  have revolution : (Int64.ofInt countsPerRevolution).toInt = countsPerRevolution := by decide
  unfold absoluteRaw position
  rw [Int64.toInt_add, Int64.toInt_mul, Int32.toInt_toInt64, Int32.toInt_toInt64, revolution, Int.bmod_add_bmod]

/-- The position is exact as long as it can be held. -/
theorem absoluteRaw_exact_iff (angle : RotorAngle) :
    angle.absoluteRaw.toInt = angle.position ↔ Held angle.position := by
  rw [toInt_absoluteRaw]
  constructor
  · intro same
    have least := @Int.le_bmod angle.position (2 ^ 64) (by decide)
    have most := @Int.bmod_lt angle.position (2 ^ 64) (by decide)
    unfold Held
    omega
  · rintro ⟨least, most⟩
    exact Int.bmod_eq_of_le least most

theorem position_injective {first second : RotorAngle} (same : first.position = second.position) : first = second := by
  have phase := first.raw.toInt_lt
  have phase' := first.raw.le_toInt
  have other := second.raw.toInt_lt
  have other' := second.raw.le_toInt
  unfold position countsPerRevolution at same
  have raw : first.raw = second.raw := Int32.toInt_inj.mp (by omega)
  have revolutions : first.revolutions = second.revolutions := Int32.toInt_inj.mp (by omega)
  cases first
  cases second
  cases raw
  cases revolutions
  rfl

theorem toInt_narrowed {n : Int64} (least : -2 ^ 31 ≤ n.toInt) (most : n.toInt < 2 ^ 31) :
    n.toInt32.toInt = n.toInt := by
  rw [Int64.toInt_toInt32]
  exact Int.bmod_eq_of_le least most

/-- The division of the source rounds down. -/
theorem revolutions_floor (shifted : Int64) :
    (if shifted % .ofInt countsPerRevolution < 0 then shifted / .ofInt countsPerRevolution - 1
      else shifted / .ofInt countsPerRevolution).toInt = shifted.toInt / 2 ^ 32 := by
  have whole : (Int64.ofInt countsPerRevolution).toInt = 2 ^ 32 := by decide
  have quotient : (shifted / .ofInt countsPerRevolution).toInt = shifted.toInt.tdiv (2 ^ 32) := by
    rw [Int64.toInt_div_of_ne_right _ _ (by decide), whole]
  have rest : (shifted % .ofInt countsPerRevolution).toInt = shifted.toInt.tmod (2 ^ 32) := by
    rw [Int64.toInt_mod, whole]
  have divided := shifted.toInt.tmod_add_tdiv_mul (2 ^ 32)
  have least := Int.lt_tmod_of_pos shifted.toInt (show (0 : Int) < 2 ^ 32 by decide)
  have most := Int.tmod_lt_of_pos shifted.toInt (show (0 : Int) < 2 ^ 32 by decide)
  have inside := shifted.le_toInt
  have inside' := shifted.toInt_lt
  have one : (1 : Int64).toInt = 1 := by decide
  simp only [Int64.lt_iff_toInt_lt, rest, Int64.toInt_zero]
  split_ifs with negative
  · rw [Int64.toInt_sub, quotient, one, Int.bmod_eq_of_le (by omega) (by omega)]
    omega
  · rw [quotient]
    omega

/-- The phase and its revolution make up the position; the shift must not overflow. -/
theorem position_fromAbsoluteRaw {absoluteRaw : Int64} (shifts : absoluteRaw.toInt + 2 ^ 31 < 2 ^ 63) :
    (fromAbsoluteRaw absoluteRaw).position = absoluteRaw.toInt := by
  have least := absoluteRaw.le_toInt
  have half : (Int64.ofInt countsPerHalfRevolution).toInt = 2 ^ 31 := by decide
  have whole : (Int64.ofInt countsPerRevolution).toInt = 2 ^ 32 := by decide
  have shifted : (absoluteRaw + .ofInt countsPerHalfRevolution).toInt = absoluteRaw.toInt + 2 ^ 31 := by
    rw [Int64.toInt_add, half]
    exact Int.bmod_eq_of_le (by omega) (by omega)
  have floors := revolutions_floor (absoluteRaw + .ofInt countsPerHalfRevolution)
  rw [shifted] at floors
  unfold fromAbsoluteRaw
  dsimp only
  generalize (if (absoluteRaw + .ofInt countsPerHalfRevolution) % .ofInt countsPerRevolution < 0 then
    (absoluteRaw + .ofInt countsPerHalfRevolution) / .ofInt countsPerRevolution - 1
    else (absoluteRaw + .ofInt countsPerHalfRevolution) / .ofInt countsPerRevolution) = revolutions at floors ⊢
  have product : (revolutions * .ofInt countsPerRevolution).toInt = revolutions.toInt * 2 ^ 32 := by
    rw [Int64.toInt_mul, whole]
    exact Int.bmod_eq_of_le (by omega) (by omega)
  have phase : (absoluteRaw - revolutions * .ofInt countsPerRevolution).toInt =
      absoluteRaw.toInt - revolutions.toInt * 2 ^ 32 := by
    rw [Int64.toInt_sub, product]
    exact Int.bmod_eq_of_le (by omega) (by omega)
  unfold position
  rw [toInt_narrowed (by omega) (by omega), toInt_narrowed (by omega) (by omega), phase]
  unfold countsPerRevolution
  omega

theorem absoluteRaw_fromAbsoluteRaw {absoluteRaw : Int64} (shifts : absoluteRaw.toInt + 2 ^ 31 < 2 ^ 63) :
    (fromAbsoluteRaw absoluteRaw).absoluteRaw = absoluteRaw := by
  have same := position_fromAbsoluteRaw shifts
  have held : Held (fromAbsoluteRaw absoluteRaw).position := by
    rw [same]
    exact ⟨absoluteRaw.le_toInt, absoluteRaw.toInt_lt⟩
  exact Int64.toInt_inj.mp (((absoluteRaw_exact_iff _).mpr held).trans same)

theorem fromAbsoluteRaw_absoluteRaw {angle : RotorAngle} (held : Held angle.position) :
    fromAbsoluteRaw angle.absoluteRaw = angle := by
  have same := (absoluteRaw_exact_iff angle).mpr held
  have counted := counted_iff.mp angle.position_counted
  apply position_injective
  rw [position_fromAbsoluteRaw (by rw [same]; exact counted.2), same]

theorem negative_iff (x : Int32) : x < 0 ↔ x.toBitVec.msb = true := BitVec.slt_zero_iff_msb_cond

/-- The trick of the source: the sum has the sign of neither. -/
theorem overflows_iff (phase delta next : Int32) : ((phase ^^^ next) &&& (delta ^^^ next)) < 0 ↔
    (phase < 0 ↔ ¬next < 0) ∧ (delta < 0 ↔ ¬next < 0) := by
  simp only [negative_iff, Int32.toBitVec_and, Int32.toBitVec_xor, BitVec.msb_and, BitVec.msb_xor]
  cases phase.toBitVec.msb <;> cases delta.toBitVec.msb <;> cases next.toBitVec.msb <;> decide

theorem toInt_add_runs (first second : Int32) :
    ∃ runs : Int, (first + second).toInt = first.toInt + second.toInt + runs * 2 ^ 32 := by
  have divided := Int.bdiv_add_bmod (first.toInt + second.toInt) (2 ^ 32)
  refine ⟨-Int.bdiv (first.toInt + second.toInt) (2 ^ 32), ?_⟩
  rw [Int32.toInt_add]
  push_cast at divided ⊢
  omega

theorem addRaw_position (delta : Int32) (angle : RotorAngle) :
    ∃ runs : Int, (angle.addRaw delta).position = angle.position + delta.toInt + runs * 2 ^ 64 := by
  obtain ⟨seams, phase⟩ := toInt_add_runs angle.raw delta
  have raw := angle.raw.toInt_lt
  have raw' := angle.raw.le_toInt
  have step := delta.toInt_lt
  have step' := delta.le_toInt
  have next := (angle.raw + delta).toInt_lt
  have next' := (angle.raw + delta).le_toInt
  unfold addRaw position countsPerRevolution
  dsimp only
  split_ifs with crossed forward
  · obtain ⟨runs, counted⟩ := toInt_add_runs angle.revolutions 1
    refine ⟨runs, ?_⟩
    have one : (1 : Int32).toInt = 1 := by decide
    rw [overflows_iff] at crossed
    simp only [Int32.lt_iff_toInt_lt, Int32.le_iff_toInt_le, Int32.toInt_zero] at crossed forward
    omega
  · obtain ⟨runs, counted⟩ := toInt_add_runs angle.revolutions (-1)
    refine ⟨runs, ?_⟩
    have one : (-1 : Int32).toInt = -1 := by decide
    rw [overflows_iff] at crossed
    simp only [Int32.lt_iff_toInt_lt, Int32.le_iff_toInt_le, Int32.toInt_zero] at crossed forward
    omega
  · refine ⟨0, ?_⟩
    rw [overflows_iff] at crossed
    simp only [Int32.lt_iff_toInt_lt, Int32.toInt_zero] at crossed
    omega

theorem toInt_ofInt_runs (n : Int) : ∃ runs : Int, (Int32.ofInt n).toInt = n + runs * 2 ^ 32 := by
  have divided := Int.bdiv_add_bmod n 4294967296
  refine ⟨-Int.bdiv n 4294967296, ?_⟩
  have wrapped : (Int32.ofInt n).toInt = n.bmod 4294967296 := Int32.toInt_ofInt
  push_cast at divided
  omega

theorem turned_position (carry counts : Int) (least : -2 ^ 31 ≤ counts) (most : counts < 2 ^ 31)
    (angle : RotorAngle) :
    ∃ runs : Int, ({ angle with revolutions := angle.revolutions + Int32.ofInt carry }.addRaw
      (Int32.ofInt counts)).position = angle.position + (2 ^ 32 * carry + counts) + runs * 2 ^ 64 := by
  obtain ⟨runs, added⟩ := addRaw_position (Int32.ofInt counts)
    { angle with revolutions := angle.revolutions + Int32.ofInt carry }
  obtain ⟨more, summed⟩ := toInt_add_runs angle.revolutions (Int32.ofInt carry)
  obtain ⟨further, carried⟩ := toInt_ofInt_runs carry
  refine ⟨runs + more + further, ?_⟩
  rw [added, toInt_ofInt least most]
  unfold position countsPerRevolution
  dsimp only
  omega

def turned (carry counts : Int) (angle : RotorAngle) : RotorAngle :=
  let (counts, carry) :=
    if countsPerHalfRevolution ≤ counts then (counts - countsPerRevolution, carry + 1)
    else if counts < -countsPerHalfRevolution then (counts + countsPerRevolution, carry - 1)
    else (counts, carry)
  { angle with revolutions := angle.revolutions + Int32.ofInt carry }.addRaw (Int32.ofInt counts)

theorem turned_counts (carry : Int) {counts : Int} (small : |counts| ≤ 2 ^ 32 + 1) (angle : RotorAngle) :
    ∃ runs : Int, (angle.turned carry counts).position =
      angle.position + (2 ^ 32 * carry + counts) + runs * 2 ^ 64 := by
  obtain ⟨least, most⟩ := abs_le.mp small
  unfold turned
  split_ifs with far back
  · unfold countsPerHalfRevolution at far
    obtain ⟨runs, found⟩ := turned_position (carry + 1) (counts - countsPerRevolution)
      (by unfold countsPerRevolution; omega) (by unfold countsPerRevolution; omega) angle
    refine ⟨runs, found.trans ?_⟩
    unfold countsPerRevolution
    omega
  · unfold countsPerHalfRevolution at back
    obtain ⟨runs, found⟩ := turned_position (carry - 1) (counts + countsPerRevolution)
      (by unfold countsPerRevolution; omega) (by unfold countsPerRevolution; omega) angle
    refine ⟨runs, found.trans ?_⟩
    unfold countsPerRevolution
    omega
  · unfold countsPerHalfRevolution at far back
    exact turned_position carry counts (by omega) (by omega) angle

/-! ### The counts of an offset -/

def offsetRevolutions (offset : Binary32) : Binary32 := offset * revolutionsPerRadian

noncomputable def fraction (offset : Binary32) : ℝ :=
  ((offsetRevolutions offset).value - integerPart (offsetRevolutions offset).value) * (2 ^ 32 : Nat)

/-- What an offset adds: whole revolutions, and its fraction rounded to counts. -/
noncomputable def turn (offset : Binary32) : Int :=
  2 ^ 32 * integerPart (offsetRevolutions offset).value + nearestCount (fraction offset)

theorem countsPerRevolution_value : (4294967296.0 : Binary32) = .finite 8388608 9 := by decide

theorem fraction_eq (offset : Binary32) : fraction offset =
    ((offsetRevolutions offset).value - integerPart (offsetRevolutions offset).value) * 2 ^ 32 := by
  rw [fraction, Nat.cast_pow, Nat.cast_ofNat]

theorem fraction_within (offset : Binary32) : |fraction offset| ≤ 2 ^ 32 := by
  have near := integerPart_near (offsetRevolutions offset).value
  rw [fraction_eq]
  rw [abs_mul, abs_of_pos (by norm_num : (0 : ℝ) < 2 ^ 32)]
  nlinarith

section Offset

variable {offset : Binary32} (finite : (offsetRevolutions offset).isFinite = true)
include finite

theorem offset_has : Binary.Has 24 (-149) (offsetRevolutions offset).value :=
  (Binary.mul_canonical (a := offset) (b := revolutionsPerRadian) finite).has (by decide) (by decide)

theorem fraction_has : Binary.Has 24 (-149) (fraction offset) := by
  obtain ⟨m, e, small, inside, number⟩ := (integerPart_has (offset_has finite)).2
  refine ⟨m, e + 32, small, by omega, ?_⟩
  rw [fraction_eq]
  rw [number, zpow_add₀ two_ne_zero, mul_assoc]
  rfl

variable (below : |(offsetRevolutions offset).value| < 2 ^ 64)
include below

theorem fraction_value :
    let whole := Scalar.toInt (offsetRevolutions offset)
    let counts := (offsetRevolutions offset - Scalar.ofInt whole) * (4294967296.0 : Binary32)
    whole = integerPart (offsetRevolutions offset).value ∧ Binary.isFinite counts = true ∧
      Binary.value counts = fraction offset := by
  obtain ⟨integer, rest⟩ := integerPart_has (offset_has finite)
  have near := integerPart_near (offsetRevolutions offset).value
  have inside := integerPart_inside (offsetRevolutions offset).value
  have small : |integerPart (offsetRevolutions offset).value| < 2 ^ 64 := by exact_mod_cast inside.trans_lt below
  obtain ⟨finite', value⟩ := ofInt_value small integer
  dsimp only
  rw [toInt_value finite below]
  refine ⟨rfl, ?_⟩
  generalize (Scalar.ofInt (integerPart (offsetRevolutions offset).value) : Binary32) = carried at finite' value ⊢
  have remainder := Binary.sub_rounded (by decide) (by decide) finite finite' (by
    rw [value]
    norm_num
    linarith)
  have remaining := remainder.exact (value ▸ rest)
  have scale : (4294967296.0 : Binary32).value = 2 ^ 32 := by
    rw [countsPerRevolution_value]
    norm_num [Binary.value]
  have scaled : ((offsetRevolutions offset).sub carried).value * (4294967296.0 : Binary32).value =
      fraction offset := by
    rw [remaining, scale, value, fraction_eq]
  have product := Binary.mul_rounded (by decide) (by decide) remainder.finite
    (show (4294967296.0 : Binary32).isFinite = true by decide) (by
      have within := fraction_within offset
      rw [scaled]
      norm_num at within ⊢
      linarith)
  rw [scaled] at product
  exact ⟨product.finite, product.exact (fraction_has finite)⟩

end Offset

theorem advance_turned (offset : Binary32) (angle : RotorAngle) :
    angle.advance offset = angle.turned (Scalar.toInt (offsetRevolutions offset))
      (roundToInt64 ((offsetRevolutions offset - Scalar.ofInt (Scalar.toInt (offsetRevolutions offset))) *
        (4294967296.0 : Binary32))) := rfl

theorem advance_position {offset : Binary32} (finite : (offsetRevolutions offset).isFinite = true)
    (below : |(offsetRevolutions offset).value| < 2 ^ 64) (angle : RotorAngle) :
    ∃ wrong runs : Int, |wrong| ≤ 1 ∧ (wrong = 0 ↔ ¬Misrounded (fraction offset)) ∧
      (angle.advance offset).position = angle.position + turn offset + wrong + runs * 2 ^ 64 := by
  obtain ⟨carry, finite', value⟩ := fraction_value finite below
  have within := fraction_within offset
  have has := fraction_has finite
  rw [advance_turned]
  generalize (offsetRevolutions offset - Scalar.ofInt (Scalar.toInt (offsetRevolutions offset))) *
    (4294967296.0 : Binary32) = counts at finite' value ⊢
  rw [carry]
  have near := nearestCount_within within
  rw [← value] at within has near ⊢
  by_cases misrounded : Misrounded counts.value
  · have off := roundToInt64_misrounded finite' within misrounded
    have bound : |roundToInt64 counts| ≤ 2 ^ 32 + 1 := by
      have triangle := abs_sub_abs_le_abs_sub (roundToInt64 counts) (nearestCount counts.value)
      omega
    obtain ⟨runs, found⟩ := turned_counts (integerPart (offsetRevolutions offset).value) bound angle
    refine ⟨roundToInt64 counts - nearestCount counts.value, runs, off.le, ?_, ?_⟩
    · have nonzero : roundToInt64 counts - nearestCount counts.value ≠ 0 := by
        intro zero
        rw [zero] at off
        cases off
      exact iff_of_false nonzero (not_not_intro misrounded)
    · rw [found]
      unfold turn
      rw [value]
      ring
  · have correct := roundToInt64_correct finite' has within misrounded
    obtain ⟨runs, found⟩ := turned_counts (integerPart (offsetRevolutions offset).value)
      (show |roundToInt64 counts| ≤ 2 ^ 32 + 1 by rw [correct]; omega) angle
    refine ⟨0, runs, by decide, iff_of_true rfl misrounded, ?_⟩
    rw [found, correct]
    unfold turn
    rw [value]
    ring

/-! ### Runs of advances -/

theorem turn_bounds {offset : Binary32} {position : Int} (before : Counted position)
    (after : Counted (position + turn offset)) : |(offsetRevolutions offset).value| < 2 ^ 64 := by
  have near := integerPart_near (offsetRevolutions offset).value
  have counts := abs_le.mp (nearestCount_within (fraction_within offset))
  rw [counted_iff] at before after
  unfold turn at after
  have whole : |integerPart (offsetRevolutions offset).value| ≤ 2 ^ 33 := by
    rw [abs_le]
    omega
  have real : |(integerPart (offsetRevolutions offset).value : ℝ)| ≤ 2 ^ 33 := by exact_mod_cast whole
  have triangle := abs_sub_abs_le_abs_sub (offsetRevolutions offset).value
    (integerPart (offsetRevolutions offset).value : ℝ)
  linarith

/-- One advance is exact when its fraction is rounded to the nearest count, and only then. -/
theorem advance_exact_iff {offset : Binary32} (finite : (offsetRevolutions offset).isFinite = true)
    {angle : RotorAngle} (counted : Counted (angle.position + turn offset)) :
    (angle.advance offset).position = angle.position + turn offset ↔ ¬Misrounded (fraction offset) := by
  obtain ⟨wrong, runs, small, correct, found⟩ :=
    advance_position finite (turn_bounds angle.position_counted counted) angle
  rw [← correct]
  constructor
  · intro kept
    have bounds := abs_le.mp small
    omega
  · rintro rfl
    rw [add_zero] at found
    exact counted_unique (position_counted _) counted found

def advances (offsets : List Binary32) (angle : RotorAngle) : RotorAngle :=
  offsets.foldl (fun angle offset => angle.advance offset) angle

/-- The revolutions that the offsets lead to, one after the other, stay in range of the counter. -/
def InRange : Int → List Binary32 → Prop
  | _, [] => True
  | position, offset :: rest =>
    (offsetRevolutions offset).isFinite = true ∧ Counted (position + turn offset) ∧
      InRange (position + turn offset) rest

theorem advances_iff {offsets : List Binary32} {angle : RotorAngle} (inRange : InRange angle.position offsets) :
    (∀ taken, taken <+: offsets →
      (angle.advances taken).position = angle.position + (taken.map turn).sum) ↔
    ∀ offset ∈ offsets, ¬Misrounded (fraction offset) := by
  induction offsets generalizing angle with
  | nil =>
    refine iff_of_true (fun taken begun => ?_) (by simp)
    rw [List.prefix_nil.mp begun]
    simp [advances]
  | cons offset rest ih =>
    obtain ⟨finite, counted, later⟩ := inRange
    have one := advance_exact_iff finite counted
    constructor
    · intro kept
      have first := kept [offset] ⟨rest, rfl⟩
      rw [List.map_singleton, List.sum_singleton] at first
      have rounded := one.mp first
      have following : (angle.advance offset).position = angle.position + turn offset := first
      refine List.forall_mem_cons.mpr ⟨rounded, (ih (following ▸ later)).mp fun taken begun => ?_⟩
      have both := kept (offset :: taken) (List.prefix_cons_inj offset |>.mpr begun)
      rw [following, Int.add_assoc]
      exact both
    · intro correct taken begun
      obtain ⟨rounded, others⟩ := List.forall_mem_cons.mp correct
      have following := one.mpr rounded
      rcases List.prefix_cons_iff.mp begun with rfl | ⟨taken, rfl, onwards⟩
      · simp [advances]
      · have onward := (ih (following ▸ later)).mpr others taken onwards
        rw [following, Int.add_assoc] at onward
        exact onward

theorem InRange.counted {offsets : List Binary32} {position : Int} (counted : Counted position)
    (inRange : InRange position offsets) {taken : List Binary32} (begun : taken <+: offsets) :
    Counted (position + (taken.map turn).sum) := by
  induction offsets generalizing position taken with
  | nil =>
    rw [List.prefix_nil.mp begun]
    simpa using counted
  | cons offset rest ih =>
    rcases List.prefix_cons_iff.mp begun with rfl | ⟨more, rfl, onwards⟩
    · simpa using counted
    · have further := ih inRange.2.1 inRange.2.2 onwards
      rw [List.map_cons, List.sum_cons, ← Int.add_assoc]
      exact further

/-- What the code answers after each advance. -/
theorem absoluteRaws_iff {offsets : List Binary32} {angle : RotorAngle} (inRange : InRange angle.position offsets) :
    (∀ taken, taken <+: offsets →
      (angle.advances taken).absoluteRaw.toInt = angle.position + (taken.map turn).sum) ↔
    (∀ offset ∈ offsets, ¬Misrounded (fraction offset)) ∧
      ∀ taken, taken <+: offsets → Held (angle.position + (taken.map turn).sum) := by
  rw [← advances_iff inRange]
  constructor
  · intro answers
    refine ⟨fun taken begun => ?_, fun taken begun => ?_⟩
    · have answer := answers taken begun
      have divided := Int.bdiv_add_bmod (angle.advances taken).position (2 ^ 64)
      rw [← toInt_absoluteRaw, answer] at divided
      generalize Int.bdiv (angle.advances taken).position (2 ^ 64) = runs at divided
      have apart : (angle.advances taken).position = angle.position + (taken.map turn).sum + runs * 2 ^ 64 := by
        push_cast at divided
        omega
      exact counted_unique (position_counted _) (InRange.counted angle.position_counted inRange begun) apart
    · rw [← answers taken begun]
      exact ⟨Int64.le_toInt _, Int64.toInt_lt _⟩
  · rintro ⟨kept, held⟩ taken begun
    rw [← kept taken begun]
    apply (absoluteRaw_exact_iff _).mpr
    rw [kept taken begun]
    exact held taken begun

/-- Advances lose and double no count exactly when each rounds its fraction to the nearest count and
the positions can be held; a position is an angle and back. -/
theorem position_kept (angle : RotorAngle) :
    (angle.absoluteRaw.toInt = angle.position ↔ Held angle.position) ∧
    (∀ offsets, InRange angle.position offsets →
      ((∀ taken, taken <+: offsets →
        (angle.advances taken).absoluteRaw.toInt = angle.position + (taken.map turn).sum) ↔
      (∀ offset ∈ offsets, ¬Misrounded (fraction offset)) ∧
        ∀ taken, taken <+: offsets → Held (angle.position + (taken.map turn).sum))) ∧
    (∀ absoluteRaw : Int64, absoluteRaw.toInt + 2 ^ 31 < 2 ^ 63 →
      (fromAbsoluteRaw absoluteRaw).absoluteRaw = absoluteRaw) ∧
    (Held angle.position → fromAbsoluteRaw angle.absoluteRaw = angle) :=
  ⟨absoluteRaw_exact_iff angle, fun _ inRange => absoluteRaws_iff inRange,
    fun _ shifts => absoluteRaw_fromAbsoluteRaw shifts, fromAbsoluteRaw_absoluteRaw⟩

/-- 0.0122718476 rad, which are 8388609 counts. -/
def oddOffset : Binary32 := Binary32.ofBits 0x3C490FDC

theorem oddOffset_turn : turn oddOffset = 8388609 ∧ Misrounded (fraction oddOffset) := by
  have revolutions : offsetRevolutions oddOffset = .finite 8388609 (-32) := by decide
  have value : (offsetRevolutions oddOffset).value = 8388609 / 2 ^ 32 := by
    rw [revolutions]
    norm_num [Binary.value]
  have whole : integerPart (offsetRevolutions oddOffset).value = 0 := by
    rw [value]
    unfold integerPart
    rw [if_neg (by norm_num), Int.floor_eq_iff]
    norm_num
  have rest : fraction oddOffset = 8388609 := by
    rw [fraction_eq, whole, value]
    norm_num
  constructor
  · unfold turn
    rw [whole, rest, nearestCount_eq, if_neg (by norm_num), mul_zero, zero_add, Int.floor_eq_iff]
    norm_num
  · refine .inr ⟨8388609, by decide, by decide, by decide, ?_⟩
    rw [rest]
    norm_num

/-- One count too far in the first advance. -/
theorem position_off :
    Counted ((⟨0, 0⟩ : RotorAngle).position + turn oddOffset) ∧ turn oddOffset = 8388609 ∧
      (RotorAngle.absoluteRaw ⟨0, 0⟩).toInt = 0 ∧ (RotorAngle.advances [oddOffset] ⟨0, 0⟩).absoluteRaw.toInt = 8388610 := by
  refine ⟨?_, oddOffset_turn.1, by decide, by decide⟩
  rw [oddOffset_turn.1]
  unfold Counted
  decide

/-- Two counts back from the least revolution: the counter stays in range, the position does not. -/
example : RotorAngle.advances [Binary32.ofBits 0xB1490FDB] ⟨0, -2147483648⟩ = ⟨-2, -2147483648⟩ ∧
    RotorAngle.position ⟨-2, -2147483648⟩ = -2 ^ 63 - 2 ∧
    (RotorAngle.absoluteRaw ⟨-2, -2147483648⟩).toInt = 2 ^ 63 - 2 := by decide

def quarter : Binary32 := Binary32.ofBits 0x3FC90FDB

theorem quarter_turn : (offsetRevolutions quarter).isFinite = true ∧ turn quarter = 2 ^ 30 ∧
    fraction quarter = 2 ^ 30 := by
  have revolutions : offsetRevolutions quarter = .finite 16777216 (-26) := by decide
  have value : (offsetRevolutions quarter).value = 1 / 4 := by
    rw [revolutions]
    norm_num [Binary.value]
  have whole : integerPart (offsetRevolutions quarter).value = 0 := by
    rw [value]
    unfold integerPart
    rw [if_neg (by norm_num), Int.floor_eq_iff]
    norm_num
  have rest : fraction quarter = 2 ^ 30 := by
    rw [fraction_eq, whole, value]
    norm_num
  refine ⟨revolutions ▸ rfl, ?_, rest⟩
  unfold turn
  rw [whole, rest, nearestCount_eq, if_neg (by norm_num), mul_zero, zero_add, Int.floor_eq_iff]
  norm_num

theorem quarter_rounded : ¬Misrounded (fraction quarter) := by
  rw [quarter_turn.2.2]
  rintro (small | ⟨n, -, -, last, same⟩)
  · norm_num at small
  · rw [abs_of_pos (by norm_num)] at same
    have whole : 2 ^ 30 = n := by exact_mod_cast same
    omega

theorem position_kept_quarter :
    (RotorAngle.advances [quarter] ⟨2147483000, 7⟩).absoluteRaw.toInt =
      (⟨2147483000, 7⟩ : RotorAngle).position + ([quarter].map turn).sum ∧
    (fromAbsoluteRaw (-5)).absoluteRaw = -5 ∧
    fromAbsoluteRaw (absoluteRaw ⟨2147483000, 7⟩) = ⟨2147483000, 7⟩ := by
  obtain ⟨finite, turned, -⟩ := quarter_turn
  obtain ⟨-, kept, back, forth⟩ := position_kept ⟨2147483000, 7⟩
  refine ⟨(kept [quarter] ⟨finite, ?_, trivial⟩).mpr ⟨?_, ?_⟩ [quarter] (List.prefix_refl _),
    back (-5) (by decide +kernel), forth (by unfold Held; decide +kernel)⟩
  · rw [turned]
    unfold Counted
    decide
  · rw [List.forall_mem_singleton]
    exact quarter_rounded
  · intro taken begun
    unfold Held
    rcases List.prefix_cons_iff.mp begun with rfl | ⟨more, rfl, onwards⟩
    · decide
    · rw [List.prefix_nil.mp onwards, List.map_singleton, List.sum_singleton, turned]
      decide

end RotorAngle

end Unimoc.CurrentControl
