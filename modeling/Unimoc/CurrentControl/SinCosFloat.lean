import Unimoc.CurrentControl.SinCosProvider
import Unimoc.Lib.BinaryError

/-! The sine and cosine of the table in the single precision of the target. -/
namespace Unimoc.CurrentControl.PortableSinCosProvider

/-- Half a unit of the last place of one. -/
noncomputable def u : ℝ := 1 / (2 ^ 24 : Nat)

theorem rounding_eq (magnitude : ℝ) : Binary.rounding 24 (-149) magnitude = magnitude * u + 2 ^ (-150 : ℤ) := by
  rw [Binary.rounding, u]
  norm_num
  ring

/-- What is far below any of the bounds here. -/
theorem tiny : (2 : ℝ) ^ (-150 : ℤ) ≤ 1 / 10 ^ 40 := by norm_num

theorem rounding_le {magnitude bound : ℝ} (size : magnitude ≤ bound) :
    Binary.rounding 24 (-149) magnitude ≤ bound * u + 1 / 10 ^ 40 := by
  rw [rounding_eq]
  refine add_le_add (mul_le_mul_of_nonneg_right size ?_) tiny
  norm_num [u]

section Operations

variable {x y error other : ℝ} {a b : Binary32} (first : Binary.Within x error a) (second : Binary.Within y other b)
include first second

/-! The operations on numbers below a thousand. -/

theorem add_within (bound : ℝ) (size : |x + y| + (error + other) ≤ bound) (small : bound ≤ 1000) :
    Binary.Within (x + y) (error + other + (bound * u + 1 / 10 ^ 40)) (a + b : Binary32) := by
  have limit : |x + y| + (error + other) < 2 ^ ((128 : ℤ) - 1) := (size.trans small).trans_lt (by norm_num)
  exact (Binary.Within.add (by decide) (by decide) first second limit).mono (add_le_add_right (rounding_le size) _)

theorem sub_within (bound : ℝ) (size : |x - y| + (error + other) ≤ bound) (small : bound ≤ 1000) :
    Binary.Within (x - y) (error + other + (bound * u + 1 / 10 ^ 40)) (a - b : Binary32) := by
  have limit : |x - y| + (error + other) < 2 ^ ((128 : ℤ) - 1) := (size.trans small).trans_lt (by norm_num)
  exact (Binary.Within.sub (by decide) (by decide) first second limit).mono (add_le_add_right (rounding_le size) _)

theorem mul_within (bound : ℝ) (size : |x * y| + (error * (|y| + other) + |x| * other) ≤ bound)
    (small : bound ≤ 1000) :
    Binary.Within (x * y) (error * (|y| + other) + |x| * other + (bound * u + 1 / 10 ^ 40)) (a * b : Binary32) := by
  have limit : |x * y| + (error * (|y| + other) + |x| * other) < 2 ^ ((128 : ℤ) - 1) :=
    (size.trans small).trans_lt (by norm_num)
  exact (Binary.Within.mul (by decide) (by decide) first second limit).mono (add_le_add_right (rounding_le size) _)

end Operations

/-! ### The table -/

/-- The nearest value to an entry, in units of `10 ^ -18`. -/
def closeFloat (point : Rotation.Point) (billionths : Int) : Bool :=
  match (literal billionths : Binary32) with
  | .finite m e =>
    decide (e ≤ 0) && decide (|m * 10 ^ 18 - point.sin * 2 ^ (-e).toNat| ≤ 30310000000 * 2 ^ (-e).toNat)
  | _ => false

theorem table_walkFloat : Rotation.walk (10 ^ 18) step closeFloat ⟨10 ^ 18, 0⟩ sinTable = true := by
  decide +kernel

theorem closeFloat_within {point : Rotation.Point} {billionths : Int} (close : closeFloat point billionths = true) :
    Binary.Within (point.sin / 10 ^ 18 : ℝ) (3031 / 10 ^ 11) (literal billionths : Binary32) := by
  unfold closeFloat at close
  split at close
  · rename_i m e found
    obtain ⟨down, near⟩ := Bool.and_eq_true_iff.mp close
    have exponent : ((-e).toNat : ℤ) = -e := Int.toNat_of_nonneg (by have := of_decide_eq_true down; omega)
    have power : (2 : ℝ) ^ (-e).toNat * 2 ^ e = 1 := by
      rw [← zpow_natCast, exponent, ← zpow_add₀ two_ne_zero, neg_add_cancel, zpow_zero]
    have real : |(m : ℝ) * 10 ^ 18 - point.sin * 2 ^ (-e).toNat| ≤ 30310000000 * 2 ^ (-e).toNat := by
      exact_mod_cast of_decide_eq_true near
    have scaled := mul_le_mul_of_nonneg_right real (by positivity : (0 : ℝ) ≤ 2 ^ e)
    rw [← abs_of_pos (by positivity : (0 : ℝ) < 2 ^ e), ← abs_mul, abs_of_pos (by positivity : (0 : ℝ) < 2 ^ e), sub_mul,
      mul_assoc _ _ ((2 : ℝ) ^ e), mul_assoc _ _ ((2 : ℝ) ^ e), power] at scaled
    rw [found]
    refine ⟨rfl, ?_⟩
    obtain ⟨low, high⟩ := abs_le.mp scaled
    show |(m : ℝ) * 2 ^ e - point.sin / 10 ^ 18| ≤ _
    exact abs_le.mpr ⟨by linarith, by linarith⟩
  · cases close

theorem table_within {index : Nat} (inside : index ≤ 640) :
    Binary.Within (Real.sin (place index)) (30311 / 10 ^ 12) (entry index : Binary32) := by
  obtain ⟨point, near, fits⟩ := walked table_walkFloat inside
  obtain ⟨finite, close⟩ := closeFloat_within fits
  exact ⟨finite, (abs_sub_le _ (point.sin / 10 ^ 18 : ℝ) _).trans ((add_le_add close near).trans (by norm_num))⟩

/-! ### One pair -/

theorem factor_exact (raw : Int32) :
    Binary.Within (fraction raw) 0
      (Scalar.ofUInt64 (raw.toUInt32 &&& sinTableFractionMask).toUInt64 * sinTableFractionScale : Binary32) := by
  let count := raw.toUInt32.toNat % 2 ^ 23
  have below : count < 2 ^ 23 := Nat.mod_lt _ (by norm_num)
  have whole : (raw.toUInt32 &&& sinTableFractionMask).toUInt64.toNat = count := by
    rw [UInt32.toNat_toUInt64, fraction_mask]
  have bits : count ≠ 0 → Nat.log2 count < 23 := fun nonzero => (Nat.log2_lt nonzero).mpr below
  obtain ⟨finite, value⟩ := @Binary.round_exact 24 (-149) 128 count 0 false (by omega) (by decide)
    (fun nonzero => by have := bits nonzero; omega)
  have scale : (sinTableFractionScale : Binary32) = .finite 8388608 (-46) := by decide
  have scale_value : Binary.value (.finite 8388608 (-46) : Binary32) = 1 / 2 ^ 23 := by
    norm_num [Binary.value]
  have count_value : (Binary.round false count 0 : Binary32).value = count := by
    rw [value]
    simp [Binary.scaled]
  have product : (count : ℝ) * (1 / 2 ^ 23) = fraction raw := by rw [fraction_eq, mul_one_div]
  have has : Binary.Has 24 (-149) (fraction raw) := by
    refine ⟨count, -23, ?_, by decide, ?_⟩
    · rw [Nat.abs_cast]
      exact_mod_cast (by omega : count < 2 ^ 24)
    · rw [← product]
      norm_num
  have inside := (fraction_inside raw).2
  have nonneg := (fraction_inside raw).1
  have rounded := @Binary.mul_rounded 24 (-149) 128 (by decide) (by decide) (Binary.round false count 0)
    (.finite 8388608 (-46)) finite rfl (by
      rw [count_value, scale_value, product, abs_of_nonneg nonneg]
      exact inside.trans_lt (by norm_num))
  rw [count_value, scale_value, product] at rounded
  have same : (Scalar.ofUInt64 (raw.toUInt32 &&& sinTableFractionMask).toUInt64 * sinTableFractionScale : Binary32) =
      Binary.mul (Binary.round false count 0) (.finite 8388608 (-46)) := by
    rw [scale]
    show Binary.mul (Binary.round false (raw.toUInt32 &&& sinTableFractionMask).toUInt64.toNat 0) _ = _
    rw [whole]
  rw [same]
  exact ⟨rounded.finite, by rw [rounded.exact has, sub_self, abs_zero]⟩

/-- Interpolated between values close to each other: next to nothing but the rounding of the result. -/
theorem interpolate_within {start stop factor : Binary32} {part : ℝ} (first : start.isFinite = true)
    (second : stop.isFinite = true) (number : Binary.Within part 0 factor) (inside : 0 ≤ part ∧ part ≤ 1)
    (apart : |stop.value - start.value| ≤ 1 / 64) (size : |start.value| ≤ 2) :
    Binary.Within (start.value + part * (stop.value - start.value))
      (|start.value + part * (stop.value - start.value)| * u + 2 / 10 ^ 9)
      (linearInterpolate start stop factor) := by
  have difference := sub_within (.exact second) (.exact first) (1 / 64) (by rwa [add_zero, add_zero]) (by norm_num)
  rw [zero_add, zero_add] at difference
  have steep : 1 / 64 * u + 1 / 10 ^ 40 ≤ 94 / 10 ^ 11 := by norm_num [u]
  have gentle : |part * (stop.value - start.value)| ≤ 1 / 64 := by
    rw [abs_mul, abs_of_nonneg inside.1]
    exact (mul_le_of_le_one_left (abs_nonneg _) inside.2).trans apart
  have product := mul_within number (difference.mono steep) (1 / 64 + 94 / 10 ^ 11) (by
    rw [zero_mul, zero_add, abs_of_nonneg inside.1]
    exact add_le_add gentle (mul_le_of_le_one_left (by norm_num) inside.2)) (by norm_num)
  have little : 0 * (|stop.value - start.value| + 94 / 10 ^ 11) + |part| * (94 / 10 ^ 11) +
      ((1 / 64 + 94 / 10 ^ 11) * u + 1 / 10 ^ 40) ≤ 19 / 10 ^ 10 := by
    rw [zero_mul, zero_add, abs_of_nonneg inside.1]
    have most := mul_le_of_le_one_left (by norm_num : (0 : ℝ) ≤ 94 / 10 ^ 11) inside.2
    norm_num [u] at most ⊢
    linarith
  have large : |start.value + part * (stop.value - start.value)| ≤ 3 :=
    (abs_add_le _ _).trans (by linarith)
  have sum := add_within (.exact first) (product.mono little) _ le_rfl (by linarith)
  refine sum.mono ?_
  rw [zero_add, add_mul]
  norm_num [u]
  linarith

/-! ### The pair -/

/-- Cosine and sine at a place of the table, as the target holds them. -/
noncomputable def tableFloat (index : Nat) : ℂ :=
  ⟨(entry (index + sinTableQuarterSize) : Binary32).value, (entry index : Binary32).value⟩

theorem norm_parts {x y error : ℝ} (first : |x| ≤ error) (second : |y| ≤ error) :
    ‖(⟨x, y⟩ : ℂ)‖ ≤ 1415 / 1000 * error := by
  have nonneg : 0 ≤ error := (abs_nonneg x).trans first
  refine abs_le_of_sq_le_sq' ?_ (by positivity) |>.2
  rw [Rotation.norm_sq]
  nlinarith [sq_le_sq' (neg_le_of_abs_le first) (le_of_abs_le first),
    sq_le_sq' (neg_le_of_abs_le second) (le_of_abs_le second), sq_nonneg error]

/-- Errors relative to the parts are relative to the length. -/
theorem norm_relative {x y a b factor error : ℝ} (nonneg : 0 ≤ factor) (positive : 0 ≤ error)
    (first : |x| ≤ |a| * factor + error) (second : |y| ≤ |b| * factor + error) :
    ‖(⟨x, y⟩ : ℂ)‖ ≤ ‖(⟨a, b⟩ : ℂ)‖ * factor + 2 * error := by
  have larger : ‖(⟨x, y⟩ : ℂ)‖ ≤ ‖(⟨|a| * factor + error, |b| * factor + error⟩ : ℂ)‖ := by
    refine abs_le_of_sq_le_sq' ?_ (norm_nonneg _) |>.2
    rw [Rotation.norm_sq, Rotation.norm_sq]
    exact add_le_add (sq_le_sq' (neg_le_of_abs_le first) (le_of_abs_le first))
      (sq_le_sq' (neg_le_of_abs_le second) (le_of_abs_le second))
  have sum : (⟨|a| * factor + error, |b| * factor + error⟩ : ℂ) = ⟨|a| * factor, |b| * factor⟩ + ⟨error, error⟩ := rfl
  have scaled : ‖(⟨|a| * factor, |b| * factor⟩ : ℂ)‖ = ‖(⟨a, b⟩ : ℂ)‖ * factor := by
    refine (sq_eq_sq₀ (norm_nonneg _) (by positivity)).mp ?_
    rw [mul_pow, Rotation.norm_sq, Rotation.norm_sq, mul_pow, mul_pow, sq_abs, sq_abs, add_mul]
  have rest : ‖(⟨error, error⟩ : ℂ)‖ ≤ 2 * error := by
    have sides := Complex.norm_le_abs_re_add_abs_im ⟨error, error⟩
    rw [abs_of_nonneg positive] at sides
    linarith
  rw [sum] at larger
  exact larger.trans ((norm_add_le _ _).trans (add_le_add scaled.le rest))

theorem tableFloat_near {index : Nat} (inside : index ≤ 512) :
    ‖tableFloat index - Rotation.unit (place index)‖ ≤ 429 / 10 ^ 10 := by
  have sin := (@table_within index (by omega)).close
  have cos := (@table_within (index + sinTableQuarterSize) (by unfold sinTableQuarterSize; omega)).close
  rw [place_quarter, Real.sin_add_pi_div_two] at cos
  have parts : tableFloat index - Rotation.unit (place index) =
      ⟨(entry (index + sinTableQuarterSize) : Binary32).value - Real.cos (place index),
        (entry index : Binary32).value - Real.sin (place index)⟩ := by
    apply Complex.ext
    · simp [tableFloat, Rotation.unit_re]
    · simp [tableFloat, Rotation.unit_im]
  rw [parts]
  exact (norm_parts cos sin).trans (by norm_num)

theorem place_next (index : Nat) : place (index + 1) = place index + 2 * Real.pi / 512 := by
  rw [place_eq, place_eq]
  push_cast
  ring

theorem entry_next {index : Nat} (inside : index < 640) :
    |(entry (index + 1) : Binary32).value - (entry index : Binary32).value| ≤ 1 / 64 := by
  have here := abs_le.mp (@table_within index inside.le).close
  have next := abs_le.mp (@table_within (index + 1) inside).close
  have turn : |place (index + 1) - place index| = 2 * Real.pi / 512 := by
    rw [place_next, add_sub_cancel_left, abs_of_nonneg (by positivity)]
  have part := (Complex.abs_im_le_norm _).trans (Rotation.unit_sub (place (index + 1)) (place index))
  rw [Complex.sub_im, Rotation.unit_im, Rotation.unit_im, turn] at part
  have most := width_bounds.2
  obtain ⟨low, high⟩ := abs_le.mp part
  obtain ⟨a, b⟩ := here
  obtain ⟨c, d⟩ := next
  norm_num at a b c d most ⊢
  exact abs_le.mpr ⟨by linarith, by linarith⟩

theorem entry_size {index : Nat} (inside : index ≤ 640) : |(entry index : Binary32).value| ≤ 2 := by
  have size := (table_within inside).magnitude
  have one := Real.abs_sin_le_one (place index)
  norm_num at size
  linarith

/-- The two of the source before the correction. -/
def line (raw : Int32) (index : Nat) : Binary32 :=
  linearInterpolate (entry index) (entry (index + 1))
    (Scalar.ofUInt64 (raw.toUInt32 &&& sinTableFractionMask).toUInt64 * sinTableFractionScale)

theorem line_within (raw : Int32) {index : Nat} (inside : index < 640) :
    Binary.Within ((entry index : Binary32).value +
        fraction raw * ((entry (index + 1) : Binary32).value - (entry index : Binary32).value))
      (|(entry index : Binary32).value +
        fraction raw * ((entry (index + 1) : Binary32).value - (entry index : Binary32).value)| * u + 2 / 10 ^ 9)
      (line raw index) :=
  interpolate_within (table_within inside.le).finite (@table_within (index + 1) inside).finite (factor_exact raw)
    (fraction_inside raw) (entry_next inside) (entry_size inside.le)

noncomputable def linePoint (raw : Int32) : ℂ :=
  ⟨(line raw (index raw + sinTableQuarterSize)).value, (line raw (index raw)).value⟩

theorem linePoint_near (raw : Int32) :
    ‖linePoint raw - Rotation.chord (Rotation.unit (place (index raw)))
      (Rotation.unit (place (index raw) + 2 * Real.pi / 512)) (fraction raw)‖ ≤ 107 / 10 ^ 9 := by
  obtain ⟨nonneg, part⟩ := fraction_inside raw
  have below := index_lt raw
  have sin := (@line_within raw (index raw) (by omega)).close
  have cos := (@line_within raw (index raw + sinTableQuarterSize) (by unfold sinTableQuarterSize; omega)).close
  have next := @tableFloat_near (index raw + 1) (by omega)
  rw [place_next] at next
  have table := Rotation.chord_sub nonneg part (tableFloat_near below.le) next
  have corners : Rotation.chord (tableFloat (index raw)) (tableFloat (index raw + 1)) (fraction raw) =
      ⟨(entry (index raw + sinTableQuarterSize) : Binary32).value + fraction raw *
          ((entry (index raw + sinTableQuarterSize + 1) : Binary32).value -
            (entry (index raw + sinTableQuarterSize) : Binary32).value),
        (entry (index raw) : Binary32).value + fraction raw *
          ((entry (index raw + 1) : Binary32).value - (entry (index raw) : Binary32).value)⟩ := by
    apply Complex.ext
    · simp only [Rotation.chord, tableFloat, Complex.add_re, Complex.re_ofReal_mul, Complex.sub_re]
      rw [Nat.add_right_comm]
    · simp only [Rotation.chord, tableFloat, Complex.add_im, Complex.im_ofReal_mul, Complex.sub_im]
  have rounding : ‖linePoint raw - Rotation.chord (tableFloat (index raw)) (tableFloat (index raw + 1)) (fraction raw)‖ ≤
      ‖Rotation.chord (tableFloat (index raw)) (tableFloat (index raw + 1)) (fraction raw)‖ * u + 2 * (2 / 10 ^ 9) := by
    rw [corners]
    exact norm_relative (by norm_num [u]) (by norm_num) cos sin
  have length := (norm_le_norm_add_norm_sub' _ _).trans (add_le_add (@Rotation.norm_chord (place (index raw))
    (2 * Real.pi / 512) (fraction raw) nonneg part).1 table)
  have scaled := mul_le_mul_of_nonneg_right length (by norm_num [u] : (0 : ℝ) ≤ u)
  have near := (norm_sub_le_norm_sub_add_norm_sub _ _ _).trans (add_le_add rounding table)
  refine near.trans ?_
  norm_num [u] at scaled ⊢
  linarith

/-! ### The correction -/

theorem literals : ((1.5 : Binary32).value = 3 / 2 ∧ (1.5 : Binary32).isFinite = true) ∧
    ((0.5 : Binary32).value = 1 / 2 ∧ (0.5 : Binary32).isFinite = true) := by
  have most : (1.5 : Binary32) = .finite 12582912 (-23) := by decide
  have half : (0.5 : Binary32) = .finite 8388608 (-24) := by decide
  rw [most, half]
  norm_num [Binary.value, Binary.isFinite]

/-- The factor of the correction, for a pair that is almost of length one. -/
theorem normalization_within {sin cos : Binary32} (finite : sin.isFinite = true ∧ cos.isFinite = true)
    (short : sin.value ^ 2 + cos.value ^ 2 ≤ 1 + 1 / 10 ^ 6) (long : 1 - 1 / 10 ^ 4 ≤ sin.value ^ 2 + cos.value ^ 2) :
    Binary.Within (3 / 2 - (sin.value ^ 2 + cos.value ^ 2) / 2) (150 / 10 ^ 9)
      ((1.5 : Binary32) - (0.5 : Binary32) * (sin * sin + cos * cos)) := by
  obtain ⟨⟨most, mostFinite⟩, half, halfFinite⟩ := literals
  have square {a : Binary32} (number : a.isFinite = true) (bounded : a.value ^ 2 ≤ 2) :
      Binary.Within (a.value ^ 2) (a.value ^ 2 * u + 1 / 10 ^ 40) (a * a : Binary32) := by
    have product := mul_within (.exact number) (.exact number) (a.value ^ 2)
      (by rw [abs_mul_self]; ring_nf; rfl) (bounded.trans (by norm_num))
    rw [← sq] at product
    exact product.mono (by ring_nf; rfl)
  have first := square finite.1 (by linarith [sq_nonneg cos.value])
  have second := square finite.2 (by linarith [sq_nonneg sin.value])
  have errors : sin.value ^ 2 * u + 1 / 10 ^ 40 + (cos.value ^ 2 * u + 1 / 10 ^ 40) ≤ 59606 / 10 ^ 12 := by
    have share := mul_le_mul_of_nonneg_right short (by norm_num [u] : (0 : ℝ) ≤ u)
    norm_num [u] at share ⊢
    linarith
  have size : |sin.value ^ 2 + cos.value ^ 2| = sin.value ^ 2 + cos.value ^ 2 := abs_of_nonneg (by positivity)
  have sum := (add_within first second (1 + 2 / 10 ^ 6) (by rw [size]; linarith) (by norm_num)).mono
    (add_le_add_left errors _)
  have sum : Binary.Within (sin.value ^ 2 + cos.value ^ 2) (1193 / 10 ^ 10) (sin * sin + cos * cos : Binary32) :=
    sum.mono (by norm_num [u])
  have halved := mul_within (.exact halfFinite) sum (1 / 2 + 1 / 10 ^ 5)
    (by rw [abs_mul, size, half]; norm_num; linarith) (by norm_num)
  rw [half, abs_of_pos (by norm_num : (0 : ℝ) < 1 / 2)] at halved
  have halved : Binary.Within (1 / 2 * (sin.value ^ 2 + cos.value ^ 2)) (8946 / 10 ^ 11)
      ((0.5 : Binary32) * (sin * sin + cos * cos)) := halved.mono (by norm_num [u])
  have near : |3 / 2 - 1 / 2 * (sin.value ^ 2 + cos.value ^ 2)| ≤ 1 + 1 / 10 ^ 4 :=
    abs_le.mpr ⟨by linarith, by linarith⟩
  have result := sub_within (.exact mostFinite) halved (1 + 2 / 10 ^ 4) (by rw [most]; linarith) (by norm_num)
  rw [most, one_div_mul_eq_div] at result
  exact result.mono (by norm_num [u])

theorem linePoint_length (raw : Int32) : ‖linePoint raw‖ ≤ 1 + 107 / 10 ^ 9 ∧ 1 - 38 / 10 ^ 6 ≤ ‖linePoint raw‖ := by
  obtain ⟨nonneg, part⟩ := fraction_inside raw
  obtain ⟨least, most⟩ := width_bounds
  have square := pow_le_pow_left₀ least most 2
  obtain ⟨inside, long⟩ := @Rotation.norm_chord (place (index raw)) (2 * Real.pi / 512) (fraction raw) nonneg part
  obtain ⟨low, high⟩ := abs_le.mp ((abs_norm_sub_norm_le _ _).trans (linePoint_near raw))
  have short := mul_le_of_le_one_left (norm_nonneg (Rotation.chord (Rotation.unit (place (index raw)))
    (Rotation.unit (place (index raw) + 2 * Real.pi / 512)) (fraction raw))) inside
  rw [← sq] at short
  norm_num at square ⊢
  exact ⟨by linarith, by linarith⟩

/-- The last multiplication, by a factor that is close to one. -/
theorem scaled_within {a factor : Binary32} {number : ℝ} (finite : a.isFinite = true) (size : |a.value| ≤ 2)
    (within : Binary.Within number (150 / 10 ^ 9) factor) (near : |number| ≤ 1 + 1 / 10 ^ 4) :
    Binary.Within (a.value * number) (|a.value| * (20962 / 10 ^ 11) + 1 / 10 ^ 40) (a * factor : Binary32) := by
  have product : |a.value * number| ≤ |a.value| * (1 + 1 / 10 ^ 4) := by
    rw [abs_mul]
    exact mul_le_mul_of_nonneg_left near (abs_nonneg _)
  refine (mul_within (.exact finite) within (|a.value| * (1 + 2 / 10 ^ 4)) ?_ ?_).mono ?_
  · linarith [abs_nonneg a.value]
  · linarith
  · norm_num [u]
    linarith [abs_nonneg a.value]

theorem calculate_line (raw : Int32) : (calculate raw : SinCos Binary32) =
    ⟨line raw (index raw) * ((1.5 : Binary32) - (0.5 : Binary32) * (line raw (index raw) * line raw (index raw) +
        line raw (index raw + sinTableQuarterSize) * line raw (index raw + sinTableQuarterSize))),
      line raw (index raw + sinTableQuarterSize) * ((1.5 : Binary32) - (0.5 : Binary32) *
        (line raw (index raw) * line raw (index raw) +
          line raw (index raw + sinTableQuarterSize) * line raw (index raw + sinTableQuarterSize)))⟩ := by
  unfold calculate line
  simp only [index_shift]

noncomputable def pointFloat (pair : SinCos Binary32) : ℂ := ⟨pair.cos.value, pair.sin.value⟩

theorem calculate_corrected (raw : Int32) :
    (Binary.isFinite (calculate raw : SinCos Binary32).sin = true ∧
      Binary.isFinite (calculate raw : SinCos Binary32).cos = true) ∧
    ‖pointFloat (calculate raw) - Rotation.corrected (linePoint raw)‖ ≤ 20963 / 10 ^ 11 := by
  have below := index_lt raw
  have sin := @line_within raw (index raw) (by omega)
  have cos := @line_within raw (index raw + sinTableQuarterSize) (by unfold sinTableQuarterSize; omega)
  obtain ⟨short, long⟩ := linePoint_length raw
  have length : ‖linePoint raw‖ ^ 2 = (line raw (index raw)).value ^ 2 +
      (line raw (index raw + sinTableQuarterSize)).value ^ 2 := by
    rw [linePoint, Rotation.norm_sq, add_comm]
  have upper := pow_le_pow_left₀ (norm_nonneg _) short 2
  have lower := pow_le_pow_left₀ (by norm_num) long 2
  have re : |(line raw (index raw + sinTableQuarterSize)).value| ≤ ‖linePoint raw‖ :=
    Complex.abs_re_le_norm (linePoint raw)
  have im : |(line raw (index raw)).value| ≤ ‖linePoint raw‖ := Complex.abs_im_le_norm (linePoint raw)
  norm_num at upper lower
  have factor := normalization_within ⟨sin.finite, cos.finite⟩ (by linarith) (by linarith)
  rw [← length] at factor
  have near : |3 / 2 - ‖linePoint raw‖ ^ 2 / 2| ≤ 1 + 1 / 10 ^ 4 := abs_le.mpr ⟨by linarith, by linarith⟩
  have first := scaled_within sin.finite (by linarith) factor near
  have second := scaled_within cos.finite (by linarith) factor near
  rw [calculate_line]
  refine ⟨⟨first.finite, second.finite⟩, ?_⟩
  have parts : Rotation.corrected (linePoint raw) =
      ⟨(line raw (index raw + sinTableQuarterSize)).value * (3 / 2 - ‖linePoint raw‖ ^ 2 / 2),
        (line raw (index raw)).value * (3 / 2 - ‖linePoint raw‖ ^ 2 / 2)⟩ := by
    apply Complex.ext
    · rw [Rotation.corrected_eq, Complex.re_ofReal_mul, linePoint, mul_comm]
    · rw [Rotation.corrected_eq, Complex.im_ofReal_mul, linePoint, mul_comm]
  rw [parts]
  have scaled : ‖linePoint raw‖ * (20962 / 10 ^ 11) + 2 * (1 / 10 ^ 40) ≤ 20963 / 10 ^ 11 := by
    norm_num
    linarith
  exact (norm_relative (by norm_num) (by norm_num) second.close first.close).trans scaled

/-- For each of the `2 ^ 32` phases of a revolution the single precision stays within six units of
rounding of the sine and the cosine. -/
theorem sin_cos_single (raw : Int32) :
    (Binary.isFinite (calculate raw : SinCos Binary32).sin = true ∧
      Binary.isFinite (calculate raw : SinCos Binary32).cos = true) ∧
    |Binary.value (calculate raw : SinCos Binary32).sin - Real.sin (2 * Real.pi * raw.toInt / 2 ^ 32)| ≤ 35 / 10 ^ 8 ∧
    |Binary.value (calculate raw : SinCos Binary32).cos - Real.cos (2 * Real.pi * raw.toInt / 2 ^ 32)| ≤ 35 / 10 ^ 8 := by
  obtain ⟨nonneg, part⟩ := fraction_inside raw
  obtain ⟨least, most⟩ := width_bounds
  obtain ⟨finite, rounding⟩ := calculate_corrected raw
  have cube := pow_le_pow_left₀ least most 3
  have fourth := pow_le_pow_left₀ least most 4
  have square := pow_le_pow_left₀ least most 2
  have arc := Rotation.corrected_near nonneg part (linePoint_near raw) (by linarith) (by linarith) (by norm_num)
  rw [← turned] at arc
  have near : ‖pointFloat (calculate raw) - Rotation.unit (2 * Real.pi * raw.toInt / 2 ^ 32)‖ ≤ 35 / 10 ^ 8 := by
    refine (norm_sub_le_norm_sub_add_norm_sub _ _ _).trans ((add_le_add rounding arc).trans ?_)
    norm_num at cube fourth square ⊢
    linarith
  have sine := (Complex.abs_im_le_norm _).trans near
  have cosine := (Complex.abs_re_le_norm _).trans near
  rw [Complex.sub_im, Rotation.unit_im] at sine
  rw [Complex.sub_re, Rotation.unit_re] at cosine
  exact ⟨finite, sine, cosine⟩

end Unimoc.CurrentControl.PortableSinCosProvider
