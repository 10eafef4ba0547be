import Mathlib.Analysis.Real.Pi.Bounds
import Mathlib.Analysis.SpecialFunctions.Trigonometric.Bounds

/-! Points of the unit circle as pairs of whole numbers over a common scale: products with a known
error, and lists that are checked against the powers of one point. -/
namespace Rotation

/-- Multiples of one over the scale. -/
structure Point where
  cos : ℤ
  sin : ℤ
deriving DecidableEq

namespace Point

noncomputable def value (p : Point) : ℂ := ⟨p.cos, p.sin⟩

/-- The quotients are rounded down. -/
def times (scale : ℕ) (p q : Point) : Point :=
  ⟨(p.cos * q.cos - p.sin * q.sin) / scale, (p.cos * q.sin + p.sin * q.cos) / scale⟩

end Point

noncomputable def unit (angle : ℝ) : ℂ := Complex.exp (angle * Complex.I)

def Near (scale : ℕ) (error : ℝ) (p : Point) (angle : ℝ) : Prop :=
  ‖p.value - scale * unit angle‖ ≤ error

variable {scale : ℕ} {error other angle turn : ℝ} {p q : Point}

theorem unit_re (angle : ℝ) : (unit angle).re = Real.cos angle := by
  simp [unit, Complex.exp_ofReal_mul_I_re]

theorem unit_im (angle : ℝ) : (unit angle).im = Real.sin angle := by
  simp [unit, Complex.exp_ofReal_mul_I_im]

theorem norm_unit (angle : ℝ) : ‖unit angle‖ = 1 := Complex.norm_exp_ofReal_mul_I angle

theorem unit_add (angle turn : ℝ) : unit (angle + turn) = unit angle * unit turn := by
  rw [unit, unit, unit, ← Complex.exp_add]
  congr 1
  push_cast
  ring

theorem unit_zero : unit 0 = 1 := by simp [unit]

/-- Points of the circle are no further apart than their angles. -/
theorem unit_sub (angle turn : ℝ) : ‖unit angle - unit turn‖ ≤ |angle - turn| := by
  have split : unit angle - unit turn = unit turn * (Complex.exp (Complex.I * (angle - turn : ℝ)) - 1) := by
    have parts : unit angle = unit turn * Complex.exp (Complex.I * (angle - turn : ℝ)) := by
      rw [unit, unit, ← Complex.exp_add]
      congr 1
      push_cast
      ring
    rw [parts]
    ring
  rw [split, norm_mul, norm_unit, one_mul]
  exact Real.norm_exp_I_mul_ofReal_sub_one_le

theorem Near.sin (near : Near scale error p angle) : |p.sin - scale * Real.sin angle| ≤ error := by
  refine le_trans ?_ near
  have part := Complex.abs_im_le_norm (p.value - scale * unit angle)
  simpa [Point.value, unit_im] using part

theorem Near.norm (near : Near scale error p angle) : ‖p.value‖ ≤ scale + error := by
  have parts := norm_add_le (scale * unit angle) (p.value - scale * unit angle)
  rw [add_sub_cancel, norm_mul, norm_unit, mul_one, Complex.norm_natCast] at parts
  exact parts.trans (add_le_add_right near _)

theorem floor_near (n : ℤ) (positive : 0 < scale) : |((n / scale : ℤ) : ℝ) - n / scale| ≤ 1 := by
  have real : (0 : ℝ) < scale := by exact_mod_cast positive
  have division : (n : ℝ) = scale * (n / scale : ℤ) + (n % scale : ℤ) := by
    exact_mod_cast (Int.mul_ediv_add_emod n scale).symm
  have low : (0 : ℝ) ≤ (n % scale : ℤ) := by exact_mod_cast Int.emod_nonneg n (by omega)
  have high : ((n % scale : ℤ) : ℝ) < scale := by
    exact_mod_cast Int.emod_lt_of_pos n (by omega)
  have quotient : ((n / scale : ℤ) : ℝ) - n / scale = -((n % scale : ℤ) / scale) := by
    field_simp
    linarith
  rw [quotient, abs_neg, abs_of_nonneg (by positivity), div_le_one real]
  exact high.le

theorem times_value (p q : Point) (positive : 0 < scale) :
    ‖(p.times scale q).value - p.value * q.value / scale‖ ≤ 2 := by
  have re : (p.value * q.value / scale).re = ((p.cos * q.cos - p.sin * q.sin : ℤ) : ℝ) / scale := by
    simp [Point.value, Complex.div_natCast_re]
  have im : (p.value * q.value / scale).im = ((p.cos * q.sin + p.sin * q.cos : ℤ) : ℝ) / scale := by
    simp [Point.value, Complex.div_natCast_im]
  have real := floor_near (p.cos * q.cos - p.sin * q.sin) positive
  have imaginary := floor_near (p.cos * q.sin + p.sin * q.cos) positive
  refine (Complex.norm_le_abs_re_add_abs_im _).trans ?_
  rw [Complex.sub_re, Complex.sub_im, re, im]
  exact (add_le_add real imaginary).trans (by norm_num)

/-- The error of the first factor grows by the length of the second one. -/
theorem Near.times (positive : 0 < scale) (first : Near scale error p angle) (second : Near scale other q turn) :
    Near scale (error + error * other / scale + other + 2) (p.times scale q) (angle + turn) := by
  have real : (0 : ℝ) < scale := by exact_mod_cast positive
  have nonzero : (scale : ℂ) ≠ 0 := by exact_mod_cast real.ne'
  have parts : (p.times scale q).value - scale * unit (angle + turn) =
      ((p.times scale q).value - p.value * q.value / scale) +
        ((p.value - scale * unit angle) * (q.value / scale) + unit angle * (q.value - scale * unit turn)) := by
    rw [unit_add]
    field_simp
    ring
  have rounding := times_value p q positive
  have length : ‖q.value / scale‖ ≤ 1 + other / scale := by
    rw [norm_div, Complex.norm_natCast, div_le_iff₀ real, add_mul, div_mul_cancel₀ _ real.ne', one_mul]
    exact second.norm
  have stretched : ‖(p.value - scale * unit angle) * (q.value / scale)‖ ≤ error * (1 + other / scale) := by
    rw [norm_mul]
    exact mul_le_mul first length (norm_nonneg _) ((norm_nonneg _).trans first)
  have turned : ‖unit angle * (q.value - scale * unit turn)‖ ≤ other := by
    rw [norm_mul, norm_unit, one_mul]
    exact second
  unfold Near
  rw [parts]
  calc ‖_ + (_ + _)‖ ≤ 2 + (error * (1 + other / scale) + other) :=
        (norm_add_le _ _).trans (add_le_add rounding ((norm_add_le _ _).trans (add_le_add stretched turned)))
    _ = error + error * other / scale + other + 2 := by ring

/-! ### Lists along the powers of a point -/

section Walk

variable {A : Type} (scale) (one : Point) (good : Point → A → Bool)

/-- Each entry by the point of its place: from one place to the next the point turns by `one`. -/
def walk : Point → List A → Bool
  | _, [] => true
  | p, entry :: rest => good p entry && walk (p.times scale one) rest

variable {scale one good}

/-- While the error stays small against the scale, each place adds the same to it. -/
theorem walk_sound (positive : 0 < scale) (step : Near scale other one turn) (entries : List A)
    (start : Near scale error p angle) (room : (error + entries.length * (other + 3)) * other ≤ scale)
    (checked : walk scale one good p entries = true) (place : ℕ) (entry : A) (found : entries[place]? = some entry) :
    ∃ q : Point, Near scale (error + place * (other + 3)) q (angle + place * turn) ∧ good q entry = true := by
  have nonneg : 0 ≤ other := (norm_nonneg _).trans step
  have real : (0 : ℝ) < scale := by exact_mod_cast positive
  induction entries generalizing p error angle place with
  | nil => cases found
  | cons head rest ih =>
    obtain ⟨here, later⟩ := Bool.and_eq_true_iff.mp checked
    cases place with
    | zero =>
      obtain rfl : head = entry := by simpa using found
      refine ⟨p, ?_, here⟩
      simpa using start
    | succ place =>
      have length : ((head :: rest).length : ℝ) = rest.length + 1 := by simp
      rw [length] at room
      have lengthNonneg : (0 : ℝ) ≤ rest.length := Nat.cast_nonneg _
      have grown : error * other / scale ≤ 1 := by
        rw [div_le_one real]
        nlinarith [mul_nonneg (mul_nonneg lengthNonneg (by linarith : (0 : ℝ) ≤ other + 3)) nonneg,
          mul_nonneg (by linarith : (0 : ℝ) ≤ other + 3) nonneg]
      have next : Near scale (error + (other + 3)) (p.times scale one) (angle + turn) :=
        (start.times positive step).trans (by linarith)
      obtain ⟨q, near, fits⟩ := ih next (by linarith) later place (by simpa using found)
      refine ⟨q, ?_, fits⟩
      have error_eq : error + (other + 3) + place * (other + 3) = error + ((place + 1 : ℕ) : ℝ) * (other + 3) := by
        push_cast
        ring
      have angle_eq : angle + turn + place * turn = angle + ((place + 1 : ℕ) : ℝ) * turn := by
        push_cast
        ring
      rw [← error_eq, ← angle_eq]
      exact near

end Walk

/-! ### A first point -/

/-- The series up to the seventh power. -/
noncomputable def series (angle : ℝ) : ℂ :=
  ⟨1 - angle ^ 2 / (2).factorial + angle ^ 4 / (4).factorial - angle ^ 6 / (6).factorial,
    angle - angle ^ 3 / (3).factorial + angle ^ 5 / (5).factorial - angle ^ 7 / (7).factorial⟩

theorem series_near (small : |angle| ≤ 1) : ‖unit angle - series angle‖ ≤ |angle| ^ 8 / 35840 := by
  have length : ‖(angle : ℂ) * Complex.I‖ = |angle| := by simp
  have bound := Complex.exp_bound (x := angle * Complex.I) (by rwa [length]) (n := 8) (by norm_num)
  have sum : ∑ m ∈ Finset.range 8, ((angle : ℂ) * Complex.I) ^ m / m.factorial = series angle := by
    apply Complex.ext <;>
      simp [Finset.sum_range_succ, series, pow_succ, Nat.factorial, Complex.div_ofNat_re, Complex.div_ofNat_im] <;>
      ring
  rw [sum, length] at bound
  refine bound.trans (le_of_eq ?_)
  norm_num [Nat.factorial]
  ring

theorem sub_series (p : Point) (scale : ℕ) (angle : ℝ) : ‖p.value - scale * series angle‖ ≤
    |p.cos - scale * (1 - angle ^ 2 / 2 + angle ^ 4 / 24 - angle ^ 6 / 720)| +
      |p.sin - scale * (angle - angle ^ 3 / 6 + angle ^ 5 / 120 - angle ^ 7 / 5040)| := by
  refine (Complex.norm_le_abs_re_add_abs_im _).trans (le_of_eq ?_)
  simp [Point.value, series, Nat.factorial]

/-- The point of a number close to the angle. -/
theorem near_series {close far : ℝ} (small : |close| ≤ 1) (numbers : ‖p.value - scale * series close‖ ≤ error)
    (apart : |close - angle| ≤ far) : Near scale (error + scale * (|close| ^ 8 / 35840 + far)) p angle := by
  have parts : p.value - scale * unit angle = (p.value - scale * series close) -
      scale * ((unit close - series close) - (unit close - unit angle)) := by ring
  have sides : ‖(unit close - series close) - (unit close - unit angle)‖ ≤ |close| ^ 8 / 35840 + far :=
    (norm_sub_le _ _).trans (add_le_add (series_near small) ((unit_sub close angle).trans apart))
  unfold Near
  rw [parts]
  refine (norm_sub_le _ _).trans (add_le_add numbers ?_)
  rw [norm_mul, Complex.norm_natCast]
  exact mul_le_mul_of_nonneg_left sides (Nat.cast_nonneg _)

end Rotation
