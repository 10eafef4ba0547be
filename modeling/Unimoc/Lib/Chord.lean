import Unimoc.Lib.Rotation

/-! Interpolation along a chord of the unit circle, with one step of a correction that brings the
length back to one. -/
namespace Rotation

/-- The tangent of the inverse square root at one. -/
noncomputable def corrected (z : ℂ) : ℂ := (1.5 - 0.5 * ‖z‖ ^ 2 : ℝ) * z

theorem corrected_eq (z : ℂ) : corrected z = (3 / 2 - ‖z‖ ^ 2 / 2 : ℝ) * z := by
  have factor : (1.5 - 0.5 * ‖z‖ ^ 2 : ℝ) = 3 / 2 - ‖z‖ ^ 2 / 2 := by
    norm_num
    ring
  rw [corrected, factor]

noncomputable def chord (start stop : ℂ) (fraction : ℝ) : ℂ := start + fraction * (stop - start)

theorem norm_sq (x y : ℝ) : ‖(⟨x, y⟩ : ℂ)‖ ^ 2 = x ^ 2 + y ^ 2 := by
  rw [Complex.sq_norm, Complex.normSq_mk]
  ring

theorem corrected_rotated (angle : ℝ) (z : ℂ) : corrected (unit angle * z) = unit angle * corrected z := by
  rw [corrected_eq, corrected_eq, norm_mul, norm_unit, one_mul]
  ring

/-- No point that is not far too long comes out longer than one, and one of almost length one comes
out shorter only by the square of what it is off. -/
theorem norm_corrected {z : ℂ} {off : ℝ} (near : |‖z‖ - 1| ≤ off) (small : off ≤ 1 / 2) :
    1 - 7 / 4 * off ^ 2 ≤ ‖corrected z‖ ∧ ‖corrected z‖ ≤ 1 := by
  obtain ⟨low, high⟩ := abs_le.mp near
  have square : (‖z‖ - 1) ^ 2 ≤ off ^ 2 := sq_le_sq' low high
  have factor : 0 ≤ 3 / 2 - ‖z‖ ^ 2 / 2 := by nlinarith [norm_nonneg z]
  have length : ‖corrected z‖ = 1 - (‖z‖ - 1) ^ 2 * (‖z‖ + 2) / 2 := by
    rw [corrected_eq, norm_mul, Complex.norm_real, Real.norm_of_nonneg factor]
    ring
  rw [length]
  constructor
  · have most : (‖z‖ - 1) ^ 2 * (‖z‖ + 2) ≤ off ^ 2 * (7 / 2) :=
      mul_le_mul square (by linarith) (by linarith [norm_nonneg z]) (sq_nonneg off)
    linarith
  · have least : 0 ≤ (‖z‖ - 1) ^ 2 * (‖z‖ + 2) := mul_nonneg (sq_nonneg _) (by linarith [norm_nonneg z])
    linarith

/-! ### The correction does not stretch an error -/

/-- Along the point the slope of the correction is small, across it it is the factor. -/
theorem slope (w d : ℂ) (inside : ‖w‖ ≤ 1) :
    ‖(3 / 2 - ‖w‖ ^ 2 / 2 : ℝ) * d - (w.re * d.re + w.im * d.im : ℝ) * w‖ ≤ (3 / 2 - ‖w‖ ^ 2 / 2) * ‖d‖ := by
  have short : ‖w‖ ^ 2 ≤ 1 := pow_le_one₀ (norm_nonneg w) inside
  have factor : 0 ≤ 3 / 2 - ‖w‖ ^ 2 / 2 := by linarith
  have along : 0 ≤ (w.re * d.re + w.im * d.im) ^ 2 * (3 - 2 * ‖w‖ ^ 2) :=
    mul_nonneg (sq_nonneg _) (by linarith)
  refine abs_le_of_sq_le_sq' ?_ (mul_nonneg factor (norm_nonneg d)) |>.2
  have point : ‖w‖ ^ 2 = w.re ^ 2 + w.im ^ 2 := norm_sq w.re w.im
  have change : ‖d‖ ^ 2 = d.re ^ 2 + d.im ^ 2 := norm_sq d.re d.im
  rw [mul_pow, change, Complex.sq_norm, Complex.normSq_apply]
  simp only [Complex.sub_re, Complex.sub_im, Complex.re_ofReal_mul, Complex.im_ofReal_mul]
  rw [point] at along ⊢
  nlinarith [along]

theorem corrected_sub (w d : ℂ) (inside : ‖w‖ ≤ 1) (small : ‖d‖ ≤ 1) :
    ‖corrected (w + d) - corrected w‖ ≤ (3 / 2 - ‖w‖ ^ 2 / 2) * ‖d‖ + 2 * ‖d‖ ^ 2 := by
  have point : ‖w‖ ^ 2 = w.re ^ 2 + w.im ^ 2 := norm_sq w.re w.im
  have change : ‖d‖ ^ 2 = d.re ^ 2 + d.im ^ 2 := norm_sq d.re d.im
  have sum : ‖w + d‖ ^ 2 = (w.re + d.re) ^ 2 + (w.im + d.im) ^ 2 := norm_sq _ _
  have parts : corrected (w + d) - corrected w =
      ((3 / 2 - ‖w‖ ^ 2 / 2 : ℝ) * d - (w.re * d.re + w.im * d.im : ℝ) * w) -
        ((‖d‖ ^ 2 / 2 : ℝ) * w + (w.re * d.re + w.im * d.im + ‖d‖ ^ 2 / 2 : ℝ) * d) := by
    have length : ‖w + d‖ ^ 2 = ‖w‖ ^ 2 + 2 * (w.re * d.re + w.im * d.im) + ‖d‖ ^ 2 := by
      rw [sum, point, change]
      ring
    rw [corrected_eq, corrected_eq, length]
    push_cast
    ring
  have product : |w.re * d.re + w.im * d.im| ≤ ‖d‖ := by
    refine abs_le_of_sq_le_sq ?_ (norm_nonneg d)
    have cauchy : (w.re * d.re + w.im * d.im) ^ 2 ≤ ‖w‖ ^ 2 * ‖d‖ ^ 2 := by
      rw [point, change]
      nlinarith [sq_nonneg (w.re * d.im - w.im * d.re)]
    refine cauchy.trans (mul_le_of_le_one_left (sq_nonneg _) (pow_le_one₀ (norm_nonneg w) inside))
  have first : ‖((‖d‖ ^ 2 / 2 : ℝ) : ℂ) * w‖ ≤ ‖d‖ ^ 2 / 2 := by
    rw [norm_mul, Complex.norm_real, Real.norm_of_nonneg (by positivity)]
    exact mul_le_of_le_one_right (by positivity) inside
  have second : ‖((w.re * d.re + w.im * d.im + ‖d‖ ^ 2 / 2 : ℝ) : ℂ) * d‖ ≤ (‖d‖ + ‖d‖ ^ 2 / 2) * ‖d‖ := by
    rw [norm_mul, Complex.norm_real, Real.norm_eq_abs]
    refine mul_le_mul_of_nonneg_right ?_ (norm_nonneg d)
    refine (abs_add_le _ _).trans (add_le_add product ?_)
    rw [abs_of_nonneg (by positivity)]
  have cube : ‖d‖ ^ 2 * ‖d‖ ≤ ‖d‖ ^ 2 := mul_le_of_le_one_right (sq_nonneg _) small
  rw [parts]
  refine (norm_sub_le _ _).trans (add_le_add (slope w d inside) ?_)
  refine (norm_add_le _ _).trans ?_
  linarith [first, second]

/-! ### The chord against the arc -/

section Arc

variable {u a : ℝ}

theorem sin_between (nonneg : 0 ≤ a) (small : a ≤ 1) :
    a - a ^ 3 / 5 ≤ Real.sin a ∧ Real.sin a ≤ a := by
  have bound := abs_le.mp (@Real.sin_bound a (by rwa [abs_of_nonneg nonneg]))
  rw [abs_of_nonneg nonneg] at bound
  have higher : a ^ 5 ≤ a ^ 3 := pow_le_pow_of_le_one nonneg small (by norm_num)
  exact ⟨by linarith [pow_nonneg nonneg 3], Real.sin_le nonneg⟩

theorem chord_cos (side : |u| ≤ 1) (nonneg : 0 ≤ a) (small : a ≤ 1) :
    |Real.cos a * (1 + Real.sin a ^ 2 * (1 - u ^ 2) / 2) - Real.cos (u * a)| ≤ 3 / 5 * a ^ 4 := by
  have square : u ^ 2 ≤ 1 := (sq_le_one_iff_abs_le_one u).mpr side
  have smaller : |u * a| ≤ a := by
    rw [abs_mul, abs_of_nonneg nonneg]
    exact mul_le_of_le_one_left nonneg side
  have fourth : |u * a| ^ 4 ≤ a ^ 4 := pow_le_pow_left₀ (abs_nonneg _) smaller 4
  obtain ⟨end_low, end_high⟩ := abs_le.mp (@Real.cos_bound a (by rwa [abs_of_nonneg nonneg]))
  obtain ⟨low, high⟩ := abs_le.mp (Real.cos_bound (smaller.trans small))
  rw [abs_of_nonneg nonneg] at end_low end_high
  obtain ⟨sine_low, sine_high⟩ := sin_between nonneg small
  have sine : 0 ≤ Real.sin a := Real.sin_nonneg_of_nonneg_of_le_pi nonneg (by linarith [Real.pi_gt_three])
  have cosine : 1 - a ^ 2 / 2 ≤ Real.cos a := Real.one_sub_sq_div_two_le_cos
  have most : Real.cos a * Real.sin a ^ 2 ≤ a ^ 2 := by
    refine (mul_le_of_le_one_left (sq_nonneg _) (Real.cos_le_one a)).trans ?_
    exact pow_le_pow_left₀ sine sine_high 2
  have square_low : a ^ 2 - 2 / 5 * a ^ 4 ≤ Real.sin a ^ 2 := by
    nlinarith [sq_nonneg (Real.sin a - (a - a ^ 3 / 5)), pow_nonneg nonneg 3, mul_nonneg nonneg (sub_nonneg.mpr sine_low)]
  have least : a ^ 2 - 9 / 10 * a ^ 4 ≤ Real.cos a * Real.sin a ^ 2 := by
    have half : a ^ 2 / 2 * Real.sin a ^ 2 ≤ a ^ 2 / 2 * a ^ 2 :=
      mul_le_mul_of_nonneg_left (pow_le_pow_left₀ sine sine_high 2) (by positivity)
    have scaled := mul_le_mul_of_nonneg_right cosine (sq_nonneg (Real.sin a))
    nlinarith
  have share : 0 ≤ (1 - u ^ 2) / 2 ∧ (1 - u ^ 2) / 2 ≤ 1 / 2 := ⟨by linarith, by linarith [sq_nonneg u]⟩
  have rest_low := mul_nonneg (sub_nonneg.mpr most) share.1
  have rest_high : (a ^ 2 - Real.cos a * Real.sin a ^ 2) * ((1 - u ^ 2) / 2) ≤ 9 / 10 * a ^ 4 * (1 / 2) :=
    mul_le_mul (by linarith) share.2 share.1 (by positivity)
  have parts : Real.cos a * (1 + Real.sin a ^ 2 * (1 - u ^ 2) / 2) - Real.cos (u * a) =
      (Real.cos a - (1 - a ^ 2 / 2)) - (Real.cos (u * a) - (1 - (u * a) ^ 2 / 2)) -
        (a ^ 2 - Real.cos a * Real.sin a ^ 2) * ((1 - u ^ 2) / 2) := by ring
  rw [parts]
  exact abs_le.mpr ⟨by linarith, by linarith⟩

theorem cubic_le (side : |u| ≤ 1) : |u * (1 - u ^ 2)| ≤ 77 / 200 := by
  have nonneg := abs_nonneg u
  have bound : |u| * (1 - |u| ^ 2) ≤ 77 / 200 := by
    nlinarith [mul_nonneg (sq_nonneg (|u| - 57735 / 100000)) (by linarith : 0 ≤ |u| + 11547 / 10000)]
  rw [abs_mul, abs_of_nonneg (a := 1 - u ^ 2) (by linarith [(sq_le_one_iff_abs_le_one u).mpr side]), ← sq_abs u]
  exact bound

theorem chord_sin (side : |u| ≤ 1) (nonneg : 0 ≤ a) (small : a ≤ 1) :
    |u * Real.sin a * (1 + Real.sin a ^ 2 * (1 - u ^ 2) / 2) - Real.sin (u * a)| ≤
      77 / 600 * a ^ 3 + 2 / 5 * a ^ 5 := by
  have smaller : |u * a| ≤ a := by
    rw [abs_mul, abs_of_nonneg nonneg]
    exact mul_le_of_le_one_left nonneg side
  have atEnd := @Real.sin_bound a (by rwa [abs_of_nonneg nonneg])
  rw [abs_of_nonneg nonneg] at atEnd
  have inner := Real.sin_bound (smaller.trans small)
  have fifth : |u * a| ^ 5 ≤ a ^ 5 := pow_le_pow_left₀ (abs_nonneg _) smaller 5
  obtain ⟨sine_low, sine_high⟩ := sin_between nonneg small
  have sine : 0 ≤ Real.sin a := Real.sin_nonneg_of_nonneg_of_le_pi nonneg (by linarith [Real.pi_gt_three])
  have cubes : 0 ≤ a ^ 3 - Real.sin a ^ 3 ∧ a ^ 3 - Real.sin a ^ 3 ≤ 3 / 5 * a ^ 5 := by
    have difference : a ^ 3 - Real.sin a ^ 3 = (a - Real.sin a) * (a ^ 2 + a * Real.sin a + Real.sin a ^ 2) := by ring
    have sum : a ^ 2 + a * Real.sin a + Real.sin a ^ 2 ≤ 3 * a ^ 2 := by nlinarith
    have positive : 0 ≤ a ^ 2 + a * Real.sin a + Real.sin a ^ 2 := by positivity
    rw [difference]
    refine ⟨mul_nonneg (by linarith) positive, ?_⟩
    have product := mul_le_mul (by linarith : a - Real.sin a ≤ a ^ 3 / 5) sum positive (by positivity)
    linarith
  have first : |u * (Real.sin a - (a - a ^ 3 / 6))| ≤ a ^ 5 / 100 := by
    rw [abs_mul]
    exact (mul_le_of_le_one_left (abs_nonneg _) side).trans atEnd
  have middle : |u * (1 - u ^ 2) * (a ^ 3 / 3)| ≤ 77 / 600 * a ^ 3 := by
    rw [abs_mul, abs_of_nonneg (a := a ^ 3 / 3) (by positivity)]
    exact (mul_le_mul_of_nonneg_right (cubic_le side) (by positivity)).trans (by linarith)
  have last : |u * (1 - u ^ 2) * ((a ^ 3 - Real.sin a ^ 3) / 2)| ≤ 3 / 10 * a ^ 5 := by
    rw [abs_mul, abs_of_nonneg (a := (a ^ 3 - Real.sin a ^ 3) / 2) (by linarith [cubes.1])]
    have scaled := mul_le_mul (cubic_le side) (by linarith [cubes.2] : (a ^ 3 - Real.sin a ^ 3) / 2 ≤ 3 / 10 * a ^ 5)
      (by linarith [cubes.1]) (by norm_num)
    linarith [pow_nonneg nonneg 5]
  have parts : u * Real.sin a * (1 + Real.sin a ^ 2 * (1 - u ^ 2) / 2) - Real.sin (u * a) =
      u * (Real.sin a - (a - a ^ 3 / 6)) - (Real.sin (u * a) - (u * a - (u * a) ^ 3 / 6)) +
        u * (1 - u ^ 2) * (a ^ 3 / 3) - u * (1 - u ^ 2) * ((a ^ 3 - Real.sin a ^ 3) / 2) := by ring
  obtain ⟨a1, a2⟩ := abs_le.mp first
  obtain ⟨b1, b2⟩ := abs_le.mp (inner.trans (by linarith : _ ≤ a ^ 5 / 100))
  obtain ⟨c1, c2⟩ := abs_le.mp middle
  obtain ⟨d1, d2⟩ := abs_le.mp last
  rw [parts]
  have higher := pow_nonneg nonneg 5
  exact abs_le.mpr ⟨by linarith, by linarith⟩

/-- The chord between the two ends of an arc of half width `a`, seen from its middle. -/
theorem middle_error (side : |u| ≤ 1) (nonneg : 0 ≤ a) (small : a ≤ 1) :
    ‖corrected ⟨Real.cos a, u * Real.sin a⟩ - unit (u * a)‖ ≤ 77 / 600 * a ^ 3 + a ^ 4 := by
  have length : ‖(⟨Real.cos a, u * Real.sin a⟩ : ℂ)‖ ^ 2 = 1 - Real.sin a ^ 2 * (1 - u ^ 2) := by
    rw [norm_sq, Real.cos_sq']
    ring
  have re : (corrected ⟨Real.cos a, u * Real.sin a⟩ - unit (u * a)).re =
      Real.cos a * (1 + Real.sin a ^ 2 * (1 - u ^ 2) / 2) - Real.cos (u * a) := by
    rw [Complex.sub_re, unit_re, corrected_eq, length, Complex.re_ofReal_mul]
    ring
  have im : (corrected ⟨Real.cos a, u * Real.sin a⟩ - unit (u * a)).im =
      u * Real.sin a * (1 + Real.sin a ^ 2 * (1 - u ^ 2) / 2) - Real.sin (u * a) := by
    rw [Complex.sub_im, unit_im, corrected_eq, length, Complex.im_ofReal_mul]
    ring
  have higher : a ^ 5 ≤ a ^ 4 := pow_le_pow_of_le_one nonneg small (by norm_num)
  refine (Complex.norm_le_abs_re_add_abs_im _).trans ?_
  rw [re, im]
  linarith [chord_cos side nonneg small, chord_sin side nonneg small]

end Arc

theorem chord_units (angle width fraction : ℝ) :
    chord (unit angle) (unit (angle + width)) fraction =
      unit (angle + width / 2) * ⟨Real.cos (width / 2), (2 * fraction - 1) * Real.sin (width / 2)⟩ := by
  have start : unit angle = unit (angle + width / 2) * ⟨Real.cos (width / 2), -Real.sin (width / 2)⟩ := by
    have back : (⟨Real.cos (width / 2), -Real.sin (width / 2)⟩ : ℂ) = unit (-(width / 2)) := by
      apply Complex.ext
      · rw [unit_re, Real.cos_neg]
      · rw [unit_im, Real.sin_neg]
    rw [back, ← unit_add]
    congr 1
    ring
  have stop : unit (angle + width) = unit (angle + width / 2) * ⟨Real.cos (width / 2), Real.sin (width / 2)⟩ := by
    have forth : (⟨Real.cos (width / 2), Real.sin (width / 2)⟩ : ℂ) = unit (width / 2) := by
      apply Complex.ext
      · rw [unit_re]
      · rw [unit_im]
    rw [forth, ← unit_add]
    congr 1
    ring
  rw [chord, stop, start, ← mul_sub, mul_left_comm, ← mul_add]
  congr 1
  apply Complex.ext
  · simp
  · simp
    ring

/-- Interpolated along the chord of an arc and corrected, a point is that far from the arc. -/
theorem chord_error {angle width fraction : ℝ} (inside : 0 ≤ fraction) (part : fraction ≤ 1) (forwards : 0 ≤ width)
    (narrow : width ≤ 2) :
    ‖corrected (chord (unit angle) (unit (angle + width)) fraction) - unit (angle + fraction * width)‖ ≤
      77 / 600 * (width / 2) ^ 3 + (width / 2) ^ 4 := by
  have side : |2 * fraction - 1| ≤ 1 := abs_le.mpr ⟨by linarith, by linarith⟩
  have target : unit (angle + fraction * width) =
      unit (angle + width / 2) * unit ((2 * fraction - 1) * (width / 2)) := by
    rw [← unit_add]
    congr 1
    ring
  rw [chord_units, corrected_rotated, target, ← mul_sub, norm_mul, norm_unit, one_mul]
  exact middle_error side (by linarith) (by linarith)

/-- A chord lies inside the circle, and not far. -/
theorem norm_chord {angle width fraction : ℝ} (inside : 0 ≤ fraction) (part : fraction ≤ 1) :
    ‖chord (unit angle) (unit (angle + width)) fraction‖ ≤ 1 ∧
    1 - (width / 2) ^ 2 ≤ ‖chord (unit angle) (unit (angle + width)) fraction‖ ^ 2 := by
  have square : (2 * fraction - 1) ^ 2 ≤ 1 := by nlinarith
  have length : ‖chord (unit angle) (unit (angle + width)) fraction‖ ^ 2 =
      1 - Real.sin (width / 2) ^ 2 * (1 - (2 * fraction - 1) ^ 2) := by
    rw [chord_units, norm_mul, norm_unit, one_mul, norm_sq, Real.cos_sq']
    ring
  have sine : Real.sin (width / 2) ^ 2 ≤ (width / 2) ^ 2 := Real.sin_sq_le_sq
  constructor
  · refine (sq_le_one_iff₀ (norm_nonneg _)).mp ?_
    rw [length]
    nlinarith [mul_nonneg (sq_nonneg (Real.sin (width / 2))) (sub_nonneg.mpr square)]
  · rw [length]
    nlinarith [mul_nonneg (sq_nonneg (Real.sin (width / 2))) (sq_nonneg (2 * fraction - 1))]

theorem chord_sub {start stop first second : ℂ} {fraction error : ℝ} (inside : 0 ≤ fraction) (part : fraction ≤ 1)
    (near : ‖start - first‖ ≤ error) (close : ‖stop - second‖ ≤ error) :
    ‖chord start stop fraction - chord first second fraction‖ ≤ error := by
  have parts : chord start stop fraction - chord first second fraction =
      ((1 - fraction : ℝ) : ℂ) * (start - first) + (fraction : ℂ) * (stop - second) := by
    unfold chord
    push_cast
    ring
  rw [parts]
  refine (norm_add_le _ _).trans ?_
  rw [norm_mul, norm_mul, Complex.norm_real, Complex.norm_real, Real.norm_of_nonneg inside,
    Real.norm_of_nonneg (by linarith)]
  linarith [mul_le_mul_of_nonneg_left near (by linarith : 0 ≤ 1 - fraction), mul_le_mul_of_nonneg_left close inside]

section Interpolated

/-! A point that is only close to the chord. -/

variable {z : ℂ} {angle width fraction error : ℝ} (inside : 0 ≤ fraction) (part : fraction ≤ 1)
  (near : ‖z - chord (unit angle) (unit (angle + width)) fraction‖ ≤ error)
include inside part near

theorem corrected_near (forwards : 0 ≤ width) (narrow : width ≤ 2) (small : error ≤ 1) :
    ‖corrected z - unit (angle + fraction * width)‖ ≤
      77 / 600 * (width / 2) ^ 3 + (width / 2) ^ 4 + (1 + (width / 2) ^ 2 / 2) * error + 2 * error ^ 2 := by
  obtain ⟨within, long⟩ := norm_chord inside part
  have stretched := corrected_sub _ _ within (near.trans small)
  rw [add_sub_cancel] at stretched
  have slope := mul_le_mul (by linarith : 3 / 2 - ‖chord (unit angle) (unit (angle + width)) fraction‖ ^ 2 / 2 ≤
    1 + (width / 2) ^ 2 / 2) near (norm_nonneg _) (by positivity)
  have square : ‖z - chord (unit angle) (unit (angle + width)) fraction‖ ^ 2 ≤ error ^ 2 :=
    pow_le_pow_left₀ (norm_nonneg _) near 2
  have arc := @chord_error angle width fraction inside part forwards narrow
  refine (norm_sub_le_norm_sub_add_norm_sub _ (corrected (chord (unit angle) (unit (angle + width)) fraction)) _).trans ?_
  linarith

theorem norm_corrected_near (small : (width / 2) ^ 2 + error ≤ 1 / 2) :
    1 - 7 / 4 * ((width / 2) ^ 2 + error) ^ 2 ≤ ‖corrected z‖ ∧ ‖corrected z‖ ≤ 1 := by
  obtain ⟨within, long⟩ := norm_chord inside part
  obtain ⟨low, high⟩ := abs_le.mp ((abs_norm_sub_norm_le _ _).trans near)
  have short : ‖chord (unit angle) (unit (angle + width)) fraction‖ ^ 2 ≤
      ‖chord (unit angle) (unit (angle + width)) fraction‖ := by
    rw [sq]
    exact mul_le_of_le_one_left (norm_nonneg _) within
  exact norm_corrected (abs_le.mpr ⟨by linarith, by nlinarith⟩) small

end Interpolated

end Rotation
