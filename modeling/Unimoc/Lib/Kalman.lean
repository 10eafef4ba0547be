import Mathlib.Algebra.Order.Star.Real
import Mathlib.Analysis.Matrix.PosDef
import Mathlib.Tactic.NoncommRing

/-! The covariance of a Kalman filter whose measurements are single states. -/
namespace Kalman

open Matrix

variable {n : Type} {P : Matrix n n ℝ} {measured : n} {noise : ℝ}

/-- The gain of a measurement, a share of the innovation for each state. -/
noncomputable def gain (P : Matrix n n ℝ) (measured : n) (noise : ℝ) (state : n) : ℝ :=
  P state measured / (P measured measured + noise)

noncomputable def update (P : Matrix n n ℝ) (measured : n) (noise : ℝ) : Matrix n n ℝ :=
  P - vecMulVec (gain P measured noise) (P measured)

theorem symmetric (psd : P.PosSemidef) (i j : n) : P i j = P j i := by
  simpa using congrFun (congrFun psd.isHermitian j) i

theorem isSymm (psd : P.PosSemidef) : P.IsSymm :=
  IsSymm.ext fun i j => symmetric psd j i

theorem gain_measured (psd : P.PosSemidef) (noise_nonneg : 0 ≤ noise) (measured : n) :
    0 ≤ gain P measured noise measured ∧ gain P measured noise measured ≤ 1 := by
  have variance := psd.diag_nonneg (i := measured)
  refine ⟨div_nonneg variance (add_nonneg variance noise_nonneg), ?_⟩
  exact div_le_one_of_le₀ (le_add_of_nonneg_right noise_nonneg) (add_nonneg variance noise_nonneg)

theorem update_symmetric (symm : P.IsSymm) (measured : n) (noise : ℝ) : (update P measured noise).IsSymm := by
  ext i j
  simp only [update, gain, transpose_apply, Matrix.sub_apply, vecMulVec_apply]
  rw [symm.apply i j, symm.apply measured i, symm.apply j measured]
  ring

/-- What both orders of two measurements come to. -/
theorem update_update (symm : P.IsSymm) {first second : n} {firstNoise secondNoise : ℝ}
    (usable : P first first + firstNoise ≠ 0)
    (apart : (P first first + firstNoise) * (P second second + secondNoise) - P first second ^ 2 ≠ 0)
    (i j : n) :
    update (update P first firstNoise) second secondNoise i j =
      P i j - ((P second second + secondNoise) * (P i first * P first j) +
          (P first first + firstNoise) * (P i second * P second j) -
          P first second * (P i first * P second j + P i second * P first j)) /
        ((P first first + firstNoise) * (P second second + secondNoise) - P first second ^ 2) := by
  have swapped : P second first = P first second := symm.apply first second
  simp only [update, gain, Matrix.sub_apply, vecMulVec_apply, swapped]
  generalize P first first + firstNoise = s at *
  have variance : P second second - P first second / s * P first second + secondNoise =
      (s * (P second second + secondNoise) - P first second ^ 2) / s := by
    field_simp
    ring
  rw [variance]
  generalize joint : s * (P second second + secondNoise) - P first second ^ 2 = d at *
  have second_eq : P second second + secondNoise = (d + P first second ^ 2) / s := by
    rw [← joint]
    field_simp
    ring
  rw [second_eq]
  field_simp
  ring

theorem update_comm (symm : P.IsSymm) {first second : n} {firstNoise secondNoise : ℝ}
    (firstUsable : P first first + firstNoise ≠ 0) (secondUsable : P second second + secondNoise ≠ 0)
    (apart : (P first first + firstNoise) * (P second second + secondNoise) - P first second ^ 2 ≠ 0) :
    update (update P first firstNoise) second secondNoise =
      update (update P second secondNoise) first firstNoise := by
  have swapped : P second first = P first second := symm.apply first second
  have turned : (P second second + secondNoise) * (P first first + firstNoise) - P second first ^ 2 =
      (P first first + firstNoise) * (P second second + secondNoise) - P first second ^ 2 := by
    rw [swapped, mul_comm]
  ext i j
  rw [update_update symm firstUsable apart, update_update symm secondUsable (turned ▸ apart), turned,
    swapped]
  ring

theorem covariance_le (psd : P.PosSemidef) (first second : n) :
    P first second ^ 2 ≤ P first first * P second second := by
  have minor := (psd.submatrix ![first, second]).det_nonneg
  rw [det_fin_two] at minor
  simp only [submatrix_apply, cons_val_zero, cons_val_one] at minor
  rw [symmetric psd second first] at minor
  linarith [sq (P first second)]

section Spread

variable (psd : P.PosSemidef) (noise_nonneg : 0 ≤ noise) (other : n) {spread : ℝ} (spread_nonneg : 0 ≤ spread)
include psd noise_nonneg spread_nonneg

theorem covariance_spread :
    P measured other ^ 2 ≤ (P other other + spread) * (P measured measured + noise) := by
  have minor := covariance_le psd measured other
  have first := psd.diag_nonneg (i := measured)
  have second := psd.diag_nonneg (i := other)
  calc P measured other ^ 2 ≤ P measured measured * P other other := minor
    _ ≤ (P measured measured + noise) * (P other other + spread) := by gcongr <;> linarith
    _ = (P other other + spread) * (P measured measured + noise) := mul_comm ..

omit psd noise_nonneg spread_nonneg in
theorem update_measured (usable : 0 < P measured measured + noise) :
    update P measured noise measured other = P measured other * (noise / (P measured measured + noise)) := by
  simp only [update, gain, Matrix.sub_apply, vecMulVec_apply]
  field_simp
  ring

/-- What a later measurement of another state would move the measured one only gets less. -/
theorem update_share (usable : 0 < P measured measured + noise) :
    |update P measured noise measured other| * (P other other + spread) ≤
      |P measured other| * (update P measured noise other other + spread) := by
  have minor := covariance_le psd measured other
  have variance := psd.diag_nonneg (i := measured)
  have swapped := symmetric psd other measured
  have right : update P measured noise other other =
      P other other - P measured other ^ 2 / (P measured measured + noise) := by
    simp only [update, gain, Matrix.sub_apply, vecMulVec_apply, swapped]
    ring
  rw [update_measured other usable, right, abs_mul, abs_of_nonneg (div_nonneg noise_nonneg usable.le), mul_assoc]
  refine mul_le_mul_of_nonneg_left ?_ (abs_nonneg _)
  rw [div_mul_eq_mul_div, div_le_iff₀ usable, add_mul, sub_mul, div_mul_cancel₀ _ usable.ne']
  nlinarith [mul_nonneg variance spread_nonneg]

end Spread

variable [Fintype n] [DecidableEq n]

/-- The same covariance as a sum of two that cannot be negative. -/
theorem update_eq_sum (psd : P.PosSemidef) (usable : P measured measured + noise ≠ 0) :
    update P measured noise =
      (1 - vecMulVec (gain P measured noise) (Pi.single measured 1)) * P *
          (1 - vecMulVec (gain P measured noise) (Pi.single measured 1))ᴴ +
        noise • vecMulVec (gain P measured noise) (gain P measured noise) := by
  have column (i : n) : P i measured = gain P measured noise i * (P measured measured + noise) :=
    (div_mul_cancel₀ _ usable).symm
  generalize gain_eq : gain P measured noise = g at column ⊢
  have left : vecMulVec g (Pi.single measured 1) * P = vecMulVec g (P measured) := by
    rw [vecMulVec_mul, single_one_vecMul]
    rfl
  have right : P * (vecMulVec g (Pi.single measured 1))ᴴ = vecMulVec (fun i => P i measured) g := by
    rw [conjTranspose_vecMulVec, mul_vecMulVec]
    ext i j
    simp [vecMulVec_apply]
  have both : vecMulVec g (Pi.single measured 1) * P * (vecMulVec g (Pi.single measured 1))ᴴ =
      P measured measured • vecMulVec g g := by
    rw [Matrix.mul_assoc, right, vecMulVec_mul_vecMulVec]
    ext i j
    simp only [vecMulVec_apply, Matrix.smul_apply, single_one_dotProduct, smul_eq_mul, Pi.smul_apply]
    ring
  have expand (K : Matrix n n ℝ) : (1 - K) * P * (1 - K)ᴴ = P - K * P - P * Kᴴ + K * P * Kᴴ := by
    rw [conjTranspose_sub, conjTranspose_one]
    noncomm_ring
  rw [expand, both, left, right]
  ext i j
  simp only [update, gain_eq, Matrix.sub_apply, Matrix.add_apply, Matrix.smul_apply, vecMulVec_apply,
    smul_eq_mul]
  rw [symmetric psd measured j, column i, column j]
  ring

/-- The variance of the innovation of a measurement with the row `h`. -/
def innovationVariance (P : Matrix n n ℝ) (h : n → ℝ) (noise : ℝ) : ℝ := h ⬝ᵥ (P *ᵥ h) + noise

noncomputable def textbookGain (P : Matrix n n ℝ) (h : n → ℝ) (noise : ℝ) : n → ℝ :=
  (innovationVariance P h noise)⁻¹ • (P *ᵥ h)

noncomputable def textbookUpdate (P : Matrix n n ℝ) (h : n → ℝ) (noise : ℝ) : Matrix n n ℝ :=
  P - (innovationVariance P h noise)⁻¹ • (P * vecMulVec h h * P)

theorem innovationVariance_single (P : Matrix n n ℝ) (measured : n) (noise : ℝ) :
    innovationVariance P (Pi.single measured 1) noise = P measured measured + noise := by
  unfold innovationVariance
  rw [mulVec_single_one, single_one_dotProduct]
  rfl

theorem textbookGain_single (P : Matrix n n ℝ) (measured : n) (noise : ℝ) :
    textbookGain P (Pi.single measured 1) noise = gain P measured noise := by
  ext state
  unfold textbookGain gain
  rw [innovationVariance_single, mulVec_single_one, Pi.smul_apply, smul_eq_mul, inv_mul_eq_div]
  rfl

theorem textbookUpdate_single (P : Matrix n n ℝ) (measured : n) (noise : ℝ) :
    textbookUpdate P (Pi.single measured 1) noise = update P measured noise := by
  have product : P * vecMulVec (Pi.single measured 1) (Pi.single measured 1) * P =
      vecMulVec (fun i => P i measured) (P measured) := by
    rw [mul_vecMulVec, vecMulVec_mul, single_one_vecMul, mulVec_single_one]
    rfl
  unfold textbookUpdate
  rw [product, innovationVariance_single]
  ext i j
  simp only [update, gain, Matrix.sub_apply, Matrix.smul_apply, vecMulVec_apply, smul_eq_mul]
  ring

theorem update_posSemidef (psd : P.PosSemidef) (noise_nonneg : 0 ≤ noise)
    (usable : 0 < P measured measured + noise) : (update P measured noise).PosSemidef := by
  rw [update_eq_sum psd usable.ne']
  refine (psd.mul_mul_conjTranspose_same _).add (PosSemidef.smul ?_ noise_nonneg)
  exact posSemidef_vecMulVec_self_star (gain P measured noise)

/-- Together the two measurements move it no further than one that is taken alone. -/
theorem update_moved (psd : P.PosSemidef) (noise_nonneg : 0 ≤ noise) (other : n) {spread : ℝ}
    (spread_nonneg : 0 ≤ spread) (usable : 0 < P measured measured + noise)
    (uncertain : 0 < P other other + spread) :
    |update P measured noise measured other| * (|P measured other| / (P measured measured + noise)) ≤
      update P measured noise other other + spread := by
  have share := update_share psd noise_nonneg other spread_nonneg usable
  have within : P measured other ^ 2 ≤ (P other other + spread) * (P measured measured + noise) :=
    covariance_spread psd noise_nonneg other spread_nonneg
  have left : 0 ≤ update P measured noise other other + spread :=
    add_nonneg ((update_posSemidef psd noise_nonneg usable).diag_nonneg (i := other)) spread_nonneg
  rw [← sq_abs] at within
  rw [← mul_div_assoc, div_le_iff₀ usable]
  generalize update P measured noise measured other = after at share ⊢
  generalize update P measured noise other other + spread = remains at share left ⊢
  refine le_of_mul_le_mul_right ?_ uncertain
  calc |after| * |P measured other| * (P other other + spread)
      = |P measured other| * (|after| * (P other other + spread)) := by ring
    _ ≤ |P measured other| * (|P measured other| * remains) := by gcongr
    _ = |P measured other| ^ 2 * remains := by ring
    _ ≤ (P other other + spread) * (P measured measured + noise) * remains := by gcongr
    _ = remains * (P measured measured + noise) * (P other other + spread) := by ring

theorem predict_posSemidef (psd : P.PosSemidef) (F : Matrix n n ℝ) {q : ℝ} (q_nonneg : 0 ≤ q) :
    (F * P * Fᴴ + q • (1 : Matrix n n ℝ)).PosSemidef :=
  (psd.mul_mul_conjTranspose_same F).add (PosSemidef.one.smul q_nonneg)

end Kalman
