import Unimoc.Lib.Kalman

/-! One cycle of a Kalman filter on the covariance: a prediction and the scalar measurements
after it. -/
namespace Kalman

open Matrix

structure Measurement (n : Type) where
  state : n
  noise : ℝ

variable {n : Type}

theorem update_column {P : Matrix n n ℝ} {measured : n} {noise : ℝ} (usable : P measured measured + noise ≠ 0)
    (i : n) : update P measured noise i measured * (P measured measured + noise) = P i measured * noise := by
  simp only [update, gain, Matrix.sub_apply, vecMulVec_apply]
  field_simp
  ring

theorem update_row {P : Matrix n n ℝ} {measured : n} {noise : ℝ} (usable : P measured measured + noise ≠ 0)
    (j : n) : update P measured noise measured j * (P measured measured + noise) = P measured j * noise := by
  simp only [update, gain, Matrix.sub_apply, vecMulVec_apply]
  field_simp
  ring

section

variable {P R : Matrix n n ℝ} {measured : n} {noise : ℝ} (psd : P.PosSemidef) (positive : 0 < noise)
include psd positive

theorem usable (measured : n) : 0 < P measured measured + noise :=
  add_pos_of_nonneg_of_pos psd.diag_nonneg positive

theorem update_injective (other : R.PosSemidef) (same : update P measured noise = update R measured noise) :
    P = R := by
  have first := (usable psd positive measured).ne'
  have second := (usable other positive measured).ne'
  have variance : P measured measured = R measured measured := by
    have left := update_column first measured
    have right := update_column second measured
    rw [same] at left
    have scaled : (P measured measured - R measured measured) * (noise * noise) = 0 := by
      linear_combination (P measured measured + noise) * right - (R measured measured + noise) * left
    have gone := (mul_eq_zero.mp scaled).resolve_right (mul_pos positive positive).ne'
    linarith
  ext i j
  have column : P i measured = R i measured := by
    have left := update_column first i
    rw [same, variance, update_column second] at left
    exact (mul_right_cancel₀ positive.ne' left).symm
  have row : P measured j = R measured j := by
    have left := update_row first j
    rw [same, variance, update_row second] at left
    exact (mul_right_cancel₀ positive.ne' left).symm
  have entry := congrFun (congrFun same i) j
  simp only [update, gain, Matrix.sub_apply, vecMulVec_apply, variance, column, row] at entry
  linarith

end

/-- Only one state is uncertain. -/
def Only (state : n) (P : Matrix n n ℝ) : Prop := ∀ i j, ¬(i = state ∧ j = state) → P i j = 0

theorem update_only {P : Matrix n n ℝ} (psd : P.PosSemidef) {noise : ℝ} (positive : 0 < noise)
    (measured state : n) : Only state (update P measured noise) ↔ Only state P := by
  have nonzero := (usable psd positive measured).ne'
  constructor
  · intro only i j elsewhere
    have entry := only i j elsewhere
    have product : P i measured * P measured j = 0 := by
      by_cases away : i = state ∧ measured = state
      · have row := update_row nonzero j
        rw [only measured j fun both => elsewhere ⟨away.1, both.2⟩, zero_mul] at row
        rw [(mul_eq_zero.mp row.symm).resolve_right positive.ne', mul_zero]
      · have column := update_column nonzero i
        rw [only i measured away, zero_mul] at column
        rw [(mul_eq_zero.mp column.symm).resolve_right positive.ne', zero_mul]
    simp only [update, gain, Matrix.sub_apply, vecMulVec_apply] at entry
    rw [div_mul_eq_mul_div, product, zero_div, sub_zero] at entry
    exact entry
  · intro only i j elsewhere
    have product : P i measured * P measured j = 0 := by
      by_cases away : i = state ∧ measured = state
      · rw [only measured j fun both => elsewhere ⟨away.1, both.2⟩, mul_zero]
      · rw [only i measured away, zero_mul]
    simp only [update, gain, Matrix.sub_apply, vecMulVec_apply]
    rw [div_mul_eq_mul_div, product, zero_div, sub_zero]
    exact only i j elsewhere

variable [Fintype n] [DecidableEq n]

/-- A measurement whose innovation has no positive variance is not used. -/
noncomputable def measure (P : Matrix n n ℝ) (m : Measurement n) : Matrix n n ℝ :=
  if 0 < innovationVariance P (Pi.single m.state 1) m.noise then
    textbookUpdate P (Pi.single m.state 1) m.noise
  else P

theorem measure_eq (P : Matrix n n ℝ) (m : Measurement n) :
    measure P m = if 0 < P m.state m.state + m.noise then update P m.state m.noise else P := by
  unfold measure
  rw [innovationVariance_single, textbookUpdate_single]

noncomputable def cycle (F : Matrix n n ℝ) (q : ℝ) (P : Matrix n n ℝ) (measured : List (Measurement n)) :
    Matrix n n ℝ :=
  measured.foldl measure (F * P * Fᵀ + q • (1 : Matrix n n ℝ))

section

variable {P R : Matrix n n ℝ} (psd : P.PosSemidef)
include psd

theorem measure_usable {m : Measurement n} (positive : 0 < m.noise) : measure P m = update P m.state m.noise := by
  rw [measure_eq, if_pos (usable psd positive m.state)]

theorem measure_posSemidef {m : Measurement n} (positive : 0 < m.noise) : (measure P m).PosSemidef := by
  rw [measure_usable psd positive]
  exact update_posSemidef psd positive.le (usable psd positive m.state)

theorem measure_injective {m : Measurement n} (positive : 0 < m.noise) (other : R.PosSemidef)
    (same : measure P m = measure R m) : P = R := by
  rw [measure_usable psd positive, measure_usable other positive] at same
  exact update_injective psd positive other same

theorem measured_posSemidef {measured : List (Measurement n)} (positive : ∀ m ∈ measured, 0 < m.noise) :
    (measured.foldl measure P).PosSemidef := by
  induction measured generalizing P with
  | nil => exact psd
  | cons m measured ih =>
    obtain ⟨first, rest⟩ := List.forall_mem_cons.mp positive
    exact ih (measure_posSemidef psd first) rest

theorem measured_only {measured : List (Measurement n)} (positive : ∀ m ∈ measured, 0 < m.noise) (state : n) :
    Only state (measured.foldl measure P) ↔ Only state P := by
  induction measured generalizing P with
  | nil => exact Iff.rfl
  | cons m measured ih =>
    obtain ⟨first, rest⟩ := List.forall_mem_cons.mp positive
    refine (ih (measure_posSemidef psd first) rest).trans ?_
    rw [measure_usable psd first]
    exact update_only psd first m.state state

end

end Kalman
