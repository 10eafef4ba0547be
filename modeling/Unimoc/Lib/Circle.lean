import Mathlib.Algebra.Order.Archimedean.Real.Basic
import Mathlib.Tactic.Linarith
import Mathlib.Tactic.Push

/-! Positions around a circle of some period, as numbers that differ by whole turns, and an arc of
the circle given by its middle and its half width. -/
namespace Circle

variable {period half deviation : ℝ}

/-- Turned back to within half a period of the middle of an arc, so much leads to the arc: nothing
from inside, and the way to the nearer end from outside. -/
noncomputable def correction (half deviation : ℝ) : ℝ :=
  open Classical in
  if half < deviation then half - deviation
  else if deviation < -half then -half - deviation
  else 0

theorem correction_arrives (nonneg : 0 ≤ half) : |deviation + correction half deviation| ≤ half := by
  unfold correction
  split_ifs with above below
  · rw [add_sub_cancel, abs_of_nonneg nonneg]
  · rw [add_sub_cancel, abs_neg, abs_of_nonneg nonneg]
  · rw [add_zero]
    exact abs_le.mpr ⟨not_lt.mp below, not_lt.mp above⟩

theorem correction_magnitude (nonneg : 0 ≤ half) (outside : half < |deviation|) :
    |correction half deviation| = |deviation| - half := by
  unfold correction
  split_ifs with above below
  · rw [abs_of_pos (nonneg.trans_lt above), abs_of_neg (sub_neg.mpr above)]
    ring
  · rw [abs_of_pos (by linarith), abs_of_neg (by linarith)]
    ring
  · exact absurd (abs_le.mpr ⟨not_lt.mp below, not_lt.mp above⟩) (not_le.mpr outside)

theorem correction_zero (nonneg : 0 ≤ half) : correction half deviation = 0 ↔ |deviation| ≤ half := by
  constructor
  · intro zero
    by_contra outside
    have magnitude := correction_magnitude nonneg (not_le.mp outside)
    rw [zero, abs_zero] at magnitude
    linarith
  · intro inside
    obtain ⟨low, high⟩ := abs_le.mp inside
    unfold correction
    rw [if_neg (not_lt.mpr high), if_neg (not_lt.mpr low)]

/-- No smaller correction arrives, not even the other way round the circle. -/
theorem beyond (principal : |deviation| ≤ period / 2) {change : ℝ}
    (small : |change| < |deviation| - half) (turns : ℤ) : half < |deviation + change + turns * period| := by
  have period_nonneg : 0 ≤ period := by linarith [abs_nonneg deviation]
  by_cases once : turns = 0
  · have near := abs_sub_abs_le_abs_sub deviation (-change)
    rw [abs_neg, sub_neg_eq_add] at near
    rw [once, Int.cast_zero, zero_mul, add_zero]
    linarith
  · have whole : period ≤ |turns * period| := by
      rw [abs_mul, abs_of_nonneg period_nonneg]
      refine le_mul_of_one_le_left period_nonneg ?_
      exact_mod_cast Int.one_le_abs once
    have near := abs_sub_abs_le_abs_sub (turns * period) (-(deviation + change))
    have together := abs_add_le deviation change
    rw [abs_neg, sub_neg_eq_add, add_comm (turns * period)] at near
    linarith

theorem inside_iff (principal : |deviation| ≤ period / 2) :
    (∃ turns : ℤ, |deviation + turns * period| ≤ half) ↔ |deviation| ≤ half := by
  constructor
  · rintro ⟨turns, inside⟩
    by_contra outside
    have small : |(0 : ℝ)| < |deviation| - half := by
      rw [abs_zero]
      linarith
    have far := beyond principal small turns
    rw [add_zero] at far
    linarith
  · intro inside
    refine ⟨0, ?_⟩
    simpa using inside

end Circle
