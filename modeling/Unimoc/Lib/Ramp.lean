import Mathlib.Algebra.Order.Group.Abs

/-! A value that follows a target by at most one step at a time. -/
namespace Ramp

variable {α : Type*} [AddCommGroup α] [LinearOrder α] [IsOrderedAddMonoid α]
  {target step value : α}

def follow (target step value : α) : α := min (max target (value - step)) (value + step)

theorem follow_nonpos (room : 0 ≤ step) (down : target ≤ 0) :
    follow target step value ≤ 0 ↔ value ≤ step := by
  unfold follow
  rw [min_le_iff, max_le_iff]
  constructor
  · rintro (⟨_, below⟩ | below)
    · exact sub_nonpos.mp below
    · exact le_trans (le_add_of_nonneg_right room) (below.trans room)
  · exact fun near => .inl ⟨down, sub_nonpos.mpr near⟩

theorem follow_nonneg (up : 0 ≤ target) :
    0 ≤ follow target step value ↔ -step ≤ value := by
  unfold follow
  rw [le_min_iff, le_max_iff]
  constructor
  · rintro ⟨_, above⟩
    exact neg_le_iff_add_nonneg.mpr above
  · exact fun near => ⟨.inl up, neg_le_iff_add_nonneg.mp near⟩

theorem follow_near (room : 0 ≤ step) : |follow target step value - value| ≤ step := by
  unfold follow
  rw [abs_le, neg_le_sub_iff_le_add, sub_le_iff_le_add]
  constructor
  · have above : value - step ≤ min (max target (value - step)) (value + step) :=
      le_min (le_max_right _ _) ((sub_le_self value room).trans (le_add_of_nonneg_right room))
    exact sub_le_iff_le_add.mp above
  · rw [add_comm step value]
    exact min_le_right _ _

theorem follow_within {lower upper : α} (room : 0 ≤ step) (low : lower ≤ target) (high : target ≤ upper)
    (above : lower ≤ value) (below : value ≤ upper) :
    lower ≤ follow target step value ∧ follow target step value ≤ upper := by
  unfold follow
  constructor
  · exact le_min (low.trans (le_max_left _ _)) (above.trans (le_add_of_nonneg_right room))
  · exact (min_le_left _ _).trans (max_le high ((sub_le_self value room).trans below))

theorem follow_zero (room : 0 ≤ step) : |follow 0 step value| ≤ |value| := by
  unfold follow
  rcases le_total 0 value with up | down
  · have low : 0 ≤ min (max 0 (value - step)) (value + step) :=
      le_min (le_max_left _ _) (add_nonneg up room)
    rw [abs_of_nonneg low, abs_of_nonneg up]
    exact (min_le_left _ _).trans (max_le up (sub_le_self value room))
  · have below : value - step ≤ 0 := (sub_le_self value room).trans down
    rw [max_eq_left below]
    have low : min 0 (value + step) ≤ 0 := min_le_left _ _
    rw [abs_of_nonpos low, abs_of_nonpos down, neg_le_neg_iff]
    exact le_min down (le_add_of_nonneg_right room)

/-! ### The first step from zero, within a range around zero -/

section First

variable {lower upper : α}

theorem first_above (room : 0 ≤ step) (low : lower ≤ 0) (below : value ≤ upper) :
    value - step ≤ min (max (follow target step 0) lower) upper ↔
      (0 < value → value ≤ step + step ∧ value - step ≤ max target lower) := by
  unfold follow
  grind

theorem first_below (room : 0 ≤ step) (high : 0 ≤ upper) (above : lower ≤ value) :
    min (max (follow target step 0) lower) upper ≤ value + step ↔
      (value < 0 → -(step + step) ≤ value ∧ min target upper ≤ value + step) := by
  unfold follow
  grind

/-- One step from zero ends within one step of a value of the range only if the value is within two
steps, and the target is not short of it by more than one. -/
theorem first_near (room : 0 ≤ step) (low : lower ≤ 0) (high : 0 ≤ upper) (above : lower ≤ value)
    (below : value ≤ upper) :
    |min (max (follow target step 0) lower) upper - value| ≤ step ↔
      (0 < value → value ≤ step + step ∧ value - step ≤ max target lower) ∧
        (value < 0 → -(step + step) ≤ value ∧ min target upper ≤ value + step) := by
  rw [abs_le, neg_le_sub_iff_le_add, sub_le_iff_le_add, add_comm step value, ← sub_le_iff_le_add]
  exact and_congr (first_above room low below) (first_below room high above)

end First

/-- A value that follows a target moves by the rest of the way, or by one step. -/
theorem follow_near_iff {bound : α} (room : 0 ≤ step) :
    |follow target step value - value| ≤ bound ↔ |target - value| ≤ bound ∨ step ≤ bound := by
  unfold follow
  grind

end Ramp
