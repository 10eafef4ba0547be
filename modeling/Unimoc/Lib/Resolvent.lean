import Mathlib.Analysis.InnerProductSpace.Basic

/-! Implicit steps `y + a = x` whose `a` turns towards `y`: a step brings every two states closer,
whatever the length of the step. -/
namespace Resolvent

variable {V : Type*} [NormedAddCommGroup V] [InnerProductSpace ℝ V]

/-- The inner product of a step with its result. -/
theorem norm_le {x y a : V} {rate : ℝ} (step : y + a = x) (accretive : rate * ‖y‖ ^ 2 ≤ inner ℝ a y) :
    (1 + rate) * ‖y‖ ≤ ‖x‖ := by
  rcases (norm_nonneg y).eq_or_lt with zero | positive
  · rw [← zero, mul_zero]
    exact norm_nonneg x
  · have product : inner ℝ x y = ‖y‖ ^ 2 + inner ℝ a y := by
      rw [← step, inner_add_left, real_inner_self_eq_norm_sq]
    have cauchy := real_inner_le_norm x y
    refine le_of_mul_le_mul_right ?_ positive
    linarith

/-- A ball stays closed under steps that are driven no harder than its edge decays. -/
theorem bounded {x y a drive : V} {rate bound : ℝ} (positive : 0 ≤ rate) (step : y + a = x + drive)
    (accretive : rate * ‖y‖ ^ 2 ≤ inner ℝ a y) (inside : ‖x‖ ≤ bound) (driven : ‖drive‖ ≤ rate * bound) :
    ‖y‖ ≤ bound := by
  have closer := (norm_le step accretive).trans (norm_add_le x drive)
  refine le_of_mul_le_mul_left ?_ (by linarith : 0 < 1 + rate)
  linarith

section Runs

variable {S I : Type*} (next : S → I → S) (dist : S → S → ℝ) (factor : I → ℝ)

/-- Distances shrink by the factors of the inputs, one after the other. -/
theorem run_le {admits : I → Prop} (nonneg : ∀ i, admits i → 0 ≤ factor i)
    (closer : ∀ i, admits i → ∀ s t, dist (next s i) (next t i) ≤ factor i * dist s t) (inputs : List I)
    (admitted : ∀ i ∈ inputs, admits i) (s t : S) :
    dist (inputs.foldl next s) (inputs.foldl next t) ≤ (inputs.map factor).prod * dist s t := by
  induction inputs generalizing s t with
  | nil => simp
  | cons i rest ih =>
    have first := closer i (admitted i (by simp)) s t
    have later := ih (fun j mem => admitted j (by simp [mem])) (next s i) (next t i)
    have positive : 0 ≤ (rest.map factor).prod := by
      apply List.prod_nonneg
      intro value mem
      obtain ⟨j, inside, rfl⟩ := List.mem_map.mp mem
      exact nonneg j (admitted j (by simp [inside]))
    rw [List.foldl_cons, List.foldl_cons, List.map_cons, List.prod_cons]
    exact later.trans ((mul_le_mul_of_nonneg_left first positive).trans (le_of_eq (by ring)))

/-- A size that a step shrinks by a factor towards a floor stands above the floor by no more than
the powers of the factor. Each step may depend on the input before. -/
theorem settles (good : S → I → Prop) {follows : I → I → Prop} (size : S → I → ℝ) {rho floor : ℝ} (nonneg : 0 ≤ rho)
    (kept : ∀ s i j, good s i → follows i j → good (next s j) j)
    (closer : ∀ s i j, good s i → follows i j → size (next s j) j - floor ≤ rho * (size s i - floor))
    (rest : List I) (s : S) (i : I) (start : good s i) (chain : List.IsChain follows (i :: rest)) :
    good (rest.foldl next s) (rest.getLastD i) ∧
      size (rest.foldl next s) (rest.getLastD i) - floor ≤ rho ^ rest.length * (size s i - floor) := by
  induction rest generalizing s i with
  | nil => simpa using start
  | cons j rest ih =>
    obtain ⟨first, later⟩ := List.isChain_cons_cons.mp chain
    obtain ⟨holds, settled⟩ := ih (next s j) j (kept s i j start first) later
    rw [List.foldl_cons, List.getLastD_cons, List.length_cons, pow_succ, mul_assoc]
    refine ⟨holds, settled.trans ?_⟩
    exact mul_le_mul_of_nonneg_left (closer s i j start first) (pow_nonneg nonneg _)

end Runs

end Resolvent
