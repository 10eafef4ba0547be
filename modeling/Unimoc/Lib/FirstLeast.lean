import Mathlib.Data.List.FinRange
import Mathlib.Data.List.MinMax

/-! The first of some values that none is below, as a loop finds it that keeps the best so far. -/
namespace FirstLeast

variable {α κ : Type*} [LT α] {n : Nat}

/-- None is below, and those before are above. -/
structure First (value : Fin n → α) (p : Fin n) : Prop where
  least (j : Fin n) : ¬value j < value p
  before (j : Fin n) (earlier : j < p) : value p < value j

theorem First.unique {value : Fin n → α} {p q : Fin n} (first : First value p) (second : First value q) :
    p = q := by
  rcases lt_trichotomy p q with earlier | same | later
  · exact absurd (second.before p earlier) (first.least q)
  · exact same
  · exact absurd (first.before q later) (second.least p)

variable [LinearOrder κ] {value : Fin n → α} {key : Fin n → κ}

/-- The values compare as their keys do. -/
def Keyed (value : Fin n → α) (key : Fin n → κ) : Prop := ∀ i j, value i < value j ↔ key i < key j

theorem Keyed.argmin_first (keyed : Keyed value key) {p : Fin n} (found : p ∈ (List.finRange n).argmin key) :
    First value p := by
  constructor
  · intro j below
    exact List.not_lt_of_mem_argmin (List.mem_finRange j) found ((keyed j p).mp below)
  · intro j earlier
    rw [keyed]
    by_contra above
    have index := List.index_of_argmin found (List.mem_finRange j) (not_lt.mp above)
    rw [List.idxOf_finRange, List.idxOf_finRange] at index
    exact absurd earlier (not_lt.mpr index)

section Loop

variable [∀ a b : α, Decidable (a < b)]

/-- One turn of the loop: the best position and its value so far. -/
def better (value : Fin n → α) (best : Nat × α) (i : Fin n) : Nat × α :=
  if value i < best.2 then (i.val, value i) else best

theorem Keyed.foldl_argmin (keyed : Keyed value key) (l : List (Fin n)) (q : Fin n) :
    ∃ p ∈ l.foldl (List.argAux fun i j => key i < key j) (some q),
      l.foldl (better value) (q.val, value q) = (p.val, value p) := by
  induction l generalizing q with
  | nil => exact ⟨q, rfl, rfl⟩
  | cons i rest ih =>
    rw [List.foldl_cons, List.foldl_cons]
    by_cases below : value i < value q
    · have turn : better value (q.val, value q) i = (i.val, value i) := if_pos below
      have kept : List.argAux (fun i j => key i < key j) (some q) i = some i := if_pos ((keyed i q).mp below)
      rw [turn, kept]
      exact ih i
    · have turn : better value (q.val, value q) i = (q.val, value q) := if_neg below
      have kept : List.argAux (fun i j => key i < key j) (some q) i = some q :=
        if_neg fun less => below ((keyed i q).mpr less)
      rw [turn, kept]
      exact ih q

theorem Keyed.foldl_first {value : Fin (n + 1) → α} {key : Fin (n + 1) → κ} (keyed : Keyed value key) :
    ∃ p, First value p ∧ (List.finRange (n + 1)).foldl (better value) (0, value 0) = (p.val, value p) := by
  obtain ⟨p, found, best⟩ := keyed.foldl_argmin (List.finRange (n + 1)) 0
  refine ⟨p, keyed.argmin_first ?_, best⟩
  rw [List.finRange_succ] at found ⊢
  have start : List.argAux (fun i j => key i < key j) (some 0) 0 = some 0 := if_neg (lt_irrefl _)
  rw [List.foldl_cons, start] at found
  exact found

end Loop

end FirstLeast
