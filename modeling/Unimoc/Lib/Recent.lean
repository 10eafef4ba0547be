import Mathlib.Algebra.BigOperators.Group.List.Basic
import Mathlib.Tactic.Linarith

/-! A ring that keeps the newest values of a history. -/
namespace Recent

variable {α : Type*} {size next kept window : Nat} {ring history : List α}

/-- The slot of the value that is `age` values older than the newest, which is just before `next`. -/
def slot (size next age : Nat) : Nat := (next + size - 1 - age) % size

theorem slot_eq (inside : next < size) {age : Nat} (young : age < size) :
    slot size next age = if age < next then next - 1 - age else next + size - 1 - age := by
  unfold slot
  split_ifs with before
  · have turned : next + size - 1 - age = next - 1 - age + size := by omega
    rw [turned, Nat.add_mod_right, Nat.mod_eq_of_lt (by omega)]
  · exact Nat.mod_eq_of_lt (by omega)

theorem next_eq (inside : next < size) : (next + 1) % size = if next + 1 = size then 0 else next + 1 := by
  split_ifs with last
  · rw [last, Nat.mod_self]
  · exact Nat.mod_eq_of_lt (by omega)

theorem slot_newest (inside : next < size) : slot size ((next + 1) % size) 0 = next := by
  have wrapped := next_eq inside
  rw [slot_eq (Nat.mod_lt _ (by omega)) (by omega), wrapped]
  split_ifs <;> omega

theorem slot_older (inside : next < size) (age : Nat) (young : age + 1 < size) :
    slot size ((next + 1) % size) (age + 1) = slot size next age ∧ slot size next age ≠ next := by
  have wrapped := next_eq inside
  rw [slot_eq (Nat.mod_lt _ (by omega)) young, slot_eq inside (by omega), wrapped]
  split_ifs <;> omega

theorem slot_back (inside : next < size) {age : Nat} (young : age < size) :
    (slot size next 0 + size - age) % size = slot size next age := by
  rw [slot_eq inside (by omega), slot_eq inside young]
  rcases Nat.eq_zero_or_pos next with rfl | positive
  · have turned : 0 + size - 1 - 0 + size - age = 0 + size - 1 - age + size := by omega
    rw [if_neg (Nat.lt_irrefl 0), if_neg (Nat.not_lt_zero age), turned, Nat.add_mod_right,
      Nat.mod_eq_of_lt (by omega)]
  · rw [if_pos positive]
    split_ifs with before
    · have turned : next - 1 - 0 + size - age = next - 1 - age + size := by omega
      rw [turned, Nat.add_mod_right, Nat.mod_eq_of_lt (by omega)]
    · have same : next - 1 - 0 + size - age = next + size - 1 - age := by omega
      rw [same, Nat.mod_eq_of_lt (by omega)]

/-- The ring has the newest `kept` values of the history. -/
structure Holds (size next kept : Nat) (ring history : List α) : Prop where
  room : size ≤ ring.length
  inside : next < size
  within : kept ≤ size
  slots : ∀ age < kept, ring[slot size next age]? = history[age]?

theorem Holds.push (holds : Holds size next kept ring history) (value : α) (small : window ≤ size) :
    Holds size ((next + 1) % size) (min (kept + 1) window) (ring.set next value) (value :: history) := by
  have inside := holds.inside
  have room := holds.room
  refine ⟨by rwa [List.length_set], Nat.mod_lt _ (by omega), (min_le_right ..).trans small, fun age young => ?_⟩
  cases age with
  | zero =>
    rw [slot_newest inside, List.getElem?_set_self (by omega)]
    rfl
  | succ age =>
    obtain ⟨same, other⟩ := slot_older inside age (by omega)
    rw [same, List.getElem?_set_ne other.symm, List.getElem?_cons_succ]
    exact holds.slots age (by omega)

theorem Holds.sum [AddCommMonoid α] (holds : Holds size next kept ring history) (known : kept ≤ history.length) :
    (List.range kept).foldl (fun total age => total + ring.getD (slot size next age) 0) 0 =
      (history.take kept).sum := by
  have firsts (n : Nat) (few : n ≤ kept) :
      (List.range n).foldl (fun total age => total + ring.getD (slot size next age) 0) 0 = (history.take n).sum := by
    induction n with
    | zero => simp
    | succ n ih =>
      have found := holds.slots n few
      rw [List.range_succ, List.foldl_append, ih (by omega), List.foldl_cons, List.foldl_nil,
        List.getD_eq_getElem?_getD, found, List.getElem?_eq_getElem (by omega), Option.getD_some,
        List.sum_take_succ]
  exact firsts kept le_rfl

end Recent
