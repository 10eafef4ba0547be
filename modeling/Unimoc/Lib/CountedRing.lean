import Mathlib.Data.Nat.ModEq

/-! A ring of slots with the place of its oldest element and the number of its elements. -/
namespace CountedRing

variable {α : Type*} (empty : α)

/-- Oldest first. -/
def contents (slots : List α) (read count : Nat) : List α :=
  (List.range count).map fun i => slots.getD ((read + i) % slots.length) empty

theorem slot_ne {size read older newer : Nat} (order : older < newer) (within : newer < size) :
    (read + older) % size ≠ (read + newer) % size := by
  intro same
  have congruent : older ≡ newer [MOD size] := Nat.ModEq.add_left_cancel' read same
  have equal := congruent.eq_of_lt_of_lt (order.trans within) within
  exact Nat.ne_of_lt order equal

variable {empty}

theorem contents_store {slots : List α} {read count : Nat} (room : count < slots.length) (value : α) :
    contents empty (slots.set ((read + count) % slots.length) value) read (count + 1) =
      contents empty slots read count ++ [value] := by
  have inside : (read + count) % slots.length < slots.length := Nat.mod_lt _ (by omega)
  unfold contents
  rw [List.length_set, List.range_succ, List.map_append, List.map_singleton, List.getD_eq_getElem?_getD,
    List.getElem?_set_self inside, Option.getD_some]
  refine congrArg (· ++ [value]) (List.map_congr_left ?_)
  intro i listed
  rw [List.getD_eq_getElem?_getD, List.getD_eq_getElem?_getD,
    List.getElem?_set_ne (slot_ne (List.mem_range.mp listed) room).symm]

theorem contents_take {slots : List α} {read count : Nat} (inside : read < slots.length) :
    contents empty slots read (count + 1) =
      slots.getD read empty :: contents empty slots ((read + 1) % slots.length) count := by
  unfold contents
  rw [List.range_succ_eq_map, List.map_cons, List.map_map, Nat.add_zero, Nat.mod_eq_of_lt inside]
  refine congrArg (List.cons _) (List.map_congr_left ?_)
  intro i _
  have shift : (read + (i + 1)) % slots.length = ((read + 1) % slots.length + i) % slots.length := by
    rw [Nat.mod_add_mod, Nat.add_assoc, Nat.add_comm 1 i]
  exact congrArg (slots.getD · empty) shift

end CountedRing
