import Mathlib.Data.Option.Basic

/-! Programs that may stop without a result: that one does give a result, and what holds of
it, by the steps of the program. -/

/-- The program gives a result, and `post` holds of it. -/
def Yields {α : Type*} (post : α → Prop) (program : Option α) : Prop :=
  ∃ result, program = some result ∧ post result

namespace Yields

variable {α β : Type} {p : α → Prop} {post : β → Prop}

theorem pure {result : β} (holds : post result) : Yields post (Pure.pure result) :=
  ⟨result, rfl, holds⟩

theorem bind {first : Option α} {rest : α → Option β} (begins : Yields p first)
    (goes : ∀ a, p a → Yields post (rest a)) : Yields post (first >>= rest) := by
  obtain ⟨a, rfl, held⟩ := begins
  exact goes a held

theorem map {first : Option α} {f : α → β} (begins : Yields p first)
    (keeps : ∀ a, p a → post (f a)) : Yields post (f <$> first) := by
  obtain ⟨a, rfl, held⟩ := begins
  exact ⟨f a, rfl, keeps a held⟩

theorem found {program : Option α} (yields : Yields p program) :
    Yields (fun a => program = some a ∧ p a) program := by
  obtain ⟨a, rfl, held⟩ := yields
  exact ⟨a, rfl, rfl, held⟩

theorem mono {program : Option β} {weaker : β → Prop} (yields : Yields post program)
    (implies : ∀ b, post b → weaker b) : Yields weaker program := by
  obtain ⟨b, found, held⟩ := yields
  exact ⟨b, found, implies b held⟩

theorem ite {condition : Prop} [Decidable condition] {first second : Option β}
    (yes : condition → Yields post first) (no : ¬condition → Yields post second) :
    Yields post (if condition then first else second) := by
  by_cases holds : condition
  · rw [if_pos holds]
    exact yes holds
  · rw [if_neg holds]
    exact no holds

/-- An invariant that counts the steps holds after the loop, and the loop ends. -/
theorem foldlM_counted {step : β → α → Option β} {items : List α} {counted : Nat → β → Prop}
    (steps : ∀ n b, counted n b → ∀ a ∈ items, Yields (counted (n + 1)) (step b a)) {n : Nat} {start : β}
    (holds : counted n start) : Yields (counted (n + items.length)) (items.foldlM step start) := by
  induction items generalizing n start with
  | nil => exact pure holds
  | cons a rest ih =>
    rw [List.foldlM_cons, List.length_cons, Nat.add_comm rest.length, ← Nat.add_assoc]
    exact bind (steps n start holds a List.mem_cons_self) fun next held =>
      ih (fun k b kept item listed => steps k b kept item (List.mem_cons_of_mem a listed)) held

end Yields
