import Mathlib.Data.List.Basic

/-! A deadline that moves on by a period whenever it is met, and that a late look does not leave in
the past. The period may change from look to look; none at all is a period of 0. -/
namespace Pacing

/-- A look at the clock, with the period then in force. -/
structure Look where
  now : Nat
  period : Nat

def due (next : Nat) (look : Look) : Prop := look.period ≠ 0 ∧ next ≤ look.now

instance (next : Nat) (look : Look) : Decidable (due next look) := inferInstanceAs (Decidable (_ ∧ _))

def advance (next : Nat) (look : Look) : Nat :=
  if due next look then
    if next + look.period ≤ look.now then look.now + look.period else next + look.period
  else next

/-- The times of the looks that met the deadline. -/
def met : Nat → List Look → List Nat
  | _, [] => []
  | next, look :: rest =>
    if due next look then look.now :: met (advance next look) rest else met (advance next look) rest

/-- The deadline that the looks leave. -/
def after (next : Nat) (looks : List Look) : Nat := looks.foldl advance next

variable {next : Nat} {look : Look}

theorem advance_later (is : due next look) : next + look.period ≤ advance next look ∧ look.now < advance next look := by
  have positive : 0 < look.period := Nat.pos_of_ne_zero is.1
  rw [advance, if_pos is]
  split <;> omega

theorem advance_early (not : ¬ due next look) : advance next look = next := if_neg not

/-- Each deadline met moves the next ones on by a period at least. -/
theorem met_after {least : Nat} (looks : List Look) (slow : ∀ look ∈ looks, look.period ≠ 0 → least ≤ look.period)
    (next k time : Nat) (found : (met next looks)[k]? = some time) : next + k * least ≤ time := by
  induction looks generalizing next k with
  | nil => simp [met] at found
  | cons look rest ih =>
    have later := ih (fun other mem => slow other (by simp [mem]))
    by_cases is : due next look
    · rw [met, if_pos is] at found
      have moved := (advance_later is).1
      have long := slow look (by simp) is.1
      cases k with
      | zero =>
        have same : look.now = time := by simpa using found
        have reached := is.2
        omega
      | succ k =>
        have after := later (advance next look) k (by simpa using found)
        have split : (k + 1) * least = k * least + least := Nat.succ_mul k least
        omega
    · rw [met, if_neg is, advance_early is] at found
      exact later next k found

/-- Between the `j`-th and the `k`-th the others take a period each. -/
theorem met_spaced {least : Nat} (looks : List Look) (slow : ∀ look ∈ looks, look.period ≠ 0 → least ≤ look.period)
    (next : Nat) {j k first last : Nat} (ordered : j < k) (one : (met next looks)[j]? = some first)
    (other : (met next looks)[k]? = some last) : first + (k - j - 1) * least < last := by
  induction looks generalizing next j k with
  | nil => simp [met] at one
  | cons look rest ih =>
    have tail : ∀ look ∈ rest, look.period ≠ 0 → least ≤ look.period := fun other mem => slow other (by simp [mem])
    by_cases is : due next look
    · rw [met, if_pos is] at one other
      cases k with
      | zero => exact absurd ordered (Nat.not_lt_zero j)
      | succ k =>
        cases j with
        | zero =>
          have same : look.now = first := by simpa using one
          have after := met_after rest tail (advance next look) k last (by simpa using other)
          have ahead := (advance_later is).2
          rw [← same]
          simp only [Nat.sub_zero, Nat.add_sub_cancel]
          omega
        | succ j =>
          have spaced := ih tail (advance next look) (Nat.lt_of_succ_lt_succ ordered) (by simpa using one)
            (by simpa using other)
          rwa [Nat.add_sub_add_right]
    · rw [met, if_neg is, advance_early is] at one other
      exact ih tail next ordered one other

end Pacing
