import Mathlib.Data.List.Induction
import Mathlib.Order.Defs.PartialOrder

/-! Levels with hysteresis: a value raises the level to the one it reaches, or lowers it to the one
it keeps. -/
namespace Hysteresis

variable {V : Type*} [Preorder V] [Add V]

/-- The highest level a value reaches from below and the highest it keeps from above; reaching a
level takes a swing more than losing it. -/
structure Ladder (V : Type*) [Preorder V] [Add V] where
  reached : V → Nat
  kept : V → Nat
  swing : V
  reached_le_kept : ∀ v, reached v ≤ kept v
  apart : ∀ {level v w}, level ≤ reached v → kept w < level → w + swing < v

namespace Ladder

variable (ladder : Ladder V)

def update (level : Nat) (v : V) : Nat :=
  if level < ladder.reached v then ladder.reached v
  else if ladder.kept v < level then ladder.kept v
  else level

/-- The level after the values, oldest first. -/
def run (level : Nat) (values : List V) : Nat := values.foldl ladder.update level

theorem run_concat (level : Nat) (values : List V) (v : V) :
    ladder.run level (values ++ [v]) = ladder.update (ladder.run level values) v := by
  simp [run]

theorem update_cases (level : Nat) (v : V) :
    (level < ladder.reached v ∧ ladder.update level v = ladder.reached v) ∨
      (ladder.kept v < level ∧ ladder.update level v = ladder.kept v) ∨
      (ladder.reached v ≤ level ∧ level ≤ ladder.kept v ∧ ladder.update level v = level) := by
  unfold update
  by_cases rises : level < ladder.reached v
  · exact .inl ⟨rises, if_pos rises⟩
  · rw [if_neg rises]
    by_cases falls : ladder.kept v < level
    · exact .inr (.inl ⟨falls, if_pos falls⟩)
    · exact .inr (.inr ⟨Nat.le_of_not_lt rises, Nat.le_of_not_lt falls, if_neg falls⟩)

theorem update_between (level : Nat) (v : V) :
    ladder.reached v ≤ ladder.update level v ∧ ladder.update level v ≤ ladder.kept v := by
  have ordered := ladder.reached_le_kept v
  obtain ⟨-, same⟩ | ⟨-, same⟩ | ⟨low, high, same⟩ := ladder.update_cases level v
  · rw [same]
    exact ⟨Nat.le_refl _, ordered⟩
  · rw [same]
    exact ⟨ordered, Nat.le_refl _⟩
  · rw [same]
    exact ⟨low, high⟩

theorem update_of_rise {level : Nat} {v : V} (rises : level < ladder.update level v) :
    ladder.update level v = ladder.reached v := by
  obtain ⟨-, same⟩ | ⟨below, same⟩ | ⟨-, -, same⟩ := ladder.update_cases level v
  · exact same
  all_goals omega

theorem update_of_fall {level : Nat} {v : V} (falls : ladder.update level v < level) :
    ladder.update level v = ladder.kept v := by
  obtain ⟨above, same⟩ | ⟨-, same⟩ | ⟨-, -, same⟩ := ladder.update_cases level v
  · omega
  · exact same
  · omega

theorem lt_reached {level : Nat} {v : V} (rises : level < ladder.update level v) : level < ladder.reached v := by
  obtain ⟨above, -⟩ | ⟨below, same⟩ | ⟨-, -, same⟩ := ladder.update_cases level v
  · exact above
  all_goals omega

theorem kept_lt {level : Nat} {v : V} (falls : ladder.update level v < level) : ladder.kept v < level := by
  obtain ⟨above, same⟩ | ⟨below, -⟩ | ⟨-, -, same⟩ := ladder.update_cases level v
  · omega
  · exact below
  · omega

theorem reached_since {level : Nat} {v : V} (rises : level < ladder.update level v) (values : List V) :
    ∃ w ∈ v :: values, ladder.run level (v :: values) ≤ ladder.reached w := by
  induction values using List.reverseRecOn with
  | nil =>
    exact ⟨v, .head _, Nat.le_of_eq (ladder.update_of_rise rises)⟩
  | append_singleton values last ih =>
    obtain ⟨w, listed, reached⟩ := ih
    rw [← List.cons_append, run_concat]
    obtain ⟨-, same⟩ | ⟨below, same⟩ | ⟨-, -, same⟩ := ladder.update_cases (ladder.run level (v :: values)) last
    · exact ⟨last, by simp, Nat.le_of_eq same⟩
    all_goals exact ⟨w, List.mem_append_left _ listed, by omega⟩

theorem kept_since {level : Nat} {v : V} (falls : ladder.update level v < level) (values : List V) :
    ∃ w ∈ v :: values, ladder.kept w ≤ ladder.run level (v :: values) := by
  induction values using List.reverseRecOn with
  | nil =>
    exact ⟨v, .head _, Nat.le_of_eq (ladder.update_of_fall falls).symm⟩
  | append_singleton values last ih =>
    obtain ⟨w, listed, kept⟩ := ih
    rw [← List.cons_append, run_concat]
    obtain ⟨above, same⟩ | ⟨-, same⟩ | ⟨-, -, same⟩ := ladder.update_cases (ladder.run level (v :: values)) last
    · exact ⟨w, List.mem_append_left _ listed, by omega⟩
    · exact ⟨last, by simp, Nat.le_of_eq same.symm⟩
    · exact ⟨w, List.mem_append_left _ listed, by omega⟩

/-- Between a rise and a later fall the value comes down by more than the swing. -/
theorem swing_down {level : Nat} {first last : V} {between : List V}
    (rises : level < ladder.update level first)
    (falls : ladder.update (ladder.run level (first :: between)) last < ladder.run level (first :: between)) :
    ∃ v ∈ first :: between, last + ladder.swing < v := by
  obtain ⟨v, listed, reached⟩ := ladder.reached_since rises between
  exact ⟨v, listed, ladder.apart reached (ladder.kept_lt falls)⟩

/-- Between a fall and a later rise the value goes up by more than the swing. -/
theorem swing_up {level : Nat} {first last : V} {between : List V}
    (falls : ladder.update level first < level)
    (rises : ladder.run level (first :: between) < ladder.update (ladder.run level (first :: between)) last) :
    ∃ v ∈ first :: between, v + ladder.swing < last := by
  obtain ⟨v, listed, kept⟩ := ladder.kept_since falls between
  exact ⟨v, listed, ladder.apart (Nat.le_refl _) (Nat.lt_of_le_of_lt kept (ladder.lt_reached rises))⟩

theorem swing_from_rise {level high : Nat} {first last : V} (rises : level < ladder.update level first)
    (since : high ≤ ladder.update level first) (falls : ladder.update high last < high) :
    last + ladder.swing < first := by
  rw [ladder.update_of_rise rises] at since
  exact ladder.apart since (ladder.kept_lt falls)

theorem swing_from_fall {level low : Nat} {first last : V} (falls : ladder.update level first < level)
    (since : ladder.update level first ≤ low) (rises : low < ladder.update low last) :
    first + ladder.swing < last := by
  rw [ladder.update_of_fall falls] at since
  exact ladder.apart (Nat.le_refl _) (Nat.lt_of_le_of_lt since (ladder.lt_reached rises))

end Ladder

end Hysteresis
