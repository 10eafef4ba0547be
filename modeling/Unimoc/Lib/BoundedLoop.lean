import Mathlib.Data.Nat.Basic

/-! A loop that goes on while something is due, and a bound on its turns. -/
namespace BoundedLoop

variable {S T : Type*} {due : S → Bool} {next : S → S} {left : S → Nat} {turns : Nat}

def loop (due : S → Bool) (next : S → S) : Nat → S → S
  | 0, s => s
  | turns + 1, s => if due s then loop due next turns (next s) else s

theorem loop_stops {s : S} (done : due s = false) : loop due next turns s = s := by
  cases turns with
  | zero => rfl
  | succ turns => rw [loop, done]; rfl

/-- What every turn keeps is kept by the loop. -/
theorem loop_induct {P : S → Prop} (keeps : ∀ s, P s → due s = true → P (next s)) {s : S} (holds : P s) :
    P (loop due next turns s) := by
  induction turns generalizing s with
  | zero => exact holds
  | succ turns ih =>
    unfold loop
    split
    · exact ih (keeps s holds ‹_›)
    · exact holds

/-- Two loops whose turns go together. -/
theorem loop_related {due' : T → Bool} {next' : T → T} {R : S → T → Prop} (agree : ∀ s t, R s t → due s = due' t)
    (follows : ∀ s t, R s t → due s = true → R (next s) (next' t)) {s : S} {t : T} (related : R s t) :
    R (loop due next turns s) (loop due' next' turns t) := by
  induction turns generalizing s t with
  | zero => exact related
  | succ turns ih =>
    unfold loop
    rw [← agree s t related]
    split
    · exact ih (follows s t related ‹_›)
    · exact related

section Bound

variable (fewer : ∀ s, due s = true → left (next s) < left s)
include fewer

theorem loop_done {s : S} (enough : left s ≤ turns) : due (loop due next turns s) = false := by
  induction turns generalizing s with
  | zero =>
    by_contra more
    have less := fewer s (Bool.not_eq_false _ ▸ more)
    omega
  | succ turns ih =>
    unfold loop
    by_cases more : due s = true
    · rw [if_pos more]
      exact ih (Nat.le_of_lt_succ (Nat.lt_of_lt_of_le (fewer s more) enough))
    · rw [if_neg more]
      exact Bool.not_eq_true _ ▸ more

theorem loop_more {s : S} (enough : left s ≤ turns) : loop due next (turns + 1) s = loop due next turns s := by
  induction turns generalizing s with
  | zero =>
    have done := @loop_done _ due next left 0 fewer s enough
    exact loop_stops done
  | succ turns ih =>
    rw [loop]
    by_cases more : due s = true
    · rw [if_pos more, ih (Nat.le_of_lt_succ (Nat.lt_of_lt_of_le (fewer s more) enough)), loop, if_pos more]
    · have done := Bool.not_eq_true _ ▸ more
      rw [if_neg more, loop_stops done]

theorem loop_loop {due' : S → Bool} (weaker : ∀ s, due' s = true → due s = true) {s : S} (enough : left s ≤ turns) :
    loop due next turns (loop due' next turns s) = loop due next turns s := by
  induction turns generalizing s with
  | zero => rfl
  | succ turns ih =>
    by_cases early : due' s = true
    · have more := weaker s early
      have fewer_left := fewer s more
      have first : loop due' next (turns + 1) s = loop due' next turns (next s) := by rw [loop, if_pos early]
      have second : loop due next (turns + 1) s = loop due next turns (next s) := by rw [loop, if_pos more]
      have bounded : left (loop due' next turns (next s)) ≤ turns := by
        apply loop_induct (P := fun after => left after ≤ turns)
        · intro after within due
          exact Nat.le_of_lt (Nat.lt_of_lt_of_le (fewer after (weaker after due)) within)
        · omega
      rw [first, second, loop_more fewer bounded, ih (by omega)]
    · have stopped : loop due' next (turns + 1) s = s := loop_stops (Bool.not_eq_true _ ▸ early)
      rw [stopped]

end Bound

end BoundedLoop
