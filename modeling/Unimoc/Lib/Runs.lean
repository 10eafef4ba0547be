import Mathlib.Data.List.Basic
import Mathlib.Logic.Function.Iterate

/-! Runs of a machine, recorded as traces with the newest event first. A trace is
legal when each event was admitted in the state the older events lead to. -/
namespace Runs

variable {S E : Type*}

/-- `P` holds of every event of the trace together with the events before it. -/
def Throughout (P : E → List E → Prop) : List E → Prop
  | [] => True
  | e :: past => P e past ∧ Throughout P past

instance decidableThroughout (P : E → List E → Prop) [∀ e past, Decidable (P e past)] :
    ∀ trace, Decidable (Throughout P trace)
  | [] => inferInstanceAs (Decidable True)
  | e :: past =>
    have := decidableThroughout P past
    inferInstanceAs (Decidable (P e past ∧ Throughout P past))

@[simp] theorem throughout_nil (P : E → List E → Prop) : Throughout P [] := trivial

@[simp] theorem throughout_cons (P : E → List E → Prop) (e : E) (past : List E) :
    Throughout P (e :: past) ↔ P e past ∧ Throughout P past := Iff.rfl

theorem Throughout.of_forall {P : E → List E → Prop} (holds : ∀ e past, P e past)
    {trace : List E} : Throughout P trace := by
  induction trace with
  | nil => trivial
  | cons e past ih => exact ⟨holds e past, ih⟩

theorem Throughout.mono {P Q : E → List E → Prop} (weaker : ∀ e past, P e past → Q e past)
    {trace : List E} (holds : Throughout P trace) : Throughout Q trace := by
  induction trace with
  | nil => trivial
  | cons e past ih => exact ⟨weaker e past holds.1, ih holds.2⟩

/-- What holds throughout a trace holds throughout its older part. -/
theorem Throughout.older {P : E → List E → Prop} (newer : List E) {trace : List E}
    (holds : Throughout P (newer ++ trace)) : Throughout P trace := by
  induction newer with
  | nil => exact holds
  | cons e newer ih => exact ih ((throughout_cons ..).mp holds).2

/-- What the newest event that reports something reports, given the events before it. -/
def latest {β : Type*} (report : E → List E → Option β) (initially : β) : List E → β
  | [] => initially
  | e :: past => (report e past).getD (latest report initially past)

section Latest

variable {β : Type*} {report : E → List E → Option β} {initially : β}

@[simp] theorem latest_nil : latest report initially [] = initially := rfl

@[simp] theorem latest_cons (e : E) (past : List E) :
    latest report initially (e :: past) = (report e past).getD (latest report initially past) := rfl

end Latest

structure Machine (S E : Type*) where
  start : S
  next : S → E → S
  admits : S → E → Prop

namespace Machine

variable (m : Machine S E)

def replay : List E → S
  | [] => m.start
  | e :: past => m.next (replay past) e

def Legal : List E → Prop
  | [] => True
  | e :: past => m.admits (m.replay past) e ∧ Legal past

@[simp] theorem replay_nil : m.replay [] = m.start := rfl

@[simp] theorem replay_cons (e : E) (past : List E) :
    m.replay (e :: past) = m.next (m.replay past) e := rfl

@[simp] theorem legal_nil : m.Legal [] := trivial

@[simp] theorem legal_cons (e : E) (past : List E) :
    m.Legal (e :: past) ↔ m.admits (m.replay past) e ∧ m.Legal past := Iff.rfl

instance decidableLegal [∀ s e, Decidable (m.admits s e)] : ∀ trace, Decidable (m.Legal trace)
  | [] => inferInstanceAs (Decidable True)
  | e :: past =>
    have := decidableLegal past
    inferInstanceAs (Decidable (m.admits (m.replay past) e ∧ m.Legal past))

theorem replay_replicate {m : Machine S E} (e : E) (n : Nat) (past : List E) :
    m.replay (List.replicate n e ++ past) = (m.next · e)^[n] (m.replay past) := by
  induction n with
  | zero => rfl
  | succ n ih =>
    rw [List.replicate_succ, List.cons_append, replay_cons, ih, Function.iterate_succ_apply']

/-- The induction rule of runs: an invariant of states and histories that every
admitted event meeting `C` keeps holds after every legal trace of such events. -/
theorem invariant_under {m : Machine S E} (C : E → List E → Prop) (I : S → List E → Prop)
    (initial : I m.start [])
    (step : ∀ e past, I (m.replay past) past → m.admits (m.replay past) e → C e past →
      I (m.next (m.replay past) e) (e :: past)) :
    ∀ trace, m.Legal trace → Throughout C trace → I (m.replay trace) trace := by
  intro trace legal met
  induction trace with
  | nil => exact initial
  | cons e past ih => exact step e past (ih legal.2 met.2) legal.1 met.1

theorem invariant {m : Machine S E} (I : S → List E → Prop) (initial : I m.start [])
    (step : ∀ e past, I (m.replay past) past → m.admits (m.replay past) e →
      I (m.next (m.replay past) e) (e :: past)) :
    ∀ trace, m.Legal trace → I (m.replay trace) trace := by
  intro trace legal
  induction trace with
  | nil => exact initial
  | cons e past ih => exact step e past (ih legal.2) legal.1

/-- A property that every event keeps holds after every trace, legal or not. -/
theorem stays {m : Machine S E} (I : S → Prop) (initial : I m.start)
    (step : ∀ s e, I s → I (m.next s e)) : ∀ trace, I (m.replay trace) := by
  intro trace
  induction trace with
  | nil => exact initial
  | cons e past ih => exact step _ e ih

/-- A component that each event sets or keeps is what the latest event reported of it. -/
theorem replay_latest {m : Machine S E} {β : Type*} (field : S → β)
    (report : E → List E → Option β)
    (keeps : ∀ e past, field (m.next (m.replay past) e) =
      (report e past).getD (field (m.replay past))) :
    ∀ trace, field (m.replay trace) = latest report (field m.start) trace := by
  intro trace
  induction trace with
  | nil => rfl
  | cons e past ih =>
    rw [replay_cons, keeps, latest_cons, ih]

/-- What an invariant says of the next admitted event holds throughout the run. -/
theorem throughout_under {m : Machine S E} (C : E → List E → Prop) (I : S → List E → Prop)
    (Q : E → List E → Prop)
    (holds : ∀ trace, m.Legal trace → Throughout C trace → I (m.replay trace) trace)
    (next : ∀ e past, I (m.replay past) past → m.admits (m.replay past) e → C e past → Q e past) :
    ∀ trace, m.Legal trace → Throughout C trace → Throughout Q trace := by
  intro trace legal met
  induction trace with
  | nil => trivial
  | cons e past ih =>
    exact ⟨next e past (holds past legal.2 met.2) legal.1 met.1, ih legal.2 met.2⟩

/-- Two properties of the next event that agree where an invariant holds agree on runs. -/
theorem throughout_congr {m : Machine S E} (I : S → List E → Prop) {P Q : E → List E → Prop}
    (holds : ∀ trace, m.Legal trace → I (m.replay trace) trace)
    (agree : ∀ e past, I (m.replay past) past → m.admits (m.replay past) e → (P e past ↔ Q e past)) :
    ∀ trace, m.Legal trace → (Throughout P trace ↔ Throughout Q trace) := by
  intro trace legal
  induction trace with
  | nil => exact Iff.rfl
  | cons e past ih => exact and_congr (agree e past (holds past legal.2) legal.1) (ih legal.2)

end Machine

-- Elaboration never runs a machine to see what a claim about its trace unfolds to.
attribute [irreducible] Throughout

end Runs
