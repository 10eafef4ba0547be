import Unimoc.Drive.Arming

/-! Who may have the outputs on: what holds of the arming machine in every run. -/
namespace Unimoc.Drive

open CurrentControl Cyphal Firmware Settings Startup

variable {F : Type} [Arithmetic F]

/-- The outputs are on for the engaged drive or for a run, never for both; an emergency
stop ends both for good. -/
structure Owned (c : Arming F) : Prop where
  held : c.enabled = true → c.engaged = true ∨ c.running = true
  exclusive : c.engaged = true → c.running = false
  stopped : c.emergencyStop = true → c.stopping = true ∨ c.engaged = false ∧ c.running = false
  quiet : c.engaged = true → c.starting = false ∧ c.applying = false
  asked : c.engageRequested = true → c.engaged = false ∧ c.engaging = false
  engaging : c.engaging = true → c.engaged = false
  leaving : c.leaving = true → c.engaged = true

namespace Owned

variable {c : Arming F} {e : Event F}

theorem step_held (o : Owned c) (admitted : c.admits e) :
    (c.next e).enabled = true → (c.next e).engaged = true ∨ (c.next e).running = true := by
  intro on
  cases e with
  | controlTrip | hardwareBreak | disabled => cases on
  | externalEnable present => exact o.held (Bool.and_eq_true _ _ |>.mp on).1
  | engaged => exact .inl rfl
  | disengaged reason => exact absurd on (by simp [Arming.next, admitted.2.1])
  | runStarted => exact .inr rfl
  | motorReleased => exact .inr admitted.1
  | runEnded reason => exact absurd on (by simp [Arming.next, admitted.2.1])
  | _ => exact o.held on

theorem step_exclusive (o : Owned c) (admitted : c.admits e) :
    (c.next e).engaged = true → (c.next e).running = false := by
  intro on
  cases e with
  | engaged => exact admitted.2.2.2.1
  | disengaged reason => cases on
  | runStarted => exact absurd on (by simp [Arming.next, admitted.2.1])
  | runEnded reason => rfl
  | _ => exact o.exclusive on

theorem step_stopped (o : Owned c) (admitted : c.admits e) :
    (c.next e).emergencyStop = true →
      (c.next e).stopping = true ∨ (c.next e).engaged = false ∧ (c.next e).running = false := by
  intro latched
  cases e with
  | emergencyStop => exact .inl rfl
  | stopped => exact .inr ⟨admitted.2.1, admitted.1⟩
  | engaged => exact absurd latched (by simp [Arming.next, admitted.2.2.1])
  | runStarted => exact absurd latched (by simp [Arming.next, admitted.2.2])
  | disengaged reason =>
    obtain stopping | idle := o.stopped latched
    · exact .inl stopping
    · exact .inr ⟨rfl, idle.2⟩
  | runEnded reason =>
    obtain stopping | idle := o.stopped latched
    · exact .inl stopping
    · exact .inr ⟨idle.1, rfl⟩
  | _ => exact o.stopped latched

theorem step_quiet (o : Owned c) (admitted : c.admits e) :
    (c.next e).engaged = true → (c.next e).starting = false ∧ (c.next e).applying = false := by
  intro on
  cases e with
  | engaged =>
    obtain ⟨_, _, _, _, _, _, _, still, unstarted⟩ := admitted
    exact ⟨unstarted, still⟩
  | disengaged reason => cases on
  | startAttempted => exact absurd on (by simp [Arming.next, admitted.1])
  | startRefused | runStarted => exact ⟨rfl, (o.quiet on).2⟩
  | applyChecked dropsFault => exact absurd on (by simp [Arming.next, admitted.1])
  | startRuntime settings accepted dropsFault => exact ⟨(o.quiet on).1, rfl⟩
  | _ => exact o.quiet on

theorem step_asked (o : Owned c) (admitted : c.admits e) :
    (c.next e).engageRequested = true → (c.next e).engaged = false ∧ (c.next e).engaging = false := by
  intro asked
  cases e with
  | readiness value =>
    simp only [Arming.next, Bool.or_eq_true, Bool.and_eq_true, Bool.not_eq_true'] at asked
    obtain before | ⟨-, free, -⟩ := asked
    · exact o.asked before
    · exact ⟨free, admitted.engaging⟩
  | localRequest engage =>
    simp only [Arming.next, Bool.or_eq_true, Bool.and_eq_true, Bool.not_eq_true'] at asked
    obtain before | ⟨-, free, -⟩ := asked
    · exact o.asked before
    · exact ⟨free, admitted.2.engaging⟩
  | engageStep => cases asked
  | engageIgnored => exact ⟨(o.asked asked).1, rfl⟩
  | engageRefused => exact ⟨(o.asked asked).1, rfl⟩
  | engaged => exact absurd (o.asked asked).2 (by simp [admitted.1])
  | disengaged reason => exact ⟨rfl, (o.asked asked).2⟩
  | _ => exact o.asked asked

theorem step_engaging (o : Owned c) (admitted : c.admits e) :
    (c.next e).engaging = true → (c.next e).engaged = false := by
  intro engaging
  cases e with
  | engageStep => exact (o.asked admitted.1).1
  | engageIgnored | engageRefused | engaged => cases engaging
  | disengaged reason => rfl
  | _ => exact o.engaging engaging

theorem step_leaving (o : Owned c) (admitted : c.admits e) :
    (c.next e).leaving = true → (c.next e).engaged = true := by
  intro leaving
  cases e with
  | readiness value =>
    simp only [Arming.next] at leaving
    split at leaving
    · exact o.leaving leaving
    · exact leaving
  | localRequest engage =>
    simp only [Arming.next] at leaving
    split at leaving
    · exact o.leaving leaving
    · exact leaving
  | engaged => rfl
  | disengaged reason => cases leaving
  | _ => exact o.leaving leaving

/-- Every admitted event keeps the ownership of the outputs. -/
theorem step (o : Owned c) (admitted : c.admits e) : Owned (c.next e) where
  held := o.step_held admitted
  exclusive := o.step_exclusive admitted
  stopped := o.step_stopped admitted
  quiet := o.step_quiet admitted
  asked := o.step_asked admitted
  engaging := o.step_engaging admitted
  leaving := o.step_leaving admitted

theorem of_legal {start : Arming F} (initial : Owned start) :
    ∀ trace, (arming start).Legal trace → Owned ((arming start).replay trace) :=
  Runs.Machine.invariant (fun c _ => Owned c) initial fun _ _ => step

end Owned

end Unimoc.Drive
