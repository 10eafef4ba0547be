import Unimoc.Startup.Session

/-! The samples a step of the startup aid takes, and what the accesses on the way leave alone. -/
namespace Unimoc.Startup

open CurrentControl Firmware Settings

variable {F : Type} [Arithmetic F]

/-! ### The board on the way to a sample -/

/-- The settings and the trigger offset are as they were. -/
structure Undisturbed (before after : Board F) : Prop where
  store : after.store = before.store
  triggerOffset : after.isr.adcTriggerOffset = before.isr.adcTriggerOffset

namespace Undisturbed

variable {b c d : Board F}

omit [Arithmetic F] in
theorem refl (b : Board F) : Undisturbed b b := ⟨rfl, rfl⟩

omit [Arithmetic F] in
theorem trans (first : Undisturbed b c) (second : Undisturbed c d) : Undisturbed b d :=
  ⟨second.store.trans first.store, second.triggerOffset.trans first.triggerOffset⟩

theorem interrupt (b : Board F) (i : Interrupt F) : Undisturbed b (b.interrupt i) := by
  cases i with
  | controlCycle samples duties =>
    have cycle : (b.isr.onControlCycle samples duties).2.adcTriggerOffset = b.isr.adcTriggerOffset := by
      unfold CurrentControlIsr.onControlCycle
      split <;> rfl
    simp only [Board.interrupt]
    split
    · exact ⟨rfl, cycle⟩
    · exact ⟨rfl, cycle⟩
  | hardwareBreak => exact ⟨rfl, rfl⟩
  | externalEnable present => exact ⟨rfl, rfl⟩
  | observer theta => exact ⟨rfl, rfl⟩
  | outerStep status reference => exact ⟨rfl, rfl⟩

theorem interruptAll (batch : List (Interrupt F)) (b : Board F) : Undisturbed b (b.interruptAll batch) := by
  induction batch generalizing b with
  | nil => exact refl b
  | cons i rest ih => exact (interrupt b i).trans (ih _)

theorem preempt (b : Board F) : Undisturbed b b.preempt := by
  have popped : Undisturbed b { b with interrupts := b.interrupts.tail } := ⟨rfl, rfl⟩
  exact popped.trans (interruptAll _ _)

theorem takeSamplesReady (b : Board F) : Undisturbed b b.takeSamplesReady.2 := by
  unfold Board.takeSamplesReady
  simp only
  split
  · exact (preempt b).trans ((preempt _).trans ⟨rfl, rfl⟩)
  · exact preempt b

theorem forceDuty (da db dc : F) (b : Board F) : Undisturbed b (b.forceDuty da db dc) :=
  (preempt b).trans ⟨rfl, rfl⟩

theorem injectAlphaCurrent (b : Board F) : Undisturbed b (HwStartup.injectAlphaCurrent b) := forceDuty _ _ _ b

theorem stageLost (fsm : HwStartup F) (b : Board F) : Undisturbed b (fsm.stageLost b).2 := by
  have read : Undisturbed b b.getState.2 := preempt b
  have named : Undisturbed b b.getState.2.tripName.2 := read.trans (preempt _)
  unfold HwStartup.stageLost
  dsimp only
  split
  · split
    · exact named
    · exact read
  · exact refl b

end Undisturbed

namespace HwStartup

/-! ### The spins that get to the present step -/

/-- The board the present step works on, if a spin finds samples and nothing that ends the run. -/
def reached (fsm : HwStartup F) (b : Board F) : Option (Board F) :=
  let (ready, b) := b.takeSamplesReady
  if !ready then none
  else
    let (lost, b) := fsm.stageLost b
    if lost.isSome then none
    else if fsm.isActive then
      let (isr, b) := b.readIsr
      if fsm.checkMotorOc isr.rawPhaseCurrents then none else some b
    else some b

variable {fsm : HwStartup F} {b found : Board F}

theorem reached_undisturbed (reached : fsm.reached b = some found) : Undisturbed b found := by
  have taken := Undisturbed.takeSamplesReady b
  have looked := taken.trans (Undisturbed.stageLost fsm b.takeSamplesReady.2)
  unfold HwStartup.reached at reached
  dsimp only at reached
  split at reached
  · cases reached
  · split at reached
    · cases reached
    · split at reached
      · split at reached
        · cases reached
        · cases reached
          exact looked.trans (Undisturbed.preempt _)
      · cases reached
        exact looked

theorem runOnce_reached (reached : fsm.reached b = some found) : fsm.runOnce b = fsm.runStep found := by
  unfold HwStartup.reached at reached
  unfold runOnce
  dsimp only at reached ⊢
  split at reached
  · cases reached
  · rename_i ready
    rw [if_neg ready]
    split at reached
    · cases reached
    · rename_i kept
      have unlost : (fsm.stageLost b.takeSamplesReady.2).1 = none := by simpa using kept
      rw [unlost]
      dsimp only
      split at reached
      · rename_i active
        rw [if_pos active]
        split at reached
        · cases reached
        · rename_i below
          cases reached
          rw [if_neg below]
      · rename_i inactive
        cases reached
        rw [if_neg inactive]

/-- A spin that does not get there leaves the step as it is, or ends the run. -/
theorem runOnce_unreached (unreached : fsm.reached b = none) :
    fsm.runOnce b = (fsm, b.takeSamplesReady.2) ∨ ∃ reason board, fsm.runOnce b = fsm.enterFault reason board := by
  unfold HwStartup.reached at unreached
  unfold runOnce
  dsimp only at unreached ⊢
  split at unreached
  · rename_i waiting
    rw [if_pos waiting]
    exact .inl rfl
  · rename_i ready
    rw [if_neg ready]
    right
    cases lost : (fsm.stageLost b.takeSamplesReady.2).1 with
    | some reason => exact ⟨reason, _, rfl⟩
    | none =>
      rw [lost] at unreached
      simp only [Option.isSome_none, Bool.false_eq_true, if_false] at unreached
      split at unreached
      · rename_i active
        rw [if_pos active]
        split at unreached
        · rename_i exceeded
          rw [if_pos exceeded]
          exact ⟨_, _, rfl⟩
        · cases unreached
      · cases unreached

end HwStartup

end Unimoc.Startup
