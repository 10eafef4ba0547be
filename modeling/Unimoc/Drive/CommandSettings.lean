import Unimoc.Drive.History
import Unimoc.Settings.Saving

/-! The live settings over a command: only a reset whose save fails changes them without a
success. -/
namespace Unimoc.Drive

open CurrentControl Cyphal Firmware Hardware Settings Startup

namespace CommandSettings

variable {F : Type} [Arithmetic F]

/-! ### The store between two accesses -/

section Board

variable (b : Board F)

@[simp] theorem preempt_store : b.preempt.store = b.store := (Board.preempt_interrupted b).store

@[simp] theorem getState_store : b.getState.2.store = b.store := preempt_store b

@[simp] theorem enable_store : b.enable.2.store = b.store := preempt_store b

@[simp] theorem disable_store : b.disable.store = b.store := preempt_store b

@[simp] theorem clearFault_store (owner : Owner) : (b.clearFault owner).store = b.store := preempt_store b

@[simp] theorem clearTrips_store (owner : Owner) : (b.clearTrips owner).store = b.store := preempt_store b

@[simp] theorem forceDuty_store (da db dc : F) : (b.forceDuty da db dc).store = b.store := preempt_store b

@[simp] theorem releaseForceDuty_store : b.releaseForceDuty.store = b.store := preempt_store b

@[simp] theorem status_store : b.status.2.store = b.store := preempt_store b

@[simp] theorem startHoming_store : b.startHoming.store = b.store := preempt_store b

@[simp] theorem saveToFlash_settings : b.saveToFlash.2.store.settings = b.store.settings := by
  simp [Board.saveToFlash]

theorem prepareRun_store : (HwStartup.prepareRun b).store = b.store := by
  unfold HwStartup.prepareRun HwStartup.neutral
  dsimp only
  split <;> simp [Board.record]

theorem requestRun_store (fsm : HwStartup F) : (fsm.requestRun b).2.2.store = b.store := by
  unfold HwStartup.requestRun
  split
  · rfl
  · dsimp only
    split <;> simp [Board.record, prepareRun_store]

theorem requestAbort_store (reason : StartupFault) (fsm : HwStartup F) :
    (fsm.requestAbort reason b).2.store = b.store := by
  unfold HwStartup.requestAbort HwStartup.enterFault HwStartup.neutral
  split
  · rfl
  · simp [Board.record]

theorem interruptAll_stage (batch : List (Interrupt F)) {b c : Board F} (stage : b.stage = c.stage)
    (isr : b.isr = c.isr) : (b.interruptAll batch).stage = (c.interruptAll batch).stage := by
  induction batch generalizing b c with
  | nil => exact stage
  | cons i rest ih =>
    apply ih
    · cases i with
      | controlCycle samples duties =>
        simp only [Board.interrupt, isr]
        split
        · simp [Board.record, stage]
        · exact stage
      | _ => simp [Board.interrupt, Board.record, stage]
    · cases i with
      | controlCycle samples duties =>
        simp only [Board.interrupt, isr]
        split <;> simp [Board.record]
      | _ => simp [Board.interrupt, Board.record, isr]

theorem interruptAll_storage (batch : List (Interrupt F)) (b : Board F) :
    (b.interruptAll batch).storage = b.storage := by
  induction batch generalizing b with
  | nil => rfl
  | cons i rest ih =>
    refine (ih _).trans ?_
    cases i with
    | controlCycle samples duties =>
      simp only [Board.interrupt]
      split <;> rfl
    | _ => rfl

@[simp] theorem preempt_storage : b.preempt.storage = b.storage := interruptAll_storage _ _

end Board

end CommandSettings

namespace System

open CommandSettings

section Atomic

variable {F E : Type} [Arithmetic F] {s : System F E}

/-! ### Commands that leave the live settings alone -/

theorem startHoming_settings : s.startHoming.2.board.store = s.board.store := by
  unfold startHoming
  split_ifs
  · rfl
  · rfl
  · rfl
  · dsimp only
    split
    · exact status_store _
    · simp [log, onBoard]

theorem onCommissioning_settings (command : UInt16) (parameter : List UInt8) :
    (s.onCommissioning command parameter).2.board.store = s.board.store := by
  unfold onCommissioning Commissioning.onCommand
  split_ifs
  · unfold Commissioning.start
    split_ifs
    · rfl
    · rfl
    · have kept := requestRun_store s.board s.startup
      generalize s.startup.requestRun s.board = answer at kept
      obtain ⟨answer, fsm, b⟩ := answer
      cases answer <;> exact kept
  · rfl
  · rfl
  · exact requestAbort_store s.board .aborted s.startup
  · rfl

/-! ### The factory reset -/

/-- A factory reset with something to do, whose save the gate or the storage refuses. -/
structure ResetUnsaved (s : System F E) (command : UInt16) : Prop where
  command : command = Command.factoryReset
  idle : s.engaged = false ∧ s.startup.isActive = false
  accepted : validate s.board.store.factorySettings s.board.store.capabilities = .success
  changes : s.board.store.factorySettings ≠ s.board.store.settings
  unsaved : s.board.store.atDefaults.unsaved ≠ []
  refused : s.board.preempt.stage.getState ≠ .disabled ∨
    ∃ answer ∈ s.board.storage.take s.board.store.atDefaults.unsaved.length,
      toSettingsStatus answer ≠ .success

/-- The save of the reset sees what the drive had before it. -/
theorem onFactoryReset_idle (idle : s.engaged = false ∧ s.startup.isActive = false)
    (accepted : validate s.board.store.factorySettings s.board.store.capabilities = .success) :
    s.onFactoryReset.1 = saveAnswer (s.board.store.atDefaults.saveToFlash
        (s.board.preempt.stage.getState = .disabled) s.board.storage).1 ∧
      s.onFactoryReset.2.board.store.settings = s.board.store.factorySettings := by
  obtain ⟨disengaged, stopped⟩ := idle
  have committed : s.board.store.resetToFactoryDefaults = (.success, s.board.store.atDefaults) := by
    unfold SettingsStore.resetToFactoryDefaults SettingsStore.commit
    rw [accepted]
    rfl
  have gate : ({ s.board with store := s.board.store.atDefaults }.record
      (.settingsChanged .factoryReset s.board.store.factorySettings)).preempt.stage = s.board.preempt.stage :=
    interruptAll_stage _ rfl rfl
  unfold onFactoryReset
  rw [committed]
  simp only [disengaged, stopped, Board.change, saveToFlash, Board.saveToFlash, Bool.or_self,
    Bool.false_eq_true, ↓reduceIte, ne_eq, not_true_eq_false, preempt_store, preempt_storage]
  constructor
  · exact congrArg (fun stage : PowerStage => saveAnswer (s.board.store.atDefaults.saveToFlash
      (stage.getState = .disabled) s.board.storage).1) gate
  · exact SettingsStore.saveToFlash_settings ..

theorem onFactoryReset_refused (refused : ¬(s.engaged = false ∧ s.startup.isActive = false) ∨
      validate s.board.store.factorySettings s.board.store.capabilities ≠ .success) :
    s.onFactoryReset.2.board.store = s.board.store := by
  unfold onFactoryReset
  split
  · rfl
  · rename_i idle
    have idle : s.engaged = false ∧ s.startup.isActive = false := by simpa using idle
    have rejected := refused.resolve_left (not_not.mpr idle)
    obtain committed | ⟨status, bad, unchanged⟩ :=
      SettingsStore.commit_cases s.board.store s.board.store.factorySettings
    · exact absurd (SettingsStore.commit_success committed) rejected
    · unfold SettingsStore.resetToFactoryDefaults
      rw [unchanged]
      cases status with
      | success => exact absurd rfl bad
      | _ => rfl

theorem saveAnswer_success (status : SettingsStatus) :
    (saveAnswer status).status = Command.statusSuccess ↔ status = .success := by
  cases status <;> decide

/-- An answer other than success leaves the live settings as they were, but for a factory reset
whose save fails. -/
theorem command_atomic (s : System F E) (command : UInt16) (parameter : List UInt8) :
    ((s.onCommand command parameter).1.status ≠ Command.statusSuccess →
      (s.onCommand command parameter).2.board.store.settings = s.board.store.settings) ↔
      ¬s.ResetUnsaved command := by
  by_cases reset : command = Command.factoryReset
  · subst reset
    have answer : s.onCommand Command.factoryReset parameter = s.onFactoryReset := rfl
    rw [answer]
    constructor
    · intro kept lost
      obtain ⟨saved, live⟩ := onFactoryReset_idle lost.idle lost.accepted
      apply lost.changes
      rw [← live]
      apply kept
      rw [saved, ne_eq, saveAnswer_success, SettingsStore.saveToFlash_success, decide_eq_true_eq]
      rintro (nothing | ⟨off, taken⟩)
      · exact lost.unsaved nothing
      · rcases lost.refused with on | ⟨answer, given, failed⟩
        · exact on off
        · exact failed (taken answer given)
    · intro kept failed
      by_cases idle : s.engaged = false ∧ s.startup.isActive = false
      · by_cases accepted : validate s.board.store.factorySettings s.board.store.capabilities = .success
        · obtain ⟨saved, live⟩ := onFactoryReset_idle idle accepted
          rw [saved, ne_eq, saveAnswer_success, SettingsStore.saveToFlash_success, decide_eq_true_eq] at failed
          simp only [not_or, not_and_or, not_forall, exists_prop] at failed
          rw [live]
          by_contra changes
          exact kept ⟨rfl, idle, accepted, changes, failed.1, failed.2⟩
        · rw [onFactoryReset_refused (.inr accepted)]
      · rw [onFactoryReset_refused (.inl idle)]
  · refine iff_of_true (fun failed => ?_) fun lost => reset lost.command
    unfold onCommand at failed ⊢
    split_ifs at failed ⊢
    · rw [onCommissioning_settings]
    · exact absurd rfl failed
    · exact absurd rfl failed
    · rfl
    · rw [startHoming_settings]
    · exact saveToFlash_settings _
    · rfl

end Atomic

section Sim

/-- Seven pole pairs are live and in the flash; the external enable is missing. -/
def blockedBoot : Boot Binary32 Empty :=
  let settings := simStore.settings.set .polePairs (7 : UInt8)
  { simBoot with store := { simStore with settings := settings, stored := settings }, externalEnable := false }

/-- The reset is refused, and the drive has the factory settings. -/
theorem reset_blocked :
    ((run blockedBoot []).onCommand Command.factoryReset []).1 =
        ⟨Command.statusBadState, "outputs released: disengage first"⟩ ∧
      ¬(((run blockedBoot []).onCommand Command.factoryReset []).1.status ≠ Command.statusSuccess →
        ((run blockedBoot []).onCommand Command.factoryReset []).2.board.store.settings =
          (run blockedBoot []).board.store.settings) := by
  refine ⟨by decide +kernel, fun claim => ?_⟩
  have kept := claim (by decide +kernel)
  have polePairs := congrArg (fun settings : NvmSettings => settings.natural8 .polePairs) kept
  exact absurd polePairs (by decide)

end Sim

end System

end Unimoc.Drive
