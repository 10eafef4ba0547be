import Unimoc.Drive.History
import Unimoc.Startup.Counting

/-! Commissioning commands that are refused: what they keep, and the start that clears the
last run before the outputs refuse it. -/
namespace Unimoc.Drive.Commissioning

open CurrentControl Cyphal Firmware Hardware Settings Startup

variable {F : Type} [Arithmetic F]

def forcedDuty (b : Board F) : Option (ThreePhase F) :=
  if b.isr.forceDutyActive then some b.isr.forcedDuties else none

/-- The run with its results and readings, and what is forced and latched on the board. -/
structure Kept (fsm : HwStartup F) (b : Board F) (after : HwStartup F × Board F) : Prop where
  state : after.1.state = fsm.state
  results : after.1.results = fsm.results
  completed : after.1.completed = fsm.completed
  readings : after.1.extCurrent = fsm.extCurrent ∧ after.1.extVdc = fsm.extVdc
  forced : forcedDuty after.2 = forcedDuty b
  trips : after.2.isr.overcurrentTripped = b.isr.overcurrentTripped ∧
    after.2.isr.overvoltageTripped = b.isr.overvoltageTripped
  fault : after.2.stage.fault = b.stage.fault

/-- Nothing of an earlier run, nothing forced, no trip latched. -/
structure AtRest (fsm : HwStartup F) (b : Board F) : Prop where
  state : fsm.state = .idle
  results : fsm.results = .empty
  completed : fsm.completed = 0
  readings : fsm.extCurrent = Scalar.zero ∧ fsm.extVdc = Scalar.zero
  forced : b.isr.forceDutyActive = false
  trips : b.isr.overcurrentTripped = false ∧ b.isr.overvoltageTripped = false

/-- A start that asks for the outputs. -/
def AsksForOutputs (engaged emergencyStop : Bool) (command : UInt16) (fsm : HwStartup F) : Prop :=
  command = Command.startStartupAid ∧ engaged = false ∧ emergencyStop = false ∧ fsm.isActive = false

/-- The external enable is missing and the outputs are off. -/
def Unreleasable (b : Board F) : Prop := b.stage.enabled = false ∧ b.stage.externalEnable = false

/-- No interrupt comes in during the command. -/
def quiet (b : Board F) : Board F := { b with interrupts := [] }

omit [Arithmetic F] in
@[simp] theorem forcedDuty_none {b : Board F} : forcedDuty b = none ↔ b.isr.forceDutyActive = false := by
  unfold forcedDuty
  cases b.isr.forceDutyActive with
  | false => simp
  | true => simp

section Start

variable {fsm : HwStartup F} {b : Board F}

/-- What a start leaves that the outputs refuse. -/
theorem requestRun_unreleasable (inactive : fsm.isActive = false) (missing : Unreleasable b) :
    (fsm.requestRun (quiet b)).1 = .notReleased ∧
      (Kept fsm (quiet b) (fsm.requestRun (quiet b)).2 ↔ AtRest fsm b) := by
  obtain ⟨isr, ⟨external, on, broken⟩, outer, store, timerClock, interrupts, storage, initializations, trace⟩ := b
  obtain ⟨off, absent⟩ := missing
  cases off
  cases absent
  unfold HwStartup.requestRun
  rw [inactive]
  refine ⟨rfl, fun kept => ?_, fun rest => ?_⟩
  · have unforced := forcedDuty_none.mp kept.forced.symm
    exact ⟨kept.state.symm, kept.results.symm, kept.completed.symm,
      ⟨kept.readings.1.symm, kept.readings.2.symm⟩, unforced, ⟨kept.trips.1.symm, kept.trips.2.symm⟩⟩
  · exact ⟨rest.state.symm, rest.results.symm, rest.completed.symm,
      ⟨rest.readings.1.symm, rest.readings.2.symm⟩, (forcedDuty_none.mpr rest.forced).symm,
      ⟨rest.trips.1.symm, rest.trips.2.symm⟩, rfl⟩

theorem requestRun_released (inactive : fsm.isActive = false) (possible : ¬Unreleasable b) :
    (fsm.requestRun (quiet b)).1 = .started := by
  obtain ⟨isr, ⟨external, on, broken⟩, outer, store, timerClock, interrupts, storage, initializations, trace⟩ := b
  unfold HwStartup.requestRun
  rw [inactive]
  cases on with
  | true => cases external <;> cases broken <;> rfl
  | false =>
    cases external with
    | true => cases broken <;> rfl
    | false => exact absurd ⟨rfl, rfl⟩ possible

end Start

/-! ### Refusals before the outputs are asked -/

theorem continueStep_refused {confirmation : List UInt8} {fsm : HwStartup F}
    (refused : (continueStep confirmation fsm).1.status ≠ Command.statusSuccess) :
    (continueStep confirmation fsm).2 = fsm := by
  revert refused
  unfold continueStep
  dsimp only
  split
  · exact fun _ => rfl
  · obtain ⟨-, -, -, answered⟩ | ⟨answer, -, answered⟩ :=
      fsm.requestNextStep_cases (decide (confirmation = motorConnected))
    · rw [answered]
      exact fun refused => absurd rfl refused
    · rw [answered]
      exact fun _ => rfl

theorem setReading_refused {reading : List UInt8} {fsm : HwStartup F}
    (refused : (setReading reading fsm).1.status ≠ Command.statusSuccess) :
    (setReading reading fsm).2 = fsm := by
  revert refused
  unfold setReading
  split
  · exact fun _ => rfl
  · split
    · exact fun _ => rfl
    · dsimp only
      split
      · exact fun _ => rfl
      · split
        · exact fun refused => absurd rfl refused
        · split
          · exact fun refused => absurd rfl refused
          · exact fun _ => rfl

section Commands

variable {engaged emergencyStop : Bool} {command : UInt16} {fsm : HwStartup F}

theorem start_refused (checked : ¬AsksForOutputs engaged emergencyStop Command.startStartupAid fsm)
    (b : Board F) : (start engaged emergencyStop fsm b).2 = (fsm, b) := by
  unfold start
  cases engaged with
  | true => rfl
  | false =>
    cases emergencyStop with
    | true => rfl
    | false =>
      have active : fsm.isActive = true := by
        cases active : fsm.isActive with
        | true => rfl
        | false => exact absurd ⟨rfl, rfl, rfl, active⟩ checked
      simp [HwStartup.requestRun, active]

theorem onCommand_refused (checked : ¬AsksForOutputs engaged emergencyStop command fsm)
    (parameter : List UInt8) (b : Board F)
    (refused : (onCommand engaged emergencyStop command parameter fsm b).1.status ≠ Command.statusSuccess) :
    (onCommand engaged emergencyStop command parameter fsm b).2 = (fsm, b) := by
  revert refused
  unfold onCommand
  split
  · rename_i start
    subst start
    exact fun _ => start_refused checked b
  · split
    · exact fun refused => congrArg (·, b) (continueStep_refused refused)
    · split
      · exact fun refused => congrArg (·, b) (setReading_refused refused)
      · split
        · exact fun refused => absurd rfl refused
        · exact fun _ => rfl

end Commands

/-- A refused command keeps what it found, but for a start that the outputs refuse. -/
theorem refused_kept (engaged emergencyStop : Bool) (command : UInt16) (parameter : List UInt8)
    (fsm : HwStartup F) (b : Board F) :
    (((onCommand engaged emergencyStop command parameter fsm (quiet b)).1.status ≠ Command.statusSuccess →
        Kept fsm (quiet b) (onCommand engaged emergencyStop command parameter fsm (quiet b)).2) ↔
      (AsksForOutputs engaged emergencyStop command fsm → Unreleasable b → AtRest fsm b)) ∧
    (¬AsksForOutputs engaged emergencyStop command fsm →
      (onCommand engaged emergencyStop command parameter fsm b).1.status ≠ Command.statusSuccess →
      (onCommand engaged emergencyStop command parameter fsm b).2 = (fsm, b)) := by
  refine ⟨?_, fun checked refused => onCommand_refused checked parameter b refused⟩
  by_cases asks : AsksForOutputs engaged emergencyStop command fsm
  · obtain ⟨rfl, rfl, rfl, inactive⟩ := asks
    rw [show onCommand false false Command.startStartupAid parameter fsm (quiet b) =
      start false false fsm (quiet b) from rfl]
    unfold start
    by_cases missing : Unreleasable b
    · obtain ⟨refused, kept⟩ := requestRun_unreleasable inactive missing
      generalize fsm.requestRun (quiet b) = answer at refused kept
      obtain ⟨answer, after⟩ := answer
      cases refused
      constructor
      · exact fun keeps _ _ => kept.mp (keeps (show Command.statusFailure ≠ Command.statusSuccess by decide))
      · exact fun rests _ => kept.mpr (rests ⟨rfl, rfl, rfl, inactive⟩ missing)
    · have released := requestRun_released inactive missing
      generalize fsm.requestRun (quiet b) = answer at released
      obtain ⟨answer, after⟩ := answer
      cases released
      exact iff_of_true (fun refused => absurd rfl refused) fun _ outputs => absurd outputs missing
  · refine iff_of_true (fun refused => ?_) fun asking => absurd asking asks
    rw [onCommand_refused asks parameter (quiet b) refused]
    exact ⟨rfl, rfl, rfl, ⟨rfl, rfl⟩, rfl, ⟨rfl, rfl⟩, rfl⟩

section Sim

/-- A phase carries more than the largest current. -/
def surge : ControlCycleSamples Binary32 :=
  { quietSamples with phaseCurrents := Vector.replicate numSubSteps ⟨100.0, 0.0, 0.0⟩ }

/-- A run ends with the overcurrent trip, then the external enable is taken away. -/
def endedRun : System Binary32 Empty :=
  System.run simBoot
    [simInput 2000 [commandRequest Command.startStartupAid] [],
      simInput 3000 [] [[.controlCycle surge .zero]],
      simInput 4000 [] [[.externalEnable false]]]

/-- The start is refused and clears the run and the trip. -/
theorem refused_start_clears :
    ¬((onCommand endedRun.engaged endedRun.emergencyStop Command.startStartupAid [] endedRun.startup
        (quiet endedRun.board)).1.status ≠ Command.statusSuccess →
      Kept endedRun.startup (quiet endedRun.board)
        (onCommand endedRun.engaged endedRun.emergencyStop Command.startStartupAid [] endedRun.startup
          (quiet endedRun.board)).2) ∧
      endedRun.startup.state = .fault ∧ endedRun.board.isr.overcurrentTripped = true := by
  refine ⟨fun claim => ?_, by decide +kernel, by decide +kernel⟩
  have kept := claim (by decide +kernel)
  exact absurd kept.state (by decide +kernel)

end Sim

end Unimoc.Drive.Commissioning
