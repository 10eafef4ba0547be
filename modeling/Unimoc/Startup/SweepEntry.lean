import Unimoc.Startup.Calibration
import Unimoc.Startup.Isolation
import Unimoc.Startup.StepOrder
import Unimoc.Startup.Sweep

/-! How a run enters the alignment sweep: at its first position, with nothing counted. -/
namespace Unimoc.Startup

open CurrentControl Firmware

variable {F : Type} [Arithmetic F]

namespace HwStartup

variable {fsm : HwStartup F}

theorem runStep_position (other : fsm.state ≠ .phaseAdcAlignment) (b : Board F) :
    (fsm.runStep b).1.sweepPos = fsm.sweepPos := by
  unfold runStep
  cases state : fsm.state with
  | idle | done | fault => rfl
  | pwmDisable => exact (runPwmDisable_joined fsm fsm.leftovers b).untouched.sweep
  | adcOffsetCal =>
    exact (runCalibration_joined fsm fsm.leftovers finishAdcOffsetCal (fun _ => rfl)
      (fun _ => ⟨rfl, rfl, rfl, id⟩) other b).untouched.sweep
  | adcNoiseFloor =>
    exact (runCalibration_joined fsm fsm.leftovers finishAdcNoiseFloor (fun _ => rfl)
      (fun _ => ⟨rfl, rfl, rfl, id⟩) other b).untouched.sweep
  | dutyForceLow | dutyForceMid | dutyForceHigh =>
    exact (runDutyForce_joined fsm fsm.leftovers other _ b).untouched.sweep
  | dcLinkVoltageCheck => exact (runDcLinkVoltageCheck_joined fsm fsm.leftovers other b).untouched.sweep
  | gateDriverEnableCheck =>
    show (fsm.runGateDriverEnableCheck b).1.sweepPos = fsm.sweepPos
    unfold runGateDriverEnableCheck
    split
    · exact (continueWhenAsked_joined fsm fsm.leftovers b).untouched.sweep
    · split
      · dsimp only
        split <;> rfl
      · dsimp only
        split <;> rfl
  | connectMotor => exact (runConnectMotorWait_joined fsm fsm.leftovers b).untouched.sweep
  | phaseAdcAlignment => exact absurd state other
  | currentSenseCalibration => exact (runCurrentSenseCalibration_joined fsm fsm.leftovers other b).untouched.sweep

theorem runOnce_position (other : fsm.state ≠ .phaseAdcAlignment) (b : Board F) :
    (fsm.runOnce b).1.sweepPos = fsm.sweepPos := by
  cases reached : fsm.reached b with
  | none =>
    rcases runOnce_unreached reached with waits | ⟨reason, board, halts⟩
    · rw [waits]
    · rw [halts]
      rfl
  | some found =>
    rw [runOnce_reached reached]
    exact runStep_position other found

/-- A run that is before its sweep is at the first position of it. -/
def Unswept (fsm : HwStartup F) : Prop :=
  fsm.isActive = true → fsm.state.index < FsmState.phaseAdcAlignment.index → fsm.sweepPos = 0

theorem call_unswept (asked : fsm.Asked) (unswept : fsm.Unswept) (call : Call F) (b : Board F) :
    (fsm.call call b).2.1.Unswept := by
  cases call with
  | requestRun =>
    show (fsm.requestRun b).2.1.Unswept
    unfold requestRun
    split
    · exact unswept
    · dsimp only
      split
      · exact fun _ _ => rfl
      · exact fun _ _ => rfl
  | requestNextStep motorConnected =>
    show (fsm.requestNextStep motorConnected).2.Unswept
    rcases requestNextStep_cases motorConnected fsm with ⟨-, -, -, taken⟩ | ⟨answer, -, refused⟩
    · rw [taken]
      exact unswept
    · rw [refused]
      exact unswept
  | requestAbort reason =>
    show (fsm.requestAbort reason b).1.Unswept
    unfold requestAbort
    split
    · exact unswept
    · exact nofun
  | setExtCurrent current => exact unswept
  | setExtVdc voltage => exact unswept
  | runOnce =>
    intro active before
    have moved := runOnce_moved asked b
    have position (early : fsm.state.index < FsmState.phaseAdcAlignment.index) :
        (fsm.runOnce b).1.sweepPos = fsm.sweepPos :=
      runOnce_position (fun state => absurd early (by rw [state]; decide)) b
    change (fsm.runOnce b).1.isActive = true at active
    change (fsm.runOnce b).1.state.index < FsmState.phaseAdcAlignment.index at before
    show (fsm.runOnce b).1.sweepPos = 0
    generalize (fsm.runOnce b).1 = after at *
    cases moved with
    | stays _ _ state =>
      rw [state] at before
      rw [position before]
      exact unswept (by rw [isActive, ← state]; exact active) before
    | stopped _ _ state =>
      rcases state with state | ⟨-, state⟩ <;> rw [isActive, state] at active <;> cases active
    | advanced _ running _ state =>
      have early : fsm.state.index < FsmState.phaseAdcAlignment.index := by
        have next := next_index running
        rw [state] at before
        omega
      rw [position early]
      exact unswept running early

theorem runStep_entered (state : fsm.state = .connectMotor) (unswept : fsm.sweepPos = 0) {b : Board F}
    (enters : (fsm.runStep b).1.state = .phaseAdcAlignment) : (fsm.runStep b).1.Entered := by
  have position : (fsm.runStep b).1.sweepPos = fsm.sweepPos := runStep_position (by rw [state]; exact nofun) b
  have moves := runStep_moves (.inr (by rw [state]; exact ⟨nofun, nofun⟩)) b
  generalize (fsm.runStep b).1 = after at *
  cases moves with
  | stays same => cases (state.symm.trans (same.symm.trans enters))
  | @advances between kept same board =>
    have next : between.state.next = .phaseAdcAlignment := by
      rw [same, state]
      rfl
    unfold advanceToNextState at enters position ⊢
    rw [if_neg (by rw [next]; exact nofun)] at enters position ⊢
    exact ⟨enters, rfl, rfl, position.trans unswept, rfl, rfl, rfl⟩
  | faults fault => cases fault.symm.trans enters

theorem call_entered {call : Call F} {b : Board F} (asked : fsm.Asked) (unswept : fsm.Unswept)
    (elsewhere : fsm.state ≠ .phaseAdcAlignment) (enters : (fsm.call call b).2.1.state = .phaseAdcAlignment) :
    (fsm.call call b).2.1.Entered := by
  have left : call = .runOnce ∧ fsm.isActive = true ∧ fsm.state.next = .phaseAdcAlignment := by
    have moved := call_moved asked call b
    generalize (fsm.call call b).2.1 = after at moved enters
    generalize (fsm.call call b).1 = answer at moved
    cases moved with
    | stays _ _ state => exact absurd (state.symm.trans enters) elsewhere
    | accepted _ _ state => exact absurd (state.symm.trans enters) elsewhere
    | started _ state => cases state.symm.trans enters
    | stopped _ _ state => rcases state with state | ⟨-, state⟩ <;> cases state.symm.trans enters
    | advanced sampled active _ state => exact ⟨sampled, active, state.symm.trans enters⟩
  obtain ⟨rfl, active, next⟩ := left
  have state : fsm.state = .connectMotor := by
    cases state : fsm.state <;> rw [state] at next <;> first | rfl | cases next
  have first := unswept active (by rw [state]; decide)
  change (fsm.runOnce b).1.state = .phaseAdcAlignment at enters
  show (fsm.runOnce b).1.Entered
  cases reached : fsm.reached b with
  | none =>
    rcases runOnce_unreached reached with waits | ⟨reason, board, halts⟩
    · rw [waits] at enters
      exact absurd enters elsewhere
    · rw [halts] at enters
      cases enters
  | some found =>
    rw [runOnce_reached reached] at enters ⊢
    exact runStep_entered state first enters

end HwStartup

namespace Session

theorem run_unswept (board : Board F) (steps : List (Step F)) : ((start board).run steps).fsm.Unswept := by
  have kept {s : Session F} (ordered : Ordered s) (unswept : s.fsm.Unswept) (steps : List (Step F)) :
      (s.run steps).fsm.Unswept := by
    induction steps generalizing s with
    | nil => exact unswept
    | cons step rest ih => exact ih (ordered.next step) (HwStartup.call_unswept ordered.asked unswept _ _)
  exact kept (.start board) (fun _ _ => rfl) steps

/-- Whatever has happened before, a run enters the sweep with everything cleared. -/
theorem enters_cleared (board : Board F) (history : List (Step F)) (step : Step F) :
    let s := (start board).run history
    s.fsm.state ≠ .phaseAdcAlignment → (s.next step).fsm.state = .phaseAdcAlignment →
      (s.next step).fsm.Entered := by
  intro s elsewhere enters
  have asked : s.fsm.Asked := ((Ordered.start board).run history).asked
  have unswept : s.fsm.Unswept := run_unswept board history
  exact HwStartup.call_entered asked unswept elsewhere enters

end Session

end Unimoc.Startup
