import Mathlib.Logic.Basic

/-! The power stage of the hardware boundary, as the simulation implements it and the
board mirrors it: the external enable only allows the release, a break switches off
and latches until it is acknowledged. -/
namespace Unimoc.Hardware

inductive PowerStageState
  | disabled
  | enabled
  | fault
  | blocked
deriving DecidableEq, Repr

structure PowerStage where
  externalEnable : Bool
  enabled : Bool
  fault : Bool
deriving DecidableEq, Repr

namespace PowerStage

def powerOn (externalEnable : Bool) : PowerStage := ⟨externalEnable, false, false⟩

def getState (stage : PowerStage) : PowerStageState :=
  if stage.enabled then .enabled
  else if !stage.externalEnable then .blocked
  else if stage.fault then .fault
  else .disabled

/-- The recheck of the fault after the release sees a trip that came in between;
here a trip comes before or after the whole call. -/
def enable (stage : PowerStage) : Bool × PowerStage :=
  if stage.enabled then (true, stage)
  else if !stage.externalEnable || stage.fault then (false, stage)
  else (true, { stage with enabled := true })

def disable (stage : PowerStage) : PowerStage := { stage with enabled := false }

def trip (stage : PowerStage) : PowerStage := { stage with enabled := false, fault := true }

/-- An active break input latches again. -/
def clearFault (stage : PowerStage) : PowerStage := { stage with fault := !stage.externalEnable }

def setExternalEnable (present : Bool) (stage : PowerStage) : PowerStage :=
  let stage := { stage with externalEnable := present }
  if present then stage else stage.trip

variable (stage : PowerStage)

@[simp] theorem getState_enabled : stage.getState = .enabled ↔ stage.enabled = true := by
  cases stage with
  | mk external on broken => cases on <;> cases external <;> cases broken <;> decide

theorem enable_cases :
    stage.enable = (true, { stage with enabled := true }) ∨ stage.enable = (false, stage) := by
  unfold enable
  split
  · rename_i on
    exact .inl (by rw [← on])
  · split
    · exact .inr rfl
    · exact .inl rfl

end PowerStage

/-- What the hardware answers to a start of the motor's cycle source: whether it takes
the PWM frequency, and whether setting up the timer drops a latched break. -/
structure Initialization where
  accepted : Bool
  dropsFault : Bool
deriving DecidableEq, Repr

end Unimoc.Hardware
