import Unimoc.Units.Scalar

/-! States, faults and results of the startup aid. -/
namespace Unimoc.Startup

/-- States of the bring-up: phase 1 without the motor up to the gate-driver check, the
barrier `connectMotor`, phase 2 with it. -/
inductive FsmState
  | idle
  | pwmDisable
  | adcOffsetCal
  | adcNoiseFloor
  | dutyForceLow
  | dutyForceMid
  | dutyForceHigh
  | dcLinkVoltageCheck
  | gateDriverEnableCheck
  | connectMotor
  | phaseAdcAlignment
  | currentSenseCalibration
  | done
  | fault
deriving DecidableEq, Repr

abbrev numStartupSteps : Nat := 14

namespace FsmState

def index : FsmState → Fin numStartupSteps
  | .idle => 0
  | .pwmDisable => 1
  | .adcOffsetCal => 2
  | .adcNoiseFloor => 3
  | .dutyForceLow => 4
  | .dutyForceMid => 5
  | .dutyForceHigh => 6
  | .dcLinkVoltageCheck => 7
  | .gateDriverEnableCheck => 8
  | .connectMotor => 9
  | .phaseAdcAlignment => 10
  | .currentSenseCalibration => 11
  | .done => 12
  | .fault => 13

/-- The state with the next value, for those before `done`. -/
def next : FsmState → FsmState
  | .idle => .pwmDisable
  | .pwmDisable => .adcOffsetCal
  | .adcOffsetCal => .adcNoiseFloor
  | .adcNoiseFloor => .dutyForceLow
  | .dutyForceLow => .dutyForceMid
  | .dutyForceMid => .dutyForceHigh
  | .dutyForceHigh => .dcLinkVoltageCheck
  | .dcLinkVoltageCheck => .gateDriverEnableCheck
  | .gateDriverEnableCheck => .connectMotor
  | .connectMotor => .phaseAdcAlignment
  | .phaseAdcAlignment => .currentSenseCalibration
  | .currentSenseCalibration | .done => .done
  | .fault => .fault

/-- A run is under way: neither idle nor ended. -/
def active (state : FsmState) : Bool := state ≠ .idle && state ≠ .done && state ≠ .fault

theorem next_active {state : FsmState} (running : state.active = true) (goesOn : state.next ≠ .done) :
    state.next.active = true := by
  cases state <;> first | rfl | exact absurd rfl goesOn | exact running

end FsmState

/-- Why a run ended in `fault`. -/
inductive StartupFault
  | none
  | aborted
  | emergencyStop
  | overcurrent
  | trip
  | enableLost
  | applyFailed
deriving DecidableEq, Repr

/-- What a running step waits for. -/
inductive StartupNeeds
  | none
  | dcLinkVoltage
  | phaseCurrent
  | motorConnected
deriving DecidableEq, Repr

inductive StartupStart
  | started
  | running
  | notReleased
deriving DecidableEq, Repr

inductive StartupContinue
  | accepted
  | notRunning
  | measuring
  | needsReading
  | needsConfirmation
  | unexpectedConfirmation
deriving DecidableEq, Repr

structure StartupResults (F : Type) where
  passed : Vector Bool numStartupSteps
  adcOffsetA : F
  adcOffsetB : F
  adcOffsetC : F
  adcNoiseRmsA : F
  adcNoiseRmsB : F
  gainVdc : F
  gainA : F
  gainB : F
  gainC : F
  adcTriggerOffsetOptimal : UInt32
  currentState : FsmState

namespace StartupResults

def empty {F : Type} [Scalar F] : StartupResults F where
  passed := Vector.replicate numStartupSteps false
  adcOffsetA := Scalar.zero
  adcOffsetB := Scalar.zero
  adcOffsetC := Scalar.zero
  adcNoiseRmsA := Scalar.zero
  adcNoiseRmsB := Scalar.zero
  gainVdc := 1.0
  gainA := 1.0
  gainB := 1.0
  gainC := 1.0
  adcTriggerOffsetOptimal := 168
  currentState := .idle

def pass {F : Type} (results : StartupResults F) (step : FsmState) (verdict : Bool) : StartupResults F :=
  { results with passed := results.passed.set step.index verdict }

end StartupResults

end Unimoc.Startup
