import Unimoc.Lib.Runs
import Unimoc.Settings.Factory
import Unimoc.Startup.HwStartup

/-! The startup aid over its calls: what its status reports, and the record of a session of
commands, readings and samples. -/
namespace Unimoc.Startup

open CurrentControl Firmware Settings

/-- `passed` and `failed` hold one bit per state. -/
structure StartupStatus where
  step : FsmState
  active : Bool
  measured : Bool
  needs : StartupNeeds
  progress : UInt8
  passed : UInt32
  failed : UInt32
  fault : StartupFault
  started : Bool
deriving DecidableEq, Repr

def has (set : UInt32) (state : FsmState) : Bool := set &&& HwStartup.bit state ≠ 0

namespace HwStartup

variable {F : Type} [Arithmetic F]

def progress (fsm : HwStartup F) : UInt8 :=
  if !fsm.isActive then if fsm.state = .done then 100 else 0
  else if fsm.stepDone then 100
  else
    let sweepPos := UInt32.ofNat fsm.sweepPos
    let (done, total) :=
      match fsm.state with
      | .adcOffsetCal | .adcNoiseFloor | .dcLinkVoltageCheck | .currentSenseCalibration =>
        (fsm.sampleCount, nCal)
      | .dutyForceLow | .dutyForceMid | .dutyForceHigh => (fsm.sampleCount, holdSamples)
      | .gateDriverEnableCheck =>
        (if fsm.gatePhaseDisabled then fsm.sampleCount else nGate + fsm.sampleCount, 2 * nGate)
      | .phaseAdcAlignment =>
        (sweepPos * nAlignSamples + fsm.sampleCount, UInt32.ofNat nSweepSteps * nAlignSamples)
      | _ => (fsm.sampleCount, 1)
    ((if done < total then done else total) * 100 / total).toUInt8

def passedSet (results : StartupResults F) : UInt32 :=
  (List.finRange numStartupSteps).foldl
    (fun set i => if results.passed[i] then set ||| 1 <<< i.val.toUInt32 else set) 0

/-- A failed step is a finished one that did not pass. -/
def status (fsm : HwStartup F) : StartupStatus :=
  let measured := fsm.isActive && fsm.stepDone
  let passed := passedSet fsm.results
  let finished := if measured then fsm.completed ||| bit fsm.state else fsm.completed
  { step := fsm.state
    active := fsm.isActive
    measured := measured
    needs := fsm.needs
    progress := fsm.progress
    passed := passed
    failed := finished &&& ~~~passed
    fault := fsm.fault
    started := fsm.started }

end HwStartup

/-- What the commissioning commands and the spin ask of the startup aid. -/
inductive Call (F : Type)
  | requestRun
  | requestNextStep (motorConnected : Bool)
  | requestAbort (reason : StartupFault)
  | setExtCurrent (current : F)
  | setExtVdc (voltage : F)
  | runOnce

inductive Answer
  | start (answer : StartupStart)
  | next (answer : StartupContinue)
  | none
deriving DecidableEq, Repr

/-- `meets` is what has happened to the board since the last call. -/
structure Step (F : Type) where
  meets : Board F → Board F
  call : Call F

variable {F : Type} [Arithmetic F]

def HwStartup.call (call : Call F) (fsm : HwStartup F) (b : Board F) : Answer × HwStartup F × Board F :=
  match call with
  | .requestRun =>
    let (answer, fsm, b) := fsm.requestRun b
    (.start answer, fsm, b)
  | .requestNextStep motorConnected =>
    let (answer, fsm) := fsm.requestNextStep motorConnected
    (.next answer, fsm, b)
  | .requestAbort reason => (.none, fsm.requestAbort reason b)
  | .setExtCurrent current => (.none, fsm.setExtCurrent current, b)
  | .setExtVdc voltage => (.none, fsm.setExtVdc voltage, b)
  | .runOnce => (.none, fsm.runOnce b)

/-- A call with its answer and the states around it. -/
structure Moment (F : Type) [Arithmetic F] where
  before : HwStartup F
  call : Call F
  answer : Answer
  after : HwStartup F

/-- `past` holds the newest moment first. -/
structure Session (F : Type) [Arithmetic F] where
  fsm : HwStartup F
  board : Board F
  past : List (Moment F)

namespace Session

def next (s : Session F) (step : Step F) : Session F :=
  let (answer, fsm, board) := s.fsm.call step.call (step.meets s.board)
  { fsm := fsm, board := board, past := ⟨s.fsm, step.call, answer, fsm⟩ :: s.past }

def run (s : Session F) (steps : List (Step F)) : Session F := steps.foldl next s

/-- The aid as it is constructed, on any board. -/
def start (board : Board F) : Session F := ⟨.initial, board, []⟩

end Session

section Simulated

def benchBoard : Board Binary32 where
  isr := { CurrentControlIsr.powerOn with hardware := true }
  stage := .powerOn true
  outer := .powerOn
  store := ⟨.default, simCapabilities, .default, .default, false⟩
  timerClock := 170000000
  interrupts := []
  storage := []
  initializations := []
  trace := []

def quietSamples : ControlCycleSamples Binary32 where
  phaseCurrents := Vector.replicate numSubSteps .zero
  dcLink := 24.0
  overcurrent := false

def plain (call : Call Binary32) : Step Binary32 := ⟨id, call⟩

/-- A spin of the startup aid that finds the samples of a control cycle. -/
def sample : Step Binary32 :=
  ⟨fun b => { b with interrupts := [[.controlCycle quietSamples .zero]] }, .runOnce⟩

end Simulated

end Unimoc.Startup
