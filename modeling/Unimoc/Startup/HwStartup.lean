import Unimoc.Firmware.Board

/-! The hardware bring-up: one sample of the control cycle a call, one request a step. -/
namespace Unimoc.Startup

open CurrentControl Firmware Hardware Settings

/-- Samples averaged by the calibration steps. -/
def nCal : UInt32 := 1024

/-- Samples of each half of the gate-driver check. -/
def nGate : UInt32 := 512

def holdSamples : UInt32 := 1000

/-- Samples of one position of the alignment sweep. -/
def nAlignSamples : UInt32 := 256

abbrev nSweepSteps : Nat := 21

structure HwStartup (F : Type) [Arithmetic F] where
  state : FsmState
  results : StartupResults F
  stepDone : Bool
  nextStepRequested : Bool
  started : Bool
  readingPrompted : Bool
  /-- One bit per step that finished measuring. -/
  completed : UInt32
  fault : StartupFault
  sampleCount : UInt32
  accumA : Arithmetic.Wide F
  accumB : Arithmetic.Wide F
  accumC : Arithmetic.Wide F
  accumSqA : Arithmetic.Wide F
  accumSqB : Arithmetic.Wide F
  sweepPos : Nat
  sweepNoiseA : Vector F nSweepSteps
  baseTriggerOffset : UInt32
  gateMeanDisabled : F
  gateMeanEnabled : F
  gatePhaseDisabled : Bool
  extCurrent : F
  extVdc : F
  ocLimit : F

namespace HwStartup

variable {F : Type} [Arithmetic F]

def neutralDuty : F := 0.5

def offsetThreshold : F := 0.5

def noiseThreshold : F := 0.1

def gainTolerance : F := 0.05

def vdcGainTolerance : F := 0.02

def vdcMinValid : F := 1.0

/-- Share of the largest phase current a run may use. -/
def ocFraction : F := 0.10

def dutyStepFraction : F := 0.45

def vCalFraction : F := 0.002

def initial : HwStartup F where
  state := .idle
  results := .empty
  stepDone := false
  nextStepRequested := false
  started := false
  readingPrompted := false
  completed := 0
  fault := .none
  sampleCount := 0
  accumA := Scalar.zero
  accumB := Scalar.zero
  accumC := Scalar.zero
  accumSqA := Scalar.zero
  accumSqB := Scalar.zero
  sweepPos := 0
  sweepNoiseA := Vector.replicate nSweepSteps Scalar.zero
  baseTriggerOffset := 0
  gateMeanDisabled := Scalar.zero
  gateMeanEnabled := Scalar.zero
  gatePhaseDisabled := true
  extCurrent := Scalar.zero
  extVdc := Scalar.zero
  ocLimit := 10.0

def isActive (fsm : HwStartup F) : Bool := fsm.state.active

def setExtCurrent (current : F) (fsm : HwStartup F) : HwStartup F := { fsm with extCurrent := current }

def setExtVdc (voltage : F) (fsm : HwStartup F) : HwStartup F := { fsm with extVdc := voltage }

def bit (state : FsmState) : UInt32 := 1 <<< state.index.val.toUInt32

def clearSamples (fsm : HwStartup F) : HwStartup F :=
  { fsm with
    sampleCount := 0, accumA := Scalar.zero, accumB := Scalar.zero, accumC := Scalar.zero
    accumSqA := Scalar.zero, accumSqB := Scalar.zero }

def transitionTo (next : FsmState) (fsm : HwStartup F) : HwStartup F :=
  { fsm.clearSamples with
    state := next, stepDone := false, nextStepRequested := false
    results := { fsm.results with currentState := next } }

def neutral (b : Board F) : Board F := b.forceDuty neutralDuty neutralDuty neutralDuty

/-- The run ends here: neutral duties, outputs off. -/
def enterFault (reason : StartupFault) (fsm : HwStartup F) (b : Board F) : HwStartup F × Board F :=
  let fsm :=
    { fsm with
      fault := reason, state := .fault, results := { fsm.results with currentState := .fault } }
  (fsm, (neutral b).disable.record (.runEnded reason))

/-- A new run acknowledges a latched break and a trip, and forces neutral duties before
the outputs are released. -/
def prepareRun (b : Board F) : Board F :=
  let (state, b) := (b.record .startAttempted).getState
  let b := if state = .fault then b.clearFault .startup else b
  neutral (b.clearTrips .startup)

/-- The external enable must be present. -/
def requestRun (fsm : HwStartup F) (b : Board F) : StartupStart × HwStartup F × Board F :=
  if fsm.isActive then (.running, fsm, b)
  else
    let fsm :=
      { fsm with
        state := .idle, results := .empty, sampleCount := 0, sweepPos := 0, stepDone := false
        nextStepRequested := false, extCurrent := Scalar.zero, extVdc := Scalar.zero
        readingPrompted := false, completed := 0, fault := .none
        ocLimit := b.store.capabilities.maxPhaseCurrent * ocFraction }
    let (released, b) := (prepareRun b).enable
    if !released then (.notReleased, fsm, b.releaseForceDuty.record .startRefused)
    else (.started, { fsm with started := true }.transitionTo .pwmDisable, b.record .runStarted)

def needs (fsm : HwStartup F) : StartupNeeds :=
  if !fsm.isActive then .none
  else
    match fsm.state with
    | .dcLinkVoltageCheck =>
      if !fsm.stepDone && nCal ≤ fsm.sampleCount then .dcLinkVoltage else .none
    | .currentSenseCalibration =>
      if !fsm.stepDone && nCal ≤ fsm.sampleCount then .phaseCurrent else .none
    | .connectMotor => if fsm.stepDone then .motorConnected else .none
    | _ => .none

/-- A request before the step has measured is refused, so every continue is a decision
on a measured step. -/
def requestNextStep (motorConnected : Bool) (fsm : HwStartup F) : StartupContinue × HwStartup F :=
  if !fsm.isActive then (.notRunning, fsm)
  else
    let measured : StartupContinue × HwStartup F :=
      if !fsm.stepDone then (.measuring, fsm)
      else (.accepted, { fsm with nextStepRequested := true })
    match fsm.needs with
    | .dcLinkVoltage | .phaseCurrent => (.needsReading, fsm)
    | .motorConnected => if !motorConnected then (.needsConfirmation, fsm) else measured
    | .none => if motorConnected then (.unexpectedConfirmation, fsm) else measured

/-- Ends an active run. -/
def requestAbort (reason : StartupFault) (fsm : HwStartup F) (b : Board F) : HwStartup F × Board F :=
  if !fsm.isActive then (fsm, b) else fsm.enterFault reason b

def checkMotorOc (currents : ThreePhase F) (fsm : HwStartup F) : Bool := currents.exceeds fsm.ocLimit

/-- One sample into the accumulators. -/
def addSample (currents : ThreePhase F) (fsm : HwStartup F) : HwStartup F :=
  let ia := Arithmetic.widen currents.a
  let ib := Arithmetic.widen currents.b
  { fsm with
    accumA := fsm.accumA + ia
    accumB := fsm.accumB + ib
    accumC := fsm.accumC + Arithmetic.widen currents.c
    accumSqA := fsm.accumSqA + ia * ia
    accumSqB := fsm.accumSqB + ib * ib
    sampleCount := fsm.sampleCount + 1 }

/-- Whether `samples` of them are collected with this one. -/
def collectSample (samples : UInt32) (fsm : HwStartup F) (b : Board F) :
    Bool × HwStartup F × Board F :=
  let (isr, b) := b.readIsr
  let fsm := fsm.addSample isr.rawPhaseCurrents
  (samples ≤ fsm.sampleCount, fsm, b)

def mean (sum : Arithmetic.Wide F) (samples : UInt32) : F :=
  Arithmetic.narrow sum / Scalar.ofUInt64 samples.toUInt64

/-- The variance is taken in the wider format. -/
def rms (sum sumOfSquares : Arithmetic.Wide F) (samples : UInt32) : F :=
  let count : Arithmetic.Wide F := Scalar.ofUInt64 samples.toUInt64
  let variance : F := Arithmetic.narrow (sumOfSquares / count - sum / count * (sum / count))
  if Scalar.zero < variance then Scalar.sqrt variance else Scalar.zero

def validateCurrentState (fsm : HwStartup F) : Bool :=
  if fsm.state = .currentSenseCalibration ∧ fsm.extCurrent < 1e-3 then false
  else if fsm.state = .dcLinkVoltageCheck ∧ fsm.extVdc < vdcMinValid then false
  else true

/-- A gain that was not measured keeps the correction at 1. -/
def correction (gain : F) : F := if 1e-4 < gain then 1.0 / gain else 1.0

def runDone (fsm : HwStartup F) (b : Board F) : HwStartup F × Board F :=
  let b := b.disable.releaseForceDuty
  let results := fsm.results
  let (status, b) := b.change .calibration (b.store.applyAdcCalibration
    ⟨results.adcOffsetA, results.adcOffsetB, results.adcOffsetC, correction results.gainA,
      correction results.gainB, correction results.gainC, correction results.gainVdc⟩)
  if status ≠ .success then fsm.enterFault .applyFailed b
  else
    ({ fsm with state := .done, results := { fsm.results with currentState := .done } },
      b.record (.runEnded .none))

def advanceToNextState (fsm : HwStartup F) (b : Board F) : HwStartup F × Board F :=
  let fsm := { fsm with nextStepRequested := false, completed := fsm.completed ||| bit fsm.state }
  if fsm.state.next = .done then fsm.runDone b else (fsm.transitionTo fsm.state.next, b)

/-- The end of most steps: advance once it is measured and asked for. -/
def continueWhenAsked (fsm : HwStartup F) (b : Board F) : HwStartup F × Board F :=
  if fsm.stepDone && fsm.nextStepRequested && fsm.validateCurrentState then fsm.advanceToNextState b
  else (fsm, b)

def runPwmDisable (fsm : HwStartup F) (b : Board F) : HwStartup F × Board F :=
  let b := neutral b
  let fsm := { fsm with stepDone := true }
  if fsm.nextStepRequested && fsm.validateCurrentState then
    { fsm with results := fsm.results.pass .pwmDisable true }.advanceToNextState b
  else (fsm, b)

def finishAdcOffsetCal (fsm : HwStartup F) : HwStartup F :=
  let meanA : F := mean fsm.accumA nCal
  let meanB : F := mean fsm.accumB nCal
  let meanC : F := mean fsm.accumC nCal
  let passed := Scalar.abs meanA < offsetThreshold && Scalar.abs meanB < offsetThreshold &&
    Scalar.abs meanC < offsetThreshold
  let results := { fsm.results with adcOffsetA := meanA, adcOffsetB := meanB, adcOffsetC := meanC }
  { fsm with results := results.pass .adcOffsetCal passed, stepDone := true }

def finishAdcNoiseFloor (fsm : HwStartup F) : HwStartup F :=
  let rmsA : F := rms fsm.accumA fsm.accumSqA nCal
  let rmsB : F := rms fsm.accumB fsm.accumSqB nCal
  let passed := rmsA < noiseThreshold && rmsB < noiseThreshold
  let results := { fsm.results with adcNoiseRmsA := rmsA, adcNoiseRmsB := rmsB }
  { fsm with results := results.pass .adcNoiseFloor passed, stepDone := true }

/-- A step that averages `nCal` samples at neutral duties and then finishes. -/
def runCalibration (finish : HwStartup F → HwStartup F) (fsm : HwStartup F) (b : Board F) :
    HwStartup F × Board F :=
  let b := neutral b
  if fsm.stepDone then fsm.continueWhenAsked b
  else
    let (collected, fsm, b) := fsm.collectSample nCal b
    (if collected then finish fsm else fsm).continueWhenAsked b

def runAdcOffsetCal (fsm : HwStartup F) (b : Board F) : HwStartup F × Board F :=
  runCalibration finishAdcOffsetCal fsm b

def runAdcNoiseFloor (fsm : HwStartup F) (b : Board F) : HwStartup F × Board F :=
  runCalibration finishAdcNoiseFloor fsm b

/-- Always passes: the duties are verified by hand. -/
def runDutyForce (duty : F) (fsm : HwStartup F) (b : Board F) : HwStartup F × Board F :=
  let b := b.forceDuty duty duty duty
  if fsm.stepDone then fsm.continueWhenAsked b
  else if fsm.sampleCount < holdSamples then
    ({ fsm with sampleCount := fsm.sampleCount + 1 }, b)
  else
    { fsm with results := fsm.results.pass fsm.state true, stepDone := true }.continueWhenAsked b

/-- The reading decides; without one the prompt bumps the count once. -/
def evaluateDcLink (fsm : HwStartup F) : HwStartup F :=
  let measuredVdc : F := mean fsm.accumA nCal
  if vdcMinValid < fsm.extVdc then
    let gainVdc := measuredVdc / fsm.extVdc
    let passed := Scalar.abs (gainVdc - 1.0) < vdcGainTolerance
    let results := { fsm.results with gainVdc := gainVdc }
    { fsm with results := results.pass .dcLinkVoltageCheck passed, stepDone := true }
  else if fsm.sampleCount = nCal then { fsm with sampleCount := fsm.sampleCount + 1 }
  else fsm

def runDcLinkVoltageCheck (fsm : HwStartup F) (b : Board F) : HwStartup F × Board F :=
  let b := neutral b
  if fsm.stepDone then fsm.continueWhenAsked b
  else if fsm.sampleCount < nCal then
    let (isr, b) := b.readIsr
    let fsm :=
      { fsm with
        accumA := fsm.accumA + Arithmetic.widen isr.rawVdc, sampleCount := fsm.sampleCount + 1 }
    if fsm.sampleCount < nCal then (fsm, b) else (fsm.evaluateDcLink, b)
  else (fsm.evaluateDcLink, b)

def finishGateDriverEnableCheck (fsm : HwStartup F) : HwStartup F :=
  let enabledMean : F := mean fsm.accumA nGate
  let delta := Scalar.abs (enabledMean - fsm.gateMeanDisabled)
  let threshold := (2.0 : F) * fsm.results.adcNoiseRmsA
  { fsm with
    gateMeanEnabled := enabledMean, gatePhaseDisabled := true, stepDone := true
    results := fsm.results.pass .gateDriverEnableCheck (threshold < delta) }

/-- First at neutral duties, then slightly off neutral. -/
def runGateDriverEnableCheck (fsm : HwStartup F) (b : Board F) : HwStartup F × Board F :=
  if fsm.stepDone then fsm.continueWhenAsked b
  else if fsm.gatePhaseDisabled then
    let (collected, fsm, b) := fsm.collectSample nGate (neutral b)
    if collected then
      ({ fsm.clearSamples with gateMeanDisabled := mean fsm.accumA nGate, gatePhaseDisabled := false }, b)
    else (fsm, b)
  else
    let (collected, fsm, b) := fsm.collectSample nGate (b.forceDuty 0.55 0.45 0.45)
    (if collected then fsm.finishGateDriverEnableCheck else fsm, b)

/-- The outputs are off while the motor is connected. -/
def enterBarrier (fsm : HwStartup F) (b : Board F) : HwStartup F × Board F :=
  if !fsm.stepDone then
    ({ fsm with
      ocLimit := b.store.capabilities.maxPhaseCurrent * ocFraction, stepDone := true
      results := fsm.results.pass .connectMotor true }, b.disable.record .motorAwaited)
  else (fsm, b)

/-- Releases the outputs for phase 2; a break latched while they were off is acknowledged. -/
def releaseMotor (fsm : HwStartup F) (b : Board F) : HwStartup F × Board F :=
  let (state, b) := b.getState
  let b := if state = .fault then b.clearFault .startup else b
  let (released, b) := b.enable
  if !released then fsm.enterFault .enableLost b
  else fsm.advanceToNextState (b.record .motorReleased)

def runConnectMotorWait (fsm : HwStartup F) (b : Board F) : HwStartup F × Board F :=
  let (fsm, b) := fsm.enterBarrier (neutral b)
  if fsm.stepDone && fsm.nextStepRequested && fsm.validateCurrentState then fsm.releaseMotor b
  else (fsm, b)

/-- A small voltage on the alpha axis: phase A out, B and C back. -/
def injectAlphaCurrent (b : Board F) : Board F :=
  let back : F := neutralDuty - vCalFraction * 0.5
  b.forceDuty (neutralDuty + vCalFraction) back back

/-- The trigger offset of a sweep position, in signed ticks, not below zero. -/
def sweepTicks (base : UInt32) (position : Nat) : UInt32 :=
  let halfTick := (base / 2).toInt32
  let offsetSteps : Int32 := (Int32.ofNat position) - (Int32.ofNat (nSweepSteps / 2))
  let ticks := base.toInt32 + offsetSteps * halfTick
  if 0 < ticks then ticks.toUInt32 else 0

/-- The first position with the smallest noise, and that noise. -/
def quietestPosition (noise : Vector F nSweepSteps) : Nat × F :=
  (List.finRange nSweepSteps).foldl
    (fun best i => if noise[i] < best.2 then (i.val, noise[i]) else best) (0, noise[0])

def finishPhaseAdcAlignment (fsm : HwStartup F) : HwStartup F :=
  let best := quietestPosition fsm.sweepNoiseA
  let passed := best.2 < (2.0 : F) * fsm.results.adcNoiseRmsA
  let results :=
    { fsm.results with adcTriggerOffsetOptimal := sweepTicks fsm.baseTriggerOffset best.1 }
  { fsm with results := results.pass .phaseAdcAlignment passed, stepDone := true }

/-- The noise of the present position, and on to the next one. -/
def advanceSweep (fsm : HwStartup F) : HwStartup F :=
  { fsm.clearSamples with
    sweepNoiseA := fsm.sweepNoiseA.setIfInBounds fsm.sweepPos
      (rms fsm.accumA fsm.accumSqA nAlignSamples)
    sweepPos := fsm.sweepPos + 1 }

/-- The sweep starts around the trigger offset in force. -/
def enterSweep (fsm : HwStartup F) (b : Board F) : HwStartup F × Board F :=
  if fsm.sweepPos = 0 && fsm.sampleCount = 0 then
    let (isr, b) := b.readIsr
    ({ fsm with baseTriggerOffset := isr.adcTriggerOffset }, b)
  else (fsm, b)

def sweep (fsm : HwStartup F) (b : Board F) : HwStartup F × Board F :=
  if nSweepSteps ≤ fsm.sweepPos then
    let fsm := fsm.finishPhaseAdcAlignment
    (fsm, b.setAdcTriggerOffset fsm.results.adcTriggerOffsetOptimal)
  else
    let (collected, fsm, b) := fsm.collectSample nAlignSamples b
    if collected then
      let fsm := fsm.advanceSweep
      (fsm, b.setAdcTriggerOffset (sweepTicks fsm.baseTriggerOffset fsm.sweepPos))
    else (fsm, b)

def runPhaseAdcAlignment (fsm : HwStartup F) (b : Board F) : HwStartup F × Board F :=
  let b := injectAlphaCurrent b
  if fsm.stepDone then fsm.continueWhenAsked b
  else
    let (fsm, b) := fsm.enterSweep b
    fsm.sweep b

/-- The reading less the zero offset, over the reference; B and C carry half of it back. -/
def finishCurrentSenseCalibration (fsm : HwStartup F) : HwStartup F :=
  let signalA : F := mean fsm.accumA nCal - fsm.results.adcOffsetA
  let signalB : F := mean fsm.accumB nCal - fsm.results.adcOffsetB
  let signalC : F := mean fsm.accumC nCal - fsm.results.adcOffsetC
  let halfReturn := -fsm.extCurrent * (0.5 : F)
  let gainOf (signal reference : F) : F :=
    if 1e-4 < Scalar.abs signal then signal / reference else Scalar.zero
  let gainA := gainOf signalA fsm.extCurrent
  let gainB := gainOf signalB halfReturn
  let gainC := gainOf signalC halfReturn
  let within (gain : F) : Bool := 1e-4 < gain && Scalar.abs (gain - 1.0) < gainTolerance
  let results := { fsm.results with gainA := gainA, gainB := gainB, gainC := gainC }
  { fsm with results := results.pass .currentSenseCalibration (within gainA && within gainB && within gainC) }

/-- Measured; the reading may come later. -/
def awaitReading (fsm : HwStartup F) (b : Board F) : HwStartup F × Board F :=
  if fsm.extCurrent < 1e-3 then ({ fsm with readingPrompted := true }, b)
  else { fsm.finishCurrentSenseCalibration with stepDone := true }.continueWhenAsked b

def runCurrentSenseCalibration (fsm : HwStartup F) (b : Board F) : HwStartup F × Board F :=
  let b := injectAlphaCurrent b
  if fsm.stepDone then fsm.continueWhenAsked b
  else if fsm.sampleCount < nCal then
    let (collected, fsm, b) := fsm.collectSample nCal b
    if !collected then (fsm, b) else fsm.awaitReading b
  else fsm.awaitReading b

/-- The work of the present step. -/
def runStep (fsm : HwStartup F) (b : Board F) : HwStartup F × Board F :=
  match fsm.state with
  | .idle | .done | .fault => (fsm, b)
  | .pwmDisable => fsm.runPwmDisable b
  | .adcOffsetCal => fsm.runAdcOffsetCal b
  | .adcNoiseFloor => fsm.runAdcNoiseFloor b
  | .dutyForceLow => fsm.runDutyForce (neutralDuty - dutyStepFraction) b
  | .dutyForceMid => fsm.runDutyForce neutralDuty b
  | .dutyForceHigh => fsm.runDutyForce (neutralDuty + dutyStepFraction) b
  | .dcLinkVoltageCheck => fsm.runDcLinkVoltageCheck b
  | .gateDriverEnableCheck => fsm.runGateDriverEnableCheck b
  | .connectMotor => fsm.runConnectMotorWait b
  | .phaseAdcAlignment => fsm.runPhaseAdcAlignment b
  | .currentSenseCalibration => fsm.runCurrentSenseCalibration b

/-- The stage is released for the whole run, but for the barrier; if it is not any more,
the run stops. -/
def stageLost (fsm : HwStartup F) (b : Board F) : Option StartupFault × Board F :=
  if fsm.isActive && fsm.state ≠ .connectMotor then
    let (state, b) := b.getState
    if state ≠ .enabled then
      let (name, b) := b.tripName
      (some (if name.isSome then .trip else .enableLost), b)
    else (none, b)
  else (none, b)

def runOnce (fsm : HwStartup F) (b : Board F) : HwStartup F × Board F :=
  let (ready, b) := b.takeSamplesReady
  if !ready then (fsm, b)
  else
    let (lost, b) := fsm.stageLost b
    match lost with
    | some reason => fsm.enterFault reason b
    | none =>
      if fsm.isActive then
        let (isr, b) := b.readIsr
        if fsm.checkMotorOc isr.rawPhaseCurrents then fsm.enterFault .overcurrent b
        else fsm.runStep b
      else fsm.runStep b

theorem needs_measured {fsm : HwStartup F} (active : fsm.isActive = true) (measured : fsm.stepDone = true) :
    fsm.needs = if fsm.state = .connectMotor then .motorConnected else .none := by
  unfold needs
  rw [active, measured]
  cases fsm.state <;> rfl

/-- A request is taken up in a measured step, at the barrier with the confirmation and
elsewhere without, or it changes nothing. -/
theorem requestNextStep_cases (motorConnected : Bool) (fsm : HwStartup F) :
    (fsm.isActive = true ∧ fsm.stepDone = true ∧ (motorConnected = true ↔ fsm.state = .connectMotor) ∧
      fsm.requestNextStep motorConnected = (.accepted, { fsm with nextStepRequested := true })) ∨
    ∃ answer, answer ≠ .accepted ∧ fsm.requestNextStep motorConnected = (answer, fsm) := by
  unfold requestNextStep
  cases active : fsm.isActive with
  | false => exact .inr ⟨.notRunning, nofun, rfl⟩
  | true =>
    cases measured : fsm.stepDone with
    | false =>
      right
      cases fsm.needs with
      | dcLinkVoltage | phaseCurrent => exact ⟨.needsReading, nofun, rfl⟩
      | motorConnected =>
        cases motorConnected with
        | false => exact ⟨.needsConfirmation, nofun, rfl⟩
        | true => exact ⟨.measuring, nofun, rfl⟩
      | none =>
        cases motorConnected with
        | true => exact ⟨.unexpectedConfirmation, nofun, rfl⟩
        | false => exact ⟨.measuring, nofun, rfl⟩
    | true =>
      rw [needs_measured active measured]
      by_cases barrier : fsm.state = .connectMotor
      · rw [if_pos barrier]
        cases motorConnected with
        | false => exact .inr ⟨.needsConfirmation, nofun, rfl⟩
        | true => exact .inl ⟨rfl, rfl, iff_of_true rfl barrier, rfl⟩
      · rw [if_neg barrier]
        cases motorConnected with
        | true => exact .inr ⟨.unexpectedConfirmation, nofun, rfl⟩
        | false => exact .inl ⟨rfl, rfl, iff_of_false nofun barrier, rfl⟩

end HwStartup

end Unimoc.Startup
