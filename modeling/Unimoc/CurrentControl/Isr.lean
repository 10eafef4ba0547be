import Unimoc.Hardware.PowerStage
import Unimoc.Settings.Store

/-! The control cycle: its samples and trips, forced duties, the live gains. The current
controller and the modulation work between the steps given here; their duties come with
the cycle. -/
namespace Unimoc.CurrentControl

open Settings Hardware

abbrev numSubSteps : Nat := 4

structure ThreePhase (F : Type) where
  a : F
  b : F
  c : F
deriving DecidableEq

structure Rotor (F : Type) where
  d : F
  q : F
deriving DecidableEq

/-- Samples of one control cycle, oldest first. -/
structure ControlCycleSamples (F : Type) where
  phaseCurrents : Vector (ThreePhase F) numSubSteps
  dcLink : F
  overcurrent : Bool

/-- Gains of the current controller that may change while the loop runs. -/
structure CurrentGains (F : Type) where
  kpD : F
  kiD : F
  kpQ : F
  kiQ : F
deriving DecidableEq

inductive TripName
  | overcurrent
  | overvoltage
deriving DecidableEq, Repr

def TripName.text : TripName → String
  | .overcurrent => "overcurrent trip"
  | .overvoltage => "DC-link overvoltage trip"

structure CurrentControlIsr (F : Type) where
  /-- The hardware is attached (`hardware_` is not null). -/
  hardware : Bool
  arr : UInt32
  adcTriggerOffset : UInt32
  calibration : AdcCalibration F
  dutyMin : F
  dutyMax : F
  gains : CurrentGains F
  gainsMailbox : CurrentGains F
  gainsPending : Bool
  samplesReady : Bool
  controlCycles : UInt32
  phaseDuties : ThreePhase F
  forcedDuties : ThreePhase F
  forceDutyActive : Bool
  iRef : Rotor F
  iRefMailbox : Rotor F
  rawPhaseCurrents : ThreePhase F
  rawVdc : F
  phaseCurrents : ThreePhase F
  dcLink : F
  overcurrentLimit : F
  overcurrentTripped : Bool
  dcLinkTrip : F
  overvoltageTripped : Bool
  theta : F

def currentGains {F : Type} [Arithmetic F] (settings : NvmSettings) : CurrentGains F where
  kpD := settings.real .currentKpD
  kiD := settings.real .currentKiD
  kpQ := settings.real .currentKpQ
  kiQ := settings.real .currentKiQ

def calibrationOf {F : Type} [Arithmetic F] (settings : NvmSettings) : AdcCalibration F where
  offsetA := settings.real .adcOffsetA
  offsetB := settings.real .adcOffsetB
  offsetC := settings.real .adcOffsetC
  gainA := settings.real .adcGainA
  gainB := settings.real .adcGainB
  gainC := settings.real .adcGainC
  gainVdc := settings.real .adcGainVdc

/-- The selected frequency as an integer; the timing needs it above zero. -/
def pwmHertz (F : Type) [Arithmetic F] (settings : NvmSettings) : UInt32 :=
  (Scalar.toUInt64 (settings.real .pwmFrequency : F)).toUInt32

namespace ThreePhase

variable {F : Type} [Scalar F]

def uniform (value : F) : ThreePhase F := ⟨value, value, value⟩

def zero : ThreePhase F := uniform Scalar.zero

def exceeds (currents : ThreePhase F) (limit : F) : Bool :=
  limit < Scalar.abs currents.a || limit < Scalar.abs currents.b || limit < Scalar.abs currents.c

end ThreePhase

def Rotor.zero {F : Type} [Scalar F] : Rotor F := ⟨Scalar.zero, Scalar.zero⟩

namespace CurrentControlIsr

variable {F : Type} [Arithmetic F]

def neutral : F := 0.5

def powerOn : CurrentControlIsr F where
  hardware := false
  arr := 2655
  adcTriggerOffset := 170
  calibration := ⟨Scalar.zero, Scalar.zero, Scalar.zero, 1.0, 1.0, 1.0, 1.0⟩
  dutyMin := 0.05
  dutyMax := 0.95
  gains := ⟨Scalar.zero, Scalar.zero, Scalar.zero, Scalar.zero⟩
  gainsMailbox := ⟨Scalar.zero, Scalar.zero, Scalar.zero, Scalar.zero⟩
  gainsPending := false
  samplesReady := false
  controlCycles := 0
  phaseDuties := .uniform neutral
  forcedDuties := .zero
  forceDutyActive := false
  iRef := .zero
  iRefMailbox := .zero
  rawPhaseCurrents := .zero
  rawVdc := Scalar.zero
  phaseCurrents := .zero
  dcLink := Scalar.zero
  overcurrentLimit := Scalar.infinity
  overcurrentTripped := false
  dcLinkTrip := Scalar.infinity
  overvoltageTripped := false
  theta := Scalar.zero

/-- Loads the settings. Without a PWM frequency only the hardware is attached. A latched
trip stays. -/
def init (settings : NvmSettings) (timerClock : UInt32) (isr : CurrentControlIsr F) :
    CurrentControlIsr F :=
  let isr := { isr with hardware := true }
  let pwmHz := pwmHertz F settings
  if pwmHz = 0 then isr
  else
    { isr with
      arr := timerClock / (2 * pwmHz) - 1
      adcTriggerOffset := (Scalar.toUInt64 (Scalar.round
        ((1e-6 : F) * Scalar.ofUInt64 timerClock.toUInt64))).toUInt32
      dcLinkTrip := settings.real .dcLinkTrip
      calibration := calibrationOf settings
      dutyMin := settings.real .svmDutyMin
      dutyMax := settings.real .svmDutyMax
      gains := currentGains settings
      gainsPending := false
      theta := Scalar.zero
      samplesReady := false
      controlCycles := 0
      phaseDuties := .uniform neutral
      forceDutyActive := false
      iRef := .zero
      iRefMailbox := .zero }

def setCurrentRef (ref : Rotor F) (isr : CurrentControlIsr F) : CurrentControlIsr F :=
  { isr with iRefMailbox := ref }

def setCurrentGains (gains : CurrentGains F) (isr : CurrentControlIsr F) : CurrentControlIsr F :=
  { isr with gainsMailbox := gains, gainsPending := true }

/-- The gains the next control cycle works with. -/
def nextGains (isr : CurrentControlIsr F) : CurrentGains F :=
  if isr.gainsPending then isr.gainsMailbox else isr.gains

def forceDuty (da db dc : F) (isr : CurrentControlIsr F) : CurrentControlIsr F :=
  let clampDuty (duty : F) := Scalar.clamp duty isr.dutyMin isr.dutyMax
  { isr with forcedDuties := ⟨clampDuty da, clampDuty db, clampDuty dc⟩, forceDutyActive := true }

def releaseForceDuty (isr : CurrentControlIsr F) : CurrentControlIsr F :=
  { isr with forceDutyActive := false }

def setAdcTriggerOffset (offset : UInt32) (isr : CurrentControlIsr F) : CurrentControlIsr F :=
  { isr with adcTriggerOffset := offset }

def setOvercurrentLimit (limit : F) (isr : CurrentControlIsr F) : CurrentControlIsr F :=
  { isr with overcurrentLimit := limit }

def clearTrips (isr : CurrentControlIsr F) : CurrentControlIsr F :=
  { isr with overcurrentTripped := false, overvoltageTripped := false }

def tripped (isr : CurrentControlIsr F) : Bool := isr.overcurrentTripped || isr.overvoltageTripped

def tripName (isr : CurrentControlIsr F) : Option TripName :=
  if isr.overcurrentTripped then some .overcurrent
  else if isr.overvoltageTripped then some .overvoltage
  else none

def calibrated (raw : ControlCycleSamples F) (calibration : AdcCalibration F) :
    ControlCycleSamples F :=
  { raw with
    phaseCurrents := raw.phaseCurrents.map fun currents =>
      ⟨(currents.a - calibration.offsetA) * calibration.gainA,
        (currents.b - calibration.offsetB) * calibration.gainB,
        (currents.c - calibration.offsetC) * calibration.gainC⟩
    dcLink := raw.dcLink * calibration.gainVdc }

/-- Takes the samples, the current reference and the gains handed over. -/
def takeInputs (raw : ControlCycleSamples F) (isr : CurrentControlIsr F) : CurrentControlIsr F :=
  let samples := calibrated raw isr.calibration
  { isr with
    controlCycles := isr.controlCycles + 1
    rawPhaseCurrents := raw.phaseCurrents.back
    rawVdc := raw.dcLink
    phaseCurrents := samples.phaseCurrents.back
    dcLink := samples.dcLink
    iRef := isr.iRefMailbox
    gains := isr.nextGains
    gainsPending := false }

def overcurrent (raw : ControlCycleSamples F) (isr : CurrentControlIsr F) : Bool :=
  let samples := calibrated raw isr.calibration
  !isr.overcurrentTripped && (samples.overcurrent ||
    samples.phaseCurrents.any fun currents => currents.exceeds isr.overcurrentLimit)

def overvoltage (raw : ControlCycleSamples F) (isr : CurrentControlIsr F) : Bool :=
  !isr.overvoltageTripped && !((calibrated raw isr.calibration).dcLink < isr.dcLinkTrip)

/-- The duties of the cycle: neutral while a trip is latched, else forced ones, else those
of the controller. -/
def finishCycle (duties : ThreePhase F) (isr : CurrentControlIsr F) : CurrentControlIsr F :=
  { isr with
    phaseDuties :=
      if isr.tripped then .uniform neutral
      else if isr.forceDutyActive then isr.forcedDuties
      else duties
    samplesReady := true }

/-- One control cycle: whether it trips the power stage, and the state after it.
`duties` are those of the controller, for a cycle that runs it. -/
def onControlCycle (raw : ControlCycleSamples F) (duties : ThreePhase F)
    (isr : CurrentControlIsr F) : Bool × CurrentControlIsr F :=
  if !isr.hardware then (false, isr)
  else
    let isr := isr.takeInputs raw
    let overCurrent := isr.overcurrent raw
    let isr := { isr with overcurrentTripped := isr.overcurrentTripped || overCurrent }
    let overVoltage := isr.overvoltage raw
    let isr := { isr with overvoltageTripped := isr.overvoltageTripped || overVoltage }
    (overCurrent || overVoltage, isr.finishCycle duties)

/-- Park transform of the newest currents with the observer angle. -/
def measuredCurrent (isr : CurrentControlIsr F) : Rotor F :=
  let currents := isr.phaseCurrents
  let sqrt3By2 : F := Arithmetic.narrow 0.86602540378443864676
  let twoByThree : F := Arithmetic.narrow (2.0 / 3.0)
  let alpha := twoByThree * (currents.a - (0.5 : F) * currents.b - (0.5 : F) * currents.c)
  let beta := twoByThree * (sqrt3By2 * currents.b - sqrt3By2 * currents.c)
  let (sin, cos) := Arithmetic.sinCos isr.theta
  ⟨alpha * cos + beta * sin, beta * cos - alpha * sin⟩

section Cycle

variable (raw : ControlCycleSamples F) (duties : ThreePhase F) (isr : CurrentControlIsr F)

@[simp] theorem onControlCycle_forced :
    (isr.onControlCycle raw duties).2.forceDutyActive = isr.forceDutyActive := by
  unfold onControlCycle
  split <;> rfl

@[simp] theorem onControlCycle_nextGains :
    (isr.onControlCycle raw duties).2.nextGains = isr.nextGains := by
  unfold onControlCycle
  split <;> rfl

@[simp] theorem onControlCycle_tripped :
    (isr.onControlCycle raw duties).2.tripped =
      (isr.tripped || (isr.onControlCycle raw duties).1) := by
  unfold onControlCycle
  split
  · simp
  · simp only [tripped, finishCycle, takeInputs]
    ac_rfl

end Cycle

section Init

variable (settings : NvmSettings) (timerClock : UInt32) (isr : CurrentControlIsr F)

@[simp] theorem init_tripped : (isr.init settings timerClock).tripped = isr.tripped := by
  unfold init
  simp only []
  split <;> rfl

@[simp] theorem init_forced :
    (isr.init settings timerClock).forceDutyActive =
      if pwmHertz F settings = 0 then isr.forceDutyActive else false := by
  unfold init
  simp only []
  split <;> rfl

@[simp] theorem init_nextGains :
    (isr.init settings timerClock).nextGains =
      if pwmHertz F settings = 0 then isr.nextGains else currentGains settings := by
  unfold init
  simp only []
  split <;> rfl

end Init

end CurrentControlIsr

end Unimoc.CurrentControl
