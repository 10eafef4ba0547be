import Unimoc.CurrentControl.Isr

/-! The control loop of a cycle: transforms, current controller, dead-time compensation,
modulator. Every division goes through a hook, so the same loop runs with the division of
the number format and with one that has no result for a zero divisor. -/
namespace Unimoc.CurrentControl

open Settings

structure Stator (F : Type) where
  alpha : F
  beta : F
deriving DecidableEq

structure SinCos (F : Type) where
  sin : F
  cos : F
deriving DecidableEq

section Frames

variable {F : Type} [Arithmetic F]

/-- Clarke transform. -/
def ThreePhase.toStator (phases : ThreePhase F) : Stator F :=
  let sqrt3By2 : F := Arithmetic.narrow 0.86602540378443864676
  let twoByThree : F := Arithmetic.narrow (2.0 / 3.0)
  ⟨twoByThree * (phases.a - (0.5 : F) * phases.b - (0.5 : F) * phases.c),
    twoByThree * (sqrt3By2 * phases.b - sqrt3By2 * phases.c)⟩

/-- Inverse Clarke transform. -/
def Stator.toThreePhase (vector : Stator F) : ThreePhase F :=
  let sqrt3By2 : F := 0.86602540378443864676
  let half : F := -0.5
  ⟨vector.alpha, half * vector.alpha + sqrt3By2 * vector.beta,
    half * vector.alpha - sqrt3By2 * vector.beta⟩

/-- Park transform. -/
def Stator.toRotor (vector : Stator F) (angle : SinCos F) : Rotor F :=
  ⟨vector.alpha * angle.cos + vector.beta * angle.sin,
    vector.beta * angle.cos - vector.alpha * angle.sin⟩

/-- Inverse Park transform. -/
def Rotor.toStator (vector : Rotor F) (angle : SinCos F) : Stator F :=
  ⟨vector.d * angle.cos - vector.q * angle.sin, vector.d * angle.sin + vector.q * angle.cos⟩

instance : Add (Stator F) := ⟨fun first second => ⟨first.alpha + second.alpha, first.beta + second.beta⟩⟩

end Frames

structure DeadTimeCompensation (F : Type) where
  deadTime : F
  fPwm : F
  iThreshold : F

structure CurrentController (F : Type) where
  lD : F
  lQ : F
  psi : F
  kbD : F
  kbQ : F
  /-- Share of the DC link. -/
  vMax : F
  integratorD : F
  integratorQ : F

/-- The algorithms of the loop; its gains and duty limits are those of the controller. -/
structure ControlLoop (F : Type) where
  cc : CurrentController F
  dtc : DeadTimeCompensation F
  vInject : F
  hfiActive : Bool
  /-- Speed estimate of the mechanical observer. -/
  omega : F
  dtSlow : F

/-- Park angles of the samples and inverse-Park angles of the duty entries. -/
structure AngleSet (F : Type) where
  sc : Vector (SinCos F) numSubSteps
  scOut : Vector (SinCos F) numSubSteps

/-- What a cycle leaves for the observer, and the duties of its half periods. -/
structure CycleOutput (F : Type) where
  iAbSamples : Vector (Stator F) numSubSteps
  iDqMean : Rotor F
  uDq : Rotor F
  duties : Vector (ThreePhase F) numSubSteps

section Init

variable {F : Type} [Arithmetic F] (settings : NvmSettings)

def DeadTimeCompensation.init : DeadTimeCompensation F where
  deadTime := settings.real .dtcDeadTime
  fPwm := settings.real .dtcFPwm
  iThreshold := settings.real .dtcIThreshold

def CurrentController.init (cc : CurrentController F) : CurrentController F :=
  { cc with
    lD := settings.real .lD
    lQ := settings.real .lQ
    psi := settings.real .fluxPm
    vMax := settings.real .currentVMax
    integratorD := Scalar.zero
    integratorQ := Scalar.zero }

/-- Duration of one PWM half period. -/
def dtFastFromPwmFrequency (frequency : F) : F := 1.0 / (2.0 * frequency)

def dtSlowFromPwmFrequency (frequency : F) : F :=
  dtFastFromPwmFrequency frequency * Scalar.ofUInt64 (UInt64.ofNat numSubSteps)

def ControlLoop.init (loop : ControlLoop F) : ControlLoop F :=
  if pwmHertz F settings = 0 then loop
  else
    { loop with
      cc := loop.cc.init settings
      dtc := .init settings
      vInject := settings.real .hfiVInject
      omega := Scalar.zero
      dtSlow := dtSlowFromPwmFrequency (settings.real .pwmFrequency) }

end Init

section Cycle

variable {F : Type} [Arithmetic F] {M : Type → Type} [Monad M] (divide : F → F → M F)

namespace DeadTimeCompensation

/-- Sign of a current, linear around zero. -/
def softSign (current : F) (dtc : DeadTimeCompensation F) : M F := do
  let share ← divide current dtc.iThreshold
  pure (Scalar.clamp share (-1.0) 1.0)

/-- Compensation voltage over the DC-link voltage. -/
def calculate (iAb : Stator F) (dtc : DeadTimeCompensation F) : M (Stator F) := do
  let currents := iAb.toThreePhase
  let signA ← softSign divide currents.a dtc
  let signB ← softSign divide currents.b dtc
  let signC ← softSign divide currents.c dtc
  let dtNorm := dtc.deadTime * dtc.fPwm
  pure (ThreePhase.toStator ⟨signA * dtNorm, signB * dtNorm, signC * dtNorm⟩)

end DeadTimeCompensation

namespace CurrentController

/-- The vector, scaled back to the voltage circle. -/
def limited (raw : Rotor F) (limit : F) : M (Rotor F) := do
  let magSq := raw.d * raw.d + raw.q * raw.q
  if limit * limit < magSq then
    let scale ← divide limit (Scalar.sqrt magSq)
    pure ⟨raw.d * scale, raw.q * scale⟩
  else pure raw

/-- One PI step with decoupling feedforward and back-calculation. -/
def update (iRef iMeas : Rotor F) (omega dt vDc : F) (gains : CurrentGains F)
    (cc : CurrentController F) : M (Rotor F × CurrentController F) := do
  let eD := iRef.d - iMeas.d
  let eQ := iRef.q - iMeas.q
  let vFfD := -(omega * (cc.lQ * iMeas.q))
  let vFfQ := omega * (cc.lD * iMeas.d + cc.psi)
  let uRaw : Rotor F := ⟨gains.kpD * eD + cc.integratorD + vFfD, gains.kpQ * eQ + cc.integratorQ + vFfQ⟩
  let u ← limited divide uRaw (cc.vMax * vDc)
  pure (u,
    { cc with
      integratorD := cc.integratorD + (gains.kiD * eD + cc.kbD * (u.d - uRaw.d)) * dt
      integratorQ := cc.integratorQ + (gains.kiQ * eQ + cc.kbQ * (u.q - uRaw.q)) * dt })

end CurrentController

namespace Svm

/-- Below 1 V the DC link counts as 1 V. -/
def inverseDcLinkVoltage (dcLinkVoltage : F) : M F := divide 1.0 (Scalar.max dcLinkVoltage 1.0)

/-- Centred duties of phase voltages over the DC-link voltage. -/
def calculate (dutyMin dutyMax : F) (ratios : ThreePhase F) : ThreePhase F :=
  let ratioMax := Scalar.max (Scalar.max ratios.a ratios.b) ratios.c
  let ratioMin := Scalar.min (Scalar.min ratios.a ratios.b) ratios.c
  let ratioMid := (ratioMax + ratioMin) * -0.5
  let duty (ratio : F) := Scalar.clamp ((0.5 : F) + ratio + ratioMid) dutyMin dutyMax
  ⟨duty ratios.a, duty ratios.b, duty ratios.c⟩

def calculateWithInverseDcLinkVoltage (dutyMin dutyMax : F) (voltage : Stator F) (inverse : F)
    (deadTimeRatio : Stator F) : ThreePhase F :=
  calculate dutyMin dutyMax (Stator.toThreePhase
    ⟨voltage.alpha * inverse + deadTimeRatio.alpha, voltage.beta * inverse + deadTimeRatio.beta⟩)

end Svm

/-- Injection voltage of a step: up and down on d, then on q. -/
def getInjectionVoltage (vInject : F) (injectionStep : Nat) (angle : SinCos F) : Stator F :=
  let dq : Rotor F :=
    match injectionStep with
    | 0 => ⟨vInject, Scalar.zero⟩
    | 1 => ⟨-vInject, Scalar.zero⟩
    | 2 => ⟨Scalar.zero, vInject⟩
    | 3 => ⟨Scalar.zero, -vInject⟩
    | _ => .zero
  dq.toStator angle

/-- Mean of the samples, each in the rotor frame of its own angle. -/
def meanCurrent (samples : Vector (Stator F) numSubSteps) (sc : Vector (SinCos F) numSubSteps) : Rotor F :=
  let currents := samples.zipWith Stator.toRotor sc
  let sum := currents.foldl (fun sum current => ⟨sum.d + current.d, sum.q + current.q⟩) Rotor.zero
  ⟨sum.d * (1.0 / 4.0), sum.q * (1.0 / 4.0)⟩

namespace ControlLoop

/-- The loop of one cycle, on calibrated samples. -/
def run (samples : ControlCycleSamples F) (angles : AngleSet F) (isr : CurrentControlIsr F)
    (loop : ControlLoop F) : M (CycleOutput F × ControlLoop F) := do
  let iAbSamples := samples.phaseCurrents.map ThreePhase.toStator
  let iDqMean := meanCurrent iAbSamples angles.sc
  let (uDq, cc) ←
    loop.cc.update divide isr.iRef iDqMean loop.omega loop.dtSlow samples.dcLink isr.gains
  let dtcRatio ← loop.dtc.calculate divide (iAbSamples.get (Fin.last 3))
  let inverse ← Svm.inverseDcLinkVoltage divide samples.dcLink
  let duties := angles.scOut.mapFinIdx fun k angle _ =>
    let uAb := uDq.toStator angle
    let uAb := if loop.hfiActive then uAb + getInjectionVoltage loop.vInject k angle else uAb
    Svm.calculateWithInverseDcLinkVoltage isr.dutyMin isr.dutyMax uAb inverse dtcRatio
  pure (⟨iAbSamples, iDqMean, uDq, duties⟩, { loop with cc := cc })

end ControlLoop

namespace CurrentControlIsr

variable (isr : CurrentControlIsr F)

/-- The cycle up to its trips. -/
def latched (raw : ControlCycleSamples F) : CurrentControlIsr F :=
  let isr := isr.takeInputs raw
  let isr := { isr with overcurrentTripped := isr.overcurrentTripped || isr.overcurrent raw }
  { isr with overvoltageTripped := isr.overvoltageTripped || isr.overvoltage raw }

/-- A cycle that runs the control loop: no trip, no forced duty. -/
def runsLoop (raw : ControlCycleSamples F) : Bool :=
  isr.hardware && !(isr.latched raw).tripped && !isr.forceDutyActive

/-- The duties set for the half periods, and what a cycle that runs the loop leaves. -/
structure CycleResult (F : Type) where
  isr : CurrentControlIsr F
  loop : ControlLoop F
  duties : Option (Vector (ThreePhase F) numSubSteps)
  output : Option (CycleOutput F)

/-- The whole cycle, with the loop. -/
def controlCycle (raw : ControlCycleSamples F) (angles : AngleSet F) (loop : ControlLoop F) :
    M (CycleResult F) := do
  let uniform (duties : ThreePhase F) := some (Vector.replicate numSubSteps duties)
  if !isr.hardware then pure ⟨isr, loop, none, none⟩
  else
    let isr := isr.latched raw
    if isr.tripped then pure ⟨isr.finishCycle .zero, loop, uniform (.uniform neutral), none⟩
    else if isr.forceDutyActive then pure ⟨isr.finishCycle .zero, loop, uniform isr.forcedDuties, none⟩
    else
      let (output, loop) ← loop.run divide (calibrated raw isr.calibration) angles isr
      pure ⟨isr.finishCycle output.duties[0], loop, some output.duties, some output⟩

end CurrentControlIsr

end Cycle

end Unimoc.CurrentControl
