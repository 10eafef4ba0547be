import Unimoc.CurrentControl.MechanicalObserver

/-! The observer that runs after a control cycle: flux observer, Hall fusion, injection
observer, all of them on the mechanical observer. -/
namespace Unimoc.CurrentControl

open Settings

structure PmsmFluxObserver (F : Type) where
  rs : F
  lD : F
  lQ : F
  cD : F
  cQ : F
  psiAlpha : F
  psiBeta : F
  fbD : F
  fbQ : F
  psiPmD : F
  psiPmQ : F

structure HallEvent where
  code : UInt8
  timestamp : UInt32
deriving DecidableEq, Repr

/-- The code of the newest event is `code`, 0 before the first one. -/
structure HallFusion (F : Type) where
  offset : F
  rEdge : F
  rSector : F
  enabled : Bool
  valid : Bool
  started : Bool
  code : UInt8
  lastChange : UInt32
  edges : UInt32
  invalidCodes : UInt32
  invalidTransitions : UInt32

/-- Currents of the injection steps, and the step the next sample answers. -/
structure Hfi (F : Type) where
  errorGain : F
  step : Nat
  samples : Vector (Rotor F) 4

section Plain

variable {F : Type} [Arithmetic F]

namespace PmsmFluxObserver

def reset (flux : PmsmFluxObserver F) : PmsmFluxObserver F :=
  { flux with
    psiAlpha := Scalar.zero, psiBeta := Scalar.zero, fbD := Scalar.zero, fbQ := Scalar.zero
    psiPmD := Scalar.zero, psiPmQ := Scalar.zero }

def init (settings : NvmSettings) (flux : PmsmFluxObserver F) : PmsmFluxObserver F :=
  { flux with
    rs := settings.real .statorR
    lD := settings.real .lD
    lQ := settings.real .lQ
    cD := settings.real .pmsmFluxObsCD
    cQ := settings.real .pmsmFluxObsCQ }.reset

def calculate (uDq iDq setFlux : Rotor F) (dt : F) (obs : MechanicalObserver F)
    (flux : PmsmFluxObserver F) : Option F × PmsmFluxObserver F :=
  let sn := obs.sinTheta
  let cs := obs.cosTheta
  let bemfD := uDq.d - flux.rs * iDq.d + flux.fbD
  let bemfQ := uDq.q - flux.rs * iDq.q + flux.fbQ
  let psiAlpha := flux.psiAlpha + (bemfD * cs - bemfQ * sn) * dt
  let psiBeta := flux.psiBeta + (bemfD * sn + bemfQ * cs) * dt
  let psiPmD := psiAlpha * cs + psiBeta * sn - flux.lD * iDq.d
  let psiPmQ := -psiAlpha * sn + psiBeta * cs - flux.lQ * iDq.q
  let flux :=
    { flux with
      psiAlpha := psiAlpha, psiBeta := psiBeta, psiPmD := psiPmD, psiPmQ := psiPmQ
      fbD := flux.cD * (setFlux.d - psiPmD), fbQ := flux.cQ * (setFlux.q - psiPmQ) }
  (if !(Scalar.zero < setFlux.d) then none else some (psiPmQ / setFlux.d), flux)

end PmsmFluxObserver

namespace HallFusion

def sectorWidth : F := pi / 3.0

/-- Sectors 0 to 5; the codes 0 and 7 are invalid. -/
def sector (code : UInt8) : Option (Fin 6) :=
  match code.toNat with
  | 1 => some 1
  | 2 => some 3
  | 3 => some 2
  | 4 => some 5
  | 5 => some 0
  | 6 => some 4
  | _ => none

/-- The sectors of the two codes follow each other, in one direction or the other. -/
def Adjacent (source target : Fin 6) : Prop := target = source + 1 ∨ source = target + 1

def reset (hall : HallFusion F) : HallFusion F :=
  { hall with
    valid := false, started := false, code := 0, lastChange := 0, edges := 0, invalidCodes := 0
    invalidTransitions := 0 }

def init (settings : NvmSettings) (hall : HallFusion F) : HallFusion F :=
  { hall with
    enabled := settings.natural8 .hallEnable ≠ 0
    offset := settings.real .hallOffset
    rEdge := settings.real .hallREdge
    rSector := settings.real .hallRSector }.reset

/-- Largest age of the last code change the speed bound uses. -/
def maxAgeTicks : Int32 := 0x40000000

/-- Without an edge for so long the rotor stands. -/
def standstillTime : F := 0.5

def ofInt32 (ticks : Int32) : F :=
  let magnitude : F := Scalar.ofUInt64 (UInt64.ofNat ticks.toInt.natAbs)
  if ticks < 0 then -magnitude else magnitude

/-- Ticks from one timestamp to a later one of the wrapping clock. -/
def ticksSince (earlier later : UInt32) : Int32 := (later - earlier).toInt32

end HallFusion

end Plain

section Wrapping

variable {F : Type} [Arithmetic F] {M : Type → Type} [Monad M] (wrap : F → M F)

namespace HallFusion

/-- The angle at which a sector starts. -/
def sectorStart (sector : Fin 6) (hall : HallFusion F) : M F :=
  wrap (hall.offset + sectorWidth * Scalar.ofUInt64 (UInt64.ofNat sector.val))

/-- The boundary between two adjacent sectors. -/
def edgeAngle (previous code : UInt8) (hall : HallFusion F) : M (Option F) :=
  match sector previous, sector code with
  | some source, some target =>
    if target.val = (source.val + 1) % 6 then some <$> hall.sectorStart wrap target
    else if source.val = (target.val + 1) % 6 then some <$> hall.sectorStart wrap source
    else pure none
  | _, _ => pure none

def sectorInnovation (sector : Fin 6) (estimate : F) (hall : HallFusion F) : M F := do
  let halfWidth : F := sectorWidth * 0.5
  let start ← hall.sectorStart wrap sector
  let deviation ← wrap (estimate - (start + halfWidth))
  pure (if halfWidth < deviation then halfWidth - deviation
    else if deviation < -halfWidth then -halfWidth - deviation
    else Scalar.zero)

structure Progress (F : Type) where
  hall : HallFusion F
  obs : MechanicalObserver F
  codeAtReference : UInt8

/-- One event: a valid change of the code gives an edge at its time. -/
def fuseEvent (reference : UInt32) (tickPeriod : F) (now : Progress F) (event : HallEvent) :
    M (Progress F) := do
  let hall := now.hall
  if event.code = hall.code then pure now
  else
    let ticks := ticksSince event.timestamp reference
    let fused ←
      (if (sector event.code).isNone then
        pure ({ hall with invalidCodes := hall.invalidCodes + 1 }, now.obs)
      else do
        match ← hall.edgeAngle wrap hall.code event.code with
        | some edge =>
          let measured := edge + now.obs.omega * (tickPeriod * ofInt32 ticks)
          let innovation ← wrap (measured - now.obs.theta)
          let obs ← now.obs.updateAngle wrap innovation hall.rEdge
          pure ({ hall with edges := hall.edges + 1 }, obs)
        | none =>
          if (sector hall.code).isSome then
            pure ({ hall with invalidTransitions := hall.invalidTransitions + 1 }, now.obs)
          else pure (hall, now.obs))
    pure
      { hall := { fused.1 with code := event.code, lastChange := event.timestamp }
        obs := fused.2
        codeAtReference := if 0 ≤ ticks then event.code else now.codeAtReference }

/-- The sector of the code: the estimate starts in its middle, or is pulled to it. -/
def fuseSector (sector : Fin 6) (hall : HallFusion F) (obs : MechanicalObserver F) :
    M (HallFusion F × MechanicalObserver F) := do
  let innovation ← hall.sectorInnovation wrap sector obs.theta
  let outside := !Scalar.eq innovation Scalar.zero
  let obs ←
    (if !hall.started || (!hall.valid && outside) then do
      let start ← hall.sectorStart wrap sector
      let centre ← wrap (start + sectorWidth * 0.5)
      pure (obs.reset centre obs.omega)
    else if outside then obs.updateAngle wrap innovation hall.rSector
    else pure obs)
  pure ({ hall with valid := true, started := true }, obs)

/-- The last change as old as the wrapping clock can say. -/
def agedChange (reference : UInt32) (hall : HallFusion F) : HallFusion F :=
  if maxAgeTicks < ticksSince hall.lastChange reference then
    { hall with lastChange := reference - maxAgeTicks.toUInt32 }
  else hall

/-- The time since the last change bounds the speed. -/
def fuseSpeed (reference : UInt32) (tickPeriod : F) (hall : HallFusion F) (obs : MechanicalObserver F) :
    M (HallFusion F × MechanicalObserver F) := do
  let hall := hall.agedChange reference
  let ticks := ticksSince hall.lastChange reference
  if ticks ≤ 0 then pure (hall, obs)
  else
    let sinceChange := tickPeriod * ofInt32 ticks
    let limit := sectorWidth / sinceChange * 2.0
    let speed := obs.omega
    let obs ←
      (if limit < speed || speed < -limit then
        let target := if Scalar.zero < speed then limit else -limit
        obs.updateSpeed wrap (target - speed) (hall.rSector / (sinceChange * sinceChange))
      else pure obs)
    pure (hall, if standstillTime < sinceChange then obs.holdStill else obs)

/-- The events since the last call, oldest first, and the sector they end in; true when the
code is valid. -/
def fuseCodes (events : List HallEvent) (reference : UInt32) (tickPeriod : F) (hall : HallFusion F)
    (obs : MechanicalObserver F) : M ((HallFusion F × MechanicalObserver F) × Bool) := do
  let now ← events.foldlM (fuseEvent wrap reference tickPeriod) ⟨hall, obs, hall.code⟩
  match sector now.codeAtReference with
  | none => pure (({ now.hall with valid := false }, now.obs), false)
  | some inside => do
    let fused ← fuseSector wrap inside now.hall now.obs
    pure (fused, true)

def update (events : List HallEvent) (reference : UInt32) (tickPeriod : F) (hall : HallFusion F)
    (obs : MechanicalObserver F) : M (HallFusion F × MechanicalObserver F) := do
  let ((hall, obs), valid) ← fuseCodes wrap events reference tickPeriod hall obs
  if valid then fuseSpeed wrap reference tickPeriod hall obs else pure (hall, obs)

end HallFusion

namespace Hfi

/-- The current of a sample at the place of the step. -/
def recorded (iAb : Stator F) (angle : SinCos F) (hfi : Hfi F) : Vector (Rotor F) 4 :=
  hfi.samples.setIfInBounds hfi.step
    ⟨iAb.alpha * angle.cos + iAb.beta * angle.sin, -iAb.alpha * angle.sin + iAb.beta * angle.cos⟩

def rawError (samples : Vector (Rotor F) 4) : F :=
  (samples[0].q - samples[1].q) - (samples[2].d - samples[3].d)

def update (iAb : Stator F) (angle : SinCos F) (dt : F) (hfi : Hfi F) (obs : MechanicalObserver F) :
    M (Hfi F × MechanicalObserver F) := do
  let samples := hfi.recorded iAb angle
  let obs ←
    (if hfi.step = 3 then obs.injectAngleError wrap (rawError samples * hfi.errorGain) dt
    else pure obs)
  pure ({ hfi with samples := samples, step := (hfi.step + 1) % 4 }, obs)

end Hfi

/-- The algorithms of the observer and what they keep. -/
structure SlowUpdate (F : Type) where
  obs : MechanicalObserver F
  flux : PmsmFluxObserver F
  hall : HallFusion F
  hfi : Hfi F
  fluxSetpoint : Rotor F
  fluxRSpeed : F
  referenceOffsetTicks : UInt32
  tickPeriod : F
  dtFast : F
  dtSlow : F
  outputDelayHalfPeriods : F

/-- What the observer takes from a cycle: the buffer, the power stage, the Hall events. -/
structure CycleView (F : Type) where
  output : CycleOutput F
  sc : Vector (SinCos F) numSubSteps
  timestamp : UInt32
  released : Bool
  /-- Eight at most. -/
  events : List HallEvent
  hfiActive : Bool

namespace SlowUpdate

/-- The control loop's start, without effect at no PWM frequency, then the observer's; `frequency`
is that of the timestamp clock. -/
def init (settings : NvmSettings) (frequency : UInt32) (slow : SlowUpdate F) : SlowUpdate F :=
  let slow :=
    if pwmHertz F settings = 0 then slow
    else
      { slow with
        obs := slow.obs.init settings
        hfi := ⟨settings.real .hfiErrorGain, 3, Vector.replicate 4 .zero⟩
        dtFast := dtFastFromPwmFrequency (settings.real .pwmFrequency)
        dtSlow := dtSlowFromPwmFrequency (settings.real .pwmFrequency) }
  let clock : F := Scalar.ofUInt64 frequency.toUInt64
  { slow with
    flux := slow.flux.init settings
    hall := slow.hall.init settings
    fluxSetpoint := ⟨settings.real .fluxPm, Scalar.zero⟩
    fluxRSpeed := settings.real .pmsmFluxObsRSpeed
    referenceOffsetTicks := (Scalar.toUInt64 (slow.dtFast * 3.0 * clock + 0.5)).toUInt32
    tickPeriod := 1.0 / clock }

/-- The flux angle weighs little at low speed. -/
def fluxNoise (slow : SlowUpdate F) : F :=
  if !(Scalar.zero < slow.fluxRSpeed) then slow.obs.r
  else slow.obs.r + slow.fluxRSpeed / Scalar.max (slow.obs.omega * slow.obs.omega) (1.0 * 1.0)

/-- The flux angle, while the voltage reaches the motor. -/
def fuseFlux (view : CycleView F) (slow : SlowUpdate F) : M (SlowUpdate F) :=
  if view.released then
    let (error, flux) :=
      slow.flux.calculate view.output.uDq view.output.iDqMean slow.fluxSetpoint slow.dtSlow slow.obs
    match error with
    | some error => do
      let obs ← slow.obs.updateAngle wrap error slow.fluxNoise
      pure { slow with flux := flux, obs := obs }
    | none => pure { slow with flux := flux }
  else pure { slow with flux := slow.flux.reset }

/-- Events are taken even while the fusion is off. -/
def fuseHall (view : CycleView F) (slow : SlowUpdate F) : M (SlowUpdate F) :=
  if !slow.hall.enabled then pure slow
  else do
    let (hall, obs) ← slow.hall.update wrap view.events (view.timestamp - slow.referenceOffsetTicks)
      slow.tickPeriod slow.obs
    pure { slow with hall := hall, obs := obs }

/-- Sample `k + 1` answers injection step `k` of the plan before it. -/
def fuseInjection (view : CycleView F) (slow : SlowUpdate F) : M (SlowUpdate F) :=
  if !view.hfiActive then pure slow
  else
    (List.finRange numSubSteps).foldlM (fun slow k => do
      let (hfi, obs) ←
        slow.hfi.update wrap (view.output.iAbSamples.get k) (view.sc.get k) slow.dtSlow slow.obs
      pure { slow with hfi := hfi, obs := obs }) slow

/-- The covariance of the cycle that has passed. -/
def predicted (slow : SlowUpdate F) : SlowUpdate F :=
  { slow with obs := slow.obs.predictCovariance slow.dtSlow }

/-- The observer of one cycle, up to the angles of the next one. -/
def estimate (view : CycleView F) (slow : SlowUpdate F) : M (SlowUpdate F) := do
  let slow ← slow.predicted.fuseFlux wrap view
  let slow ← slow.fuseHall wrap view
  let obs ← slow.obs.predict wrap view.output.iDqMean slow.dtSlow
  { slow with obs := obs }.fuseInjection wrap view

end SlowUpdate

end Wrapping

end Unimoc.CurrentControl
