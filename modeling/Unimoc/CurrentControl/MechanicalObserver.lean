import Unimoc.CurrentControl.ControlLoop

/-! The mechanical observer: a Kalman filter for speed, angle and load torque. Angles are
wrapped through a hook, so the same observer runs with the loop of the source and with one
that refuses an angle too far away. -/
namespace Unimoc.CurrentControl

open Settings

section Wrap

variable {F : Type} [Arithmetic F]

def pi : F := Arithmetic.ofReal32 0x40490FDB

def twoPi : F := 2.0 * pi

/-- One revolution a step; none when the steps do not suffice. -/
def wrapDown : Nat → F → Option F
  | 0, _ => none
  | steps + 1, value => if pi < value then wrapDown steps (value - twoPi) else some value

def wrapUp : Nat → F → Option F
  | 0, _ => none
  | steps + 1, value => if value ≤ -pi then wrapUp steps (value + twoPi) else some value

/-- Wraps an angle to (-pi, pi]; either loop may test its condition `steps` times. -/
def wrapAngle (steps : Nat) (angle : F) : Option F :=
  if !Scalar.isFinite angle then some angle
  else (wrapDown steps angle).bind (wrapUp steps)

end Wrap

/-- Rows and columns: speed, angle, load torque. -/
abbrev Covariance (F : Type) := Fin 3 → Fin 3 → F

structure MechanicalObserver (F : Type) where
  psi : F
  lD : F
  lQ : F
  j : F
  polePairs : UInt8
  omegaMax : F
  omegaMin : F
  q : F
  r : F
  omega : F
  theta : F
  mL : F
  mEl : F
  sinTheta : F
  cosTheta : F
  p : Covariance F

namespace MechanicalObserver

section Plain

variable {F : Type} [Arithmetic F] (obs : MechanicalObserver F)

/-- An angle that is no number restarts at 0. -/
def updateSinCos : MechanicalObserver F :=
  let theta := if !Scalar.isFinite obs.theta then Scalar.zero else obs.theta
  let (sin, cos) := Arithmetic.sinCos theta
  { obs with theta := theta, sinTheta := sin, cosTheta := cos }

def clampSpeed : MechanicalObserver F :=
  let upper := obs.omegaMax * 2.0
  let lower := obs.omegaMin * 2.0
  let omega := if upper < obs.omega then upper else if obs.omega < lower then lower else obs.omega
  { obs with omega := if !Scalar.isFinite omega then Scalar.zero else omega }

def reset (theta omega : F) : MechanicalObserver F :=
  { obs with
    omega := omega, theta := theta, mL := Scalar.zero, mEl := Scalar.zero
    p := fun _ _ => Scalar.zero }.updateSinCos

def init (settings : NvmSettings) : MechanicalObserver F :=
  { obs with
    psi := settings.real .fluxPm
    lD := settings.real .lD
    lQ := settings.real .lQ
    j := settings.real .motorJ
    polePairs := settings.natural8 .polePairs
    omegaMax := settings.real .motorOmegaMax
    omegaMin := settings.real .motorOmegaMin
    q := settings.real .mechObsQ
    r := settings.real .mechObsR }.reset Scalar.zero Scalar.zero

/-- `P = F P Fᵀ + Q`, for the model linearised about the state. -/
def predictCovariance (dt : F) : MechanicalObserver F :=
  let p := obs.p
  let tsj := dt / obs.j
  let pk02 := p 0 2 - p 2 2 * tsj
  let pk00 := p 0 0 + obs.q - p 2 0 * tsj - pk02 * tsj
  let pk10 := p 1 0 + p 0 0 * dt - tsj * (p 1 2 + p 0 2 * dt)
  let pk20 := p 2 0 - tsj * p 2 2
  let pk01 := p 0 1 + dt * (p 0 0 - tsj * p 2 0) - tsj * p 2 1
  let pk11 := p 1 1 + obs.q + p 0 1 * dt + dt * (p 1 0 + p 0 0 * dt)
  let pk21 := p 2 1 + p 2 0 * dt
  let pk12 := p 1 2 + p 0 2 * dt
  let pk22 := p 2 2 + obs.q
  { obs with
    p := fun row column =>
      match row, column with
      | 0, 0 => pk00
      | 0, 1 => pk01
      | 0, 2 => pk02
      | 1, 0 => pk10
      | 1, 1 => pk11
      | 1, 2 => pk12
      | 2, 0 => pk20
      | 2, 1 => pk21
      | 2, 2 => pk22 }

/-- The observer with another estimate and covariance. -/
def corrected (estimate : Fin 3 → F) (covariance : Covariance F) : MechanicalObserver F :=
  { obs with omega := estimate 0, theta := estimate 1, mL := estimate 2, p := covariance }

def phiVariance : F := obs.p 0 0

def omegaPhiCovariance : F := obs.p 1 0

/-- The rotor is known to stand. -/
def holdStill : MechanicalObserver F :=
  { obs with
    omega := Scalar.zero, mL := obs.mEl * Scalar.ofUInt64 obs.polePairs.toUInt64 }

end Plain

section Wrapping

variable {F : Type} [Arithmetic F] {M : Type → Type} [Monad M] (wrap : F → M F)

/-- Electrical torque, speed and angle one cycle on. -/
def predict (iDq : Rotor F) (dt : F) (obs : MechanicalObserver F) : M (MechanicalObserver F) := do
  let tsj := dt / obs.j
  let polePairs : F := Scalar.ofUInt64 obs.polePairs.toUInt64
  let mEl := (1.5 : F) * polePairs * (obs.psi * iDq.q + (obs.lD - obs.lQ) * iDq.d * iDq.q)
  let obs :=
    { obs with mEl := mEl, omega := obs.omega + tsj * (polePairs * mEl - obs.mL) }.clampSpeed
  let theta ← wrap (obs.theta + obs.omega * dt)
  pure { obs with theta := theta }.updateSinCos

/-- Kalman update of the measured state, 0 the speed and 1 the angle. -/
def correct (state : Fin 3) (innovation noise : F) (obs : MechanicalObserver F) :
    M (MechanicalObserver F) := do
  let p := obs.p
  let variance := p state state + noise
  if !(Scalar.zero < variance) || !Scalar.isFinite innovation then pure obs
  else
    let s := 1.0 / variance
    let k (row : Fin 3) := p row state * s
    let obs :=
      { obs with
        p := fun row column => p row column - k row * p state column
        omega := obs.omega + k 0 * innovation
        theta := obs.theta + k 1 * innovation
        mL := obs.mL + k 2 * innovation }.clampSpeed
    let theta ← wrap obs.theta
    pure { obs with theta := theta }.updateSinCos

def updateAngle (innovation noise : F) (obs : MechanicalObserver F) : M (MechanicalObserver F) := do
  let innovation ← wrap innovation
  obs.correct wrap 1 innovation noise

def updateSpeed (innovation noise : F) (obs : MechanicalObserver F) : M (MechanicalObserver F) :=
  obs.correct wrap 0 innovation noise

def injectAngleError (angleError dt : F) (obs : MechanicalObserver F) : M (MechanicalObserver F) :=
  (obs.predictCovariance dt).updateAngle wrap angleError obs.r

end Wrapping

end MechanicalObserver

end Unimoc.CurrentControl
