import Unimoc.CurrentControl.MechanicalObserver

/-! The pedal observer: angle and cadence of the crank from the pulses of the sensor ring, and
the pedal torque as the mean over half a revolution. -/
namespace Unimoc.Ebike

open CurrentControl

/-- Largest supported number of cadence pulses per crank revolution. -/
def maxPedalPulses : Nat := 64

structure PedalObserverConfig (F : Type) where
  pulsesPerRev : UInt8
  /-- Variance of the angle measurement of one pulse. -/
  angleVariance : F
  cadenceNoise : F
  /-- No pulse for this long means the crank stands still. -/
  stopTimeout : F
  torqueTimeConstant : F
  zeroOffset : F
  /-- The offset only follows readings this close to it. -/
  zeroWindow : F
  /-- The crank must stand still this long before the offset follows the reading. -/
  zeroHold : F
  zeroTimeConstant : F

/-- Covariance of angle and cadence. -/
structure PedalCovariance (F : Type) where
  angle : F
  cross : F
  cadence : F

structure PedalObserver (F : Type) where
  config : PedalObserverConfig F
  pulsesPerRev : Nat
  pulseAngle : F
  angle : F
  omega : F
  p : PedalCovariance F
  timeSincePulse : F
  stillTime : F
  /-- 2 stands for more. -/
  pulsesSeen : Nat
  pedaling : Bool
  bins : List F
  binIndex : Nat
  completedBins : Nat
  binSum : F
  binCount : UInt32
  meanTorque : F
  torqueFast : F
  zeroOffset : F

section Floating

variable {F : Type} [Arithmetic F]

def PedalObserverConfig.default : PedalObserverConfig F where
  pulsesPerRev := 36
  angleVariance := 3e-4
  cadenceNoise := 100.0
  stopTimeout := 0.5
  torqueTimeConstant := 0.02
  zeroOffset := Scalar.zero
  zeroWindow := 3.0
  zeroHold := 1.0
  zeroTimeConstant := 30.0

namespace PedalObserver

/-- (10 rad/s)^2 -/
def initialCadenceVariance : F := 100.0

/-- Pulse jitter allowed before the cadence is cut. -/
def overdueMargin : F := 1.25

def initialCovariance : PedalCovariance F := ⟨1.0, Scalar.zero, initialCadenceVariance⟩

def count (n : Nat) : F := Scalar.ofUInt64 (UInt64.ofNat n)

def resetCrank (obs : PedalObserver F) : PedalObserver F :=
  { obs with
    pedaling := false, pulsesSeen := 0, omega := Scalar.zero, p := initialCovariance
    timeSincePulse := Scalar.zero, binIndex := 0, completedBins := 0, binSum := Scalar.zero
    binCount := 0, meanTorque := Scalar.zero }

def create (config : PedalObserverConfig F) : PedalObserver F :=
  let pulses := min (max config.pulsesPerRev.toNat 2) maxPedalPulses
  { config := config
    pulsesPerRev := pulses
    pulseAngle := twoPi * 1.0 / count pulses
    angle := Scalar.zero
    omega := Scalar.zero
    p := initialCovariance
    timeSincePulse := Scalar.zero
    stillTime := Scalar.zero
    pulsesSeen := 0
    pedaling := false
    bins := List.replicate maxPedalPulses Scalar.zero
    binIndex := 0
    completedBins := 0
    binSum := Scalar.zero
    binCount := 0
    meanTorque := Scalar.zero
    torqueFast := Scalar.zero
    zeroOffset := config.zeroOffset : PedalObserver F }.resetCrank

/-- With an overdue pulse the cadence cannot be much higher than one pulse angle per elapsed
time. -/
def cutCadence (obs : PedalObserver F) : PedalObserver F :=
  let limit := obs.pulseAngle * overdueMargin
  if limit < obs.omega * obs.timeSincePulse then { obs with omega := limit / obs.timeSincePulse } else obs

def predictCovariance (noise dt : F) (p : PedalCovariance F) : PedalCovariance F where
  angle := p.angle + (dt * ((2.0 : F) * p.cross + dt * p.cadence) + noise * dt * dt * dt / 3.0)
  cross := p.cross + (dt * p.cadence + noise * dt * dt / 2.0)
  cadence := p.cadence + noise * dt

/-- `wrap` is `WrapAngle`. -/
def predict (wrap : F → F) (dt : F) (obs : PedalObserver F) : PedalObserver F :=
  if obs.pulsesSeen = 0 then { obs with stillTime := obs.stillTime + dt }
  else
    let obs := { obs with timeSincePulse := obs.timeSincePulse + dt }
    if obs.config.stopTimeout < obs.timeSincePulse then
      { obs.resetCrank with stillTime := obs.timeSincePulse }
    else
      let obs := { obs with angle := wrap (obs.angle + obs.omega * dt) }.cutCadence
      { obs with p := predictCovariance obs.config.cadenceNoise dt obs.p }

def fuseAngle (wrap : F → F) (innovation : F) (obs : PedalObserver F) : PedalObserver F :=
  let innovationVariance := obs.p.angle + obs.config.angleVariance
  let gainAngle := obs.p.angle / innovationVariance
  let gainCadence := obs.p.cross / innovationVariance
  { obs with
    angle := wrap (obs.angle + innovation * gainAngle)
    omega := obs.omega + innovation * gainCadence
    p :=
      { angle := obs.p.angle * ((1.0 : F) - gainAngle)
        cross := obs.p.cross * ((1.0 : F) - gainAngle)
        cadence := obs.p.cadence - gainCadence * obs.p.cross } }

/-- Closes the bin of the pulse interval that just ended and refreshes the mean over half a
revolution. -/
def finishBin (obs : PedalObserver F) : PedalObserver F :=
  let pulses := obs.pulsesPerRev
  let closed := (obs.binIndex + pulses - 1) % pulses
  let bin := if 0 < obs.binCount then obs.binSum / Scalar.ofUInt64 obs.binCount.toUInt64 else obs.torqueFast
  let bins := obs.bins.set closed bin
  let completed := min (obs.completedBins + 1) (max (pulses / 2) 1)
  let total := (List.range completed).foldl
    (fun total i => total + bins.getD ((closed + pulses - i) % pulses) Scalar.zero) Scalar.zero
  { obs with
    bins := bins, binSum := Scalar.zero, binCount := 0, completedBins := completed
    meanTorque := total / count completed }

/-- The first pulse after a stop is the origin of the angle; the first interval is a direct
measurement of the speed. -/
def onPulse (wrap : F → F) (obs : PedalObserver F) : PedalObserver F :=
  let obs := { obs with stillTime := Scalar.zero, binIndex := (obs.binIndex + 1) % obs.pulsesPerRev }
  let measured := obs.pulseAngle * count obs.binIndex
  let obs :=
    if obs.pulsesSeen = 0 then
      { obs with
        binIndex := 0, angle := Scalar.zero, p := initialCovariance, binSum := Scalar.zero
        binCount := 0, pedaling := false }
    else
      let obs :=
        if obs.pulsesSeen = 1 then
          { obs with
            omega := obs.pulseAngle / obs.timeSincePulse
            angle := measured
            p := ⟨obs.config.angleVariance, Scalar.zero, initialCadenceVariance / 100.0⟩ }
        else obs.fuseAngle wrap (wrap (measured - obs.angle))
      { obs with pedaling := true }.finishBin
  { obs with timeSincePulse := Scalar.zero, pulsesSeen := min (obs.pulsesSeen + 1) 2 }

/-- The offset follows the reading while the crank stands still and the reading is near it. -/
def trimZero (dt torque : F) (obs : PedalObserver F) : PedalObserver F :=
  if obs.pedaling || obs.stillTime < obs.config.zeroHold then obs
  else
    let error := torque - obs.zeroOffset
    if -obs.config.zeroWindow < error && error < obs.config.zeroWindow then
      { obs with zeroOffset := obs.zeroOffset + error * (dt / obs.config.zeroTimeConstant) }
    else obs

/-- One edge of a step: how far the step has got, and the observer. -/
def edge (wrap : F → F) (dt : F) (progress : F × PedalObserver F) (age : F) : F × PedalObserver F :=
  let (elapsed, obs) := progress
  let time := Scalar.clamp (dt - age) elapsed dt
  (time, (obs.predict wrap (time - elapsed)).onPulse wrap)

/-- `torque` is the reading of the step; the ages of its pulses come oldest first. -/
def step (wrap : F → F) (dt torque : F) (pulseAges : List F) (obs : PedalObserver F) : PedalObserver F :=
  let (elapsed, obs) := pulseAges.foldl (edge wrap dt) (Scalar.zero, obs)
  let obs := obs.predict wrap (dt - elapsed)
  let compensated := torque - obs.zeroOffset
  let alpha := dt / (obs.config.torqueTimeConstant + dt)
  let obs := { obs with torqueFast := obs.torqueFast + (compensated - obs.torqueFast) * alpha }
  let obs :=
    if 0 < obs.pulsesSeen then
      { obs with binSum := obs.binSum + compensated, binCount := obs.binCount + 1 }
    else obs
  obs.trimZero dt torque

def cadence (obs : PedalObserver F) : F := if obs.pedaling then obs.omega else Scalar.zero

/-- Mean over the last half revolution, free of ripple. -/
def meanPedalTorque (obs : PedalObserver F) : F := if obs.pedaling then obs.meanTorque else Scalar.zero

section Cases

variable (wrap : F → F) (dt : F) (obs : PedalObserver F)

theorem cutCadence_eq : ∃ omega, obs.cutCadence = { obs with omega := omega } := by
  unfold cutCadence
  dsimp only
  split_ifs
  · exact ⟨_, rfl⟩
  · exact ⟨obs.omega, rfl⟩

theorem predict_still (still : obs.pulsesSeen = 0) :
    obs.predict wrap dt = { obs with stillTime := obs.stillTime + dt } := if_pos still

theorem predict_stops (turning : obs.pulsesSeen ≠ 0) (long : obs.config.stopTimeout < obs.timeSincePulse + dt) :
    obs.predict wrap dt =
      { { obs with timeSincePulse := obs.timeSincePulse + dt }.resetCrank with
        stillTime := obs.timeSincePulse + dt } :=
  (if_neg turning).trans (if_pos long)

def moved : PedalObserver F :=
  { obs with timeSincePulse := obs.timeSincePulse + dt, angle := wrap (obs.angle + obs.omega * dt) }.cutCadence

theorem predict_moved (turning : obs.pulsesSeen ≠ 0) (short : ¬obs.config.stopTimeout < obs.timeSincePulse + dt) :
    obs.predict wrap dt =
      { obs.moved wrap dt with
        p := predictCovariance (obs.moved wrap dt).config.cadenceNoise dt (obs.moved wrap dt).p } :=
  (if_neg turning).trans (if_neg short)

theorem predict_turns (turning : obs.pulsesSeen ≠ 0)
    (short : ¬obs.config.stopTimeout < obs.timeSincePulse + dt) : ∃ omega,
      obs.predict wrap dt =
        { obs with
          timeSincePulse := obs.timeSincePulse + dt, angle := wrap (obs.angle + obs.omega * dt), omega := omega
          p := predictCovariance obs.config.cadenceNoise dt obs.p } := by
  obtain ⟨omega, cut⟩ := cutCadence_eq
    { obs with timeSincePulse := obs.timeSincePulse + dt, angle := wrap (obs.angle + obs.omega * dt) }
  refine ⟨omega, (predict_moved wrap dt obs turning short).trans ?_⟩
  unfold moved
  rw [cut]

theorem onPulse_first (still : obs.pulsesSeen = 0) : obs.onPulse wrap =
    { obs with
      stillTime := Scalar.zero, binIndex := 0, angle := Scalar.zero, p := initialCovariance
      binSum := Scalar.zero, binCount := 0, pedaling := false, timeSincePulse := Scalar.zero, pulsesSeen := 1 } := by
  unfold onPulse
  simp [still]

def counted : PedalObserver F :=
  { obs with stillTime := Scalar.zero, binIndex := (obs.binIndex + 1) % obs.pulsesPerRev }

/-- The first interval measures the cadence. -/
def measured : PedalObserver F :=
  { obs.counted with
    omega := obs.pulseAngle / obs.timeSincePulse, angle := obs.pulseAngle * count obs.counted.binIndex
    p := ⟨obs.config.angleVariance, Scalar.zero, initialCadenceVariance / 100.0⟩ }

/-- Each further pulse corrects it. -/
def corrected : PedalObserver F :=
  obs.counted.fuseAngle wrap (wrap (obs.pulseAngle * count obs.counted.binIndex - obs.angle))

/-- The observer as the interval of a pulse is closed. -/
def pulsed (seen : Nat) : PedalObserver F :=
  { { obs with pedaling := true }.finishBin with timeSincePulse := Scalar.zero, pulsesSeen := seen }

theorem onPulse_second (one : obs.pulsesSeen = 1) : obs.onPulse wrap = obs.measured.pulsed 2 := by
  unfold onPulse measured counted
  simp only [one, if_true, if_neg one_ne_zero]
  rfl

theorem onPulse_later (turning : obs.pulsesSeen ≠ 0) (more : obs.pulsesSeen ≠ 1) :
    obs.onPulse wrap = (obs.corrected wrap).pulsed 2 := by
  have both : min (obs.pulsesSeen + 1) 2 = 2 := by omega
  have next : obs.onPulse wrap = (obs.corrected wrap).pulsed (min (obs.pulsesSeen + 1) 2) := by
    unfold onPulse corrected counted
    simp only [if_neg turning, if_neg more]
    rfl
  rw [next, both]

theorem onPulse_next (turning : obs.pulsesSeen ≠ 0) : ∃ angle omega p, obs.onPulse wrap =
    { obs.counted with angle := angle, omega := omega, p := p }.pulsed 2 := by
  by_cases second : obs.pulsesSeen = 1
  · exact ⟨_, _, _, onPulse_second wrap obs second⟩
  · exact ⟨_, _, _, onPulse_later wrap obs turning second⟩

theorem predict_keeps :
    (obs.predict wrap dt).torqueFast = obs.torqueFast ∧ (obs.predict wrap dt).zeroOffset = obs.zeroOffset := by
  by_cases still : obs.pulsesSeen = 0
  · rw [predict_still wrap dt obs still]
    exact ⟨rfl, rfl⟩
  · by_cases long : obs.config.stopTimeout < obs.timeSincePulse + dt
    · rw [predict_stops wrap dt obs still long]
      exact ⟨rfl, rfl⟩
    · obtain ⟨omega, turned⟩ := predict_turns wrap dt obs still long
      rw [turned]
      exact ⟨rfl, rfl⟩

theorem onPulse_keeps :
    (obs.onPulse wrap).torqueFast = obs.torqueFast ∧ (obs.onPulse wrap).zeroOffset = obs.zeroOffset := by
  by_cases still : obs.pulsesSeen = 0
  · rw [onPulse_first wrap obs still]
    exact ⟨rfl, rfl⟩
  · obtain ⟨angle, omega, p, counted⟩ := onPulse_next wrap obs still
    rw [counted]
    exact ⟨rfl, rfl⟩

/-- The offset keeps its value. -/
def Held (torque : F) : Prop :=
  (obs.pedaling = true ∨ obs.stillTime < obs.config.zeroHold) ∨
    ¬(-obs.config.zeroWindow < torque - obs.zeroOffset ∧ torque - obs.zeroOffset < obs.config.zeroWindow)

theorem trimZero_held {torque : F} (held : obs.Held torque) : obs.trimZero dt torque = obs := by
  unfold trimZero
  simp only [Bool.or_eq_true, Bool.and_eq_true, decide_eq_true_eq]
  rcases held with early | far
  · rw [if_pos early]
  · rw [if_neg far, ite_self]

theorem trimZero_follows {torque : F} (free : ¬obs.Held torque) : obs.trimZero dt torque =
    { obs with
      zeroOffset := obs.zeroOffset + (torque - obs.zeroOffset) * (dt / obs.config.zeroTimeConstant) } := by
  obtain ⟨late, near⟩ := not_or.mp free
  unfold trimZero
  simp only [Bool.or_eq_true, Bool.and_eq_true, decide_eq_true_eq]
  rw [if_neg late, if_pos (not_not.mp near)]

theorem trimZero_eq (torque : F) : ∃ offset, obs.trimZero dt torque = { obs with zeroOffset := offset } := by
  by_cases held : obs.Held torque
  · exact ⟨obs.zeroOffset, obs.trimZero_held dt held⟩
  · exact ⟨_, obs.trimZero_follows dt held⟩

def filtered (compensated : F) : PedalObserver F :=
  { obs with
    torqueFast := obs.torqueFast + (compensated - obs.torqueFast) * (dt / (obs.config.torqueTimeConstant + dt)) }

def sampled (compensated : F) : PedalObserver F :=
  if 0 < obs.pulsesSeen then
    { obs with binSum := obs.binSum + compensated, binCount := obs.binCount + 1 }
  else obs

def closeStep (torque : F) : PedalObserver F :=
  ((obs.filtered dt (torque - obs.zeroOffset)).sampled (torque - obs.zeroOffset)).trimZero dt torque

def before (progress : F × PedalObserver F) (age : F) : PedalObserver F :=
  progress.2.predict wrap (Scalar.clamp (dt - age) progress.1 dt - progress.1)

theorem edge_eq (progress : F × PedalObserver F) (age : F) :
    edge wrap dt progress age =
      (Scalar.clamp (dt - age) progress.1 dt, (before wrap dt progress age).onPulse wrap) := rfl

theorem step_eq (torque : F) (pulseAges : List F) : obs.step wrap dt torque pulseAges =
    ((pulseAges.foldl (edge wrap dt) (Scalar.zero, obs)).2.predict wrap
      (dt - (pulseAges.foldl (edge wrap dt) (Scalar.zero, obs)).1)).closeStep dt torque := rfl

end Cases

end PedalObserver

end Floating

end Unimoc.Ebike
