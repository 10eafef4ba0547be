import Unimoc.CurrentControl.Activation
import Unimoc.Drive.CurrentBound
import Unimoc.Lib.Ramp
import Unimoc.Settings.Descriptions

/-! The first step of the speed mode and of the position mode on a turning motor, in exact arithmetic. -/
namespace Unimoc.Drive

open Settings CurrentControl OuterThread

/-- Accepted settings with positive acceleration limits. -/
structure Ramped (s : NvmSettings) : Prop where
  accepted : AcceptedSettings s
  speed : 0 < (s.real .speedAccelLimit : ℝ)
  position : 0 < (s.real .posAccelLimit : ℝ)

/-- Settings and live gains with positive acceleration limits, setpoints that are numbers, and a thread
that takes one of the changes before the counters come round. -/
noncomputable def activationMachine (wrap : ExtendedReal → ExtendedReal) :
    Runs.Machine (OuterThread ExtendedReal) (LoopEvent ExtendedReal) where
  start := powerOn
  next := OuterThread.next wrap
  admits t
    | .init settings => Ramped settings ∧ t.loop.untaken + 1 < 2 ^ 32
    | .setGains gains => (∃ s, Ramped s ∧ gains = OuterLoop.gainsFrom s) ∧ t.loop.untaken + 1 < 2 ^ 32
    | .setSetpoint setpoint => ∃ speed position : ℝ,
        setpoint.speed = .real speed ∧ setpoint.position = .real position
    | .setBatteryLimits limits => HandedOver limits
    | _ => True

theorem activation_replay (wrap : ExtendedReal → ExtendedReal) (trace : List (LoopEvent ExtendedReal)) :
    (activationMachine wrap).replay trace = OuterThread.run wrap trace := by
  induction trace with
  | nil => rfl
  | cons e past ih => exact congrArg (OuterThread.next wrap · e) ih

/-- A thread with these settings and gains is one that takes its changes in time. -/
theorem activation_legal (wrap : ExtendedReal → ExtendedReal) (trace : List (LoopEvent ExtendedReal))
    (legal : (activationMachine wrap).Legal trace) :
    (machine wrap (fun _ => True) fun _ => True).Legal trace := by
  induction trace with
  | nil => trivial
  | cons e past ih =>
    refine ⟨?_, ih legal.2⟩
    have admitted := legal.1
    rw [activation_replay] at admitted
    cases e with
    | init settings => exact ⟨trivial, admitted.2⟩
    | setGains gains => exact admitted.2
    | setSetpoint setpoint | setBatteryLimits limits | startHoming | step observed => trivial

/-! ### What a run keeps -/

structure RealPosition (tracker : PositionTracker ExtendedReal) : Prop where
  raw : ∃ x : ℝ, tracker.rawPositionRad = .real x
  home : ∃ x : ℝ, tracker.homeOffsetRad = .real x
  position : ∃ x : ℝ, tracker.positionRad = .real x

namespace RealPosition

variable {tracker : PositionTracker ExtendedReal}

theorem reset : RealPosition PositionTracker.reset := by
  constructor
  · exact ⟨0, ExtendedReal.scalar_zero⟩
  · exact ⟨0, ExtendedReal.scalar_zero⟩
  · exact ⟨0, ExtendedReal.scalar_zero⟩

theorem updatePosition {raw home : ℝ} (rawReal : tracker.rawPositionRad = .real raw)
    (homeReal : tracker.homeOffsetRad = .real home) : RealPosition tracker.updatePosition := by
  constructor
  · exact ⟨raw, rawReal⟩
  · exact ⟨home, homeReal⟩
  · refine ⟨raw - home, ?_⟩
    unfold PositionTracker.updatePosition
    rw [rawReal, homeReal]
    exact ExtendedReal.sub_real ..

theorem setHome (number : RealPosition tracker) : RealPosition tracker.setHome := by
  obtain ⟨raw, rawReal⟩ := number.raw
  exact updatePosition rawReal rawReal

theorem ofInt_real (n : Int) : ∃ x : ℝ, (Scalar.ofInt n : ExtendedReal) = .real x := by
  unfold Scalar.ofInt
  split
  · exact ⟨_, rfl⟩
  · exact ⟨_, rfl⟩

theorem absoluteAngle_real (angle : RotorAngle) : ∃ x : ℝ, (angle.absoluteAngle : ExtendedReal) = .real x := by
  obtain ⟨revolutions, whole⟩ := ofInt_real angle.revolutions.toInt
  obtain ⟨raw, part⟩ := ofInt_real angle.raw.toInt
  have count : ∃ x : ℝ, (RotorAngle.radiansPerCount : ExtendedReal) = .real x := by
    unfold RotorAngle.radiansPerCount RotorAngle.piWide
    exact ⟨_, ExtendedReal.quotient_real _ (by norm_num)⟩
  obtain ⟨scale, count⟩ := count
  unfold RotorAngle.absoluteAngle
  rw [whole, part, count]
  exact ⟨_, rfl⟩

theorem update (number : RealPosition tracker) (angle : RotorAngle) (polePairs : UInt8) :
    RealPosition (tracker.update angle polePairs) := by
  unfold PositionTracker.update
  split
  · exact number
  · rename_i nonzero
    obtain ⟨home, homeReal⟩ := number.home
    obtain ⟨electrical, angleReal⟩ := absoluteAngle_real angle
    have pairs : (polePairs.toUInt64.toNat : ℝ) ≠ 0 := by
      intro zero
      apply nonzero
      have zeroPairs : polePairs.toUInt64.toNat = 0 := Nat.cast_eq_zero.mp zero
      exact UInt8.toNat_inj.mp (by simpa using zeroPairs)
    have raw : (angle.absoluteAngle / Scalar.ofUInt64 polePairs.toUInt64 : ExtendedReal) =
        .real (electrical / polePairs.toUInt64.toNat) := by
      rw [angleReal]
      exact ExtendedReal.quotient_real _ pairs
    exact updatePosition raw homeReal

end RealPosition

theorem located_real {t : OuterThread ExtendedReal} (number : RealPosition t.tracker)
    (wrap : ExtendedReal → ExtendedReal) (observed : Observed ExtendedReal) :
    RealPosition (t.located wrap observed).tracker := by
  have tracker : t.takeParameters.tracker = t.tracker := by
    by_cases running : t.loop.parameters.generation = t.loop.active.generation
    · obtain ⟨_, _, _, taken⟩ := t.takeParameters_running running
      rw [taken]
    · obtain ⟨_, _, _, taken⟩ := t.takeParameters_restarting running
      rw [taken]
  rw [← tracker] at number
  unfold located trackPosition
  cases t.takeParameters.tracking with
  | true => exact number.update _ _
  | false => exact (RealPosition.reset.update _ _).setHome

/-- The controllers work with the newest gains, and every number of a thread is one. -/
structure Steered (t : OuterThread ExtendedReal) (settings : Option NvmSettings) : Prop where
  loaded : Loaded t settings
  gains : t.hasIsr = true → ∃ s, Ramped s ∧ t.loop.gains = OuterLoop.gainsFrom s
  newer : t.loop.parameters.generation ≠ t.loop.active.generation →
    t.loop.gainsGeneration ≠ t.loop.appliedGainsGeneration
  threshold : t.position.trapezoidJumpThreshold = 0.5
  tuned : t.hasIsr = true → t.loop.gainsGeneration = t.loop.appliedGainsGeneration →
    t.tuning = t.loop.gains.tuning
  setpoint : ∃ speed position : ℝ, t.loop.setpoint.speed = .real speed ∧ t.loop.setpoint.position = .real position
  held : ∃ x : ℝ, t.heldSetpoint = .real x
  tracker : RealPosition t.tracker

namespace Steered

variable {t : OuterThread ExtendedReal} {settings : Option NvmSettings} {wrap : ExtendedReal → ExtendedReal}
  {observed : Observed ExtendedReal}

theorem taken (steered : Steered t settings) (ready : t.hasIsr = true) :
    t.takeParameters.tuning = t.loop.gains.tuning :=
  t.takeParameters_tuning steered.threshold steered.newer (steered.tuned ready)

variable (wrap observed) in
theorem step_gains (ready : t.hasIsr = true) :
    (t.step wrap observed).2.loop.gains = t.loop.gains ∧
      (t.step wrap observed).2.loop.setpoint = t.loop.setpoint := by
  rw [t.step_loop wrap observed ready]
  unfold OuterLoop.step OuterLoop.loadParameters OuterLoop.applyGains
  split <;> split <;> exact ⟨rfl, rfl⟩

variable (wrap observed) in
theorem step_numbers (steered : Steered t settings) (ready : t.hasIsr = true) :
    (∃ x : ℝ, (t.step wrap observed).2.heldSetpoint = .real x) ∧
      RealPosition (t.step wrap observed).2.tracker := by
  have located := located_real steered.tracker wrap observed
  obtain ⟨-, position, -, target⟩ := steered.setpoint
  cases homingStep wrap observed t ready with
  | outside _ _ _ _ home _ held | follows _ _ _ _ home _ held | searches _ _ _ home _ held =>
    rw [home, held]
    exact ⟨steered.held, located⟩
  | completes ended =>
    rw [ended.home, ended.target]
    exact ⟨⟨position, target⟩, located.setHome⟩

theorem step (steered : Steered t settings) : Steered (t.step wrap observed).2 settings := by
  cases ready : t.hasIsr with
  | false =>
    rw [step_waiting _ _ _ ready]
    exact steered
  | true =>
    have tuned := (t.step_tuning wrap observed ready).trans (steered.taken ready)
    obtain ⟨gains, setpoint⟩ := step_gains wrap observed ready
    obtain ⟨held, tracker⟩ := steered.step_numbers wrap observed ready
    have running : (t.step wrap observed).2.Running := step_running ready
    constructor
    · exact steered.loaded.step wrap observed
    · intro _
      rw [gains]
      exact steered.gains ready
    · exact fun fresh => absurd running.2.1 fresh
    · exact congrArg Tuning.threshold tuned
    · intro _ _
      rw [tuned, gains]
    · rw [setpoint]
      exact steered.setpoint
    · exact held
    · exact tracker

theorem next (steered : Steered t settings) (e : LoopEvent ExtendedReal) (past : List (LoopEvent ExtendedReal))
    (latest : settings = settingsIn past) (admitted : (activationMachine wrap).admits t e) :
    Steered (t.next wrap e) (settingsIn (e :: past)) := by
  subst latest
  have loaded : Loaded (t.next wrap e) (settingsIn (e :: past)) := by
    apply steered.loaded.next wrap e past rfl
    cases e with
    | init settings => exact ⟨admitted.1.accepted, admitted.2⟩
    | setGains gains => exact admitted.2
    | setBatteryLimits limits => exact admitted
    | setSetpoint setpoint | startHoming | step observed => trivial
  obtain ⟨-, gains, newer, threshold, tuned, setpoint, held, tracker⟩ := id steered
  have bumped (few : t.loop.untaken + 1 < 2 ^ 32) : t.loop.gainsGeneration + 1 ≠ t.loop.appliedGainsGeneration :=
    steered.loaded.counted.gains_newer few
  cases e with
  | init settings =>
    have newer := bumped admitted.2
    exact ⟨loaded, fun _ => ⟨settings, admitted.1, rfl⟩, fun _ => newer, threshold,
      fun _ same => absurd same newer, setpoint, held, tracker⟩
  | setSetpoint setpoint => exact ⟨loaded, gains, newer, threshold, tuned, admitted, held, tracker⟩
  | setBatteryLimits limits => exact ⟨loaded, gains, newer, threshold, tuned, setpoint, held, tracker⟩
  | setGains gains =>
    have newer := bumped admitted.2
    exact ⟨loaded, fun _ => admitted.1, fun _ => newer, threshold, fun _ same => absurd same newer, setpoint,
      held, tracker⟩
  | startHoming => exact ⟨loaded, gains, newer, threshold, tuned, setpoint, held, tracker⟩
  | step observed => exact steered.step

theorem powerOn : Steered OuterThread.powerOn none where
  loaded := Loaded.powerOn
  gains waiting := by cases waiting
  newer fresh := absurd rfl fresh
  threshold := rfl
  tuned waiting := by cases waiting
  setpoint := ⟨0, 0, ExtendedReal.scalar_zero, ExtendedReal.scalar_zero⟩
  held := ⟨0, ExtendedReal.scalar_zero⟩
  tracker := RealPosition.reset

end Steered

theorem run_steered (wrap : ExtendedReal → ExtendedReal) (trace : List (LoopEvent ExtendedReal))
    (legal : (activationMachine wrap).Legal trace) :
    Steered (OuterThread.run wrap trace) (settingsIn trace) := by
  rw [← activation_replay]
  apply Runs.Machine.invariant (fun t past => Steered t (settingsIn past)) Steered.powerOn
  · intro e past steered admitted
    exact steered.next e past rfl admitted
  · exact legal

/-! ### Ramps and limits of numbers -/

section Numbers

variable {value low high dt speed ramp reference : ℝ}

theorem track_real {c : SpeedController ExtendedReal} (dt : ExtendedReal) :
    (c.track (.real reference) (.real speed) dt).reference = .real reference := by
  unfold SpeedController.track
  rw [if_neg (by simp)]

theorem update_real {c : SpeedController ExtendedReal} (start : c.reference = .real speed)
    (ramped : c.accelLimit = .real ramp) (positive : 0 < ramp) :
    (c.update (.real value) (.real speed) (.real dt)).reference =
      .real (Ramp.follow value (ramp * dt) speed) := by
  have engaged : Scalar.zero < c.accelLimit := by
    rw [ramped, ExtendedReal.scalar_zero]
    exact positive
  unfold SpeedController.update
  rw [if_neg (by simp), if_pos engaged, ramped, start]
  simp only [ExtendedReal.mul_real, ExtendedReal.sub_real, ExtendedReal.add_real, ExtendedReal.clamp_real,
    track_real]
  rfl

/-- The speed a position loop asks for when it starts at its setpoint, before its acceleration limit. -/
noncomputable def wantedSpeed (kp limit dt setpoint aim position : ℝ) : ℝ :=
  let step := limit * dt
  let planned := if 0.5 < |aim - position| then setpoint + min (max (aim - setpoint) (-step)) step else aim
  min (max (kp * (planned - position)) (-limit)) limit

theorem speedDemand_real {c : PositionController ExtendedReal} {kp limit accel setpoint aim position : ℝ}
    (measured : ExtendedReal)
    (started : Started c ⟨.real ramp, .real kp, .real limit, .real accel, 0.5⟩ (.real setpoint) (.real aim)) :
    (c.speedDemand (.real position) measured (.real dt)).omegaDemandPrev =
      .real (Ramp.follow (wantedSpeed kp limit dt setpoint aim position) (accel * dt) 0) := by
  have half : (0.5 : ExtendedReal) = .real 0.5 := rfl
  obtain ⟨kpPos, speedLimit, accelLimit, threshold, target, limited, demand⟩ := started
  have planned (step : ℝ) :
      (if (ExtendedReal.real 0.5) < .real |aim - position| then
        .real (setpoint + min (max (aim - setpoint) (-step)) step) else .real aim : ExtendedReal) =
      .real (if 0.5 < |aim - position| then setpoint + min (max (aim - setpoint) (-step)) step else aim) := by
    simp only [ExtendedReal.lt_real]
    split <;> rfl
  unfold PositionController.speedDemand
  simp only [kpPos, speedLimit, accelLimit, threshold, target, limited, demand, half, ExtendedReal.sub_real,
    ExtendedReal.mul_real, ExtendedReal.abs_real, ExtendedReal.neg_real, ExtendedReal.clamp_real,
    ExtendedReal.add_real, ExtendedReal.scalar_zero, planned]
  rfl

end Numbers

/-! ### What the settings say of a step -/

noncomputable def stepTime (s : NvmSettings) : ℝ := (OuterLoop.parametersFrom s 0 : LoopParameters ℝ).dt

noncomputable def shaftOf (s : NvmSettings) (electricalSpeed : ℝ) : ℝ :=
  electricalSpeed / OuterLoop.polePairsOf s

section Settings

variable {s : NvmSettings} (accepted : AcceptedSettings s)

include accepted

theorem shaftOf_real (x : ℝ) :
    (.real x : ExtendedReal) / OuterLoop.polePairsOf s = .real (shaftOf s x) :=
  ExtendedReal.quotient_real x (polePairs_nonzero accepted)

omit accepted in
theorem shaftOf_mono {x y : ℝ} (below : x ≤ y) : shaftOf s x ≤ shaftOf s y :=
  div_le_div_of_nonneg_right below (Nat.cast_nonneg _)

theorem stepTime_positive : 0 < stepTime s := by
  obtain ⟨limits, success⟩ := accepted
  have frequency : 0 < (s.real .pwmFrequency : ℝ) :=
    lt_of_lt_of_le (by norm_num) (validate_accepted success).frequency_exact.1
  show 0 < 1.0 / (2.0 * (s.real .pwmFrequency : ℝ)) * ((numSubSteps.toUInt64.toNat : ℕ) : ℝ) *
    ((OuterLoop.cyclesPerStep.toNat : ℕ) : ℝ)
  have steps : (0 : ℝ) < (numSubSteps.toUInt64.toNat : ℕ) := Nat.cast_pos.mpr (by decide)
  have cycles : (0 : ℝ) < (OuterLoop.cyclesPerStep.toNat : ℕ) := Nat.cast_pos.mpr (by decide)
  positivity

theorem dt_real (generation : UInt32) :
    (OuterLoop.parametersFrom s generation : LoopParameters ExtendedReal).dt = .real (stepTime s) := by
  obtain ⟨limits, success⟩ := accepted
  have checked := validate_accepted success
  have frequency : (s.real .pwmFrequency : ExtendedReal) = .real (s.real .pwmFrequency) :=
    Binary.extended_finite (frequency_finite checked)
  have positive : 0 < (s.real .pwmFrequency : ℝ) := lt_of_lt_of_le (by norm_num) checked.frequency_exact.1
  have nonzero : (2.0 : ℝ) * s.real .pwmFrequency ≠ 0 := by
    positivity
  unfold OuterLoop.parametersFrom OuterLoop.dtSlowFromPwmFrequency stepTime
  simp only
  rw [frequency]
  change ExtendedReal.div (.real _) (.real _) * _ * _ = _
  rw [ExtendedReal.div_real nonzero]
  rfl

end Settings

/-- The numbers a step works with: those of the settings, and of the gains in force. -/
structure StepNumbers (wrap : ExtendedReal → ExtendedReal) (observed : Observed ExtendedReal)
    (t : OuterThread ExtendedReal) (s : NvmSettings) (gains : LoopGains ℝ) : Prop where
  dt : t.takeParameters.loop.active.dt = .real (stepTime s)
  speedMin : t.takeParameters.loop.active.speedMin = .real (shaftOf s (s.real .motorOmegaMin))
  speedMax : t.takeParameters.loop.active.speedMax = .real (shaftOf s (s.real .motorOmegaMax))
  homingSpeed : t.takeParameters.loop.active.homingSpeed = .real (s.real .posHomingSpeed)
  measured : ∀ ω : ℝ, observed.electricalSpeed = .real ω → t.measured wrap observed = .real (shaftOf s ω)
  tuning : t.takeParameters.tuning = ⟨.real gains.speedAccelLimit, .real gains.positionKp,
    .real gains.positionSpeedLimit, .real gains.positionAccelLimit, 0.5⟩
  ramp : 0 < gains.speedAccelLimit
  slew : 0 < gains.positionAccelLimit

noncomputable def exactGains (gains : LoopGains ExtendedReal) : LoopGains ℝ :=
  ⟨gains.speedKp.toReal, gains.speedKi.toReal, gains.speedAccelLimit.toReal, gains.positionKp.toReal,
    gains.positionSpeedLimit.toReal, gains.positionAccelLimit.toReal, gains.positionTolerance.toReal,
    gains.positionSpeedTolerance.toReal⟩

theorem Steered.numbers {t : OuterThread ExtendedReal} {settings : Option NvmSettings} (steered : Steered t settings)
    {s : NvmSettings} (present : settings = some s) (wrap : ExtendedReal → ExtendedReal)
    (observed : Observed ExtendedReal) : StepNumbers wrap observed t s (exactGains t.loop.gains) := by
  have accepted := steered.loaded.accepted s present
  have ready : t.hasIsr = true := by
    rw [steered.loaded.ready, present]
    rfl
  obtain ⟨live, active⟩ := steered.loaded.taken present
  rw [← takeParameters_loop] at active
  obtain ⟨g, ramped, gains⟩ := steered.gains ready
  have number {r : Register} (listed : r ∈ finiteReals) : (g.real r : ExtendedReal) = .real (g.real r) :=
    real_extended ramped.accepted listed
  have limit (r : Register) (listed : r ∈ finiteReals) :
      (s.real r : ExtendedReal) / OuterLoop.polePairsOf s = .real (shaftOf s (s.real r)) := by
    rw [real_extended accepted listed, shaftOf_real accepted]
  constructor
  · rw [active]
    exact dt_real accepted t.loop.generation
  · rw [active]
    exact limit .motorOmegaMin (by decide)
  · rw [active]
    exact limit .motorOmegaMax (by decide)
  · rw [active]
    exact real_extended accepted (by decide)
  · intro ω speed
    unfold measured located shaftSpeed
    rw [(trackPosition_aside ..).loop, active, speed]
    exact shaftOf_real accepted ω
  · rw [steered.taken ready, gains]
    simp only [LoopGains.tuning, OuterLoop.gainsFrom, exactGains,
      number (show Register.speedAccelLimit ∈ finiteReals by decide),
      number (show Register.posKpPos ∈ finiteReals by decide),
      number (show Register.posSpeedLimit ∈ finiteReals by decide),
      number (show Register.posAccelLimit ∈ finiteReals by decide), ExtendedReal.toReal]
  · rw [gains]
    simp only [exactGains, OuterLoop.gainsFrom, number (show Register.speedAccelLimit ∈ finiteReals by decide)]
    exact ramped.speed
  · rw [gains]
    simp only [exactGains, OuterLoop.gainsFrom, number (show Register.posAccelLimit ∈ finiteReals by decide)]
    exact ramped.position

/-! ### The first step of a mode -/

/-- A number within one step of the measured speed. -/
def Near (reference : ExtendedReal) (speed step : ℝ) : Prop := ∃ r : ℝ, reference = .real r ∧ |r - speed| ≤ step

/-- A demand that starts at zero gets within one step of the speed: the speed is within two steps of zero,
and what the position loop wants is not short of it. -/
def Reached (wanted speed lower upper step : ℝ) : Prop :=
  (0 < speed → speed ≤ step + step ∧ speed - step ≤ max wanted lower) ∧
    (speed < 0 → -(step + step) ≤ speed ∧ min wanted upper ≤ speed + step)

section First

variable {wrap : ExtendedReal → ExtendedReal} {observed : Observed ExtendedReal}
  {past : List (LoopEvent ExtendedReal)} {s : NvmSettings} {gains : LoopGains ℝ} {ω : ℝ}

theorem near_real (r speed step : ℝ) : Near (.real r) speed step ↔ |r - speed| ≤ step := by
  constructor
  · rintro ⟨r', same, near⟩
    cases same
    exact near
  · exact fun near => ⟨r, rfl, near⟩

theorem speed_near (numbers : StepNumbers wrap observed (run wrap past) s gains) (time : 0 < stepTime s)
    (setpoint : ∃ x : ℝ, (run wrap past).loop.setpoint.speed = .real x)
    (flags : Engaged (run wrap past) (engagedMode wrap past)) (first : Activates wrap past)
    (mode : (run wrap past).loop.setpoint.mode = .speed) (speed : observed.electricalSpeed = .real ω) :
    Near ((run wrap past).handed wrap observed) (shaftOf s ω) (gains.speedAccelLimit * stepTime s) := by
  obtain ⟨c, ramping, handed⟩ := first.handed_speed observed flags mode
  obtain ⟨x, target⟩ := setpoint
  have measured := numbers.measured ω speed
  have start : c.reference = .real (shaftOf s ω) := ramping.reference.trans measured
  have ramp : c.accelLimit = .real gains.speedAccelLimit := by
    rw [ramping.ramp, numbers.tuning]
  rw [handed, numbers.dt, numbers.speedMin, numbers.speedMax, measured, target, ExtendedReal.clamp_real,
    update_real start ramp numbers.ramp, near_real]
  exact Ramp.follow_near (mul_pos numbers.ramp time).le

theorem search_near_iff (numbers : StepNumbers wrap observed (run wrap past) s gains) (time : 0 < stepTime s)
    (flags : Engaged (run wrap past) (engagedMode wrap past)) (first : Activates wrap past)
    (inside : inPositionMode (run wrap past).loop.setpoint = true)
    (begins : (run wrap past).begins = true) (speed : observed.electricalSpeed = .real ω) (step : ℝ) :
    Near ((run wrap past).handed wrap observed) (shaftOf s ω) step ↔
      |s.real .posHomingSpeed - shaftOf s ω| ≤ step ∨ gains.speedAccelLimit * stepTime s ≤ step := by
  obtain ⟨c, ramping, handed⟩ := first.handed_search observed flags inside begins
  have measured := numbers.measured ω speed
  have start : c.reference = .real (shaftOf s ω) := ramping.reference.trans measured
  have ramp : c.accelLimit = .real gains.speedAccelLimit := by
    rw [ramping.ramp, numbers.tuning]
  rw [handed, numbers.dt, numbers.homingSpeed, measured, update_real start ramp numbers.ramp, near_real]
  exact Ramp.follow_near_iff (mul_pos numbers.ramp time).le

theorem position_near_iff (numbers : StepNumbers wrap observed (run wrap past) s gains) (time : 0 < stepTime s)
    {setpoint aim position : ℝ} (setpointReal : (run wrap past).loop.setpoint.position = .real setpoint)
    (aimReal : (run wrap past).aim wrap observed = .real aim)
    (positionReal : ((run wrap past).located wrap observed).tracker.positionRad = .real position)
    (flags : Engaged (run wrap past) (engagedMode wrap past)) (first : Activates wrap past)
    (inside : inPositionMode (run wrap past).loop.setpoint = true)
    (quiet : (run wrap past).begins = false) (speed : observed.electricalSpeed = .real ω)
    (low : s.real .motorOmegaMin ≤ (0 : ℝ)) (high : 0 ≤ (s.real .motorOmegaMax : ℝ))
    (above : s.real .motorOmegaMin ≤ ω) (below : ω ≤ s.real .motorOmegaMax) :
    Near ((run wrap past).handed wrap observed) (shaftOf s ω) (gains.positionAccelLimit * stepTime s) ↔
      Reached (wantedSpeed gains.positionKp gains.positionSpeedLimit (stepTime s) setpoint aim position)
        (shaftOf s ω) (shaftOf s (s.real .motorOmegaMin)) (shaftOf s (s.real .motorOmegaMax))
        (gains.positionAccelLimit * stepTime s) := by
  obtain ⟨c, p, started, handed⟩ := first.handed_position observed flags inside quiet
  rw [numbers.tuning, setpointReal, aimReal] at started
  rw [handed, numbers.dt, numbers.speedMin, numbers.speedMax, numbers.measured ω speed, positionReal,
    speedDemand_real _ started, ExtendedReal.clamp_real, track_real, near_real]
  have zero : shaftOf s 0 = 0 := zero_div _
  have lower : shaftOf s (s.real .motorOmegaMin) ≤ 0 := zero ▸ shaftOf_mono low
  have upper : 0 ≤ shaftOf s (s.real .motorOmegaMax) := zero ▸ shaftOf_mono high
  exact Ramp.first_near (mul_pos numbers.slew time).le lower upper (shaftOf_mono above) (shaftOf_mono below)

end First

/-- The first engaged step of a mode, on a motor that turns within its speed limits. -/
structure Turning (wrap : ExtendedReal → ExtendedReal) (observed : Observed ExtendedReal)
    (past : List (LoopEvent ExtendedReal)) (s : NvmSettings) (ω : ℝ) : Prop where
  settings : settingsIn past = some s
  speed : observed.electricalSpeed = .real ω
  above : s.real .motorOmegaMin ≤ ω
  below : ω ≤ s.real .motorOmegaMax
  first : Activates wrap past

/-- The reference differs from the measured speed by at most one step of the acceleration limit. -/
def BumplessStep (wrap : ExtendedReal → ExtendedReal) (e : LoopEvent ExtendedReal)
    (past : List (LoopEvent ExtendedReal)) : Prop :=
  match e with
  | .step observed => ∀ s ω, Turning wrap observed past s ω →
    let t := run wrap past
    let gains := exactGains t.loop.gains
    match t.loop.setpoint.mode with
    | .torque => True
    | .speed => Near (t.handed wrap observed) (shaftOf s ω) (gains.speedAccelLimit * stepTime s)
    | .position => Near (t.handed wrap observed) (shaftOf s ω) (gains.positionAccelLimit * stepTime s)
  | _ => True

/-- When the position mode starts smoothly: a search that begins with it has its speed or its ramp within
the step, and without one the demand gets there from zero. -/
def SmoothStep (wrap : ExtendedReal → ExtendedReal) (e : LoopEvent ExtendedReal)
    (past : List (LoopEvent ExtendedReal)) : Prop :=
  match e with
  | .step observed => ∀ s ω, Turning wrap observed past s ω →
    let t := run wrap past
    let gains := exactGains t.loop.gains
    let step := gains.positionAccelLimit * stepTime s
    t.loop.setpoint.mode = .position →
      if t.begins then |s.real .posHomingSpeed - shaftOf s ω| ≤ step ∨ gains.speedAccelLimit * stepTime s ≤ step
      else
        Reached
          (wantedSpeed gains.positionKp gains.positionSpeedLimit (stepTime s) t.loop.setpoint.position.toReal
            (t.aim wrap observed).toReal (t.located wrap observed).tracker.positionRad.toReal)
          (shaftOf s ω) (shaftOf s (s.real .motorOmegaMin)) (shaftOf s (s.real .motorOmegaMax)) step
  | _ => True

theorem aim_real {t : OuterThread ExtendedReal} {settings : Option NvmSettings} (steered : Steered t settings)
    (wrap : ExtendedReal → ExtendedReal) (observed : Observed ExtendedReal) :
    ∃ x : ℝ, t.aim wrap observed = .real x := by
  obtain ⟨-, position, -, target⟩ := steered.setpoint
  unfold aim
  split
  · exact ⟨0, ExtendedReal.scalar_zero⟩
  · exact ⟨position, target⟩

theorem bumpless_step_iff (wrap : ExtendedReal → ExtendedReal) (e : LoopEvent ExtendedReal)
    (past : List (LoopEvent ExtendedReal)) (steered : Steered (run wrap past) (settingsIn past))
    (flags : Engaged (run wrap past) (engagedMode wrap past)) :
    BumplessStep wrap e past ↔ SmoothStep wrap e past := by
  cases e with
  | step observed =>
    apply forall_congr'
    intro s
    apply forall_congr'
    intro ω
    apply forall_congr'
    intro turning
    have numbers := steered.numbers turning.settings wrap observed
    have accepted := steered.loaded.accepted s turning.settings
    have time := stepTime_positive accepted
    obtain ⟨x, y, speed, position⟩ := steered.setpoint
    dsimp only
    cases mode : (run wrap past).loop.setpoint.mode with
    | torque => simp
    | speed =>
      constructor
      · intro _ other
        cases other
      · intro _
        exact speed_near numbers time ⟨x, speed⟩ flags turning.first mode turning.speed
    | position =>
      have inside : inPositionMode (run wrap past).loop.setpoint = true := by
        simp [inPositionMode, mode, turning.first.2.1]
      simp only [true_imp_iff]
      cases begins : (run wrap past).begins with
      | true =>
        rw [if_pos rfl]
        exact search_near_iff numbers time flags turning.first inside begins turning.speed _
      | false =>
        obtain ⟨aim, aimReal⟩ := aim_real steered wrap observed
        obtain ⟨shaft, shaftReal⟩ := (located_real steered.tracker wrap observed).position
        obtain ⟨limits, success⟩ := accepted
        have checked := validate_accepted success
        rw [if_neg Bool.false_ne_true, position, aimReal, shaftReal]
        exact position_near_iff numbers time position aimReal shaftReal flags turning.first inside begins
          turning.speed checked.omegaMin_exact checked.omegaMax_exact turning.above turning.below
  | init settings => exact Iff.rfl
  | setSetpoint setpoint => exact Iff.rfl
  | setBatteryLimits limits => exact Iff.rfl
  | setGains gains => exact Iff.rfl
  | startHoming => exact Iff.rfl

/-- A run never demands a step in speed exactly when every start of its position mode is smooth. -/
theorem activation_bumpless_iff (wrap : ExtendedReal → ExtendedReal) (trace : List (LoopEvent ExtendedReal))
    (legal : (activationMachine wrap).Legal trace) :
    Runs.Throughout (BumplessStep wrap) trace ↔ Runs.Throughout (SmoothStep wrap) trace := by
  apply Runs.Machine.throughout_congr
    (fun _ past => Steered (run wrap past) (settingsIn past) ∧ Engaged (run wrap past) (engagedMode wrap past))
    _ _ trace legal
  · intro past before
    exact ⟨run_steered wrap past before, run_engaged wrap (activation_legal wrap past before)⟩
  · rintro e past ⟨steered, flags⟩ -
    exact bumpless_step_iff wrap e past steered flags

/-! ### The defaults -/

noncomputable def turningShaft : Observed ExtendedReal := ⟨0.0, .real 150, 48.0⟩

noncomputable def engagedAt (mode : Cyphal.ControlMode) : List (LoopEvent ExtendedReal) :=
  [.setSetpoint ⟨true, mode, .zero, 20.0, 0.0⟩, .init .default]

theorem default_limits :
    (NvmSettings.default.real .speedAccelLimit : ℝ) = 1000 ∧ (NvmSettings.default.real .posAccelLimit : ℝ) = 500 ∧
      (NvmSettings.default.real .pwmFrequency : ℝ) = 20000 ∧
      (NvmSettings.default.real .motorOmegaMin : ℝ) = -1500 ∧ (NvmSettings.default.real .motorOmegaMax : ℝ) = 1500 := by
  have patterns : (NvmSettings.default.real .speedAccelLimit : Binary32) = .finite 16384000 (-14) ∧
      (NvmSettings.default.real .posAccelLimit : Binary32) = .finite 16384000 (-15) ∧
      (NvmSettings.default.real .pwmFrequency : Binary32) = .finite 10240000 (-9) ∧
      (NvmSettings.default.real .motorOmegaMin : Binary32) = .finite (-12288000) (-13) ∧
      (NvmSettings.default.real .motorOmegaMax : Binary32) = .finite 12288000 (-13) := by
    decide
  obtain ⟨ramp, slew, pwm, low, high⟩ := patterns
  simp only [real_value, ramp, slew, pwm, low, high, Binary.value]
  norm_num

theorem default_ramped : Ramped .default where
  accepted := ⟨simCapabilities, by decide⟩
  speed := by
    rw [default_limits.1]
    norm_num
  position := by
    rw [default_limits.2.1]
    norm_num

theorem engagedAt_legal (mode : Cyphal.ControlMode) :
    (activationMachine id).Legal (.step turningShaft :: engagedAt mode) :=
  ⟨trivial, ⟨_, _, rfl, rfl⟩, ⟨default_ramped, by decide⟩, trivial⟩

/-- The speed mode takes up a shaft that turns. -/
theorem activation_bumpless_speed :
    Runs.Throughout (BumplessStep id) (.step turningShaft :: engagedAt .speed) := by
  apply (activation_bumpless_iff id _ (engagedAt_legal .speed)).mpr
  refine (Runs.throughout_cons ..).mpr ⟨?_, (Runs.throughout_cons ..).mpr ⟨trivial,
    (Runs.throughout_cons ..).mpr ⟨trivial, Runs.throughout_nil _⟩⟩⟩
  intro s ω turning _ _ _ mode
  cases mode

/-- The position mode takes it up with a demand of at most 0.4 rad/s. -/
theorem turning_position_bumps :
    (activationMachine id).Legal (.step turningShaft :: engagedAt .position) ∧
      ¬Runs.Throughout (BumplessStep id) (.step turningShaft :: engagedAt .position) := by
  have legal := engagedAt_legal .position
  refine ⟨legal, fun bumpless => ?_⟩
  obtain ⟨-, slew, pwm, low, high⟩ := default_limits
  have steered := run_steered id (engagedAt .position) legal.2
  have flags := run_engaged id (activation_legal id (engagedAt .position) legal.2)
  have shaft : shaftOf .default 150 = 10 := by
    show (150 : ℝ) / ((15 : ℕ) : ℝ) = 10
    norm_num
  have step : (exactGains (run id (engagedAt .position)).loop.gains).positionAccelLimit * stepTime .default =
      2 / 5 := by
    have limit : (NvmSettings.default.real .posAccelLimit : ExtendedReal).toReal = 500 := by
      rw [real_extended default_ramped.accepted (by decide)]
      exact slew
    show (NvmSettings.default.real .posAccelLimit : ExtendedReal).toReal *
      (1.0 / (2.0 * (NvmSettings.default.real .pwmFrequency : ℝ)) * ((4 : ℕ) : ℝ) * ((8 : ℕ) : ℝ)) = 2 / 5
    rw [limit, pwm]
    norm_num
  have turning : Turning id turningShaft (engagedAt .position) .default 150 := by
    constructor
    · rfl
    · rfl
    · rw [low]
      norm_num
    · rw [high]
      norm_num
    · exact ⟨rfl, rfl, by decide⟩
  have smooth := (bumpless_step_iff id _ _ steered flags).mp ((Runs.throughout_cons ..).mp bumpless).1 .default 150
    turning rfl
  have within := (smooth.1 (by rw [shaft]; norm_num)).1
  rw [shaft, step] at within
  norm_num at within

end Unimoc.Drive
