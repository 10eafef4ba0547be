import Unimoc.CurrentControl.Homing

/-! The step that activates a mode: the gains its controllers have, and what it hands to the speed
controller. -/
namespace Unimoc.CurrentControl

open Settings Cyphal

/-- What the settings say of the ramps of a thread. -/
structure Tuning (F : Type) where
  ramp : F
  kpPos : F
  speedLimit : F
  accelLimit : F
  threshold : F

def LoopGains.tuning {F : Type} [Scalar F] (gains : LoopGains F) : Tuning F :=
  ⟨gains.speedAccelLimit, gains.positionKp, gains.positionSpeedLimit, gains.positionAccelLimit, 0.5⟩

theorem SpeedController.track_accelLimit {F : Type} [Scalar F] (reference measured dt : F)
    (c : SpeedController F) : (c.track reference measured dt).accelLimit = c.accelLimit := by
  unfold track
  split <;> rfl

theorem SpeedController.update_accelLimit {F : Type} [Scalar F] (setpoint measured dt : F)
    (c : SpeedController F) : (c.update setpoint measured dt).accelLimit = c.accelLimit := by
  unfold update
  split_ifs <;> exact track_accelLimit ..

namespace OuterThread

section Tuned

variable {F : Type} [Arithmetic F] (t : OuterThread F) (setpoint : OuterSetpoint F) (speed : F)

def tuning : Tuning F :=
  ⟨t.speed.accelLimit, t.position.kpPos, t.position.speedLimit, t.position.accelLimit,
    t.position.trapezoidJumpThreshold⟩

theorem takeParameters_tuning (threshold : t.position.trapezoidJumpThreshold = 0.5)
    (newer : t.loop.parameters.generation ≠ t.loop.active.generation →
      t.loop.gainsGeneration ≠ t.loop.appliedGainsGeneration)
    (tuned : t.loop.gainsGeneration = t.loop.appliedGainsGeneration → t.tuning = t.loop.gains.tuning) :
    t.takeParameters.tuning = t.loop.gains.tuning := by
  by_cases fresh : t.loop.gainsGeneration = t.loop.appliedGainsGeneration
  · have running : t.loop.parameters.generation = t.loop.active.generation :=
      not_not.mp fun other => newer other fresh
    have same : t.takeParameters = t := by
      simp [takeParameters, fresh, running]
    rw [same]
    exact tuned fresh
  · by_cases running : t.loop.parameters.generation = t.loop.active.generation
    · simp [takeParameters, fresh, running, tuning, LoopGains.tuning, applyGains, threshold]
    · simp [takeParameters, fresh, running, tuning, LoopGains.tuning, applyGains, loadParameters, threshold]

theorem trackPosition_tuning (wrap : F → F) (angle : F) : (t.trackPosition wrap angle).tuning = t.tuning := by
  obtain ⟨electrical, tracker, tracked, -⟩ := t.trackPosition_kept wrap angle
  rw [tracked]
  rfl

theorem updateHoming_tuning : (t.updateHoming setpoint speed).tuning = t.tuning := by
  unfold updateHoming takeHomingRequest
  simp only
  split_ifs <;> rfl

theorem entered_tuning (limits : TorqueRange F) : (t.entered setpoint speed limits).tuning = t.tuning := by
  unfold entered enterMode
  split <;> rfl

theorem positionTorque_tuning (target : F) (limits : TorqueRange F) :
    (t.positionTorque target speed limits).2.tuning = t.tuning := by
  unfold positionTorque
  split
  · unfold searchHome
    have searched : (t.searchStep speed limits).tuning = t.tuning := by
      unfold searchStep tuning
      simp only [SpeedController.update_accelLimit]
    simp only
    split
    · exact searched
    · exact searched
  · simp only [tuning, SpeedController.track_accelLimit]
    rfl

theorem reference_tuning (limits : TorqueRange F) :
    (t.reference setpoint speed limits).2.tuning = t.tuning := by
  have entered := t.entered_tuning setpoint speed limits
  cases active : setpoint.active with
  | false =>
    unfold reference
    rw [if_pos (by simp [active])]
    rfl
  | true =>
    rw [reference_active _ _ _ _ active, ← entered]
    cases setpoint.mode with
    | torque => rfl
    | speed =>
      simp only [tuning, SpeedController.update_accelLimit]
    | position => exact positionTorque_tuning ..

theorem step_tuning (wrap : F → F) (observed : Observed F) (ready : t.hasIsr = true) :
    (t.step wrap observed).2.tuning = t.takeParameters.tuning := by
  obtain ⟨status, after⟩ := t.step_referenced wrap observed ready
  have referenced : (t.referenced wrap observed).tuning = t.takeParameters.tuning := by
    unfold referenced prepared located
    rw [reference_tuning, updateHoming_tuning, trackPosition_tuning]
  rw [after]
  exact referenced

end Tuned

/-! ### The mode a thread is engaged in -/

section History

variable {F : Type} [Arithmetic F] (wrap : F → F)

/-- The mode of the last step, if it was an engaged one and no restart came since. -/
def engagedMode : List (LoopEvent F) → Option ControlMode
  | [] => none
  | .init _ :: _ => none
  | .step _ :: past =>
    if !(run wrap past).hasIsr then none
    else if (run wrap past).loop.setpoint.active then some (run wrap past).loop.setpoint.mode
    else none
  | _ :: past => engagedMode past

variable {wrap} {t : OuterThread F} {observed : Observed F}

/-- The flags of a thread stand for the mode it is engaged in, unless it restarts. -/
structure Engaged (t : OuterThread F) (mode : Option ControlMode) : Prop where
  waiting : t.hasIsr = false → t.wasActive = false
  fresh : t.loop.parameters.generation ≠ t.loop.active.generation → mode = none
  running : t.loop.parameters.generation = t.loop.active.generation →
    mode = if t.wasActive then some t.mode else none
  searching : t.loop.parameters.generation = t.loop.active.generation → t.homing = .searching →
    mode = some .position

variable (t) in
theorem updateHoming_mode (setpoint : OuterSetpoint F) (speed : F) :
    (t.updateHoming setpoint speed).wasActive = t.wasActive ∧ (t.updateHoming setpoint speed).mode = t.mode := by
  unfold updateHoming takeHomingRequest
  simp only
  split_ifs <;> exact ⟨rfl, rfl⟩

variable (t) in
theorem positionTorque_mode (target speed : F) (limits : TorqueRange F) :
    (t.positionTorque target speed limits).2.wasActive = t.wasActive ∧
      (t.positionTorque target speed limits).2.mode = t.mode := by
  unfold positionTorque searchHome
  split
  · simp only
    split <;> exact ⟨rfl, rfl⟩
  · exact ⟨rfl, rfl⟩

theorem reference_mode (setpoint : OuterSetpoint F) (speed : F) (limits : TorqueRange F) :
    (t.reference setpoint speed limits).2.wasActive = setpoint.active ∧
      (setpoint.active = true → (t.reference setpoint speed limits).2.mode = setpoint.mode) := by
  cases active : setpoint.active with
  | false =>
    obtain ⟨_, _, idle⟩ := t.reference_idle setpoint speed limits active
    rw [idle]
    exact ⟨rfl, fun engaged => by cases engaged⟩
  | true =>
    by_cases here : setpoint.mode = .position
    · obtain ⟨wasActive, mode⟩ := (t.entered setpoint speed limits).positionTorque_mode setpoint.position speed
        limits
      rw [reference_position _ _ _ _ active here, wasActive, mode]
      exact ⟨rfl, fun _ => rfl⟩
    · obtain ⟨_, _, made⟩ := t.reference_elsewhere setpoint speed limits active here
      rw [made]
      exact ⟨rfl, fun _ => rfl⟩

variable (wrap observed) in
theorem step_mode (ready : t.hasIsr = true) :
    (t.step wrap observed).2.wasActive = t.loop.setpoint.active ∧
      (t.loop.setpoint.active = true → (t.step wrap observed).2.mode = t.loop.setpoint.mode) := by
  obtain ⟨status, after⟩ := t.step_referenced wrap observed ready
  rw [after]
  exact reference_mode ..

theorem searching_inside (ready : t.hasIsr = true) (searching : (t.step wrap observed).2.homing = .searching) :
    inPositionMode t.loop.setpoint = true := by
  cases homingStep wrap observed t ready with
  | outside _ unsearching => exact absurd searching unsearching
  | follows mode | searches mode => exact mode
  | completes ended => exact ended.mode

theorem Engaged.step {past : List (LoopEvent F)} (engaged : Engaged (run wrap past) (engagedMode wrap past)) :
    Engaged (run wrap (.step observed :: past)) (engagedMode wrap (.step observed :: past)) := by
  rw [run_step]
  cases ready : (run wrap past).hasIsr with
  | false =>
    have idle := engaged.waiting ready
    rw [step_waiting _ _ _ ready, engagedMode, ready]
    constructor
    · exact engaged.waiting
    · exact fun _ => rfl
    · intro _
      rw [idle]
      rfl
    · intro running searching
      have mode := engaged.running running
      rw [idle, engaged.searching running searching] at mode
      cases mode
  | true =>
    have running : ((run wrap past).step wrap observed).2.Running := step_running ready
    obtain ⟨wasActive, mode⟩ := step_mode wrap observed ready
    rw [engagedMode, ready]
    constructor
    · intro waiting
      rw [running.1] at waiting
      cases waiting
    · intro fresh
      exact absurd running.2.1 fresh
    · intro _
      rw [wasActive]
      cases active : (run wrap past).loop.setpoint.active with
      | false => rfl
      | true => rw [mode active]; rfl
    · intro _ searching
      have inside := searching_inside ready searching
      simp only [inPositionMode, Bool.and_eq_true, decide_eq_true_eq] at inside
      rw [inside.1, inside.2]
      rfl

/-- A thread of a run that restarts it before the counters come round. -/
theorem Engaged.next {past : List (LoopEvent F)} (engaged : Engaged (run wrap past) (engagedMode wrap past))
    (counted : (run wrap past).loop.Counted) (e : LoopEvent F)
    (admitted : (machine wrap (fun _ => True) fun _ => True).admits (run wrap past) e) :
    Engaged (run wrap (e :: past)) (engagedMode wrap (e :: past)) := by
  cases e with
  | step observed => exact engaged.step
  | init settings =>
    have older := counted.restart_newer admitted.2
    constructor
    · intro waiting
      cases waiting
    · exact fun _ => rfl
    · exact fun running => absurd running older
    · exact fun running => absurd running older
  | setSetpoint setpoint => exact ⟨engaged.waiting, engaged.fresh, engaged.running, engaged.searching⟩
  | setBatteryLimits limits => exact ⟨engaged.waiting, engaged.fresh, engaged.running, engaged.searching⟩
  | setGains gains => exact ⟨engaged.waiting, engaged.fresh, engaged.running, engaged.searching⟩
  | startHoming => exact ⟨engaged.waiting, engaged.fresh, engaged.running, engaged.searching⟩

variable (wrap) in
theorem run_counted (trace : List (LoopEvent F)) : (run wrap trace).loop.Counted := by
  induction trace with
  | nil => exact OuterLoop.powerOn_counted
  | cons e past ih => exact next_counted _ wrap ih e

variable (wrap) in
theorem run_engaged {trace : List (LoopEvent F)}
    (legal : (machine wrap (fun _ => True) fun _ => True).Legal trace) :
    Engaged (run wrap trace) (engagedMode wrap trace) := by
  induction trace with
  | nil => exact ⟨fun _ => rfl, fun fresh => absurd rfl fresh, fun _ => rfl, fun _ found => by cases found⟩
  | cons e past ih => exact (ih legal.2).next (run_counted wrap past) e legal.1

end History

/-! ### What the first step of a mode hands to the speed controller -/

section Handed

variable {F : Type} [Arithmetic F] (wrap : F → F) (observed : Observed F) (t : OuterThread F)

/-- The reference of the speed controller. A search that ends in the step starts the controller anew
afterwards. -/
def handed : F :=
  if inPositionMode t.loop.setpoint && decide ((t.prepared wrap observed).homing = .searching) then
    ((t.engaged wrap observed).searchStep (t.measured wrap observed) (t.range wrap observed)).speed.reference
  else (t.step wrap observed).2.speed.reference

/-- The first engaged step of a mode. -/
def Activates (past : List (LoopEvent F)) : Prop :=
  (run wrap past).hasIsr = true ∧ (run wrap past).loop.setpoint.active = true ∧
    engagedMode wrap past ≠ some (run wrap past).loop.setpoint.mode

variable {wrap observed} {past : List (LoopEvent F)} (flags : Engaged (run wrap past) (engagedMode wrap past))

section Flags

include flags

variable (observed) in
theorem Activates.restarts (first : Activates wrap past) :
    (!((run wrap past).prepared wrap observed).wasActive ||
      decide ((run wrap past).loop.setpoint.mode ≠ ((run wrap past).prepared wrap observed).mode)) = true := by
  obtain ⟨wasActive, mode⟩ := ((run wrap past).located wrap observed).updateHoming_mode
    (run wrap past).loop.setpoint ((run wrap past).measured wrap observed)
  unfold prepared
  rw [wasActive, mode]
  rcases (run wrap past).located_cases wrap observed with
    ⟨running, _, _, _, _, _, located, -⟩ | ⟨-, _, _, _, _, _, located⟩
  · rw [located]
    have other := first.2.2
    rw [flags.running running] at other
    cases active : (run wrap past).wasActive with
    | false => rfl
    | true =>
      rw [active, if_pos rfl] at other
      have moved : (run wrap past).loop.setpoint.mode ≠ (run wrap past).mode :=
        fun same => other (congrArg some same.symm)
      exact Bool.or_eq_true_iff.mpr (.inr (decide_eq_true moved))
  · rw [located]
    rfl

variable (observed) in
theorem Activates.searching (first : Activates wrap past)
    (inside : inPositionMode (run wrap past).loop.setpoint = true) :
    ((run wrap past).prepared wrap observed).homing = .searching ↔ (run wrap past).begins = true := by
  rcases (run wrap past).prepared_inside wrap observed inside with ⟨begins, searching, -⟩ | ⟨quiet, same⟩
  · exact ⟨fun _ => begins, fun _ => searching⟩
  · rw [same, quiet]
    constructor
    · intro found
      have mode : (run wrap past).loop.setpoint.mode = .position := by
        simp only [inPositionMode, Bool.and_eq_true, decide_eq_true_eq] at inside
        exact inside.2
      rcases (run wrap past).located_cases wrap observed with
        ⟨running, _, _, _, _, _, located, -⟩ | ⟨-, _, _, _, _, _, located⟩
      · rw [located] at found
        exact absurd ((flags.searching running found).trans (congrArg some mode.symm)) first.2.2
      · rw [located] at found
        cases found
    · intro begun
      cases begun

end Flags

variable (wrap observed) in
theorem prepared_kept : ((t.prepared wrap observed).loop = t.takeParameters.loop) ∧
    (t.prepared wrap observed).tuning = t.takeParameters.tuning ∧
    (t.prepared wrap observed).tracker = (t.located wrap observed).tracker := by
  unfold prepared
  refine ⟨?_, ?_, ?_⟩
  · rw [(updateHoming_aside ..).loop]
    exact (trackPosition_aside ..).loop
  · rw [updateHoming_tuning]
    exact trackPosition_tuning ..
  · unfold updateHoming takeHomingRequest
    simp only
    split_ifs <;> rfl

/-- The target of the position loop in a step without a search. -/
def aim (wrap : F → F) (observed : Observed F) (t : OuterThread F) : F :=
  if (t.located wrap observed).holdHome && Scalar.eq t.loop.setpoint.position t.heldSetpoint then Scalar.zero
  else t.loop.setpoint.position

structure Started (c : PositionController F) (tuning : Tuning F) (setpoint aim : F) : Prop where
  kpPos : c.kpPos = tuning.kpPos
  speedLimit : c.speedLimit = tuning.speedLimit
  accelLimit : c.accelLimit = tuning.accelLimit
  threshold : c.trapezoidJumpThreshold = tuning.threshold
  target : c.posRefRad = aim
  limited : c.posRefLimited = setpoint
  demand : c.omegaDemandPrev = Scalar.zero

structure Ramping (c : SpeedController F) (tuning : Tuning F) (speed : F) : Prop where
  reference : c.reference = speed
  ramp : c.accelLimit = tuning.ramp

section Flags

include flags

variable (observed) in
theorem Activates.engaged (first : Activates wrap past) :
    ((run wrap past).engaged wrap observed).loop = (run wrap past).takeParameters.loop ∧
      Ramping ((run wrap past).engaged wrap observed).speed (run wrap past).takeParameters.tuning
        ((run wrap past).measured wrap observed) ∧
      Started ((run wrap past).engaged wrap observed).position (run wrap past).takeParameters.tuning
        (run wrap past).loop.setpoint.position (run wrap past).loop.setpoint.position ∧
      ((run wrap past).engaged wrap observed).tracker = ((run wrap past).located wrap observed).tracker := by
  have restarts := first.restarts observed flags
  obtain ⟨loop, tuning, tracker⟩ := (run wrap past).prepared_kept wrap observed
  unfold OuterThread.engaged entered enterMode
  rw [if_pos restarts, ← tuning]
  exact ⟨loop, ⟨rfl, rfl⟩, ⟨rfl, rfl, rfl, rfl, rfl, rfl, rfl⟩, tracker⟩

variable (observed) in
theorem Activates.handed_speed (first : Activates wrap past)
    (mode : (run wrap past).loop.setpoint.mode = .speed) :
    let t := run wrap past
    let active := t.takeParameters.loop.active
    ∃ c, Ramping c t.takeParameters.tuning (t.measured wrap observed) ∧
      t.handed wrap observed =
        (c.update (Scalar.clamp t.loop.setpoint.speed active.speedMin active.speedMax)
          (t.measured wrap observed) active.dt).reference := by
  obtain ⟨loop, ramping, -⟩ := first.engaged observed flags
  obtain ⟨ready, active, -⟩ := first
  obtain ⟨status, after⟩ := (run wrap past).step_referenced wrap observed ready
  refine ⟨_, ramping, ?_⟩
  have outside : inPositionMode (run wrap past).loop.setpoint = false := by
    simp [inPositionMode, mode]
  unfold handed
  rw [outside, Bool.false_and, if_neg Bool.false_ne_true, after, ← loop]
  show (((run wrap past).prepared wrap observed).reference _ _ _).2.speed.reference = _
  rw [reference_active _ _ _ _ active, mode]
  rfl

variable (observed) in
theorem Activates.handed_search (first : Activates wrap past)
    (inside : inPositionMode (run wrap past).loop.setpoint = true) (begins : (run wrap past).begins = true) :
    let t := run wrap past
    let active := t.takeParameters.loop.active
    ∃ c, Ramping c t.takeParameters.tuning (t.measured wrap observed) ∧
      t.handed wrap observed = (c.update active.homingSpeed (t.measured wrap observed) active.dt).reference := by
  obtain ⟨loop, ramping, -⟩ := first.engaged observed flags
  have searching := (first.searching observed flags inside).mpr begins
  refine ⟨{ ((run wrap past).engaged wrap observed).speed with
    torqueMin := Scalar.max ((run wrap past).range wrap observed).lower
      (-(((run wrap past).engaged wrap observed).loop.active.torqueConstant *
        ((run wrap past).engaged wrap observed).loop.active.homingCurrent))
    torqueMax := Scalar.min ((run wrap past).range wrap observed).upper
      (((run wrap past).engaged wrap observed).loop.active.torqueConstant *
        ((run wrap past).engaged wrap observed).loop.active.homingCurrent) },
    ⟨ramping.reference, ramping.ramp⟩, ?_⟩
  unfold handed
  rw [inside, Bool.true_and, if_pos (decide_eq_true searching), ← loop]
  rfl

variable (observed) in
theorem Activates.handed_position (first : Activates wrap past)
    (inside : inPositionMode (run wrap past).loop.setpoint = true) (quiet : (run wrap past).begins = false) :
    let t := run wrap past
    let active := t.takeParameters.loop.active
    ∃ (c : SpeedController F) (p : PositionController F),
      Started p t.takeParameters.tuning t.loop.setpoint.position (t.aim wrap observed) ∧
      t.handed wrap observed =
        (c.track (Scalar.clamp (p.speedDemand (t.located wrap observed).tracker.positionRad
          (t.measured wrap observed) active.dt).omegaDemandPrev active.speedMin active.speedMax)
          (t.measured wrap observed) active.dt).reference := by
  obtain ⟨loop, -, started, tracker⟩ := first.engaged observed flags
  have idle : ((run wrap past).prepared wrap observed).homing ≠ .searching := by
    intro searching
    have begins := (first.searching observed flags inside).mp searching
    rw [quiet] at begins
    cases begins
  obtain ⟨engaged, mode⟩ : (run wrap past).loop.setpoint.active = true ∧
      (run wrap past).loop.setpoint.mode = .position := by
    simpa [inPositionMode] using inside
  obtain ⟨status, after⟩ := (run wrap past).step_referenced wrap observed first.1
  have same : (run wrap past).prepared wrap observed = (run wrap past).located wrap observed := by
    rcases (run wrap past).prepared_inside wrap observed inside with ⟨begins, -⟩ | ⟨-, same⟩
    · rw [quiet] at begins
      cases begins
    · exact same
  have aimed : (if ((run wrap past).engaged wrap observed).holdHome &&
        Scalar.eq (run wrap past).loop.setpoint.position ((run wrap past).engaged wrap observed).heldSetpoint
      then Scalar.zero else (run wrap past).loop.setpoint.position) = (run wrap past).aim wrap observed := by
    obtain ⟨_, _, entered⟩ := ((run wrap past).prepared wrap observed).entered_kept
      (run wrap past).loop.setpoint ((run wrap past).measured wrap observed) ((run wrap past).range wrap observed)
    change (run wrap past).engaged wrap observed = _ at entered
    rw [entered, same]
    unfold aim
    rw [← ((run wrap past).located_kept wrap observed).2.2]
  refine ⟨((run wrap past).engaged wrap observed).speed,
    { ((run wrap past).engaged wrap observed).position with posRefRad := (run wrap past).aim wrap observed },
    ⟨started.kpPos, started.speedLimit, started.accelLimit, started.threshold, rfl, started.limited,
      started.demand⟩, ?_⟩
  unfold handed
  rw [decide_eq_false idle, Bool.and_false, if_neg Bool.false_ne_true, after, ← loop, ← tracker, ← aimed]
  show (((run wrap past).prepared wrap observed).reference _ _ _).2.speed.reference = _
  rw [reference_position _ _ _ _ engaged mode]
  change (((run wrap past).engaged wrap observed).positionTorque _ _ _).2.speed.reference = _
  unfold positionTorque
  have calm : ((run wrap past).engaged wrap observed).homing ≠ .searching := by
    obtain ⟨_, _, entered⟩ := ((run wrap past).prepared wrap observed).entered_kept
      (run wrap past).loop.setpoint ((run wrap past).measured wrap observed) ((run wrap past).range wrap observed)
    change (run wrap past).engaged wrap observed = _ at entered
    rw [entered]
    exact idle
  rw [if_neg calm]

end Flags

end Handed

end OuterThread

end Unimoc.CurrentControl
