import Unimoc.CurrentControl.OuterStep
import Unimoc.Settings.Factory

/-! The homing run: what a step does to it, and how long the shaft was stalled before it ended. -/
namespace Unimoc.CurrentControl

open Settings Cyphal

theorem PositionTracker.update_homeOffset {F : Type} [Arithmetic F] (angle : RotorAngle) (polePairs : UInt8)
    (tracker : PositionTracker F) : (tracker.update angle polePairs).homeOffsetRad = tracker.homeOffsetRad := by
  unfold PositionTracker.update
  split <;> rfl

namespace OuterThread

section Parts

variable {F : Type} [Arithmetic F] (wrap : F → F) (observed : Observed F) (t : OuterThread F)

def located : OuterThread F := t.takeParameters.trackPosition wrap observed.electricalAngle

def measured : F := (t.located wrap observed).shaftSpeed observed

def range : TorqueRange F := t.takeParameters.dcLinkLimit.allowedTorque (t.measured wrap observed) observed.dcLink

def prepared : OuterThread F :=
  (t.located wrap observed).updateHoming t.loop.setpoint (t.measured wrap observed)

def referenced : OuterThread F :=
  ((t.prepared wrap observed).reference t.loop.setpoint (t.measured wrap observed)
    (t.range wrap observed)).2

theorem takeParameters_setpoint : t.takeParameters.loop.setpoint = t.loop.setpoint := by
  rw [takeParameters_loop]
  unfold OuterLoop.applyGains OuterLoop.loadParameters
  split <;> split <;> rfl

theorem step_referenced (ready : t.hasIsr = true) :
    ∃ status, (t.step wrap observed).2 =
      { t.referenced wrap observed with
        loop := { (t.referenced wrap observed).loop with status := status } } := by
  unfold step referenced prepared
  rw [if_neg (by simp [ready]), ← takeParameters_setpoint]
  exact ⟨_, rfl⟩

theorem step_waiting (waiting : t.hasIsr = false) : (t.step wrap observed).2 = t := by
  unfold step
  rw [if_pos (by simp [waiting])]

theorem takeParameters_running (running : t.loop.parameters.generation = t.loop.active.generation) :
    ∃ loop speed position,
      t.takeParameters = { t with loop := loop, speed := speed, position := position } := by
  by_cases newer : t.loop.gainsGeneration ≠ t.loop.appliedGainsGeneration
  · simp only [takeParameters, running, newer, ne_eq, not_true_eq_false, not_false_eq_true, if_true, if_false]
    exact ⟨_, _, _, rfl⟩
  · simp only [takeParameters, running, newer, ne_eq, not_true_eq_false, if_false]
    exact ⟨_, _, _, rfl⟩

theorem takeParameters_restarting (fresh : t.loop.parameters.generation ≠ t.loop.active.generation) :
    ∃ loop speed position,
      t.takeParameters =
        { t with
          loop := loop, speed := speed, position := position, tracking := false, wasActive := false
          homing := .idle, holdHome := false } := by
  by_cases newer : t.loop.gainsGeneration ≠ t.loop.appliedGainsGeneration
  · simp only [takeParameters, fresh, newer, loadParameters, applyGains, ne_eq, not_false_eq_true, if_true]
    exact ⟨_, _, _, rfl⟩
  · simp only [takeParameters, fresh, newer, loadParameters, applyGains, ne_eq, not_false_eq_true, if_true,
      if_false]
    exact ⟨_, _, _, rfl⟩

theorem trackPosition_kept (angle : F) :
    ∃ electrical tracker,
      t.trackPosition wrap angle =
        { t with
          electricalPosition := electrical, tracker := tracker, lastAngle := angle, tracking := true } ∧
      (t.tracking = true → tracker.homeOffsetRad = t.tracker.homeOffsetRad) := by
  unfold trackPosition
  cases tracking : t.tracking with
  | true => exact ⟨_, _, rfl, fun _ => PositionTracker.update_homeOffset ..⟩
  | false => exact ⟨_, _, rfl, fun tracked => by cases tracked⟩

theorem located_cases :
    (t.loop.parameters.generation = t.loop.active.generation ∧ ∃ loop speed position electrical tracker,
      t.located wrap observed =
        { t with
          loop := loop, speed := speed, position := position, electricalPosition := electrical
          tracker := tracker, lastAngle := observed.electricalAngle, tracking := true } ∧
      (t.tracking = true → tracker.homeOffsetRad = t.tracker.homeOffsetRad)) ∨
    (t.loop.parameters.generation ≠ t.loop.active.generation ∧ ∃ loop speed position electrical tracker,
      t.located wrap observed =
        { t with
          loop := loop, speed := speed, position := position, electricalPosition := electrical
          tracker := tracker, lastAngle := observed.electricalAngle, tracking := true
          wasActive := false, homing := .idle, holdHome := false }) := by
  unfold located
  by_cases running : t.loop.parameters.generation = t.loop.active.generation
  · left
    obtain ⟨loop, speed, position, taken⟩ := t.takeParameters_running running
    obtain ⟨electrical, tracker, tracked, home⟩ :=
      t.takeParameters.trackPosition_kept wrap observed.electricalAngle
    rw [tracked]
    rw [taken] at home ⊢
    exact ⟨running, loop, speed, position, electrical, tracker, rfl, home⟩
  · right
    obtain ⟨loop, speed, position, taken⟩ := t.takeParameters_restarting running
    obtain ⟨electrical, tracker, tracked, -⟩ :=
      t.takeParameters.trackPosition_kept wrap observed.electricalAngle
    rw [tracked, taken]
    exact ⟨running, loop, speed, position, electrical, tracker, rfl⟩

end Parts

section Stages

variable {F : Type} [Arithmetic F] (t : OuterThread F) (setpoint : OuterSetpoint F) (speed : F)
  (limits : TorqueRange F)

def inPositionMode : Bool := setpoint.active && decide (setpoint.mode = .position)

/-- Against the stop: at the torque bound in the direction of the run, and slow. -/
def stalled : Bool :=
  let active := t.loop.active
  let homingTorque := active.torqueConstant * active.homingCurrent
  let controller := { t.speed with
    torqueMin := Scalar.max limits.lower (-homingTorque)
    torqueMax := Scalar.min limits.upper homingTorque }.update active.homingSpeed speed active.dt
  let forward : Bool := Scalar.zero < active.homingSpeed
  let bound :=
    if forward then Scalar.min controller.torqueLimit controller.torqueMax
    else -Scalar.max (-controller.torqueLimit) controller.torqueMin
  let push := if forward then controller.output else -controller.output
  Scalar.zero < bound && (0.99 : F) * bound ≤ push &&
    Scalar.abs speed < (0.5 : F) * Scalar.abs active.homingSpeed

theorem updateHoming_begins (asked : t.loop.homingRequests ≠ t.appliedHomingRequests)
    (inside : inPositionMode setpoint = true) :
    t.updateHoming setpoint speed =
      { t with
        appliedHomingRequests := t.loop.homingRequests, homing := .searching, blockedSteps := 0
        holdHome := false, speed := t.speed.reset speed } := by
  simp only [inPositionMode, Bool.and_eq_true, decide_eq_true_eq] at inside
  simp [updateHoming, takeHomingRequest, asked, inside]

theorem updateHoming_goesOn (quiet : t.loop.homingRequests = t.appliedHomingRequests)
    (inside : inPositionMode setpoint = true) : t.updateHoming setpoint speed = t := by
  simp only [inPositionMode, Bool.and_eq_true, decide_eq_true_eq] at inside
  simp [updateHoming, quiet, inside]

theorem updateHoming_outside (outside : inPositionMode setpoint = false) :
    ∃ state applied,
      t.updateHoming setpoint speed =
        { t with
          homing := state, appliedHomingRequests := applied, holdHome := t.holdHome && setpoint.active } ∧
      state ≠ .searching ∧ (t.homing = .searching → state = .fault) ∧ (state = .done → t.homing = .done) := by
  have elsewhere : (setpoint.active && decide (setpoint.mode = .position)) = false := outside
  have refused : (!setpoint.active || decide (setpoint.mode ≠ .position)) = true := by
    cases active : setpoint.active with
    | false => rfl
    | true => simpa [active] using elsewhere
  by_cases asked : t.loop.homingRequests ≠ t.appliedHomingRequests
  · refine ⟨.fault, t.loop.homingRequests, ?_, by decide, fun _ => rfl, by simp⟩
    cases active : setpoint.active with
    | false => simp [updateHoming, takeHomingRequest, asked, active]
    | true =>
      rw [active] at elsewhere refused
      simp_all [updateHoming, takeHomingRequest]
  · by_cases searching : t.homing = .searching
    · refine ⟨.fault, t.appliedHomingRequests, ?_, by decide, fun _ => rfl, by simp⟩
      cases active : setpoint.active with
      | false => simp [updateHoming, asked, searching, active]
      | true =>
        rw [active] at elsewhere refused
        simp_all [updateHoming]
    · refine ⟨t.homing, t.appliedHomingRequests, ?_, searching, fun found => absurd found searching, id⟩
      cases active : setpoint.active with
      | false => simp [updateHoming, asked, searching, active]
      | true => simp [updateHoming, asked, searching, active]

theorem updateHoming_held : (t.updateHoming setpoint speed).heldSetpoint = t.heldSetpoint := by
  unfold updateHoming takeHomingRequest
  simp only
  split_ifs <;> rfl

def entered : OuterThread F :=
  { t.enterMode setpoint speed with
    speed := { (t.enterMode setpoint speed).speed with
      torqueMin := limits.lower, torqueMax := limits.upper } }

theorem entered_kept :
    ∃ controller position,
      t.entered setpoint speed limits =
        { t with speed := controller, position := position, mode := setpoint.mode, wasActive := true } := by
  unfold entered enterMode
  split
  · exact ⟨_, _, rfl⟩
  · exact ⟨_, _, rfl⟩

theorem reference_idle (idle : setpoint.active = false) :
    ∃ controller position,
      (t.reference setpoint speed limits).2 =
        { t with speed := controller, position := position, mode := .torque, wasActive := false } := by
  unfold reference
  rw [if_pos (by simp [idle])]
  exact ⟨_, _, rfl⟩

theorem reference_active (active : setpoint.active = true) :
    t.reference setpoint speed limits =
      let t := t.entered setpoint speed limits
      let active := t.loop.active
      match setpoint.mode with
      | .torque => (setpoint.current, t)
      | .speed =>
        let controller :=
          t.speed.update (Scalar.clamp setpoint.speed active.speedMin active.speedMax) speed active.dt
        (torqueToCurrent active.torqueConstant controller.output, { t with speed := controller })
      | .position =>
        let (torque, t) := t.positionTorque setpoint.position speed limits
        (torqueToCurrent active.torqueConstant torque, t) := by
  have engaged : ¬(!setpoint.active) = true := by simp [active]
  unfold reference
  rw [if_neg engaged]
  rfl

theorem reference_elsewhere (active : setpoint.active = true) (elsewhere : setpoint.mode ≠ .position) :
    ∃ controller position,
      (t.reference setpoint speed limits).2 =
        { t with speed := controller, position := position, mode := setpoint.mode, wasActive := true } := by
  obtain ⟨controller, position, kept⟩ := t.entered_kept setpoint speed limits
  rw [reference_active _ _ _ _ active, kept]
  cases mode : setpoint.mode with
  | torque => exact ⟨_, _, rfl⟩
  | speed => exact ⟨_, _, rfl⟩
  | position => exact absurd mode elsewhere

theorem reference_position (active : setpoint.active = true) (here : setpoint.mode = .position) :
    (t.reference setpoint speed limits).2 =
      ((t.entered setpoint speed limits).positionTorque setpoint.position speed limits).2 := by
  rw [reference_active _ _ _ _ active, here]

theorem positionTorque_follows (target : F) (idle : t.homing ≠ .searching) :
    ∃ controller position,
      (t.positionTorque target speed limits).2 =
        { t with
          speed := controller, position := position
          holdHome := t.holdHome && Scalar.eq target t.heldSetpoint } ∧
      position.posRefRad =
        if t.holdHome && Scalar.eq target t.heldSetpoint then Scalar.zero else target := by
  unfold positionTorque
  rw [if_neg idle]
  exact ⟨_, _, rfl, rfl⟩

def blockedNext : UInt32 := if t.stalled speed limits then t.blockedSteps + 1 else 0

def atHome : Prop :=
  ¬Scalar.ofUInt64 (t.blockedNext speed limits).toUInt64 * t.loop.active.dt < (homingBlockTime : F)

theorem positionTorque_searches (target : F) (searching : t.homing = .searching)
    (early : ¬t.atHome speed limits) :
    ∃ controller,
      (t.positionTorque target speed limits).2 =
        { t with speed := controller, blockedSteps := t.blockedNext speed limits } := by
  unfold positionTorque searchHome
  rw [if_pos searching]
  have begun : Scalar.ofUInt64 (t.searchStep speed limits).blockedSteps.toUInt64 *
      (t.searchStep speed limits).loop.active.dt < homingBlockTime := not_not.mp early
  dsimp only
  rw [if_pos begun]
  exact ⟨_, rfl⟩

theorem positionTorque_completes (target : F) (searching : t.homing = .searching)
    (late : t.atHome speed limits) :
    ∃ controller position,
      (t.positionTorque target speed limits).2 =
        { t with
          speed := controller, position := position, blockedSteps := t.blockedNext speed limits
          tracker := t.tracker.setHome, homing := .done, holdHome := true, heldSetpoint := target } := by
  unfold positionTorque searchHome
  rw [if_pos searching]
  have ended : ¬Scalar.ofUInt64 (t.searchStep speed limits).blockedSteps.toUInt64 *
      (t.searchStep speed limits).loop.active.dt < homingBlockTime := late
  dsimp only
  rw [if_neg ended]
  exact ⟨_, _, rfl⟩

end Stages

section Step

variable {F : Type} [Arithmetic F] (wrap : F → F) (observed : Observed F) (t : OuterThread F)

/-- The step takes up a new search. -/
def begins : Bool := decide (t.loop.homingRequests ≠ t.appliedHomingRequests) && inPositionMode t.loop.setpoint

def engaged : OuterThread F :=
  (t.prepared wrap observed).entered t.loop.setpoint (t.measured wrap observed) (t.range wrap observed)

/-- The step searches in the engaged position mode and finds the shaft stalled. -/
def stalls : Bool :=
  t.hasIsr && inPositionMode t.loop.setpoint && decide ((t.prepared wrap observed).homing = .searching) &&
    (t.engaged wrap observed).stalled (t.measured wrap observed) (t.range wrap observed)

theorem located_loop :
    (t.located wrap observed).loop.homingRequests = t.loop.homingRequests := by
  unfold located
  rw [(trackPosition_aside ..).loop, takeParameters_loop]
  unfold OuterLoop.applyGains OuterLoop.loadParameters
  split <;> split <;> rfl

theorem located_kept :
    (t.located wrap observed).appliedHomingRequests = t.appliedHomingRequests ∧
      (t.located wrap observed).blockedSteps = t.blockedSteps ∧
      (t.located wrap observed).heldSetpoint = t.heldSetpoint := by
  rcases t.located_cases wrap observed with
    ⟨-, loop, speed, position, electrical, tracker, located, -⟩ |
    ⟨-, loop, speed, position, electrical, tracker, located⟩
  · rw [located]
    exact ⟨rfl, rfl, rfl⟩
  · rw [located]
    exact ⟨rfl, rfl, rfl⟩

/-- A step that found the shaft stalled for the block time, and set home. -/
structure SearchEnded (after : OuterThread F) : Prop where
  mode : inPositionMode t.loop.setpoint = true
  done : after.homing = .done
  begun : t.begins = true ∨ (t.located wrap observed).homing = .searching
  blocked : after.blockedSteps =
    if t.stalls wrap observed then (if t.begins then 0 else t.blockedSteps) + 1 else 0
  late : ¬Scalar.ofUInt64 after.blockedSteps.toUInt64 * after.loop.active.dt < (homingBlockTime : F)
  home : after.tracker = (t.located wrap observed).tracker.setHome
  held : after.holdHome = true
  target : after.heldSetpoint = t.loop.setpoint.position

/-- What a step does to the homing run. -/
inductive HomingStep (after : OuterThread F) : Prop
  | outside (mode : inPositionMode t.loop.setpoint = false) (unsearching : after.homing ≠ .searching)
      (aborted : (t.located wrap observed).homing = .searching → after.homing = .fault)
      (kept : after.homing = .done → (t.located wrap observed).homing = .done)
      (home : after.tracker = (t.located wrap observed).tracker)
      (held : after.holdHome = ((t.located wrap observed).holdHome && t.loop.setpoint.active))
      (target : after.heldSetpoint = t.heldSetpoint)
  | follows (mode : inPositionMode t.loop.setpoint = true) (quiet : t.begins = false)
      (idle : after.homing ≠ .searching) (same : after.homing = (t.located wrap observed).homing)
      (home : after.tracker = (t.located wrap observed).tracker)
      (held : after.holdHome =
        ((t.located wrap observed).holdHome && Scalar.eq t.loop.setpoint.position t.heldSetpoint))
      (target : after.heldSetpoint = t.heldSetpoint)
      (reference : after.position.posRefRad =
        if after.holdHome then Scalar.zero else t.loop.setpoint.position)
  | searches (mode : inPositionMode t.loop.setpoint = true) (searching : after.homing = .searching)
      (begun : t.begins = true ∨ (t.located wrap observed).homing = .searching)
      (home : after.tracker = (t.located wrap observed).tracker)
      (blocked : after.blockedSteps =
        if t.stalls wrap observed then (if t.begins then 0 else t.blockedSteps) + 1 else 0)
      (target : after.heldSetpoint = t.heldSetpoint)
  | completes (ended : SearchEnded wrap observed t after)

theorem homingStep_outside (ready : t.hasIsr = true) (outside : inPositionMode t.loop.setpoint = false) :
    HomingStep wrap observed t (t.step wrap observed).2 := by
  obtain ⟨status, after⟩ := t.step_referenced wrap observed ready
  obtain ⟨state, applied, homing, unsearching, aborted, kept⟩ :=
    (t.located wrap observed).updateHoming_outside t.loop.setpoint (t.measured wrap observed) outside
  have target := (t.located_kept wrap observed).2.2
  have referenced : ∃ controller position mode active,
      t.referenced wrap observed =
        { t.prepared wrap observed with
          speed := controller, position := position, mode := mode, wasActive := active } := by
    unfold referenced
    cases engaged : t.loop.setpoint.active with
    | false =>
      obtain ⟨controller, position, idle⟩ := (t.prepared wrap observed).reference_idle t.loop.setpoint
        (t.measured wrap observed) (t.range wrap observed) engaged
      exact ⟨controller, position, _, _, idle⟩
    | true =>
      have elsewhere : t.loop.setpoint.mode ≠ .position := by
        simpa [inPositionMode, engaged] using outside
      obtain ⟨controller, position, made⟩ := (t.prepared wrap observed).reference_elsewhere t.loop.setpoint
        (t.measured wrap observed) (t.range wrap observed) engaged elsewhere
      exact ⟨controller, position, _, _, made⟩
  obtain ⟨controller, position, mode, active, referenced⟩ := referenced
  rw [after, referenced, prepared, homing]
  exact .outside outside unsearching aborted kept rfl rfl target

theorem prepared_inside (inside : inPositionMode t.loop.setpoint = true) :
    (t.begins = true ∧ (t.prepared wrap observed).homing = .searching ∧
      (t.prepared wrap observed).blockedSteps = 0 ∧
      (t.prepared wrap observed).tracker = (t.located wrap observed).tracker ∧
      (t.prepared wrap observed).loop = (t.located wrap observed).loop) ∨
    (t.begins = false ∧ t.prepared wrap observed = t.located wrap observed) := by
  have requests := t.located_loop wrap observed
  have applied := (t.located_kept wrap observed).1
  unfold prepared begins
  rw [inside, Bool.and_true]
  by_cases asked : t.loop.homingRequests ≠ t.appliedHomingRequests
  · left
    rw [updateHoming_begins _ _ _ (by rw [requests, applied]; exact asked) inside]
    exact ⟨decide_eq_true asked, rfl, rfl, rfl, rfl⟩
  · right
    rw [updateHoming_goesOn _ _ _ (by rw [requests, applied]; exact not_not.mp asked) inside]
    exact ⟨decide_eq_false asked, rfl⟩

theorem homingStep_inside (ready : t.hasIsr = true) (inside : inPositionMode t.loop.setpoint = true) :
    HomingStep wrap observed t (t.step wrap observed).2 := by
  obtain ⟨status, after⟩ := t.step_referenced wrap observed ready
  obtain ⟨active, mode⟩ : t.loop.setpoint.active = true ∧ t.loop.setpoint.mode = .position := by
    simpa [inPositionMode] using inside
  obtain ⟨-, blockedSteps, target⟩ := t.located_kept wrap observed
  have referenced : t.referenced wrap observed =
      ((t.engaged wrap observed).positionTorque t.loop.setpoint.position (t.measured wrap observed)
        (t.range wrap observed)).2 :=
    reference_position _ _ _ _ active mode
  obtain ⟨controller, position, entered⟩ := (t.prepared wrap observed).entered_kept t.loop.setpoint
    (t.measured wrap observed) (t.range wrap observed)
  change t.engaged wrap observed = _ at entered
  have prepared := t.prepared_inside wrap observed inside
  by_cases searching : (t.prepared wrap observed).homing = .searching
  · have here : (t.engaged wrap observed).homing = .searching := by
      rw [entered]
      exact searching
    have begun : t.begins = true ∨ (t.located wrap observed).homing = .searching := by
      rcases prepared with ⟨begins, -⟩ | ⟨-, same⟩
      · exact .inl begins
      · exact .inr (same ▸ searching)
    have home : (t.engaged wrap observed).tracker = (t.located wrap observed).tracker := by
      rw [entered]
      rcases prepared with ⟨-, -, -, tracker, -⟩ | ⟨-, same⟩
      · exact tracker
      · rw [same]
    have count : (t.engaged wrap observed).blockedSteps = if t.begins then 0 else t.blockedSteps := by
      rw [entered]
      rcases prepared with ⟨begins, -, zero, -⟩ | ⟨goesOn, same⟩
      · rw [begins]
        exact zero
      · rw [goesOn, same]
        exact blockedSteps
    have held : (t.engaged wrap observed).heldSetpoint = t.heldSetpoint := by
      rw [entered, OuterThread.prepared, updateHoming_held]
      exact target
    have stalls : t.stalls wrap observed =
        (t.engaged wrap observed).stalled (t.measured wrap observed) (t.range wrap observed) := by
      simp [OuterThread.stalls, ready, inside, searching]
    have blocked : (t.engaged wrap observed).blockedNext (t.measured wrap observed) (t.range wrap observed) =
        if t.stalls wrap observed then (if t.begins then 0 else t.blockedSteps) + 1 else 0 := by
      rw [stalls, ← count]
      rfl
    by_cases late : (t.engaged wrap observed).atHome (t.measured wrap observed) (t.range wrap observed)
    · obtain ⟨_, _, ended⟩ := (t.engaged wrap observed).positionTorque_completes (t.measured wrap observed)
        (t.range wrap observed) t.loop.setpoint.position here late
      rw [after, referenced, ended]
      exact .completes ⟨inside, rfl, begun, blocked, late, congrArg PositionTracker.setHome home, rfl, rfl⟩
    · obtain ⟨_, made⟩ := (t.engaged wrap observed).positionTorque_searches (t.measured wrap observed)
        (t.range wrap observed) t.loop.setpoint.position here late
      rw [after, referenced, made]
      exact .searches inside here begun home blocked held
  · rcases prepared with ⟨-, found, -⟩ | ⟨quiet, same⟩
    · exact absurd found searching
    rw [same] at entered searching
    have idle : (t.engaged wrap observed).homing ≠ .searching := by
      rw [entered]
      exact searching
    obtain ⟨_, _, made, reference⟩ := (t.engaged wrap observed).positionTorque_follows
      (t.measured wrap observed) (t.range wrap observed) t.loop.setpoint.position idle
    rw [after, referenced, made]
    rw [entered] at reference ⊢
    rw [target] at reference ⊢
    exact .follows inside quiet searching rfl rfl rfl rfl reference

theorem homingStep (ready : t.hasIsr = true) : HomingStep wrap observed t (t.step wrap observed).2 := by
  cases inside : inPositionMode t.loop.setpoint with
  | false => exact homingStep_outside wrap observed t ready inside
  | true => exact homingStep_inside wrap observed t ready inside

end Step

section Runs

variable {F : Type} [Arithmetic F] (wrap : F → F) (observed : Observed F) (t : OuterThread F)

/-- A control cycle to hand to, a position that is tracked, and no restart of the controller that waits for
the next step. -/
def Running : Prop :=
  t.hasIsr = true ∧ t.loop.parameters.generation = t.loop.active.generation ∧ t.tracking = true

/-- The step ends a search at the stop. -/
def Succeeds : Prop :=
  t.hasIsr = true ∧ (t.begins = true ∨ t.homing ≠ .done) ∧ (t.step wrap observed).2.homing = .done

/-- After any calls and steps since power-on, with any settings and battery limits. -/
def run (trace : List (LoopEvent F)) : OuterThread F :=
  (machine wrap (fun _ => True) fun _ => True).replay trace

@[simp] theorem run_step (past : List (LoopEvent F)) :
    run wrap (.step observed :: past) = ((run wrap past).step wrap observed).2 := rfl

/-- Steps of the newest search that found the shaft stalled, without one between them that did not. -/
def stalledSteps : List (LoopEvent F) → Nat
  | [] => 0
  | .step observed :: past =>
    if !(run wrap past).hasIsr then stalledSteps past
    else if (run wrap past).stalls wrap observed then
      (if (run wrap past).begins then 0 else stalledSteps past) + 1
    else 0
  | _ :: past => stalledSteps past

variable {t} in
theorem located_running (running : t.loop.parameters.generation = t.loop.active.generation) :
    (t.located wrap observed).homing = t.homing ∧ (t.located wrap observed).holdHome = t.holdHome ∧
      (t.tracking = true →
        (t.located wrap observed).tracker.homeOffsetRad = t.tracker.homeOffsetRad) := by
  rcases t.located_cases wrap observed with
    ⟨-, loop, speed, position, electrical, tracker, located, home⟩ | ⟨restarting, -⟩
  · rw [located]
    exact ⟨rfl, rfl, home⟩
  · exact absurd running restarting

variable {wrap observed t} {past : List (LoopEvent F)}

theorem located_state (state : HomingState) (other : state ≠ .idle)
    (found : (t.located wrap observed).homing = state) : t.homing = state := by
  rcases t.located_cases wrap observed with
    ⟨-, loop, speed, position, electrical, tracker, located, -⟩ |
    ⟨-, loop, speed, position, electrical, tracker, located⟩
  · rw [located] at found
    exact found
  · rw [located] at found
    exact absurd found.symm other

theorem counted {steps : Nat} (behind : t.homing = .searching → t.blockedSteps.toNat ≤ steps)
    (begun : t.begins = true ∨ (t.located wrap observed).homing = .searching) :
    (if t.stalls wrap observed then (if t.begins then 0 else t.blockedSteps) + 1 else 0 : UInt32).toNat ≤
      if t.stalls wrap observed then (if t.begins then 0 else steps) + 1 else 0 := by
  have succ_le (n : UInt32) : (n + 1).toNat ≤ n.toNat + 1 := by
    rw [UInt32.toNat_add]
    exact Nat.mod_le _ _
  by_cases stalled : t.stalls wrap observed = true
  · rw [if_pos stalled, if_pos stalled]
    apply (succ_le _).trans
    apply Nat.succ_le_succ
    cases begins : t.begins with
    | true => exact Nat.le_refl 0
    | false =>
      rcases begun with began | searching
      · rw [begins] at began
        cases began
      · exact behind (located_state .searching (by decide) searching)
  · rw [if_neg stalled, if_neg stalled]
    exact Nat.le_refl 0

theorem stalledSteps_ready (ready : (run wrap past).hasIsr = true) :
    stalledSteps wrap (.step observed :: past) =
      if (run wrap past).stalls wrap observed then
        (if (run wrap past).begins then 0 else stalledSteps wrap past) + 1
      else 0 := by
  rw [stalledSteps, ready]
  rfl

theorem blocked_le (trace : List (LoopEvent F)) (searching : (run wrap trace).homing = .searching) :
    (run wrap trace).blockedSteps.toNat ≤ stalledSteps wrap trace := by
  induction trace with
  | nil => exact Nat.zero_le _
  | cons e past ih =>
    cases e with
    | step observed =>
      rw [run_step] at searching ⊢
      cases ready : (run wrap past).hasIsr with
      | false =>
        rw [step_waiting _ _ _ ready] at searching ⊢
        rw [stalledSteps, ready]
        exact ih searching
      | true =>
        rw [stalledSteps_ready ready]
        cases homingStep wrap observed (run wrap past) ready with
        | outside _ unsearching => exact absurd searching unsearching
        | follows _ _ idle => exact absurd searching idle
        | searches _ _ begun _ blocked =>
          rw [blocked]
          exact counted ih begun
        | completes ended =>
          rw [ended.done] at searching
          cases searching
    | init settings => exact ih searching
    | setSetpoint setpoint => exact ih searching
    | setBatteryLimits limits => exact ih searching
    | setGains gains => exact ih searching
    | startHoming => exact ih searching

theorem ended_blocked (ready : (run wrap past).hasIsr = true) {after : OuterThread F}
    (ended : SearchEnded wrap observed (run wrap past) after) :
    after.blockedSteps.toNat ≤ stalledSteps wrap (.step observed :: past) := by
  rw [stalledSteps_ready ready, ended.blocked]
  exact counted (blocked_le past) ended.begun

theorem succeeds_ended (success : t.Succeeds wrap observed) :
    SearchEnded wrap observed t (t.step wrap observed).2 := by
  obtain ⟨ready, fresh, done⟩ := success
  cases homingStep wrap observed t ready with
  | outside mode _ _ kept =>
    have before := located_state .done (by decide) (kept done)
    rcases fresh with began | other
    · rw [begins, mode, Bool.and_false] at began
      cases began
    · exact absurd before other
  | follows _ quiet _ same =>
    have before := located_state .done (by decide) (same ▸ done)
    rcases fresh with began | other
    · rw [quiet] at began
      cases began
    · exact absurd before other
  | searches _ searching =>
    rw [done] at searching
    cases searching
  | completes ended => exact ended

theorem moved_ended (running : t.Running)
    (moved : (t.step wrap observed).2.tracker.homeOffsetRad ≠ t.tracker.homeOffsetRad) :
    SearchEnded wrap observed t (t.step wrap observed).2 := by
  have home := (located_running wrap observed running.2.1).2.2 running.2.2
  cases homingStep wrap observed t running.1 with
  | outside _ _ _ _ same => exact absurd (by rw [same, home]) moved
  | follows _ _ _ _ same => exact absurd (by rw [same, home]) moved
  | searches _ _ _ same => exact absurd (by rw [same, home]) moved
  | completes ended => exact ended

theorem left_faults (running : t.Running) (searching : t.homing = .searching)
    (outside : inPositionMode t.loop.setpoint = false) : (t.step wrap observed).2.homing = .fault := by
  have before := (located_running wrap observed running.2.1).1
  cases homingStep wrap observed t running.1 with
  | outside _ _ aborted => exact aborted (before.trans searching)
  | follows mode | searches mode =>
    rw [outside] at mode
    cases mode
  | completes ended =>
    have mode := ended.mode
    rw [outside] at mode
    cases mode

theorem updateHoming_tracking (setpoint : OuterSetpoint F) (speed : F) :
    (t.updateHoming setpoint speed).tracking = t.tracking := by
  unfold updateHoming takeHomingRequest
  simp only
  split_ifs <;> rfl

theorem reference_tracking (setpoint : OuterSetpoint F) (speed : F) (limits : TorqueRange F) :
    (t.reference setpoint speed limits).2.tracking = t.tracking := by
  obtain ⟨_, _, entered⟩ := t.entered_kept setpoint speed limits
  cases active : setpoint.active with
  | false =>
    obtain ⟨_, _, idle⟩ := t.reference_idle setpoint speed limits active
    rw [idle]
  | true =>
    by_cases here : setpoint.mode = .position
    · rw [reference_position _ _ _ _ active here]
      unfold positionTorque searchHome
      rw [entered]
      split
      · simp only
        split <;> rfl
      · rfl
    · obtain ⟨_, _, made⟩ := t.reference_elsewhere setpoint speed limits active here
      rw [made]

theorem step_tracking (ready : t.hasIsr = true) : (t.step wrap observed).2.tracking = true := by
  obtain ⟨status, after⟩ := t.step_referenced wrap observed ready
  obtain ⟨_, _, located, -⟩ := t.takeParameters.trackPosition_kept wrap observed.electricalAngle
  rw [after]
  unfold referenced prepared
  rw [reference_tracking, updateHoming_tracking]
  unfold OuterThread.located
  rw [located]

variable (wrap observed) in
theorem step_generations (ready : t.hasIsr = true) :
    (t.step wrap observed).2.loop.generation = t.loop.generation ∧
      (t.step wrap observed).2.loop.parameters = t.loop.parameters ∧
      (t.step wrap observed).2.loop.active.generation = t.loop.parameters.generation := by
  rw [t.step_loop wrap observed ready]
  unfold OuterLoop.step OuterLoop.loadParameters OuterLoop.applyGains
  by_cases running : t.loop.parameters.generation = t.loop.active.generation
  · simp only [running, ne_eq, not_true_eq_false, if_false]
    split <;> exact ⟨rfl, rfl, rfl⟩
  · simp only [running, ne_eq, not_false_eq_true, if_true]
    split <;> exact ⟨rfl, rfl, rfl⟩

theorem step_running (ready : t.hasIsr = true) : (t.step wrap observed).2.Running := by
  obtain ⟨-, parameters, active⟩ := step_generations wrap observed ready
  refine ⟨?_, ?_, step_tracking ready⟩
  · rw [step_hasIsr]
    exact ready
  · rw [parameters, active]

/-- The position loop runs towards home. -/
structure Holding (target : F) (t : OuterThread F) : Prop where
  running : t.Running
  idle : t.homing ≠ .searching
  held : t.holdHome = true
  target : t.heldSetpoint = target

/-- What leaves home the target: no restart, no disengaged drive, and in the position mode neither a
new search nor another setpoint. -/
def keepsHome (target : F) (t : OuterThread F) : LoopEvent F → Prop
  | .init _ => False
  | .step _ => t.loop.setpoint.active = true ∧
      (t.loop.setpoint.mode = .position →
        t.begins = false ∧ Scalar.eq t.loop.setpoint.position target = true)
  | _ => True

theorem ended_holding (ready : t.hasIsr = true) {after : OuterThread F}
    (made : (t.step wrap observed).2 = after) (ended : SearchEnded wrap observed t after) :
    Holding t.loop.setpoint.position after := by
  constructor
  · exact made ▸ step_running ready
  · rw [ended.done]
    decide
  · exact ended.held
  · exact ended.target

theorem Holding.step {target : F} (holding : Holding target t) (kept : keepsHome target t (.step observed)) :
    Holding target (t.step wrap observed).2 ∧
      (inPositionMode t.loop.setpoint = true → (t.step wrap observed).2.position.posRefRad = Scalar.zero) := by
  obtain ⟨active, follows⟩ := kept
  obtain ⟨state, hold, -⟩ := located_running wrap observed holding.running.2.1
  have running : (t.step wrap observed).2.Running := step_running holding.running.1
  have position (mode : inPositionMode t.loop.setpoint = true) : t.loop.setpoint.mode = .position := by
    simp only [inPositionMode, Bool.and_eq_true, decide_eq_true_eq] at mode
    exact mode.2
  have noSearch (mode : inPositionMode t.loop.setpoint = true)
      (begun : t.begins = true ∨ (t.located wrap observed).homing = .searching) : False := by
    rcases begun with began | searching
    · rw [(follows (position mode)).1] at began
      cases began
    · exact holding.idle (state ▸ searching)
  cases homingStep wrap observed t holding.running.1 with
  | outside mode unsearching _ _ _ held same =>
    refine ⟨⟨running, unsearching, ?_, same.trans holding.target⟩, ?_⟩
    · rw [held, hold, holding.held, active]
      rfl
    · intro inside
      rw [mode] at inside
      cases inside
  | follows mode _ idle _ _ held same reference =>
    have still : (t.step wrap observed).2.holdHome = true := by
      rw [held, hold, holding.held, holding.target, (follows (position mode)).2]
      rfl
    refine ⟨⟨running, idle, still, same.trans holding.target⟩, ?_⟩
    intro _
    rw [reference, if_pos still]
  | searches mode _ begun => exact absurd begun (noSearch mode)
  | completes ended => exact absurd ended.begun (noSearch ended.mode)

theorem Holding.run {target : F} {base : List (LoopEvent F)} (holding : Holding target (run wrap base))
    (newer : List (LoopEvent F))
    (kept : Runs.Throughout (fun e earlier => keepsHome target (OuterThread.run wrap (earlier ++ base)) e) newer) :
    Holding target (OuterThread.run wrap (newer ++ base)) := by
  induction newer with
  | nil => exact holding
  | cons e earlier ih =>
    obtain ⟨now, before⟩ := (Runs.throughout_cons ..).mp kept
    have held := ih before
    cases e with
    | step observed => exact (held.step now).1
    | init settings => exact absurd now id
    | setSetpoint setpoint => exact ⟨held.running, held.idle, held.held, held.target⟩
    | setBatteryLimits limits => exact ⟨held.running, held.idle, held.held, held.target⟩
    | setGains gains => exact ⟨held.running, held.idle, held.held, held.target⟩
    | startHoming => exact ⟨held.running, held.idle, held.held, held.target⟩

end Runs

end OuterThread

open OuterThread in
/-- The homing run over any calls and steps: it succeeds, and home moves, only when the newest steps of
the search were stalled for the block time; it ends in the fault when the engaged position mode is left;
and home stays the target of the position loop until a restart, a disengaged drive, a new search or
another setpoint. -/
theorem homing_law {F : Type} [Arithmetic F] (wrap : F → F) (past : List (LoopEvent F)) (observed : Observed F) :
    ((run wrap past).Succeeds wrap observed ∨
        ((run wrap past).Running ∧ (run wrap (.step observed :: past)).tracker.homeOffsetRad ≠
          (run wrap past).tracker.homeOffsetRad) →
      ∃ blocked : UInt32, blocked.toNat ≤ stalledSteps wrap (.step observed :: past) ∧
        ¬Scalar.ofUInt64 blocked.toUInt64 * (run wrap (.step observed :: past)).loop.active.dt <
          (homingBlockTime : F)) ∧
    ((run wrap past).Running → (run wrap past).homing = .searching →
      inPositionMode (run wrap past).loop.setpoint = false →
      (run wrap (.step observed :: past)).homing = .fault) ∧
    ((run wrap past).Succeeds wrap observed → ∀ (later : Observed F) (newer : List (LoopEvent F)),
      Runs.Throughout (fun e earlier => keepsHome (run wrap past).loop.setpoint.position
        (run wrap (earlier ++ .step observed :: past)) e) (.step later :: newer) →
      inPositionMode (run wrap (newer ++ .step observed :: past)).loop.setpoint = true →
      (run wrap (.step later :: newer ++ .step observed :: past)).position.posRefRad = Scalar.zero) := by
  refine ⟨?_, ?_, ?_⟩
  · intro found
    have ready : (run wrap past).hasIsr = true := by
      rcases found with success | ⟨running, -⟩
      · exact success.1
      · exact running.1
    have ended : SearchEnded wrap observed (run wrap past) (run wrap (.step observed :: past)) := by
      rcases found with success | ⟨running, moved⟩
      · exact succeeds_ended success
      · exact moved_ended running moved
    exact ⟨_, ended_blocked ready ended, ended.late⟩
  · intro running searching outside
    exact left_faults running searching outside
  · intro success later newer kept inside
    have holding : Holding (run wrap past).loop.setpoint.position (run wrap (.step observed :: past)) :=
      ended_holding success.1 rfl (succeeds_ended success)
    obtain ⟨now, before⟩ := (Runs.throughout_cons ..).mp kept
    exact ((holding.run newer before).step now).2 inside

namespace OuterThread

/-- Nobody restarts the controller, disengages the drive or moves its setpoint. -/
def unmoved {F : Type} (target : F) (t : OuterThread F) : LoopEvent F → Prop
  | .init _ => False
  | .step _ => t.loop.setpoint.active = true ∧ t.loop.setpoint.position = target
  | _ => True

def standing : Observed Binary32 := ⟨0.0, 0.0, 36.0⟩

def engage (mode : ControlMode) : LoopEvent Binary32 := .setSetpoint ⟨true, mode, .zero, 0.0, 1.0⟩

def firstSearch : List (LoopEvent Binary32) :=
  List.replicate 129 (.step standing) ++ [.startHoming, engage .position, .init .default]

def secondSearch : List (LoopEvent Binary32) :=
  [engage .position, .step standing, engage .speed, .step standing, .startHoming]

end OuterThread

open OuterThread in
/-- After a second search that failed, the target of the position loop is the setpoint and not home. -/
theorem second_search_leaves_home :
    validate .default simCapabilities = .success ∧ (run id firstSearch).Succeeds id standing ∧
      Runs.Throughout (fun e earlier => unmoved (run id firstSearch).loop.setpoint.position
        (run id (earlier ++ .step standing :: firstSearch)) e) (.step standing :: secondSearch) ∧
      inPositionMode (run id (secondSearch ++ .step standing :: firstSearch)).loop.setpoint = true ∧
      (run id (.step standing :: secondSearch ++ .step standing :: firstSearch)).position.posRefRad ≠
        Scalar.zero := by
  have ends : (run id firstSearch).hasIsr = true ∧ (run id firstSearch).homing ≠ .done ∧
      ((run id firstSearch).step id standing).2.homing = .done ∧
      (run id firstSearch).loop.setpoint.position = 1.0 ∧
      (run id (.step standing :: firstSearch)).loop.setpoint = ⟨true, .position, .zero, 0.0, 1.0⟩ ∧
      (run id (.step standing :: secondSearch ++ .step standing :: firstSearch)).position.posRefRad ≠
        Scalar.zero := by
    decide +kernel
  obtain ⟨ready, fresh, done, target, first, moved⟩ := ends
  have still (mode : ControlMode) (earlier : List (LoopEvent Binary32)) :
      unmoved 1.0 (run id (engage mode :: earlier)) (.step standing) := ⟨rfl, rfl⟩
  have searches (earlier : List (LoopEvent Binary32))
      (same : (run id earlier).loop.setpoint = ⟨true, .position, .zero, 0.0, 1.0⟩) :
      unmoved 1.0 (run id (.startHoming :: earlier)) (.step standing) := by
    have engaged : (run id earlier).loop.setpoint.active = true ∧
        (run id earlier).loop.setpoint.position = 1.0 := by
      rw [same]
      exact ⟨rfl, rfl⟩
    exact engaged
  rw [target]
  have accepted : validate .default simCapabilities = .success := by decide +kernel
  have mode (earlier : List (LoopEvent Binary32)) :
      inPositionMode (run id (engage .position :: earlier)).loop.setpoint = true := rfl
  refine ⟨accepted, ⟨ready, .inr fresh, done⟩, ?_, mode _, moved⟩
  refine (Runs.throughout_cons ..).mpr ⟨still .position _, (Runs.throughout_cons ..).mpr ⟨trivial, ?_⟩⟩
  refine (Runs.throughout_cons ..).mpr ⟨still .speed _, (Runs.throughout_cons ..).mpr ⟨trivial, ?_⟩⟩
  exact (Runs.throughout_cons ..).mpr
    ⟨searches (.step standing :: firstSearch) first, (Runs.throughout_cons ..).mpr ⟨trivial, Runs.throughout_nil _⟩⟩

end Unimoc.CurrentControl
