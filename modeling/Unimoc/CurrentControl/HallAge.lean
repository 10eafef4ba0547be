import Unimoc.CurrentControl.HallFused
import Unimoc.Lib.WrappingClock

/-! The age of the last Hall edge, from timestamps that wrap, over pauses in which no cycle runs
the observer. -/
namespace Unimoc.CurrentControl

open WrappingClock

namespace HallFusion

section Bound

variable {F : Type} [Arithmetic F] (wrap : F → Id F) (tickPeriod : F)

/-- The age that bounds the speed, if any does. -/
def usedAge (fused : Progress F) (reference : UInt32) : Option Int32 :=
  match sector fused.codeAtReference with
  | none => none
  | some _ =>
    let ticks := ticksSince (fused.hall.agedChange reference).lastChange reference
    if ticks ≤ 0 then none else some ticks

/-- One sector in the time since the last change, twice over; past the standstill time no speed. -/
def boundSpeed (sinceChange rSector : F) (obs : MechanicalObserver F) : Id (MechanicalObserver F) := do
  let limit := sectorWidth / sinceChange * 2.0
  let speed := obs.omega
  let obs ←
    (if limit < speed || speed < -limit then
      let target := if Scalar.zero < speed then limit else -limit
      obs.updateSpeed wrap (target - speed) (rSector / (sinceChange * sinceChange))
    else pure obs)
  pure (if standstillTime < sinceChange then obs.holdStill else obs)

/-- The observer after the sector of the code and a bound by an age. -/
def boundedBy (fused : Progress F) (age : Option Int32) : Id (MechanicalObserver F) :=
  match sector fused.codeAtReference with
  | none => pure fused.obs
  | some inside => do
    let (hall, obs) ← fuseSector wrap inside fused.hall fused.obs
    match age with
    | none => pure obs
    | some ticks => boundSpeed wrap (tickPeriod * ofInt32 ticks) hall.rSector obs

variable {wrap tickPeriod}

omit [Arithmetic F] in
theorem agedChange_flags (reference : UInt32) (hall : HallFusion F) :
    ({ hall with valid := true, started := true }.agedChange reference).lastChange =
        (hall.agedChange reference).lastChange ∧
      ({ hall with valid := true, started := true }.agedChange reference).rSector = hall.rSector := by
  unfold agedChange
  dsimp only
  split_ifs with older
  · exact ⟨rfl, rfl⟩
  · exact ⟨rfl, rfl⟩

theorem fuseSpeed_bounded (reference : UInt32) (hall : HallFusion F) (obs : MechanicalObserver F) :
    (fuseSpeed wrap reference tickPeriod hall obs).run.2 =
      if ticksSince (hall.agedChange reference).lastChange reference ≤ 0 then obs
      else
        (boundSpeed wrap (tickPeriod * ofInt32 (ticksSince (hall.agedChange reference).lastChange reference))
          (hall.agedChange reference).rSector obs).run := by
  unfold fuseSpeed
  dsimp only
  by_cases early : ticksSince (hall.agedChange reference).lastChange reference ≤ 0
  · rw [if_pos early, if_pos early]
    rfl
  · rw [if_neg early, if_neg early]
    rfl

theorem update_bounded (events : List HallEvent) (reference : UInt32) (hall : HallFusion F)
    (obs : MechanicalObserver F) :
    (hall.update wrap events reference tickPeriod obs).run.2 =
      (boundedBy wrap tickPeriod (fusedEvents events reference hall obs wrap tickPeriod)
        (usedAge (fusedEvents events reference hall obs wrap tickPeriod) reference)).run := by
  unfold update fuseCodes boundedBy usedAge fusedEvents
  simp only [Id.run_bind]
  generalize (events.foldlM (fuseEvent wrap reference tickPeriod) ⟨hall, obs, hall.code⟩).run = now
  cases found : sector now.codeAtReference with
  | none => rfl
  | some inside =>
    obtain ⟨kept, noise⟩ := agedChange_flags reference now.hall
    change (fuseSpeed wrap reference tickPeriod { now.hall with valid := true, started := true }
      (fuseSector wrap inside now.hall now.obs).run.2).run.2 = _
    rw [fuseSpeed_bounded, kept, noise]
    by_cases early : ticksSince (now.hall.agedChange reference).lastChange reference ≤ 0
    · simp only [if_pos early]
      rfl
    · simp only [if_neg early]
      rfl

end Bound

end HallFusion

/-- An event with the true time of its capture. -/
structure TimedEvent where
  code : UInt8
  time : ℤ
deriving DecidableEq

def TimedEvent.captured (event : TimedEvent) : HallEvent := ⟨event.code, stamp event.time⟩

/-- True times of the fusion: the last change of the code, and from where its age counts. -/
structure HallTimes where
  code : UInt8
  changed : ℤ
  counted : ℤ

namespace HallTimes

def maxAge : ℤ := 2 ^ 30

/-- The second component is the code at the reference. -/
def fuseEvent (reference : ℤ) (now : HallTimes × UInt8) (event : TimedEvent) : HallTimes × UInt8 :=
  if event.code = now.1.code then now
  else (⟨event.code, event.time, event.time⟩, if event.time ≤ reference then event.code else now.2)

def fused (events : List TimedEvent) (reference : ℤ) (times : HallTimes) : HallTimes × UInt8 :=
  events.foldl (fuseEvent reference) (times, times.code)

def update (events : List TimedEvent) (reference : ℤ) (times : HallTimes) : HallTimes :=
  let now := times.fused events reference
  if (HallFusion.sector now.2).isSome then { now.1 with counted := refreshed maxAge reference now.1.counted } else now.1

/-- The true age of the last change where it bounds the speed: saturated, after the change, with a valid
code. -/
def age (events : List TimedEvent) (reference : ℤ) (times : HallTimes) : Option ℤ :=
  let now := times.fused events reference
  if (HallFusion.sector now.2).isSome ∧ now.1.changed < reference then some (min (reference - now.1.changed) maxAge)
  else none

/-- Every event that changes the code is near the reference. -/
def Prompt (reference : ℤ) : HallTimes × UInt8 → List TimedEvent → Prop
  | _, [] => True
  | now, event :: events =>
    (event.code ≠ now.1.code → Near event.time reference) ∧ Prompt reference (fuseEvent reference now event) events

instance decidablePrompt (reference : ℤ) : ∀ now events, Decidable (Prompt reference now events)
  | _, [] => inferInstanceAs (Decidable True)
  | now, event :: events =>
    have := decidablePrompt reference (fuseEvent reference now event) events
    inferInstanceAs (Decidable (_ ∧ _))

theorem counts_fused {times : HallTimes × UInt8} {reference : ℤ}
    (counts : Counts maxAge times.1.changed times.1.counted reference) (events : List TimedEvent) :
    Counts maxAge (events.foldl (fuseEvent reference) times).1.changed
      (events.foldl (fuseEvent reference) times).1.counted reference := by
  induction events generalizing times with
  | nil => exact counts
  | cons event events ih =>
    apply ih
    unfold fuseEvent
    by_cases same : event.code = times.1.code
    · rw [if_pos same]
      exact counts
    · rw [if_neg same]
      exact .inl rfl

end HallTimes

namespace HallFusion

section Follows

variable {F : Type} [Arithmetic F] {wrap : F → Id F} {tickPeriod : F} {reference : ℤ}

/-- The fusion holds the code and the stamp of the true times. -/
structure Follows (now : Progress F) (times : HallTimes × UInt8) : Prop where
  code : now.hall.code = times.1.code
  lastChange : now.hall.lastChange = stamp times.1.counted
  codeAtReference : now.codeAtReference = times.2

theorem ticksSince_near {earlier : ℤ} (near : Near earlier reference) :
    (ticksSince (stamp earlier) (stamp reference)).toInt = reference - earlier := toInt_sub near

theorem Follows.event {now : Progress F} {times : HallTimes × UInt8} (follows : Follows now times)
    {event : TimedEvent} (near : event.code ≠ times.1.code → Near event.time reference) :
    Follows (fuseEvent wrap (stamp reference) tickPeriod now event.captured).run
      (HallTimes.fuseEvent reference times event) := by
  unfold HallTimes.fuseEvent
  by_cases same : event.code = times.1.code
  · rw [if_pos same, fuseEvent_same (same.trans follows.code.symm : event.captured.code = _)]
    exact follows
  · have other : event.captured.code ≠ now.hall.code := fun kept => same (kept.trans follows.code)
    rw [if_neg same]
    refine ⟨fuseEvent_code other, fuseEvent_lastChange other, ?_⟩
    have ordered : 0 ≤ ticksSince event.captured.timestamp (stamp reference) ↔ event.time ≤ reference := by
      rw [Int32.le_iff_toInt_le]
      change (0 : ℤ) ≤ (ticksSince (stamp event.time) (stamp reference)).toInt ↔ _
      rw [ticksSince_near (near same)]
      omega
    rw [fuseEvent_atReference other, follows.codeAtReference]
    simp only [ordered]
    rfl

theorem Follows.events {now : Progress F} {times : HallTimes × UInt8} (follows : Follows now times)
    {events : List TimedEvent} (prompt : HallTimes.Prompt reference times events) :
    Follows ((events.map TimedEvent.captured).foldlM (fuseEvent wrap (stamp reference) tickPeriod) now).run
      (events.foldl (HallTimes.fuseEvent reference) times) := by
  induction events generalizing now times with
  | nil => exact follows
  | cons event events ih => exact ih (follows.event prompt.1) prompt.2

omit [Arithmetic F] in
/-- While the stamps are near, the age is cut as the true one. -/
theorem agedChange_near {hall : HallFusion F} {counted : ℤ} (stamped : hall.lastChange = stamp counted)
    (near : Near counted reference) :
    (hall.agedChange (stamp reference)).lastChange = stamp (refreshed HallTimes.maxAge reference counted) := by
  have older : maxAgeTicks < ticksSince hall.lastChange (stamp reference) ↔ HallTimes.maxAge < reference - counted := by
    rw [Int32.lt_iff_toInt_lt, stamped, ticksSince_near near]
    rfl
  unfold agedChange refreshed
  simp only [older]
  split_ifs with old
  · exact stamp_sub reference HallTimes.maxAge
  · exact stamped

theorem refreshed_near {counted : ℤ} (near : Near counted reference) :
    Near (refreshed HallTimes.maxAge reference counted) reference := by
  unfold refreshed
  split_ifs with older
  · unfold Near HallTimes.maxAge
    omega
  · exact near

omit [Arithmetic F] in
theorem Follows.usedAge {now : Progress F} {times : HallTimes × UInt8} (follows : Follows now times)
    (counts : Counts HallTimes.maxAge times.1.changed times.1.counted reference)
    (near : (sector times.2).isSome → Near times.1.counted reference) :
    (usedAge now (stamp reference)).map Int32.toInt =
      if (sector times.2).isSome ∧ times.1.changed < reference then
        some (min (reference - times.1.changed) HallTimes.maxAge)
      else none := by
  unfold HallFusion.usedAge
  rw [follows.codeAtReference]
  cases valid : sector times.2 with
  | none => rfl
  | some inside =>
    have near := near (by rw [valid]; rfl)
    have ticks : (ticksSince (now.hall.agedChange (stamp reference)).lastChange (stamp reference)).toInt =
        min (reference - times.1.changed) HallTimes.maxAge := by
      rw [agedChange_near follows.lastChange near, ticksSince_near (refreshed_near near), counts.age]
    have later : ticksSince (now.hall.agedChange (stamp reference)).lastChange (stamp reference) ≤ 0 ↔
        ¬times.1.changed < reference := by
      rw [Int32.le_iff_toInt_le, ticks]
      change min (reference - times.1.changed) (2 ^ 30) ≤ 0 ↔ _
      omega
    simp only [later, Option.isSome_some, true_and]
    by_cases before : times.1.changed < reference
    · simp only [before, not_true_eq_false, if_true, if_false, Option.map_some, ticks]
    · simp only [before, not_false_eq_true, if_true, if_false, Option.map_none]

end Follows

end HallFusion

/-- A control cycle. It runs the observer unless a trip is latched or duties are forced. -/
structure HallClockStep (F : Type) where
  reference : ℤ
  tripped : Bool
  forced : Bool
  events : List TimedEvent
  obs : MechanicalObserver F

/-- The fusion beside the true times, and the time of the newest cycle. -/
structure HallClock (F : Type) where
  hall : HallFusion F
  times : HallTimes
  reference : ℤ

namespace HallClock

variable {F : Type} [Arithmetic F] (wrap : F → Id F) (tickPeriod : F)

def fused (step : HallClockStep F) (s : HallClock F) : HallFusion.Progress F :=
  HallFusion.fusedEvents (step.events.map TimedEvent.captured) (stamp step.reference) s.hall step.obs wrap tickPeriod

def usedAge (step : HallClockStep F) (s : HallClock F) : Option Int32 :=
  HallFusion.usedAge (s.fused wrap tickPeriod step) (stamp step.reference)

def update (step : HallClockStep F) (s : HallClock F) : HallFusion F × MechanicalObserver F :=
  (s.hall.update wrap (step.events.map TimedEvent.captured) (stamp step.reference) tickPeriod step.obs).run

def next (s : HallClock F) (step : HallClockStep F) : HallClock F :=
  if step.tripped || step.forced then { s with reference := step.reference }
  else ⟨(s.update wrap tickPeriod step).1, s.times.update step.events step.reference, step.reference⟩

def machine (hall : HallFusion F) (first : ℤ) : Runs.Machine (HallClock F) (HallClockStep F) where
  start := ⟨hall.reset, ⟨0, 0, 0⟩, first⟩
  next := next wrap tickPeriod
  admits s step := s.reference ≤ step.reference

/-- In a cycle that runs the observer, the changes of the code are near the reference, and so is the time
from which the age of a valid code counts. -/
def InTime (s : HallClock F) (step : HallClockStep F) : Prop :=
  (step.tripped || step.forced) = false →
    HallTimes.Prompt step.reference (s.times, s.times.code) step.events ∧
      ((HallFusion.sector (s.times.fused step.events step.reference).2).isSome →
        Near (s.times.fused step.events step.reference).1.counted step.reference)

instance (s : HallClock F) (step : HallClockStep F) : Decidable (InTime s step) :=
  inferInstanceAs (Decidable (_ → _))

/-- A cycle that runs the observer bounds the speed by the true age. -/
def AgeTrue (s : HallClock F) (step : HallClockStep F) : Prop :=
  (step.tripped || step.forced) = false →
    (s.usedAge wrap tickPeriod step).map Int32.toInt = s.times.age step.events step.reference

structure Consistent (s : HallClock F) : Prop where
  code : s.hall.code = s.times.code
  lastChange : s.hall.lastChange = stamp s.times.counted
  counts : Counts HallTimes.maxAge s.times.changed s.times.counted s.reference

variable {wrap tickPeriod}

section Steps

variable {s : HallClock F} (consistent : Consistent s) {step : HallClockStep F} (inTime : InTime s step)
  (runs : (step.tripped || step.forced) = false)
include consistent inTime runs

theorem Consistent.follows :
    HallFusion.Follows (s.fused wrap tickPeriod step) (s.times.fused step.events step.reference) := by
  have start : HallFusion.Follows ⟨s.hall, step.obs, s.hall.code⟩ (s.times, s.times.code) :=
    ⟨consistent.code, consistent.lastChange, consistent.code⟩
  exact start.events (inTime runs).1

theorem Consistent.ageTrue (later : s.reference ≤ step.reference) :
    (s.usedAge wrap tickPeriod step).map Int32.toInt = s.times.age step.events step.reference := by
  have counts := @HallTimes.counts_fused (s.times, s.times.code) _ (consistent.counts.later later) step.events
  exact (consistent.follows inTime runs).usedAge counts (inTime runs).2

theorem Consistent.update (later : s.reference ≤ step.reference) :
    Consistent (⟨(s.update wrap tickPeriod step).1, s.times.update step.events step.reference, step.reference⟩ :
      HallClock F) := by
  have follows : HallFusion.Follows (s.fused wrap tickPeriod step) (s.times.fused step.events step.reference) :=
    consistent.follows inTime runs
  have counts := @HallTimes.counts_fused (s.times, s.times.code) _ (consistent.counts.later later) step.events
  have near := (inTime runs).2
  have updated : (s.update wrap tickPeriod step).1 = _ :=
    HallFusion.update_fused (step.events.map TimedEvent.captured) (stamp step.reference) s.hall step.obs
  change HallFusion.Follows (HallFusion.fusedEvents _ _ s.hall step.obs wrap tickPeriod) _ at follows
  rw [follows.codeAtReference] at updated
  rw [updated]
  unfold HallTimes.update
  dsimp only
  cases valid : HallFusion.sector (s.times.fused step.events step.reference).2 with
  | none => exact ⟨follows.code, follows.lastChange, counts⟩
  | some inside =>
    rw [valid] at near
    refine ⟨(HallFusion.agedChange_code ..).1.trans follows.code, ?_, counts.refresh⟩
    exact (HallFusion.agedChange_flags ..).1.trans (HallFusion.agedChange_near follows.lastChange (near rfl))

end Steps

theorem Consistent.next {s : HallClock F} (consistent : Consistent s) {step : HallClockStep F}
    (later : s.reference ≤ step.reference) (inTime : InTime s step) : Consistent (s.next wrap tickPeriod step) := by
  unfold HallClock.next
  by_cases paused : (step.tripped || step.forced) = true
  · rw [if_pos paused]
    exact ⟨consistent.code, consistent.lastChange, consistent.counts.later later⟩
  · rw [if_neg paused]
    exact consistent.update inTime (Bool.not_eq_true _ ▸ paused) later

theorem consistent (hall : HallFusion F) (first : ℤ) (trace : List (HallClockStep F))
    (legal : (machine wrap tickPeriod hall first).Legal trace)
    (inTime : Runs.Throughout (fun step past => InTime ((machine wrap tickPeriod hall first).replay past) step) trace) :
    Consistent ((machine wrap tickPeriod hall first).replay trace) := by
  refine Runs.Machine.invariant_under _ (fun s _ => Consistent s) ⟨rfl, rfl, .inl rfl⟩ ?_ trace legal inTime
  exact fun step past kept later inTime => kept.next later inTime

end HallClock

section Bench

noncomputable def benchClock : Runs.Machine (HallClock ℝ) (HallClockStep ℝ) :=
  HallClock.machine wrapNear (1 / 170000000) blankHall 0

instance (s : HallClock ℝ) (step : HallClockStep ℝ) : Decidable (benchClock.admits s step) :=
  inferInstanceAs (Decidable (s.reference ≤ step.reference))

noncomputable def cycleAt (reference : ℤ) (events : List TimedEvent) : HallClockStep ℝ :=
  ⟨reference, false, false, events, blankObserver⟩

/-- Newest first: an edge 1000 ticks before its cycle, then tripped cycles up to the given time. -/
noncomputable def paused (stop : ℤ) : List (HallClockStep ℝ) :=
  [⟨stop, true, false, [], blankObserver⟩, cycleAt 2000 [⟨1, 1000⟩]]

end Bench

open HallClock in
/-- In every run whose cycles find the last change near enough, with pauses between them, the age that
bounds the speed is the true one, saturated, and it bounds the speed whenever it is positive. -/
theorem edge_ages_true {F : Type} [Arithmetic F] (wrap : F → Id F) (tickPeriod : F) (hall : HallFusion F) (first : ℤ) :
    (∀ (s : HallClock F) (step : HallClockStep F), (s.update wrap tickPeriod step).2 =
      (HallFusion.boundedBy wrap tickPeriod (s.fused wrap tickPeriod step) (s.usedAge wrap tickPeriod step)).run) ∧
    ∀ trace, (machine wrap tickPeriod hall first).Legal trace →
      Runs.Throughout (fun step past => InTime ((machine wrap tickPeriod hall first).replay past) step) trace →
      Runs.Throughout
        (fun step past => AgeTrue wrap tickPeriod ((machine wrap tickPeriod hall first).replay past) step) trace := by
  constructor
  · exact fun s step => HallFusion.update_bounded ..
  · refine Runs.Machine.throughout_under _ (fun s _ => Consistent s) _ (consistent hall first) ?_
    exact fun step past kept later inTime runs => kept.ageTrue inTime runs later

open HallClock in
/-- 12.6 s after the edge. -/
theorem edge_ages_true_paused :
    benchClock.Legal (cycleAt (1000 + 2 ^ 31 - 1) [] :: paused (2 ^ 31)) ∧
      (((benchClock.replay (paused (2 ^ 31))).usedAge wrapNear (1 / 170000000)
        (cycleAt (1000 + 2 ^ 31 - 1) [])).map Int32.toInt = some (2 ^ 30)) := by
  have legal : benchClock.Legal (cycleAt (1000 + 2 ^ 31 - 1) [] :: paused (2 ^ 31)) := by decide
  have inTime : Runs.Throughout (fun step past => InTime (benchClock.replay past) step)
      (cycleAt (1000 + 2 ^ 31 - 1) [] :: paused (2 ^ 31)) := by decide
  have ages := (edge_ages_true wrapNear (1 / 170000000) blankHall 0).2 _ legal inTime
  refine ⟨legal, (((Runs.throughout_cons ..).mp ages).1 rfl).trans ?_⟩
  decide

open HallClock in
/-- The same edge 12.6 s later is taken for a future one, and 25 s later for one of 5 ticks ago. -/
theorem old_edge_misjudged :
    (benchClock.Legal (cycleAt (1000 + 2 ^ 31) [] :: paused (2 ^ 31)) ∧
      (benchClock.replay (paused (2 ^ 31))).times.age [] (1000 + 2 ^ 31) = some (2 ^ 30) ∧
      (benchClock.replay (paused (2 ^ 31))).usedAge wrapNear (1 / 170000000) (cycleAt (1000 + 2 ^ 31) []) = none) ∧
    benchClock.Legal (cycleAt (1000 + 2 ^ 32 + 5) [] :: paused (2 ^ 32)) ∧
      (benchClock.replay (paused (2 ^ 32))).times.age [] (1000 + 2 ^ 32 + 5) = some (2 ^ 30) ∧
      (benchClock.replay (paused (2 ^ 32))).usedAge wrapNear (1 / 170000000) (cycleAt (1000 + 2 ^ 32 + 5) []) =
        some 5 := by
  refine ⟨⟨?_, ?_, ?_⟩, ?_, ?_, ?_⟩
  all_goals decide

end Unimoc.CurrentControl
