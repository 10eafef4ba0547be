import Unimoc.Startup.Sampled

/-! A run of the startup aid visits the steps in their order, and every step is left by a
request of its own. -/
namespace Unimoc.Startup

open CurrentControl Firmware Runs

variable {F : Type} [Arithmetic F]

/-- What a call does to the state and to the request. -/
inductive Moved (call : Call F) (before : HwStartup F) : Answer → HwStartup F → Prop
  | stays {answer : Answer} {after : HwStartup F} (refused : answer ≠ .next .accepted)
      (unstarted : answer ≠ .start .started) (state : after.state = before.state)
      (requested : after.nextStepRequested = before.nextStepRequested)
      (measured : before.stepDone = true → after.stepDone = true) : Moved call before answer after
  | accepted {after : HwStartup F} (active : before.isActive = true) (measured : before.stepDone = true)
      (state : after.state = before.state) (done : after.stepDone = true) :
      Moved call before (.next .accepted) after
  | started {after : HwStartup F} (inactive : before.isActive = false)
      (state : after.state = .pwmDisable) (unasked : after.nextStepRequested = false) :
      Moved call before (.start .started) after
  | stopped {answer : Answer} {after : HwStartup F} (refused : answer ≠ .next .accepted)
      (unstarted : answer ≠ .start .started)
      (state : after.state = .fault ∨ before.isActive = false ∧ after.state = .idle)
      (asked : after.Asked) : Moved call before answer after
  | advanced {after : HwStartup F} (sampled : call = .runOnce) (active : before.isActive = true)
      (asked : before.nextStepRequested = true) (state : after.state = before.state.next)
      (unasked : after.nextStepRequested = false) : Moved call before .none after

namespace HwStartup

variable {fsm : HwStartup F}

theorem requestRun_moved (b : Board F) :
    Moved .requestRun fsm (.start (fsm.requestRun b).1) (fsm.requestRun b).2.1 := by
  unfold requestRun
  cases active : fsm.isActive with
  | true => exact .stays nofun (by simp) rfl rfl id
  | false =>
    dsimp only
    rw [if_neg Bool.false_ne_true]
    split
    · exact .stopped nofun (by simp) (.inr ⟨active, rfl⟩) nofun
    · exact .started active rfl rfl

theorem requestNextStep_moved (motorConnected : Bool) :
    Moved (.requestNextStep motorConnected) fsm (.next (fsm.requestNextStep motorConnected).1)
      (fsm.requestNextStep motorConnected).2 := by
  have measured (active : fsm.isActive = true) :
      let answer : StartupContinue × HwStartup F :=
        if !fsm.stepDone then (.measuring, fsm) else (.accepted, { fsm with nextStepRequested := true })
      Moved (.requestNextStep motorConnected) fsm (.next answer.1) answer.2 := by
    cases measured : fsm.stepDone with
    | false => exact .stays (by simp) nofun rfl rfl id
    | true => exact .accepted active measured rfl rfl
  unfold requestNextStep
  split
  · exact .stays (by simp) nofun rfl rfl id
  · rename_i inactive
    have active : fsm.isActive = true := by simpa using inactive
    dsimp only
    cases fsm.needs with
    | dcLinkVoltage => exact .stays (by simp) nofun rfl rfl id
    | phaseCurrent => exact .stays (by simp) nofun rfl rfl id
    | motorConnected =>
      cases motorConnected with
      | false => exact .stays (by simp) nofun rfl rfl id
      | true => exact measured active
    | none =>
      cases motorConnected with
      | false => exact measured active
      | true => exact .stays (by simp) nofun rfl rfl id

theorem requestAbort_moved (reason : StartupFault) (b : Board F) (asked : fsm.Asked) :
    Moved (.requestAbort reason) fsm .none (fsm.requestAbort reason b).1 := by
  unfold requestAbort
  split
  · exact .stays nofun nofun rfl rfl id
  · exact .stopped nofun nofun (.inl rfl) asked

theorem runOnce_moved (asked : fsm.Asked) (b : Board F) :
    Moved .runOnce fsm .none (fsm.runOnce b).1 := by
  have ends {after : HwStartup F} (stopped : Stopped fsm after) : Moved .runOnce fsm .none after := by
    refine .stopped nofun nofun (.inl stopped.state) fun requested => ?_
    exact stopped.measured.trans (asked (stopped.requested ▸ requested))
  have sampled := runOnce_sampled asked b
  generalize (fsm.runOnce b).1 = after at sampled
  obtain ⟨-, stopped⟩ | sampled := sampled
  · exact ends stopped
  cases sampled with
  | same => exact .stays nofun nofun rfl rfl id
  | working unmeasured still within =>
    exact .stays nofun nofun within.state within.requested fun done => absurd done (by simp [unmeasured])
  | measured unmeasured done within =>
    exact .stays nofun nofun within.state within.requested fun _ => done
  | barred _ stopped => exact ends stopped
  | advanced left goesOn state => exact .advanced rfl left.active left.asked state left.unasked
  | ended left last state =>
    rcases state with state | state
    · exact .advanced rfl left.active left.asked (state.trans last.symm) left.unasked
    · exact .stopped nofun nofun (.inl state) fun requested => absurd requested (by simp [left.unasked])

theorem call_moved (asked : fsm.Asked) (call : Call F) (b : Board F) :
    Moved call fsm (fsm.call call b).1 (fsm.call call b).2.1 := by
  cases call with
  | requestRun => exact requestRun_moved b
  | requestNextStep motorConnected => exact requestNextStep_moved motorConnected
  | requestAbort reason => exact requestAbort_moved reason b asked
  | setExtCurrent current => exact .stays nofun nofun rfl rfl id
  | setExtVdc voltage => exact .stays nofun nofun rfl rfl id
  | runOnce => exact runOnce_moved asked b

end HwStartup

namespace Moment

variable (m : Moment F)

def starts : Bool := m.answer = .start .started

def accepts : Bool := m.answer = .next .accepted

/-- The step before is left for the next one. -/
def advances : Bool := m.before.isActive && m.after.state = m.before.state.next

end Moment

/-- The moments of the present run, or of the last one. -/
def currentRun (past : List (Moment F)) : List (Moment F) := past.takeWhile fun m => !m.starts

def advancesIn (past : List (Moment F)) : Nat := (currentRun past).countP Moment.advances

def acceptedIn (past : List (Moment F)) : Nat := (currentRun past).countP Moment.accepts

/-- A request was accepted in the step once it had measured, and the step is active since. -/
def ContinuedIn (state : FsmState) (past : List (Moment F)) : Prop :=
  ∃ recent m older, past = recent ++ m :: older ∧ m.accepts = true ∧ m.before.state = state ∧
    m.before.stepDone = true ∧ ∀ r ∈ recent, r.before.state = state ∧ r.after.state = state

/-- What may become of the state at a moment. -/
structure InOrder (m : Moment F) (past : List (Moment F)) : Prop where
  leaves : m.before.isActive = true → m.after.state ≠ m.before.state → m.after.state = .fault ∨
    m.call = .runOnce ∧ m.after.state = m.before.state.next ∧ ContinuedIn m.before.state past
  enters : m.before.isActive = false → m.after.isActive = true →
    m.starts = true ∧ m.after.state = .pwmDisable

section Past

variable {m : Moment F} {past : List (Moment F)}

theorem advancesIn_cons : advancesIn (m :: past) =
    if m.starts then 0 else advancesIn past + if m.advances then 1 else 0 := by
  unfold advancesIn currentRun
  cases started : m.starts with
  | true => simp [started]
  | false => simp [started, List.countP_cons]

theorem acceptedIn_cons : acceptedIn (m :: past) =
    if m.starts then 0 else acceptedIn past + if m.accepts then 1 else 0 := by
  unfold acceptedIn currentRun
  cases started : m.starts with
  | true => simp [started]
  | false => simp [started, List.countP_cons]

theorem ContinuedIn.cons {state : FsmState} (continued : ContinuedIn state past)
    (before : m.before.state = state) (after : m.after.state = state) :
    ContinuedIn state (m :: past) := by
  obtain ⟨recent, c, older, rfl, accepted, at', measured, since⟩ := continued
  refine ⟨m :: recent, c, older, rfl, accepted, at', measured, fun r listed => ?_⟩
  obtain rfl | listed := List.mem_cons.mp listed
  · exact ⟨before, after⟩
  · exact since r listed

theorem next_ne_fault {state : FsmState} (active : state.active = true) : state.next ≠ .fault := by
  cases state <;> first | decide | exact absurd active (by decide)

theorem next_ne {state : FsmState} (active : state.active = true) : state.next ≠ state := by
  cases state <;> first | decide | exact absurd active (by decide)

end Past

/-- The present state rests on the moments that led to it. -/
structure Ordered (s : Session F) : Prop where
  asked : s.fsm.Asked
  continued : s.fsm.isActive = true → s.fsm.nextStepRequested = true → ContinuedIn s.fsm.state s.past
  position : s.fsm.isActive = true → s.fsm.state.index.val = advancesIn s.past + 1
  count : advancesIn s.past + (s.fsm.isActive && s.fsm.nextStepRequested).toNat ≤ acceptedIn s.past
  order : Throughout InOrder s.past

theorem Ordered.start (board : Board F) : Ordered (.start board) where
  asked := nofun
  continued := nofun
  position := nofun
  count := Nat.le_refl 0
  order := throughout_nil _

section Next

variable {s : Session F} (ordered : Ordered s) (m : Moment F) (board : Board F)

include ordered

theorem Ordered.stays (before : m.before = s.fsm) (starts : m.starts = false)
    (accepts : m.accepts = false) (state : m.after.state = m.before.state)
    (requested : m.after.nextStepRequested = m.before.nextStepRequested)
    (measured : m.before.stepDone = true → m.after.stepDone = true) :
    Ordered ⟨m.after, board, m :: s.past⟩ := by
  have active : m.after.isActive = m.before.isActive := by simp only [HwStartup.isActive, state]
  have advances : m.advances = false := by
    cases running : m.before.isActive with
    | false => simp [Moment.advances, running]
    | true => simpa [Moment.advances, running, state] using (next_ne running).symm
  exact
    { asked := fun request => measured (before ▸ ordered.asked (before ▸ requested ▸ request))
      continued := fun running request => by
        have continued := ordered.continued (before ▸ active ▸ running) (before ▸ requested ▸ request)
        rw [← before, ← state] at continued
        exact continued.cons state.symm rfl
      position := fun running => by
        have position := ordered.position (before ▸ active ▸ running)
        rw [← before, ← state] at position
        simpa [advancesIn_cons, starts, advances] using position
      count := by
        have count := ordered.count
        rw [← before, ← active, ← requested] at count
        simpa [advancesIn_cons, acceptedIn_cons, starts, advances, accepts] using count
      order := (throughout_cons ..).mpr ⟨⟨fun _ changed => absurd state changed,
        fun stopped running => absurd (active ▸ running) (by simp [stopped])⟩, ordered.order⟩ }

theorem Ordered.accepted (before : m.before = s.fsm) (starts : m.starts = false)
    (accepts : m.accepts = true) (active : m.before.isActive = true)
    (measured : m.before.stepDone = true) (state : m.after.state = m.before.state)
    (done : m.after.stepDone = true) : Ordered ⟨m.after, board, m :: s.past⟩ := by
  have advances : m.advances = false := by
    simpa [Moment.advances, active, state] using (next_ne active).symm
  exact
    { asked := fun _ => done
      continued := fun _ _ => ⟨[], m, s.past, rfl, accepts, state.symm, measured,
        fun r listed => absurd listed List.not_mem_nil⟩
      position := fun _ => by
        have position := ordered.position (before ▸ active)
        rw [← before, ← state] at position
        simpa [advancesIn_cons, starts, advances] using position
      count := by
        have count := ordered.count
        have bound := Bool.toNat_le (m.after.isActive && m.after.nextStepRequested)
        simp only [advancesIn_cons, acceptedIn_cons, starts, advances, accepts, ↓reduceIte,
          Bool.false_eq_true]
        omega
      order := (throughout_cons ..).mpr ⟨⟨fun _ changed => absurd state changed,
        fun stopped => absurd active (by simp [stopped])⟩, ordered.order⟩ }

theorem Ordered.started (starts : m.starts = true) (inactive : m.before.isActive = false)
    (state : m.after.state = .pwmDisable) (unasked : m.after.nextStepRequested = false) :
    Ordered ⟨m.after, board, m :: s.past⟩ where
  asked request := absurd request (by simp [unasked])
  continued _ request := absurd request (by simp [unasked])
  position _ := by simp [advancesIn_cons, starts, state, FsmState.index]
  count := by simp [advancesIn_cons, starts, unasked]
  order := (throughout_cons ..).mpr
    ⟨⟨fun active => absurd active (by simp [inactive]), fun _ _ => ⟨starts, state⟩⟩, ordered.order⟩

theorem Ordered.stopped (starts : m.starts = false) (accepts : m.accepts = false)
    (state : m.after.state = .fault ∨ m.before.isActive = false ∧ m.after.state = .idle)
    (asked : m.after.Asked) : Ordered ⟨m.after, board, m :: s.past⟩ := by
  have idle : m.after.isActive = false := by
    rcases state with state | ⟨-, state⟩ <;> simp [HwStartup.isActive, FsmState.active, state]
  have advances : m.advances = false := by
    cases running : m.before.isActive with
    | false => simp [Moment.advances, running]
    | true =>
      rcases state with state | ⟨inactive, -⟩
      · simpa [Moment.advances, running, state] using (next_ne_fault running).symm
      · exact absurd running (by simp [inactive])
  exact
    { asked := asked
      continued := fun running => absurd running (by simp [idle])
      position := fun running => absurd running (by simp [idle])
      count := by
        have count := ordered.count
        simp only [advancesIn_cons, acceptedIn_cons, starts, advances, accepts, idle, ↓reduceIte,
          Bool.false_eq_true, Bool.false_and, Bool.toNat_false]
        omega
      order := (throughout_cons ..).mpr ⟨⟨fun active _ => .inl (by
        rcases state with state | ⟨inactive, -⟩
        · exact state
        · exact absurd active (by simp [inactive])),
        fun _ running => absurd running (by simp [idle])⟩, ordered.order⟩ }

theorem Ordered.advanced (before : m.before = s.fsm) (starts : m.starts = false)
    (accepts : m.accepts = false) (sampled : m.call = .runOnce) (active : m.before.isActive = true)
    (asked : m.before.nextStepRequested = true) (state : m.after.state = m.before.state.next)
    (unasked : m.after.nextStepRequested = false) : Ordered ⟨m.after, board, m :: s.past⟩ := by
  have advances : m.advances = true := by simp [Moment.advances, active, state]
  exact
    { asked := fun request => absurd request (by simp [unasked])
      continued := fun _ request => absurd request (by simp [unasked])
      position := fun _ => by
        have position := ordered.position (before ▸ active)
        rw [← before] at position
        simp only [advancesIn_cons, starts, advances, ↓reduceIte, Bool.false_eq_true]
        rw [state, next_index active, position]
      count := by
        have count := ordered.count
        rw [← before, active, asked] at count
        simpa [advancesIn_cons, acceptedIn_cons, starts, advances, accepts, unasked] using count
      order := (throughout_cons ..).mpr
        ⟨⟨fun _ _ => .inr ⟨sampled, state, before ▸ ordered.continued (before ▸ active) (before ▸ asked)⟩,
          fun inactive => absurd active (by simp [inactive])⟩, ordered.order⟩ }

theorem Ordered.next (step : Step F) : Ordered (s.next step) := by
  have moved := HwStartup.call_moved ordered.asked step.call (step.meets s.board)
  unfold Session.next
  generalize s.fsm.call step.call (step.meets s.board) = result at moved
  obtain ⟨answer, after, board⟩ := result
  dsimp only at moved ⊢
  cases moved with
  | stays refused unstarted state requested measured =>
    exact ordered.stays ⟨s.fsm, step.call, answer, after⟩ board rfl (decide_eq_false unstarted)
      (decide_eq_false refused) state requested measured
  | accepted active measured state done =>
    exact ordered.accepted ⟨s.fsm, step.call, .next .accepted, after⟩ board rfl rfl rfl active
      measured state done
  | started inactive state unasked =>
    exact ordered.started ⟨s.fsm, step.call, .start .started, after⟩ board rfl inactive state unasked
  | stopped refused unstarted state asked =>
    exact ordered.stopped ⟨s.fsm, step.call, answer, after⟩ board (decide_eq_false unstarted)
      (decide_eq_false refused) state asked
  | advanced sampled active asked state unasked =>
    exact ordered.advanced ⟨s.fsm, step.call, .none, after⟩ board rfl rfl rfl sampled active asked
      state unasked

end Next

theorem Ordered.run {s : Session F} (ordered : Ordered s) (steps : List (Step F)) :
    Ordered (s.run steps) := by
  induction steps generalizing s with
  | nil => exact ordered
  | cons step rest ih => exact ih (ordered.next step)

/-- A run visits the steps in their order, one at a time, leaves each on a request of its own,
and advances no more often than it was asked to. -/
theorem steps_in_order (board : Board F) (steps : List (Step F)) :
    let s := (Session.start board).run steps
    Throughout InOrder s.past ∧
      (s.fsm.isActive = true → s.fsm.state.index.val = advancesIn s.past + 1) ∧
      advancesIn s.past ≤ acceptedIn s.past := by
  have ordered := (Ordered.start board).run steps
  exact ⟨ordered.order, ordered.position, Nat.le_of_add_right_le ordered.count⟩

end Unimoc.Startup
