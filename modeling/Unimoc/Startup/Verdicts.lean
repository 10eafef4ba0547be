import Unimoc.Startup.Sampled
import Mathlib.Data.BitVec

/-! The verdicts the status reports: a step is failed when its check is, and a verdict once
reported stays for the run. -/
namespace Unimoc.Startup

open CurrentControl Firmware

/-! ### Sets of steps -/

section Sets

variable (set other : UInt32) (step : FsmState)

theorem bit_toBitVec : (HwStartup.bit step).toBitVec = BitVec.twoPow 32 step.index.val := by
  cases step <;> rfl

theorem has_eq : has set step = set.toBitVec.getLsbD step.index.val := by
  have inside : (set &&& HwStartup.bit step).toBitVec =
      if set.toBitVec.getLsbD step.index.val then BitVec.twoPow 32 step.index.val else 0#32 := by
    rw [UInt32.toBitVec_and, bit_toBitVec, BitVec.and_twoPow]
  unfold has
  cases member : set.toBitVec.getLsbD step.index.val with
  | false =>
    have none : set &&& HwStartup.bit step = 0 := UInt32.toBitVec_inj.mp (by simpa [member] using inside)
    simp [none]
  | true =>
    have some : set &&& HwStartup.bit step ≠ 0 := fun none => by
      have one : BitVec.twoPow 32 step.index.val ≠ 0#32 := by cases step <;> decide
      rw [none, member, if_pos rfl] at inside
      exact one inside.symm
    simpa using some

@[simp] theorem has_or : has (set ||| other) step = (has set step || has other step) := by
  simp [has_eq]

@[simp] theorem has_sub : has (set &&& ~~~other) step = (has set step && !has other step) := by
  have inside : step.index.val < 32 := by cases step <;> decide
  simp [has_eq, inside]

@[simp] theorem has_bit (state : FsmState) : has (HwStartup.bit state) step = decide (step = state) := by
  cases state <;> cases step <;> rfl

@[simp] theorem has_zero : has 0 step = false := by
  cases step <;> rfl

theorem and_sub : set &&& (other &&& ~~~set) = 0 := by
  apply UInt32.toBitVec_inj.mp
  ext i inside
  cases member : set.toBitVec[i] <;> simp [member]

theorem has_shift (i : Fin numStartupSteps) :
    has (1 <<< i.val.toUInt32) step = decide (i = step.index) := by
  revert i
  cases step <;> decide

end Sets

namespace HwStartup

variable {F : Type} [Arithmetic F]

omit [Arithmetic F] in
theorem has_passedSet (results : StartupResults F) (step : FsmState) :
    has (passedSet results) step = results.passed.get step.index := by
  have folded (states : List (Fin numStartupSteps)) (set : UInt32) :
      has (states.foldl
        (fun set i => if results.passed.get i then set ||| 1 <<< i.val.toUInt32 else set) set) step =
        (has set step || states.any fun i => results.passed.get i && i = step.index) := by
    induction states generalizing set with
    | nil => simp
    | cons i rest ih =>
      rw [List.foldl_cons, ih]
      cases passed : results.passed.get i with
      | false => simp [passed]
      | true => simp [passed, has_shift, Bool.or_assoc]
  refine (folded _ _).trans ?_
  rw [has_zero, Bool.false_or, Bool.eq_iff_iff, List.any_eq_true]
  constructor
  · rintro ⟨i, -, found⟩
    obtain ⟨passed, rfl⟩ : results.passed.get i = true ∧ i = step.index := by simpa using found
    exact passed
  · exact fun passed => ⟨step.index, List.mem_finRange _, by simpa using passed⟩

/-- A step is finished when it was left, or has measured and waits. -/
def finished (fsm : HwStartup F) (step : FsmState) : Bool :=
  has fsm.completed step || fsm.isActive && fsm.stepDone && decide (step = fsm.state)

variable (fsm : HwStartup F)

theorem has_passed (step : FsmState) : has fsm.status.passed step = fsm.results.passed.get step.index :=
  has_passedSet fsm.results step

theorem has_failed (step : FsmState) :
    has fsm.status.failed step = (fsm.finished step && !fsm.results.passed.get step.index) := by
  rw [← has_passed]
  simp only [status, has_sub]
  split
  · rename_i measured
    simp [finished, measured]
  · rename_i unmeasured
    simp [finished, unmeasured]

theorem status_disjoint : fsm.status.passed &&& fsm.status.failed = 0 := and_sub _ _

/-! ### Judged states -/

/-- The first step has measured and waits: its verdict comes with its end. -/
def Waiting (fsm : HwStartup F) : Prop :=
  fsm.isActive = true ∧ fsm.stepDone = true ∧ fsm.state = .pwmDisable

/-- The present step has measured and its check has failed. -/
def failing (fsm : HwStartup F) : Bool :=
  fsm.isActive && fsm.stepDone && decide (fsm.state ≠ .pwmDisable) && !fsm.results.passed.get fsm.state.index

/-- The steps behind are finished, the finished ones are judged by their checks. -/
structure Judged (fsm : HwStartup F) : Prop where
  asked : fsm.Asked
  behind : ∀ step, has fsm.completed step = true → step.index < fsm.state.index
  passes : fsm.isActive = true → ∀ step : FsmState, fsm.results.passed.get step.index = true →
    fsm.finished step = true
  judged : ∀ step : FsmState, fsm.finished step = true → ¬(fsm.Waiting ∧ step = .pwmDisable) →
    fsm.results.passed.get step.index = fsm.check step

/-- A verdict of the present run is kept: a pass as such, a fail as a finished step. -/
def KeepsVerdicts (before after : HwStartup F) : Prop :=
  ∀ step : FsmState, (before.results.passed.get step.index = true → after.results.passed.get step.index = true) ∧
    (before.finished step = true → before.results.passed.get step.index = false → step ≠ .pwmDisable →
      after.finished step = true ∧ after.results.passed.get step.index = false)

theorem KeepsVerdicts.trans {before between after : HwStartup F}
    (first : KeepsVerdicts before between) (second : KeepsVerdicts between after) :
    KeepsVerdicts before after := fun step =>
  ⟨fun passed => (second step).1 ((first step).1 passed), fun finished failed checked => by
    obtain ⟨finished, failed⟩ := (first step).2 finished failed checked
    exact (second step).2 finished failed checked⟩

theorem last_step {state : FsmState} (active : state.active = true) (last : state.next = .done) :
    state = .currentSenseCalibration := by
  revert active last
  cases state <;> decide

theorem index_injective {first second : FsmState} (same : first.index.val = second.index.val) :
    first = second := by
  cases first <;> cases second <;> first | rfl | exact absurd same (by decide)

section Calls

variable {fsm after : HwStartup F}

theorem Judged.fresh (unasked : fsm.nextStepRequested = false) (unmeasured : fsm.stepDone = false)
    (completed : fsm.completed = 0)
    (passed : fsm.results.passed = Vector.replicate numStartupSteps false) : fsm.Judged := by
  have clear (step : FsmState) : fsm.finished step = false := by
    simp [finished, completed, unmeasured]
  refine ⟨fun asked => absurd asked (by simp [unasked]), ?_, ?_, ?_⟩
  · intro step left
    simp [completed] at left
  · intro _ step pass
    have none : (Vector.replicate numStartupSteps false).get step.index = false :=
      Vector.getElem_replicate step.index.isLt
    rw [passed, none] at pass
    cases pass
  · intro step finished
    simp [clear] at finished

/-- Calls that leave the verdicts and what they rest on alone. -/
structure Unjudged (before after : HwStartup F) : Prop where
  asked : after.Asked
  state : after.state = before.state
  measured : after.stepDone = before.stepDone
  completed : after.completed = before.completed
  passed : after.results.passed = before.results.passed
  checks : ∀ step, after.check step = before.check step

theorem Unjudged.finished (same : Unjudged fsm after) (step : FsmState) :
    after.finished step = fsm.finished step := by
  simp only [HwStartup.finished, HwStartup.isActive, same.completed, same.measured, same.state]

theorem Judged.unjudged (judged : fsm.Judged) (same : Unjudged fsm after) :
    after.Judged ∧ KeepsVerdicts fsm after := by
  have active : after.isActive = fsm.isActive := by simp only [HwStartup.isActive, same.state]
  refine ⟨⟨same.asked, ?_, ?_, ?_⟩, ?_⟩
  · rw [same.completed, same.state]
    exact judged.behind
  · intro running step passed
    rw [same.passed] at passed
    rw [same.finished]
    exact judged.passes (active ▸ running) step passed
  · intro step finished settled
    rw [same.passed, same.checks]
    refine judged.judged step (same.finished step ▸ finished) fun waiting => settled ⟨?_, waiting.2⟩
    exact ⟨active ▸ waiting.1.1, same.measured ▸ waiting.1.2.1, same.state ▸ waiting.1.2.2⟩
  · intro step
    rw [same.passed, same.finished]
    exact ⟨id, fun finished failed _ => ⟨finished, failed⟩⟩

theorem runOnce_inactive (inactive : fsm.isActive = false) (b : Board F) :
    (fsm.runOnce b).1 = fsm := by
  have still (b : Board F) : (fsm.runStep b).1 = fsm := by
    unfold runStep
    cases state : fsm.state <;> first | rfl | exact absurd inactive (by simp [isActive, FsmState.active, state])
  unfold runOnce stageLost
  simp only [inactive, Bool.false_and, Bool.false_eq_true, ↓reduceIte]
  split
  · rfl
  · exact still _

theorem Judged.working (judged : fsm.Judged) (unmeasured : fsm.stepDone = false)
    (still : after.stepDone = false) (within : Within fsm after)
    (passed : after.results.passed = fsm.results.passed) : after.Judged ∧ KeepsVerdicts fsm after := by
  have active : after.isActive = fsm.isActive := by simp only [isActive, within.state]
  have finished (step : FsmState) : after.finished step = fsm.finished step := by
    simp [HwStartup.finished, within.completed, unmeasured, still]
  refine ⟨⟨fun asked => ?_, ?_, ?_, ?_⟩, ?_⟩
  · exact absurd (judged.asked (within.requested ▸ asked)) (by simp [unmeasured])
  · rw [within.completed, within.state]
    exact judged.behind
  · intro running step pass
    rw [finished]
    exact judged.passes (active ▸ running) step (passed ▸ pass)
  · intro step done _
    rw [finished] at done
    have left : has fsm.completed step = true := by simpa [HwStartup.finished, unmeasured] using done
    rw [passed, within.checks step (judged.behind step left)]
    exact judged.judged step done fun waiting => absurd waiting.1.2.1 (by simp [unmeasured])
  · intro step
    rw [passed, finished]
    exact ⟨id, fun done failed _ => ⟨done, failed⟩⟩

theorem Judged.measured (judged : fsm.Judged) (active : fsm.isActive = true)
    (unmeasured : fsm.stepDone = false) (done : after.stepDone = true) (within : Within fsm after)
    (passed : after.results.passed = if fsm.state = .pwmDisable then fsm.results.passed
      else (fsm.results.pass fsm.state (after.check fsm.state)).passed) :
    after.Judged ∧ KeepsVerdicts fsm after := by
  have running : after.isActive = true := by simpa only [isActive, within.state] using active
  have finished (step : FsmState) :
      after.finished step = (has fsm.completed step || decide (step = fsm.state)) := by
    simp [HwStartup.finished, within.completed, within.state, running, done]
  have unfinished (step : FsmState) : fsm.finished step = has fsm.completed step := by
    simp [HwStartup.finished, unmeasured]
  have other (step : FsmState) (different : step ≠ fsm.state) :
      after.results.passed.get step.index = fsm.results.passed.get step.index := by
    rw [passed]
    split
    · rfl
    · exact Vector.getElem_set_ne fsm.state.index.isLt step.index.isLt fun same =>
        different (index_injective same.symm)
  have ahead (step : FsmState) (left : has fsm.completed step = true) : step ≠ fsm.state := by
    rintro rfl
    exact absurd (judged.behind _ left) (Nat.lt_irrefl _)
  refine ⟨⟨fun _ => done, ?_, ?_, ?_⟩, ?_⟩
  · rw [within.completed, within.state]
    exact judged.behind
  · intro _ step pass
    rw [finished]
    by_cases present : step = fsm.state
    · simp [present]
    · rw [other step present] at pass
      rw [← unfinished, judged.passes active step pass]
      rfl
  · intro step done' settled
    rw [finished] at done'
    by_cases present : step = fsm.state
    · subst present
      rw [passed, if_neg fun first => settled ⟨⟨running, done, within.state.trans first⟩, first⟩]
      exact Vector.getElem_set_self _
    · have left : has fsm.completed step = true := by simpa [present] using done'
      rw [other step present, within.checks step (judged.behind step left)]
      exact judged.judged step (unfinished step ▸ left) fun waiting =>
        absurd waiting.1.2.1 (by simp [unmeasured])
  · intro step
    have kept (left : has fsm.completed step = true) := other step (ahead step left)
    refine ⟨fun pass => ?_, fun left failed _ => ?_⟩
    · rw [kept (unfinished step ▸ judged.passes active step pass)]
      exact pass
    · rw [unfinished] at left
      exact ⟨by rw [finished, left]; rfl, (kept left).trans failed⟩

/-- A step that is left keeps its verdict; the first one passes. -/
theorem Judged.left (judged : fsm.Judged) (left : Left fsm after) (ahead : fsm.state.index < after.state.index)
    (closed : after.isActive = true → after.stepDone = false) :
    after.Judged ∧ KeepsVerdicts fsm after := by
  have running := left.active
  have finished (step : FsmState) : after.finished step = fsm.finished step := by
    cases active : after.isActive with
    | false => simp [HwStartup.finished, active, left.completed, running, left.measured]
    | true => simp [HwStartup.finished, closed active, left.completed, running, left.measured]
  have kept (step : FsmState) (checked : step ≠ .pwmDisable) :
      after.results.passed.get step.index = fsm.results.passed.get step.index := by
    rw [left.passed]
    split
    · exact Vector.getElem_set_ne FsmState.pwmDisable.index.isLt step.index.isLt fun same =>
        checked (index_injective same.symm)
    · rfl
  have first (leaving : fsm.state = .pwmDisable) :
      after.results.passed.get FsmState.pwmDisable.index = true := by
    rw [left.passed, if_pos leaving]
    exact Vector.getElem_set_self FsmState.pwmDisable.index.isLt
  have later (leaving : fsm.state ≠ .pwmDisable) (step : FsmState) :
      after.results.passed.get step.index = fsm.results.passed.get step.index := by
    rw [left.passed, if_neg leaving]
  refine ⟨⟨fun asked => absurd asked (by simp [left.unasked]), ?_, ?_, ?_⟩, ?_⟩
  · intro step done
    rw [left.completed, has_or, has_bit, Bool.or_eq_true] at done
    obtain behind | present := done
    · exact (judged.behind step behind).trans ahead
    · rw [of_decide_eq_true present]
      exact ahead
  · intro _ step pass
    rw [finished]
    by_cases leaving : fsm.state = .pwmDisable
    · by_cases checked : step = .pwmDisable
      · simp [HwStartup.finished, running, left.measured, checked, leaving]
      · exact judged.passes running step (kept step checked ▸ pass)
    · exact judged.passes running step (later leaving step ▸ pass)
  · intro step done _
    rw [finished] at done
    rw [left.checks]
    by_cases leaving : fsm.state = .pwmDisable
    · by_cases checked : step = .pwmDisable
      · subst checked
        exact first leaving
      · rw [kept step checked]
        exact judged.judged step done fun waiting => checked waiting.2
    · rw [later leaving]
      exact judged.judged step done fun waiting => leaving waiting.1.2.2
  · refine fun step => ⟨fun pass => ?_, fun done failed checked =>
      ⟨finished step ▸ done, (kept step checked).trans failed⟩⟩
    by_cases checked : step = .pwmDisable
    · subst checked
      by_cases leaving : fsm.state = .pwmDisable
      · exact first leaving
      · exact (later leaving _).trans pass
    · exact (kept step checked).trans pass

theorem Judged.stopped (judged : fsm.Judged) (stopped : Stopped fsm after) :
    after.Judged ∧ (fsm.failing = false → KeepsVerdicts fsm after) := by
  have ended : after.isActive = false := by simp [isActive, FsmState.active, stopped.state]
  have finished (step : FsmState) : after.finished step = has fsm.completed step := by
    simp [HwStartup.finished, ended, stopped.completed]
  refine ⟨⟨fun asked => ?_, ?_, ?_, ?_⟩, ?_⟩
  · exact stopped.measured.trans (judged.asked (stopped.requested ▸ asked))
  · intro step done
    rw [stopped.completed] at done
    have last : fsm.state.index ≤ after.state.index := by
      rw [stopped.state]
      exact Fin.le_last _
    exact lt_of_lt_of_le (judged.behind step done) last
  · exact fun running => absurd running (by simp [ended])
  · intro step done _
    rw [finished] at done
    have behind := judged.behind step done
    rw [stopped.passed, stopped.checks step behind]
    refine judged.judged step (by simp [HwStartup.finished, done]) fun waiting => ?_
    rw [waiting.2, waiting.1.2.2] at behind
    exact absurd behind (Nat.lt_irrefl _)
  · intro settled step
    rw [stopped.passed, finished]
    refine ⟨id, fun done failed checked => ⟨?_, failed⟩⟩
    cases left : has fsm.completed step with
    | true => rfl
    | false =>
      obtain ⟨measured, rfl⟩ : fsm.stepDone = true ∧ step = fsm.state := by
        simpa [HwStartup.finished, left, stopped.active] using done
      exact absurd settled (by simp [HwStartup.failing, stopped.active, measured, checked, failed])

theorem runOnce_judged (judged : fsm.Judged) (b : Board F) :
    (fsm.runOnce b).1.Judged ∧
      (fsm.failing = false ∨ fsm.halts b = false → KeepsVerdicts fsm (fsm.runOnce b).1) := by
  cases active : fsm.isActive with
  | false =>
    rw [runOnce_inactive active]
    exact ⟨judged, fun _ step => ⟨id, fun finished failed _ => ⟨finished, failed⟩⟩⟩
  | true =>
    have sampled := runOnce_sampled judged.asked b
    generalize (fsm.runOnce b).1 = after at sampled ⊢
    obtain ⟨halts, stopped⟩ | sampled := sampled
    · obtain ⟨next, kept⟩ := judged.stopped stopped
      exact ⟨next, fun settled => kept (settled.resolve_right (by simp [halts]))⟩
    cases sampled with
    | same => exact ⟨judged, fun _ step => ⟨id, fun finished failed _ => ⟨finished, failed⟩⟩⟩
    | working unmeasured still within passed =>
      obtain ⟨next, kept⟩ := judged.working unmeasured still within passed
      exact ⟨next, fun _ => kept⟩
    | measured unmeasured done within passed =>
      obtain ⟨next, kept⟩ := judged.measured active unmeasured done within passed
      exact ⟨next, fun _ => kept⟩
    | barred state stopped =>
      obtain ⟨next, kept⟩ := judged.stopped stopped
      refine ⟨next, fun _ => kept ?_⟩
      cases measured : fsm.stepDone with
      | false => simp [failing, measured]
      | true =>
        have pass := judged.judged fsm.state (by simp [finished, active, measured])
          fun waiting => absurd waiting.2 (by simp [state])
        have check : fsm.check fsm.state = true := by rw [state]; rfl
        simp [failing, pass, check]
    | advanced left goesOn state fresh =>
      have ahead : fsm.state.index.val < after.state.index.val := by
        rw [state, next_index active]
        exact Nat.lt_succ_self _
      obtain ⟨next, kept⟩ := judged.left left ahead fun _ => fresh
      exact ⟨next, fun _ => kept⟩
    | ended left last state =>
      have idle : after.isActive = false := by
        rcases state with state | state <;> simp [isActive, FsmState.active, state]
      have ahead : fsm.state.index < after.state.index := by
        have present : fsm.state = .currentSenseCalibration := last_step active last
        rcases state with state | state <;> rw [present, state] <;> decide
      obtain ⟨next, kept⟩ := judged.left left ahead fun running => absurd running (by simp [idle])
      exact ⟨next, fun _ => kept⟩

/-- No other run is asked for, and nothing ends the run while its present step is failed. -/
def Undisturbed (call : Call F) (fsm : HwStartup F) (b : Board F) : Prop :=
  match call with
  | .requestRun => fsm.isActive = true
  | .requestAbort _ => fsm.failing = false
  | .runOnce => fsm.failing = false ∨ fsm.halts b = false
  | .requestNextStep _ | .setExtCurrent _ | .setExtVdc _ => True

theorem Unjudged.refl (asked : fsm.Asked) : Unjudged fsm fsm :=
  ⟨asked, rfl, rfl, rfl, rfl, fun _ => rfl⟩

theorem requestRun_judged (judged : fsm.Judged) (b : Board F) :
    (fsm.requestRun b).2.1.Judged ∧
      (fsm.isActive = true → KeepsVerdicts fsm (fsm.requestRun b).2.1) := by
  unfold requestRun
  cases active : fsm.isActive with
  | true =>
    obtain ⟨next, kept⟩ := judged.unjudged (.refl judged.asked)
    exact ⟨next, fun _ => kept⟩
  | false =>
    refine ⟨?_, nofun⟩
    dsimp only
    rw [if_neg Bool.false_ne_true]
    split
    · exact .fresh rfl rfl rfl rfl
    · exact .fresh rfl rfl rfl rfl

theorem requestNextStep_judged (judged : fsm.Judged) (motorConnected : Bool) :
    (fsm.requestNextStep motorConnected).2.Judged ∧
      KeepsVerdicts fsm (fsm.requestNextStep motorConnected).2 := by
  refine judged.unjudged ?_
  have same := Unjudged.refl judged.asked
  have measured : Unjudged fsm
      (if !fsm.stepDone then ((.measuring, fsm) : StartupContinue × HwStartup F)
        else (.accepted, { fsm with nextStepRequested := true })).2 := by
    cases measured : fsm.stepDone with
    | false => exact same
    | true => exact ⟨fun _ => rfl, rfl, measured.symm, rfl, rfl, fun step => by cases step <;> rfl⟩
  unfold requestNextStep
  split
  · exact same
  · cases fsm.needs with
    | dcLinkVoltage => exact same
    | phaseCurrent => exact same
    | motorConnected =>
      cases motorConnected with
      | false => exact same
      | true => exact measured
    | none =>
      cases motorConnected with
      | false => exact measured
      | true => exact same

theorem call_judged (judged : fsm.Judged) (call : Call F) (b : Board F) :
    (fsm.call call b).2.1.Judged ∧
      (Undisturbed call fsm b → KeepsVerdicts fsm (fsm.call call b).2.1) := by
  cases call with
  | requestRun => exact requestRun_judged judged b
  | requestNextStep motorConnected =>
    obtain ⟨next, kept⟩ := requestNextStep_judged judged motorConnected
    exact ⟨next, fun _ => kept⟩
  | requestAbort reason =>
    simp only [HwStartup.call, requestAbort]
    split
    · obtain ⟨next, kept⟩ := judged.unjudged (.refl judged.asked)
      exact ⟨next, fun _ => kept⟩
    · rename_i running
      exact judged.stopped (enterFault_stopped (by simpa using running) reason b)
  | setExtCurrent current =>
    have same : Unjudged fsm (fsm.setExtCurrent current) :=
      ⟨judged.asked, rfl, rfl, rfl, rfl, fun step => by cases step <;> rfl⟩
    obtain ⟨next, kept⟩ := judged.unjudged same
    exact ⟨next, fun _ => kept⟩
  | setExtVdc voltage =>
    have same : Unjudged fsm (fsm.setExtVdc voltage) :=
      ⟨judged.asked, rfl, rfl, rfl, rfl, fun step => by cases step <;> rfl⟩
    obtain ⟨next, kept⟩ := judged.unjudged same
    exact ⟨next, fun _ => kept⟩
  | runOnce => exact runOnce_judged judged b

end Calls

end HwStartup

/-- The verdict a status reports of a step. -/
def StartupStatus.verdict (status : StartupStatus) (step : FsmState) : Option Bool :=
  if has status.passed step then some true else if has status.failed step then some false else none

variable {F : Type} [Arithmetic F]

theorem HwStartup.KeepsVerdicts.verdict {before after : HwStartup F}
    (kept : HwStartup.KeepsVerdicts before after) (judged : before.Judged) (settled : ¬before.Waiting)
    {step : FsmState} {verdict : Bool} (reported : before.status.verdict step = some verdict) :
    after.status.verdict step = some verdict := by
  unfold StartupStatus.verdict at reported ⊢
  rw [has_passed, has_failed] at reported ⊢
  obtain ⟨passes, fails⟩ := kept step
  cases passed : before.results.passed.get step.index with
  | true =>
    rw [passed, if_pos rfl] at reported
    rw [passes passed, if_pos rfl]
    exact reported
  | false =>
    simp only [passed, Bool.false_eq_true, ↓reduceIte, Bool.not_false, Bool.and_true] at reported
    split at reported
    · rename_i finished
      have checked : step ≠ .pwmDisable := by
        rintro rfl
        have pass := judged.judged _ finished fun waiting => settled waiting.1
        rw [passed] at pass
        cases pass
      obtain ⟨finished, failed⟩ := fails finished passed checked
      simpa [failed, finished] using reported
    · cases reported

namespace Session

/-- Every call of the steps finds the run undisturbed. -/
def Undisturbed (s : Session F) : List (Step F) → Prop
  | [] => True
  | step :: rest =>
    HwStartup.Undisturbed step.call s.fsm (step.meets s.board) ∧ (s.next step).Undisturbed rest

theorem run_judged {s : Session F} (judged : s.fsm.Judged) (steps : List (Step F)) :
    (s.run steps).fsm.Judged := by
  induction steps generalizing s with
  | nil => exact judged
  | cons step rest ih => exact ih (HwStartup.call_judged judged step.call (step.meets s.board)).1

theorem run_keeps {s : Session F} (judged : s.fsm.Judged) {steps : List (Step F)}
    (undisturbed : s.Undisturbed steps) : HwStartup.KeepsVerdicts s.fsm (s.run steps).fsm := by
  induction steps generalizing s with
  | nil => exact fun step => ⟨id, fun finished failed _ => ⟨finished, failed⟩⟩
  | cons step rest ih =>
    obtain ⟨next, kept⟩ := HwStartup.call_judged judged step.call (step.meets s.board)
    exact (kept undisturbed.1).trans (ih next undisturbed.2)

/-- Once the first step is over its verdict, and every later one, stays for the run. -/
theorem verdicts_stay (board : Board F) (history steps : List (Step F)) :
    let s := (start board).run history
    s.fsm.status.passed &&& s.fsm.status.failed = 0 ∧
      (¬s.fsm.Waiting →
        (∀ step, has s.fsm.status.failed step = true → s.fsm.check step = false) ∧
          (s.Undisturbed steps → ∀ step verdict, s.fsm.status.verdict step = some verdict →
            (s.run steps).fsm.status.verdict step = some verdict)) := by
  intro s
  have judged : s.fsm.Judged :=
    run_judged (.fresh rfl rfl rfl rfl : (HwStartup.initial : HwStartup F).Judged) history
  refine ⟨s.fsm.status_disjoint, fun settled => ⟨fun step failed => ?_, fun undisturbed step => ?_⟩⟩
  · rw [HwStartup.has_failed, Bool.and_eq_true, Bool.not_eq_true'] at failed
    rw [← judged.judged step failed.1 fun waiting => settled waiting.1]
    exact failed.2
  · exact fun _ => (run_keeps judged undisturbed).verdict judged settled

/-- Past the first step, up to a pass of it. -/
def passedFirst : List (Step Binary32) :=
  [plain .requestRun, sample, plain (.requestNextStep false), sample]

theorem verdicts_stay_bench :
    ((start benchBoard).run passedFirst).fsm.status.verdict .pwmDisable = some true ∧
      ((start benchBoard).run (passedFirst ++ [sample])).fsm.status.verdict .pwmDisable = some true := by
  have settled : ¬((start benchBoard).run passedFirst).fsm.Waiting := by
    rintro ⟨-, -, first⟩
    exact absurd first (by decide +kernel)
  have passed : ((start benchBoard).run passedFirst).fsm.status.verdict .pwmDisable = some true := by
    decide +kernel
  have undisturbed : ((start benchBoard).run passedFirst).Undisturbed [sample] := by
    refine ⟨?_, trivial⟩
    exact .inl (by decide +kernel)
  exact ⟨passed, by
    simpa only [run, List.foldl_append] using
      ((verdicts_stay benchBoard passedFirst [sample]).2 settled).2 undisturbed .pwmDisable true passed⟩

/-- The first step is failed while it waits, and passed once it is left. -/
theorem first_verdict_turns :
    ((start benchBoard).run [plain .requestRun, sample]).fsm.status.verdict .pwmDisable = some false ∧
      ((start benchBoard).run [plain .requestRun, sample, plain (.requestNextStep false),
        sample]).fsm.status.verdict .pwmDisable = some true := by
  decide +kernel

end Session

end Unimoc.Startup
