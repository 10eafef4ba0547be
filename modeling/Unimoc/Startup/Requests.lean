import Unimoc.Startup.Isolation
import Unimoc.Startup.StepOrder

/-! What an accepted request comes to: the next sample takes it up while the reading of the step
still holds. -/
namespace Unimoc.Startup

open CurrentControl Firmware Runs

variable {F : Type} [Arithmetic F]

namespace HwStartup

variable {fsm : HwStartup F}

/-- The reading the step needs is there and large enough. -/
structure ReadingHolds (fsm : HwStartup F) : Prop where
  current : fsm.state = .currentSenseCalibration → ¬fsm.extCurrent < 1e-3
  voltage : fsm.state = .dcLinkVoltageCheck → ¬fsm.extVdc < vdcMinValid

theorem validateCurrentState_iff : fsm.validateCurrentState = true ↔ fsm.ReadingHolds := by
  unfold validateCurrentState
  split
  · rename_i low
    exact iff_of_false Bool.false_ne_true fun holds => holds.current low.1 low.2
  · rename_i current
    split
    · rename_i low
      exact iff_of_false Bool.false_ne_true fun holds => holds.voltage low.1 low.2
    · rename_i voltage
      exact iff_of_true rfl ⟨fun state low => current ⟨state, low⟩, fun state low => voltage ⟨state, low⟩⟩

/-- The step is over: the next one, the end of the run, or a fault. -/
def LeavesStep (before after : HwStartup F) : Prop :=
  after.state = before.state.next ∨ after.state = .fault

theorem advanceToNextState_leaves {after : HwStartup F} (state : after.state = fsm.state) (b : Board F) :
    LeavesStep fsm (after.advanceToNextState b).1 := by
  unfold advanceToNextState
  rw [state]
  dsimp only
  split
  · rename_i last
    unfold runDone
    dsimp only
    split
    · exact .inr rfl
    · exact .inl last.symm
  · exact .inl rfl

/-- A measured step that is asked for the next one is left, or kept as it is. -/
theorem continueWhenAsked_asked (measured : fsm.stepDone = true) (asked : fsm.nextStepRequested = true)
    (b : Board F) :
    (fsm.validateCurrentState = true ∧ LeavesStep fsm (fsm.continueWhenAsked b).1) ∨
      fsm.validateCurrentState = false ∧ (fsm.continueWhenAsked b).1 = fsm := by
  unfold continueWhenAsked
  rw [measured, asked]
  cases valid : fsm.validateCurrentState with
  | true => exact .inl ⟨rfl, advanceToNextState_leaves rfl b⟩
  | false => exact .inr ⟨rfl, rfl⟩

theorem releaseMotor_leaves (b : Board F) : LeavesStep fsm (fsm.releaseMotor b).1 := by
  have ends (released : Bool) (b : Board F) :
      LeavesStep fsm (if !released then fsm.enterFault .enableLost b
        else fsm.advanceToNextState (b.record .motorReleased)).1 := by
    cases released with
    | false => exact .inr rfl
    | true => exact advanceToNextState_leaves rfl _
  exact ends _ _

theorem runStep_asked (active : fsm.isActive = true) (measured : fsm.stepDone = true)
    (asked : fsm.nextStepRequested = true) (b : Board F) :
    (fsm.validateCurrentState = true ∧ LeavesStep fsm (fsm.runStep b).1) ∨
      fsm.validateCurrentState = false ∧ (fsm.runStep b).1 = fsm := by
  have calibrates (finish : HwStartup F → HwStartup F) :
      (fsm.validateCurrentState = true ∧ LeavesStep fsm (fsm.runCalibration finish b).1) ∨
        fsm.validateCurrentState = false ∧ (fsm.runCalibration finish b).1 = fsm := by
    unfold runCalibration
    rw [if_pos measured]
    exact continueWhenAsked_asked measured asked _
  have forces (duty : F) :
      (fsm.validateCurrentState = true ∧ LeavesStep fsm (fsm.runDutyForce duty b).1) ∨
        fsm.validateCurrentState = false ∧ (fsm.runDutyForce duty b).1 = fsm := by
    unfold runDutyForce
    rw [if_pos measured]
    exact continueWhenAsked_asked measured asked _
  have elsewhere (state : fsm.state ≠ .currentSenseCalibration ∧ fsm.state ≠ .dcLinkVoltageCheck) :
      fsm.validateCurrentState = true :=
    validateCurrentState_iff.mpr ⟨fun here => absurd here state.1, fun here => absurd here state.2⟩
  unfold runStep
  cases state : fsm.state with
  | idle | done | fault => exact absurd active (by simp [isActive, FsmState.active, state])
  | pwmDisable =>
    have valid := elsewhere (by simp [state])
    refine .inl ⟨valid, ?_⟩
    unfold runPwmDisable
    rw [if_pos (by rw [asked]; exact valid)]
    exact advanceToNextState_leaves rfl _
  | adcOffsetCal | adcNoiseFloor => exact calibrates _
  | dutyForceLow | dutyForceMid | dutyForceHigh => exact forces _
  | dcLinkVoltageCheck =>
    unfold runDcLinkVoltageCheck
    rw [if_pos measured]
    exact continueWhenAsked_asked measured asked _
  | gateDriverEnableCheck =>
    unfold runGateDriverEnableCheck
    rw [if_pos measured]
    exact continueWhenAsked_asked measured asked _
  | connectMotor =>
    have valid := elsewhere (by simp [state])
    refine .inl ⟨valid, ?_⟩
    unfold runConnectMotorWait enterBarrier
    simp only [measured, asked, valid, Bool.not_true, Bool.false_eq_true, ↓reduceIte, Bool.and_self]
    exact releaseMotor_leaves _
  | phaseAdcAlignment =>
    unfold runPhaseAdcAlignment
    rw [if_pos measured]
    exact continueWhenAsked_asked measured asked _
  | currentSenseCalibration =>
    unfold runCurrentSenseCalibration
    rw [if_pos measured]
    exact continueWhenAsked_asked measured asked _

/-- A sample that finds the stage released and the currents within the limit does the work of
the step. -/
theorem runOnce_ready {b : Board F} (ready : b.takeSamplesReady.1 = true) (goesOn : fsm.halts b = false) :
    ∃ c, fsm.runOnce b = fsm.runStep c := by
  unfold halts at goesOn
  unfold runOnce
  dsimp only at goesOn ⊢
  rw [ready] at goesOn ⊢
  rw [if_neg (by decide)]
  rw [Bool.true_and, Bool.or_eq_false_iff, Option.isSome_eq_false_iff, Option.isNone_iff_eq_none] at goesOn
  rw [goesOn.1]
  dsimp only
  split
  · rename_i active
    rw [active, Bool.true_and] at goesOn
    rw [goesOn.2]
    exact ⟨_, rfl⟩
  · exact ⟨_, rfl⟩

theorem runOnce_halts {b : Board F} (halted : fsm.halts b = true) : (fsm.runOnce b).1.state = .fault := by
  unfold halts at halted
  unfold runOnce
  dsimp only at halted ⊢
  rw [Bool.and_eq_true] at halted
  rw [halted.1]
  rw [if_neg (by decide)]
  cases lost : (fsm.stageLost b.takeSamplesReady.2).1 with
  | some reason => rfl
  | none =>
    have exceeded := halted.2
    rw [lost, Option.isSome_none, Bool.false_or, Bool.and_eq_true] at exceeded
    dsimp only
    rw [if_pos exceeded.1, if_pos exceeded.2]
    rfl

/-- A sample takes an accepted request up when the reading of the step holds, or ends the run. -/
theorem runOnce_asked {b : Board F} (active : fsm.isActive = true) (measured : fsm.stepDone = true)
    (asked : fsm.nextStepRequested = true) (ready : b.takeSamplesReady.1 = true) :
    LeavesStep fsm (fsm.runOnce b).1 ↔ fsm.ReadingHolds ∨ fsm.halts b = true := by
  cases halted : fsm.halts b with
  | true => exact iff_of_true (.inr (runOnce_halts halted)) (.inr rfl)
  | false =>
    obtain ⟨c, works⟩ := runOnce_ready ready halted
    rw [works, ← validateCurrentState_iff]
    obtain ⟨valid, left⟩ | ⟨invalid, kept⟩ := runStep_asked active measured asked c
    · exact iff_of_true left (.inl valid)
    · rw [kept]
      refine iff_of_false ?_ (by simp [invalid])
      rintro (next | fault)
      · exact next_ne active next.symm
      · exact absurd active (by simp [isActive, FsmState.active, fault])

end HwStartup

/-! ### Requests that wait -/

/-- The last accepted request has not led to a change of the state yet. -/
def awaiting : List (Moment F) → Bool :=
  latest
    (fun m _ =>
      if m.accepts then some true
      else if m.after.state = m.before.state && !m.starts then none
      else some false)
    false

namespace HwStartup

variable {fsm : HwStartup F}

/-- Only a request in a measured step is accepted, and the confirmation belongs to the barrier. -/
theorem call_accepted {call : Call F} {b : Board F} (accepted : (fsm.call call b).1 = .next .accepted) :
    fsm.isActive = true ∧ fsm.stepDone = true ∧
      (fsm.call call b).2.1 = { fsm with nextStepRequested := true } ∧
      ∃ motorConnected, call = .requestNextStep motorConnected ∧
        (motorConnected = true ↔ fsm.state = .connectMotor) := by
  cases call with
  | requestNextStep motorConnected =>
    obtain ⟨active, measured, confirmed, answered⟩ | ⟨answer, refused, answered⟩ :=
      fsm.requestNextStep_cases motorConnected
    · simp only [HwStartup.call, answered]
      exact ⟨active, measured, trivial, motorConnected, rfl, confirmed⟩
    · simp only [HwStartup.call, answered] at accepted
      exact absurd (Answer.next.inj accepted) refused
  | requestRun | requestAbort _ | setExtCurrent _ | setExtVdc _ | runOnce => cases accepted

end HwStartup

/-- A request that waits is the pending one. -/
structure Awaited (s : Session F) : Prop where
  asked : s.fsm.Asked
  active : awaiting s.past = true → s.fsm.isActive = true
  requested : awaiting s.past = true → s.fsm.nextStepRequested = true

theorem Awaited.start (board : Board F) : Awaited (.start board) where
  asked := nofun
  active := nofun
  requested := nofun

section Next

variable {s : Session F} {m : Moment F} {board : Board F}

theorem Awaited.stays (awaited : Awaited s) (before : m.before = s.fsm) (accepts : m.accepts = false)
    (starts : m.starts = false) (state : m.after.state = m.before.state)
    (requested : m.after.nextStepRequested = m.before.nextStepRequested)
    (measured : m.before.stepDone = true → m.after.stepDone = true) :
    Awaited ⟨m.after, board, m :: s.past⟩ := by
  have waits : awaiting (m :: s.past) = awaiting s.past := by
    simp [awaiting, accepts, starts, state]
  refine ⟨fun request => ?_, fun waiting => ?_, fun waiting => ?_⟩
  · exact measured (before ▸ awaited.asked (before ▸ requested ▸ request))
  · have active := awaited.active (waits ▸ waiting)
    rw [← before] at active
    simpa only [HwStartup.isActive, state] using active
  · have request := awaited.requested (waits ▸ waiting)
    rw [← before] at request
    exact requested.trans request

theorem Awaited.over (accepts : m.accepts = false) (asked : m.after.Asked)
    (changed : m.after.state ≠ m.before.state ∨ m.starts = true) :
    Awaited ⟨m.after, board, m :: s.past⟩ := by
  have idle : awaiting (m :: s.past) = false := by
    rcases changed with changed | starts
    · simp [awaiting, accepts, changed]
    · simp [awaiting, accepts, starts]
  exact ⟨asked, fun waiting => absurd waiting (by simp [idle]), fun waiting => absurd waiting (by simp [idle])⟩

theorem Awaited.inactive (awaited : Awaited s) (before : m.before = s.fsm) (accepts : m.accepts = false)
    (asked : m.after.Asked) (stopped : m.after.isActive = false) :
    Awaited ⟨m.after, board, m :: s.past⟩ := by
  by_cases changed : m.after.state = m.before.state ∧ m.starts = false
  · have waits : awaiting (m :: s.past) = awaiting s.past := by
      simp [awaiting, accepts, changed]
    have idle : s.fsm.isActive = false := by
      rw [← before]
      simpa only [HwStartup.isActive, changed.1] using stopped
    refine ⟨asked, fun waiting => ?_, fun waiting => ?_⟩
    · exact absurd (awaited.active (waits ▸ waiting)) (by simp [idle])
    · exact absurd (awaited.active (waits ▸ waiting)) (by simp [idle])
  · rw [not_and_or, Bool.not_eq_false] at changed
    exact .over accepts asked changed

end Next

theorem Awaited.next {s : Session F} (awaited : Awaited s) (step : Step F) : Awaited (s.next step) := by
  have moved := HwStartup.call_moved awaited.asked step.call (step.meets s.board)
  have taken : (s.fsm.call step.call (step.meets s.board)).1 = .next .accepted → _ := HwStartup.call_accepted
  unfold Session.next
  generalize s.fsm.call step.call (step.meets s.board) = result at moved taken
  obtain ⟨answer, after, board⟩ := result
  dsimp only at moved taken ⊢
  cases moved with
  | stays refused unstarted state requested measured =>
    exact awaited.stays (m := ⟨s.fsm, step.call, answer, after⟩) rfl (decide_eq_false refused)
      (decide_eq_false unstarted) state requested measured
  | accepted active measured state done =>
    obtain ⟨-, -, rfl, -⟩ := taken rfl
    exact ⟨fun _ => measured, fun _ => active, fun _ => rfl⟩
  | started inactive state unasked =>
    exact .over (m := ⟨s.fsm, step.call, .start .started, after⟩) rfl
      (fun requested => absurd requested (by simp [unasked])) (.inr rfl)
  | stopped refused unstarted state asked =>
    have stopped : after.isActive = false := by
      rcases state with state | ⟨-, state⟩ <;> simp [HwStartup.isActive, FsmState.active, state]
    exact awaited.inactive (m := ⟨s.fsm, step.call, answer, after⟩) rfl (decide_eq_false refused) asked stopped
  | advanced sampled active asked state unasked =>
    exact .over (m := ⟨s.fsm, step.call, .none, after⟩) rfl
      (fun requested => absurd requested (by simp [unasked]))
      (.inl (by rw [state]; exact next_ne active))

theorem Awaited.run {s : Session F} (awaited : Awaited s) (steps : List (Step F)) :
    Awaited (s.run steps) := by
  induction steps generalizing s with
  | nil => exact awaited
  | cons step rest ih => exact ih (awaited.next step)

/-- The next sample after an accepted request leaves the step just when the reading of the step
still holds, or the run ends with that sample. -/
theorem request_takes_effect (board : Board F) (steps : List (Step F)) (meets : Board F → Board F) :
    let s := (Session.start board).run steps
    awaiting s.past = true → (meets s.board).takeSamplesReady.1 = true →
      (s.fsm.LeavesStep (s.next ⟨meets, .runOnce⟩).fsm ↔
        s.fsm.ReadingHolds ∨ s.fsm.halts (meets s.board) = true) := by
  intro s waiting ready
  have awaited : Awaited s := (Awaited.start board).run steps
  have asked := awaited.requested waiting
  exact HwStartup.runOnce_asked (awaited.active waiting) (awaited.asked asked) asked ready

namespace Session

open HwStartup

section Bench

theorem request_takes_effect_bench :
    let s := (start benchBoard).run [plain .requestRun, sample, plain (.requestNextStep false)]
    s.fsm.LeavesStep (s.next sample).fsm := by
  intro s
  have holds : s.fsm.ReadingHolds := validateCurrentState_iff.mp (by decide +kernel)
  exact (request_takes_effect benchBoard [plain .requestRun, sample, plain (.requestNextStep false)]
    sample.meets (by decide +kernel) (by decide +kernel)).mpr (.inl holds)

def beforeDcLink : List FsmState :=
  [.pwmDisable, .adcOffsetCal, .adcNoiseFloor, .dutyForceLow, .dutyForceMid, .dutyForceHigh]

theorem beforeDcLink_consecutive : Consecutive .pwmDisable beforeDcLink :=
  ⟨rfl, rfl, rfl, rfl, rfl, rfl, rfl, rfl, rfl, rfl, rfl, rfl, trivial⟩

/-- Up to the DC-link check, which has measured with a reading of 24 V. -/
def dcLinkMeasured : List (Step Binary32) :=
  benchStart ++ through sample beforeDcLink ++ List.replicate (samplesOf .dcLinkVoltageCheck).toNat sample

theorem dcLink_measured : ∃ half,
    In benchLimit 24.0 BenchRuns half false .dcLinkVoltageCheck ((start benchBoard).run dcLinkMeasured) ∧
      ((start benchBoard).run dcLinkMeasured).fsm.stepDone = true := by
  obtain ⟨-, inside, unmeasured, fresh⟩ := bench_start initial_inactive
  obtain ⟨inside, unmeasured, fresh⟩ := run_through bench_samples (by decide) (by decide)
    beforeDcLink_consecutive inside unmeasured fresh
  have arrived : In benchLimit 24.0 BenchRuns _ false .dcLinkVoltageCheck _ := inside
  have measured := run_measures bench_samples (by decide) (by decide) arrived unmeasured fresh
  unfold dcLinkMeasured start
  rw [run_append, run_append]
  exact ⟨_, measured⟩

/-- The request is accepted, then the reading is corrected to half a volt. -/
def lowReading : List (Step Binary32) := [plain (.requestNextStep false), plain (.setExtVdc 0.5)]

theorem lowReading_waits {s : Session Binary32} {half : Bool}
    (inside : In benchLimit 24.0 BenchRuns half false .dcLinkVoltageCheck s)
    (measured : s.fsm.stepDone = true) :
    let after := s.run lowReading
    In benchLimit 0.5 BenchRuns half true .dcLinkVoltageCheck after ∧ after.fsm.stepDone = true ∧
      awaiting after.past = true := by
  have active : s.fsm.isActive = true := by
    rw [isActive, inside.state]
    rfl
  have accepted : s.fsm.requestNextStep false = (.accepted, { s.fsm with nextStepRequested := true }) := by
    simp [requestNextStep, active, needs_measured active measured, inside.state, measured]
  simp only [lowReading, run, List.foldl_cons, List.foldl_nil, next, plain, HwStartup.call, id, accepted]
  obtain ⟨state, half, limit, voltage, asked, board⟩ := inside
  refine ⟨⟨state, half, limit, rfl, rfl, board⟩, measured, ?_⟩
  simp [awaiting, Moment.accepts, Moment.starts, setExtVdc]

theorem lowReading_kept {s : Session Binary32} {half : Bool}
    (inside : In benchLimit 0.5 BenchRuns half true .dcLinkVoltageCheck s)
    (measured : s.fsm.stepDone = true) :
    (sample.meets s.board).takeSamplesReady.1 = true ∧ ¬s.fsm.LeavesStep (s.next sample).fsm := by
  constructor
  · unfold Board.takeSamplesReady
    rw [if_pos (bench_samples.ready s.board inside.board)]
  · have active : s.fsm.isActive = true := by
      rw [isActive, inside.state]
      rfl
    have invalid : s.fsm.validateCurrentState = false := by
      unfold validateCurrentState
      rw [if_neg (by simp [inside.state]), if_pos ⟨inside.state, by rw [inside.voltage]; decide⟩]
    rw [(next_sample bench_samples inside rfl).1]
    obtain ⟨valid, -⟩ | ⟨-, kept⟩ := runStep_asked active measured inside.asked (taken (sample.meets s.board))
    · exact absurd valid (by simp [invalid])
    · rw [kept]
      rintro (next | fault)
      · exact next_ne active next.symm
      · exact absurd active (by simp [isActive, FsmState.active, fault])

/-- The request stays pending over the sample. -/
theorem low_reading_pends :
    let s := ((start benchBoard).run dcLinkMeasured).run lowReading
    ¬(awaiting s.past = true → (sample.meets s.board).takeSamplesReady.1 = true →
      s.fsm.LeavesStep (s.next sample).fsm) := by
  obtain ⟨half, inside, measured⟩ := dcLink_measured
  generalize (start benchBoard).run dcLinkMeasured = s at inside measured ⊢
  obtain ⟨inside, measured, waiting⟩ := lowReading_waits inside measured
  obtain ⟨ready, kept⟩ := lowReading_kept inside measured
  exact fun claim => kept (claim waiting ready)

end Bench

end Session

end Unimoc.Startup
