import Unimoc.Startup.Session

/-! How many samples the steps without a motor take, on a bench where nothing goes wrong. -/
namespace Unimoc.Startup

open CurrentControl Firmware

variable {F : Type} [Arithmetic F]

/-- Nothing preempts, the outputs are released and the currents stay below the limit. -/
structure Steady (limit : F) (b : Board F) : Prop where
  calm : b.interrupts = []
  released : b.stage.getState = .enabled
  within : b.isr.rawPhaseCurrents.exceeds limit = false

theorem preempt_calm {b : Board F} (calm : b.interrupts = []) : b.preempt = b := by
  obtain ⟨isr, stage, outer, store, timerClock, interrupts, storage, initializations, trace⟩ := b
  cases calm
  rfl

/-- The board of a spin once it has taken the samples. -/
def taken (b : Board F) : Board F := { b.preempt with isr := { b.preempt.isr with samplesReady := false } }

theorem takeSamplesReady_calm {b : Board F} (calm : b.preempt.interrupts = [])
    (ready : b.preempt.isr.samplesReady = true) : b.takeSamplesReady = (true, taken b) := by
  unfold Board.takeSamplesReady
  simp only [ready, ↓reduceIte, preempt_calm calm, taken]

namespace HwStartup

/-- Samples a step takes; the hold of a forced duty has one more that ends it. -/
def samplesOf : FsmState → UInt32
  | .pwmDisable => 1
  | .adcOffsetCal | .adcNoiseFloor | .dcLinkVoltageCheck => nCal
  | .dutyForceLow | .dutyForceMid | .dutyForceHigh => holdSamples + 1
  | _ => 0

/-- The steps in which no motor and no gate check is involved. -/
def early (state : FsmState) : Bool := samplesOf state ≠ 0

variable {fsm : HwStartup F} {b : Board F}

theorem stageLost_steady (steady : Steady fsm.ocLimit b) (active : fsm.isActive = true) :
    fsm.stageLost b = (none, b) := by
  unfold stageLost
  by_cases barrier : fsm.state = .connectMotor
  · simp [barrier]
  · simp [active, barrier, Board.getState, preempt_calm steady.calm, steady.released]

theorem readIsr_calm (calm : b.interrupts = []) : b.readIsr = (b.isr, b) := by
  simp only [Board.readIsr, preempt_calm calm]

theorem runOnce_steady (steady : Steady fsm.ocLimit (taken b)) (active : fsm.isActive = true)
    (ready : b.preempt.isr.samplesReady = true) : fsm.runOnce b = fsm.runStep (taken b) := by
  unfold runOnce
  rw [takeSamplesReady_calm steady.calm ready]
  simp only [Bool.not_true, Bool.false_eq_true, ↓reduceIte, stageLost_steady steady active, active,
    readIsr_calm steady.calm, checkMotorOc, steady.within]

/-- What a sample of an early step leaves as it is. -/
structure Passes (before after : HwStartup F) : Prop where
  state : after.state = before.state
  requested : after.nextStepRequested = before.nextStepRequested
  gate : after.gatePhaseDisabled = before.gatePhaseDisabled
  voltage : after.extVdc = before.extVdc
  limit : after.ocLimit = before.ocLimit

/-- One sample of a step: one more, or the last. -/
structure Counted (before : HwStartup F) (b : Board F) (after : HwStartup F × Board F) : Prop where
  passes : Passes before after.1
  goesOn : before.sampleCount + 1 < samplesOf before.state →
    after.1.stepDone = false ∧ after.1.sampleCount = before.sampleCount + 1
  ends : before.sampleCount + 1 = samplesOf before.state → after.1.stepDone = true
  board : ∃ da db dc, after.2 = b.forceDuty da db dc

theorem forceDuty_calm (calm : b.interrupts = []) (da db dc : F) : (b.forceDuty da db dc).interrupts = [] := by
  simp [Board.forceDuty, preempt_calm calm, Board.record, calm]

theorem continueWhenAsked_later (unasked : fsm.nextStepRequested = false) (b : Board F) :
    fsm.continueWhenAsked b = (fsm, b) := by
  simp [continueWhenAsked, unasked]

theorem runCalibration_counted (finish : HwStartup F → HwStartup F) (kept : ∀ fsm, Passes fsm (finish fsm))
    (done : ∀ fsm, (finish fsm).stepDone = true) (samples : samplesOf fsm.state = nCal)
    (unmeasured : fsm.stepDone = false) (unasked : fsm.nextStepRequested = false)
    (calm : b.interrupts = []) : Counted fsm b (fsm.runCalibration finish b) := by
  have read := readIsr_calm (forceDuty_calm calm neutralDuty neutralDuty neutralDuty)
  unfold runCalibration collectSample neutral
  simp only [unmeasured, Bool.false_eq_true, ↓reduceIte, read, decide_eq_true_eq]
  generalize (b.forceDuty neutralDuty neutralDuty neutralDuty).isr.rawPhaseCurrents = currents
  have count : (fsm.addSample currents).sampleCount = fsm.sampleCount + 1 := rfl
  rw [count]
  by_cases all : nCal ≤ fsm.sampleCount + 1
  · obtain ⟨state, requested, gate, voltage, limit⟩ := kept (fsm.addSample currents)
    rw [if_pos all, continueWhenAsked_later (requested.trans unasked)]
    refine ⟨⟨state, requested, gate, voltage, limit⟩, fun more => ?_, fun _ => done _, _, _, _, rfl⟩
    exact absurd more (by rw [samples]; exact UInt32.not_lt.mpr all)
  · rw [if_neg all, continueWhenAsked_later (by exact unasked)]
    refine ⟨⟨rfl, rfl, rfl, rfl, rfl⟩, fun _ => ⟨unmeasured, count⟩, fun last => ?_, _, _, _, rfl⟩
    exact absurd (by rw [last, samples]; exact UInt32.le_refl _) all

theorem samplesOf_small (state : FsmState) : (samplesOf state).toNat < 2000 := by
  cases state <;> decide

theorem succ_toNat {count : UInt32} (small : count.toNat < 2000) : (count + 1).toNat = count.toNat + 1 := by
  have one : (1 : UInt32).toNat = 1 := rfl
  rw [UInt32.toNat_add, one]
  exact Nat.mod_eq_of_lt (by omega)

theorem hold_count {count : UInt32} (bounded : count < holdSamples + 1) :
    count + 1 < holdSamples + 1 ↔ count < holdSamples := by
  have total : (holdSamples + 1).toNat = 1001 := by decide
  have hold : holdSamples.toNat = 1000 := by decide
  rw [UInt32.lt_iff_toNat_lt, total] at bounded
  rw [UInt32.lt_iff_toNat_lt, UInt32.lt_iff_toNat_lt, succ_toNat (by omega), total, hold]
  omega

theorem runDutyForce_counted (duty : F) (samples : samplesOf fsm.state = holdSamples + 1)
    (bounded : fsm.sampleCount < samplesOf fsm.state)
    (unmeasured : fsm.stepDone = false) (unasked : fsm.nextStepRequested = false) :
    Counted fsm b (fsm.runDutyForce duty b) := by
  unfold runDutyForce
  rw [if_neg (by simp [unmeasured])]
  rw [samples] at bounded
  by_cases holding : fsm.sampleCount < holdSamples
  · rw [if_pos holding]
    refine ⟨⟨rfl, rfl, rfl, rfl, rfl⟩, fun _ => ⟨unmeasured, rfl⟩, fun last => ?_, _, _, _, rfl⟩
    have more := (hold_count bounded).mpr holding
    rw [samples] at last
    exact absurd (last ▸ more) (UInt32.lt_irrefl _)
  · rw [if_neg holding, continueWhenAsked_later (by exact unasked)]
    refine ⟨⟨rfl, rfl, rfl, rfl, rfl⟩, fun more => ?_, fun _ => rfl, _, _, _, rfl⟩
    rw [samples] at more
    exact absurd ((hold_count bounded).mp more) holding

theorem evaluateDcLink_measures {collecting : HwStartup F} (passes : Passes fsm collecting)
    (reading : vdcMinValid < fsm.extVdc) :
    Passes fsm collecting.evaluateDcLink ∧ collecting.evaluateDcLink.stepDone = true := by
  obtain ⟨state, requested, gate, voltage, limit⟩ := passes
  unfold evaluateDcLink
  rw [if_pos (voltage ▸ reading)]
  exact ⟨⟨state, requested, gate, voltage, limit⟩, rfl⟩

theorem runDcLinkVoltageCheck_counted (samples : samplesOf fsm.state = nCal)
    (bounded : fsm.sampleCount < samplesOf fsm.state) (reading : vdcMinValid < fsm.extVdc)
    (unmeasured : fsm.stepDone = false) (calm : b.interrupts = []) :
    Counted fsm b (fsm.runDcLinkVoltageCheck b) := by
  have read := readIsr_calm (forceDuty_calm calm neutralDuty neutralDuty neutralDuty)
  rw [samples] at bounded
  unfold runDcLinkVoltageCheck neutral
  rw [if_neg (by simp [unmeasured]), if_pos bounded, read]
  dsimp only
  by_cases more : fsm.sampleCount + 1 < nCal
  · rw [if_pos more]
    refine ⟨⟨rfl, rfl, rfl, rfl, rfl⟩, fun _ => ⟨unmeasured, rfl⟩, fun last => ?_, _, _, _, rfl⟩
    rw [samples] at last
    exact absurd (last ▸ more) (UInt32.lt_irrefl _)
  · rw [if_neg more]
    have collecting (sum : Arithmetic.Wide F) (count : UInt32) :=
      evaluateDcLink_measures
        (show Passes fsm { fsm with accumA := sum, sampleCount := count } from ⟨rfl, rfl, rfl, rfl, rfl⟩) reading
    exact ⟨(collecting _ _).1, fun on => absurd (samples ▸ on) more, fun _ => (collecting _ _).2,
      _, _, _, rfl⟩

theorem runPwmDisable_counted (state : fsm.state = .pwmDisable) (count : fsm.sampleCount = 0)
    (unasked : fsm.nextStepRequested = false) : Counted fsm b (fsm.runPwmDisable b) := by
  unfold runPwmDisable
  rw [if_neg (by simp [unasked])]
  refine ⟨⟨rfl, rfl, rfl, rfl, rfl⟩, fun more => ?_, fun _ => rfl, _, _, _, rfl⟩
  rw [state, count] at more
  exact absurd more (by decide)

theorem runStep_counted (early : early fsm.state = true)
    (bounded : fsm.sampleCount < samplesOf fsm.state) (reading : vdcMinValid < fsm.extVdc)
    (unmeasured : fsm.stepDone = false) (unasked : fsm.nextStepRequested = false)
    (calm : b.interrupts = []) : Counted fsm b (fsm.runStep b) := by
  unfold runStep
  cases state : fsm.state with
  | pwmDisable =>
    have count : fsm.sampleCount = 0 := by
      rw [state] at bounded
      exact UInt32.toNat_inj.mp (Nat.lt_one_iff.mp (UInt32.lt_iff_toNat_lt.mp bounded))
    exact runPwmDisable_counted state count unasked
  | adcOffsetCal =>
    exact runCalibration_counted _ (fun _ => ⟨rfl, rfl, rfl, rfl, rfl⟩) (fun _ => rfl)
      (by rw [state]; rfl) unmeasured unasked calm
  | adcNoiseFloor =>
    exact runCalibration_counted _ (fun _ => ⟨rfl, rfl, rfl, rfl, rfl⟩) (fun _ => rfl)
      (by rw [state]; rfl) unmeasured unasked calm
  | dutyForceLow => exact runDutyForce_counted _ (by rw [state]; rfl) bounded unmeasured unasked
  | dutyForceMid => exact runDutyForce_counted _ (by rw [state]; rfl) bounded unmeasured unasked
  | dutyForceHigh => exact runDutyForce_counted _ (by rw [state]; rfl) bounded unmeasured unasked
  | dcLinkVoltageCheck =>
    exact runDcLinkVoltageCheck_counted (by rw [state]; rfl) bounded reading unmeasured calm
  | idle | gateDriverEnableCheck | connectMotor | phaseAdcAlignment | currentSenseCalibration | done | fault =>
    exact absurd early (by rw [state]; decide)

/-- A step is over: the next one is at its start. -/
structure Leaves (before : HwStartup F) (b : Board F) (after : HwStartup F × Board F) : Prop where
  state : after.1.state = before.state.next
  fresh : after.1.stepDone = false
  count : after.1.sampleCount = 0
  requested : after.1.nextStepRequested = false
  gate : after.1.gatePhaseDisabled = before.gatePhaseDisabled
  voltage : after.1.extVdc = before.extVdc
  limit : after.1.ocLimit = before.ocLimit
  board : ∃ da db dc, after.2 = b.forceDuty da db dc

theorem runStep_leaves (early : early fsm.state = true) (measured : fsm.stepDone = true)
    (asked : fsm.nextStepRequested = true) (valid : fsm.validateCurrentState = true) :
    Leaves fsm b (fsm.runStep b) := by
  have goesOn : fsm.state.next ≠ .done := by
    intro last
    cases state : fsm.state <;> rw [state] at early last <;>
      first | exact absurd last (by decide) | exact absurd early (by decide)
  have advances (results : StartupResults F) (da db dc : F) :
      Leaves fsm b ({ fsm with stepDone := true, results := results }.advanceToNextState
        (b.forceDuty da db dc)) := by
    unfold advanceToNextState
    rw [if_neg goesOn]
    exact ⟨rfl, rfl, rfl, rfl, rfl, rfl, rfl, _, _, _, rfl⟩
  have continues (da db dc : F) : Leaves fsm b (fsm.continueWhenAsked (b.forceDuty da db dc)) := by
    have advanced := advances fsm.results da db dc
    rw [← measured] at advanced
    unfold continueWhenAsked
    rwa [if_pos (by simp [measured, asked, valid])]
  have calibrates (finish : HwStartup F → HwStartup F) : Leaves fsm b (fsm.runCalibration finish b) := by
    unfold runCalibration
    rw [if_pos measured]
    exact continues _ _ _
  have forces (duty : F) : Leaves fsm b (fsm.runDutyForce duty b) := by
    unfold runDutyForce
    rw [if_pos measured]
    exact continues _ _ _
  unfold runStep
  cases state : fsm.state with
  | pwmDisable =>
    unfold runPwmDisable
    rw [if_pos (by rw [asked]; exact valid)]
    exact advances _ _ _ _
  | adcOffsetCal | adcNoiseFloor => exact calibrates _
  | dutyForceLow | dutyForceMid | dutyForceHigh => exact forces _
  | dcLinkVoltageCheck =>
    unfold runDcLinkVoltageCheck
    rw [if_pos measured]
    exact continues _ _ _
  | idle | gateDriverEnableCheck | connectMotor | phaseAdcAlignment | currentSenseCalibration | done | fault =>
    exact absurd early (by rw [state]; decide)

theorem runStep_firstHalf (state : fsm.state = .gateDriverEnableCheck)
    (unmeasured : fsm.stepDone = false) (half : fsm.gatePhaseDisabled = true) (calm : b.interrupts = []) :
    (fsm.runStep b).1.state = fsm.state ∧ (fsm.runStep b).1.stepDone = false ∧
      (fsm.runStep b).1.ocLimit = fsm.ocLimit ∧ (fsm.runStep b).1.extVdc = fsm.extVdc ∧
      (fsm.runStep b).1.nextStepRequested = fsm.nextStepRequested ∧
      (if fsm.sampleCount + 1 < nGate then
        (fsm.runStep b).1.gatePhaseDisabled = true ∧
          (fsm.runStep b).1.sampleCount = fsm.sampleCount + 1
      else (fsm.runStep b).1.gatePhaseDisabled = false) ∧
      (fsm.runStep b).2 = b.forceDuty neutralDuty neutralDuty neutralDuty := by
  have read := readIsr_calm (forceDuty_calm calm neutralDuty neutralDuty neutralDuty)
  unfold runStep
  simp only [state]
  unfold runGateDriverEnableCheck collectSample neutral
  rw [if_neg (by simp [unmeasured]), if_pos half, read]
  dsimp only
  generalize (b.forceDuty neutralDuty neutralDuty neutralDuty).isr.rawPhaseCurrents = currents
  have count : (fsm.addSample currents).sampleCount = fsm.sampleCount + 1 := rfl
  rw [count]
  by_cases more : fsm.sampleCount + 1 < nGate
  · rw [if_neg (by simpa using more), if_pos more]
    exact ⟨state, unmeasured, rfl, rfl, rfl, ⟨half, rfl⟩, rfl⟩
  · rw [if_pos (by simpa using more), if_neg more]
    exact ⟨state, unmeasured, rfl, rfl, rfl, rfl, rfl⟩

theorem runStep_secondHalf (state : fsm.state = .gateDriverEnableCheck)
    (unmeasured : fsm.stepDone = false) (half : fsm.gatePhaseDisabled = false) (calm : b.interrupts = []) :
    (fsm.runStep b).2 = b.forceDuty 0.55 0.45 0.45 := by
  have read := readIsr_calm (forceDuty_calm calm 0.55 0.45 0.45)
  unfold runStep
  simp only [state]
  unfold runGateDriverEnableCheck collectSample
  rw [if_neg (by simp [unmeasured]), if_neg (by simp [half]), read]

end HwStartup

namespace Session

open HwStartup

/-- A step of the bench: a sample that finds it steady, and leaves it so. -/
structure Samples (limit : F) (Bench : Board F → Prop) (step : Step F) : Prop where
  call : step.call = .runOnce
  ready : ∀ b, Bench b → (step.meets b).preempt.isr.samplesReady = true
  steady : ∀ b, Bench b → Steady limit (taken (step.meets b))
  bench : ∀ b, Bench b → Bench (taken (step.meets b))
  forced : ∀ b da db dc, Bench b → Bench (b.forceDuty da db dc)

variable {limit voltage : F} {Bench : Board F → Prop} {step : Step F} {half asked : Bool}
  {state : FsmState}

structure In (limit voltage : F) (Bench : Board F → Prop) (half asked : Bool) (state : FsmState)
    (s : Session F) : Prop where
  state : s.fsm.state = state
  half : s.fsm.gatePhaseDisabled = half
  limit : s.fsm.ocLimit = limit
  voltage : s.fsm.extVdc = voltage
  asked : s.fsm.nextStepRequested = asked
  board : Bench s.board

theorem next_sample (samples : Samples limit Bench step) {s : Session F}
    (inside : In limit voltage Bench half asked state s) (active : state.active = true) :
    (s.next step).fsm = (s.fsm.runStep (taken (step.meets s.board))).1 ∧
      (s.next step).board = (s.fsm.runStep (taken (step.meets s.board))).2 := by
  have steady := samples.steady s.board inside.board
  rw [← inside.limit] at steady
  have sampled := runOnce_steady steady (by rw [isActive, inside.state]; exact active)
    (samples.ready s.board inside.board)
  unfold next
  rw [samples.call]
  exact ⟨congrArg Prod.fst sampled, congrArg Prod.snd sampled⟩

theorem next_counts (samples : Samples limit Bench step) (reading : vdcMinValid < voltage)
    (early : early state = true) {s : Session F} (inside : In limit voltage Bench half false state s)
    (unmeasured : s.fsm.stepDone = false) (bounded : s.fsm.sampleCount < samplesOf state) :
    In limit voltage Bench half false state (s.next step) ∧
      (s.fsm.sampleCount + 1 < samplesOf state →
        (s.next step).fsm.stepDone = false ∧ (s.next step).fsm.sampleCount = s.fsm.sampleCount + 1) ∧
      (s.fsm.sampleCount + 1 = samplesOf state → (s.next step).fsm.stepDone = true) := by
  have active : state.active = true := by
    cases state <;> first | rfl | exact absurd early (by decide)
  obtain ⟨fsm, board⟩ := next_sample samples inside active
  have bench := samples.bench s.board inside.board
  have calm := (samples.steady s.board inside.board).calm
  obtain ⟨passes, goesOn, ends, da, db, dc, forced⟩ :=
    runStep_counted (by rw [inside.state]; exact early) (by rw [inside.state]; exact bounded)
      (by rw [inside.voltage]; exact reading) unmeasured inside.asked calm
  rw [inside.state] at goesOn ends
  rw [fsm]
  refine ⟨⟨?_, ?_, ?_, ?_, ?_, ?_⟩, goesOn, ends⟩
  · rw [fsm, passes.state, inside.state]
  · rw [fsm, passes.gate, inside.half]
  · rw [fsm, passes.limit, inside.limit]
  · rw [fsm, passes.voltage, inside.voltage]
  · rw [fsm, passes.requested, inside.asked]
  · rw [board, forced]
    exact samples.forced _ _ _ _ bench

theorem run_append (s : Session F) (first second : List (Step F)) :
    s.run (first ++ second) = (s.run first).run second := List.foldl_append ..

theorem run_counts (samples : Samples limit Bench step) (reading : vdcMinValid < voltage)
    (early : early state = true) {s : Session F} (inside : In limit voltage Bench half false state s)
    (unmeasured : s.fsm.stepDone = false) (fresh : s.fsm.sampleCount = 0) (n : Nat)
    (missing : n < (samplesOf state).toNat) :
    let after := s.run (List.replicate n step)
    In limit voltage Bench half false state after ∧ after.fsm.stepDone = false ∧
      after.fsm.sampleCount.toNat = n := by
  induction n with
  | zero => exact ⟨inside, unmeasured, by rw [run, List.replicate_zero, List.foldl_nil, fresh]; rfl⟩
  | succ n ih =>
    obtain ⟨inside, unmeasured, count⟩ := ih (Nat.lt_of_succ_lt missing)
    rw [List.replicate_succ', run_append]
    have small := samplesOf_small state
    obtain ⟨inside, goesOn, -⟩ := next_counts samples reading early inside unmeasured
      (UInt32.lt_iff_toNat_lt.mpr (by omega))
    have successor : ((s.run (List.replicate n step)).fsm.sampleCount + 1).toNat = n + 1 := by
      rw [succ_toNat (by omega), count]
    obtain ⟨unmeasured, count⟩ := goesOn (UInt32.lt_iff_toNat_lt.mpr (by rw [successor]; exact missing))
    exact ⟨inside, unmeasured, (congrArg UInt32.toNat count).trans successor⟩

theorem run_measures (samples : Samples limit Bench step) (reading : vdcMinValid < voltage)
    (early : early state = true) {s : Session F} (inside : In limit voltage Bench half false state s)
    (unmeasured : s.fsm.stepDone = false) (fresh : s.fsm.sampleCount = 0) :
    let after := s.run (List.replicate (samplesOf state).toNat step)
    In limit voltage Bench half false state after ∧ after.fsm.stepDone = true := by
  have some : 0 < (samplesOf state).toNat := by
    cases state <;> first | decide | exact absurd early (by decide)
  have small := samplesOf_small state
  obtain ⟨n, total⟩ := Nat.exists_eq_succ_of_ne_zero (Nat.ne_of_gt some)
  obtain ⟨inside, unmeasured, count⟩ :=
    run_counts samples reading early inside unmeasured fresh n (by omega)
  rw [total, Nat.succ_eq_add_one, List.replicate_succ', run_append]
  obtain ⟨inside, -, ends⟩ := next_counts samples reading early inside unmeasured
    (UInt32.lt_iff_toNat_lt.mpr (by omega))
  refine ⟨inside, ends (UInt32.toNat_inj.mp ?_)⟩
  rw [succ_toNat (by omega), count, total]

def continuing (step : Step F) : List (Step F) := [⟨id, .requestNextStep false⟩, step]

theorem run_continues (samples : Samples limit Bench step) (reading : ¬voltage < vdcMinValid)
    (early : early state = true) {s : Session F} (inside : In limit voltage Bench half false state s)
    (measured : s.fsm.stepDone = true) :
    let after := s.run (continuing step)
    In limit voltage Bench half false state.next after ∧ after.fsm.stepDone = false ∧
      after.fsm.sampleCount = 0 := by
  have active : s.fsm.isActive = true := by
    rw [isActive, inside.state]
    cases state <;> first | rfl | exact absurd early (by decide)
  have asked : s.fsm.requestNextStep false = (.accepted, { s.fsm with nextStepRequested := true }) := by
    have needs : s.fsm.needs = .none := by
      unfold needs
      rw [if_neg (by simp [active]), inside.state]
      cases state <;> first | exact absurd early (by decide) | simp [measured]
    simp [requestNextStep, active, needs, measured]
  have requested : s.next ⟨id, .requestNextStep false⟩ =
      ⟨{ s.fsm with nextStepRequested := true }, s.board,
        ⟨s.fsm, .requestNextStep false, .next .accepted, { s.fsm with nextStepRequested := true }⟩ :: s.past⟩ := by
    simp only [next, HwStartup.call, asked, id]
  have waiting : In limit voltage Bench half true state (s.next ⟨id, .requestNextStep false⟩) := by
    rw [requested]
    exact ⟨inside.state, inside.half, inside.limit, inside.voltage, rfl, inside.board⟩
  have valid : (s.next ⟨id, .requestNextStep false⟩).fsm.validateCurrentState = true := by
    unfold validateCurrentState
    rw [waiting.state, waiting.voltage, if_neg, if_neg]
    · exact fun low => reading low.2
    · rintro ⟨rfl, -⟩
      exact absurd early (by decide)
  obtain ⟨fsm, board⟩ := next_sample samples waiting (by rw [isActive, inside.state] at active; exact active)
  have bench := samples.bench _ waiting.board
  have left := runStep_leaves (b := taken (step.meets (s.next ⟨id, .requestNextStep false⟩).board))
    (by rw [waiting.state]; exact early) (by rw [requested]; exact measured) waiting.asked valid
  obtain ⟨next, fresh, count, unasked, gate, kept, limited, da, db, dc, forced⟩ := left
  show In _ _ _ _ _ _ ((s.next ⟨id, .requestNextStep false⟩).next step) ∧ _
  refine ⟨⟨?_, ?_, ?_, ?_, ?_, ?_⟩, ?_, ?_⟩
  · rw [fsm, next, waiting.state]
  · rw [fsm, gate, waiting.half]
  · rw [fsm, limited, waiting.limit]
  · rw [fsm, kept, waiting.voltage]
  · rw [fsm, unasked]
  · rw [board, forced]
    exact samples.forced _ _ _ _ bench
  · exact (congrArg stepDone fsm).trans fresh
  · exact (congrArg sampleCount fsm).trans count

def through (step : Step F) (states : List FsmState) : List (Step F) :=
  states.flatMap fun state => List.replicate (samplesOf state).toNat step ++ continuing step

/-- Steps from `state` on that follow each other. -/
def Consecutive (state : FsmState) : List FsmState → Prop
  | [] => True
  | first :: rest => first = state ∧ early state = true ∧ Consecutive state.next rest

theorem run_through (samples : Samples limit Bench step) (reading : vdcMinValid < voltage)
    (valid : ¬voltage < vdcMinValid) {states : List FsmState} (consecutive : Consecutive state states)
    {s : Session F} (inside : In limit voltage Bench half false state s)
    (unmeasured : s.fsm.stepDone = false) (fresh : s.fsm.sampleCount = 0) :
    let after := s.run (through step states)
    In limit voltage Bench half false (states.foldl (fun state _ => state.next) state) after ∧
      after.fsm.stepDone = false ∧ after.fsm.sampleCount = 0 := by
  induction states generalizing s state with
  | nil => exact ⟨inside, unmeasured, fresh⟩
  | cons first rest ih =>
    obtain ⟨rfl, early, rest⟩ := consecutive
    obtain ⟨inside, measured⟩ := run_measures samples reading early inside unmeasured fresh
    obtain ⟨inside, unmeasured, fresh⟩ := run_continues samples valid early inside measured
    have following := ih rest inside unmeasured fresh
    rw [← run_append, ← run_append, ← List.append_assoc] at following
    exact following

theorem next_firstHalf (samples : Samples limit Bench step) {s : Session F}
    (inside : In limit voltage Bench true false .gateDriverEnableCheck s)
    (unmeasured : s.fsm.stepDone = false) :
    (s.next step).board =
        (taken (step.meets s.board)).forceDuty neutralDuty neutralDuty neutralDuty ∧
      ∃ half, In limit voltage Bench half false .gateDriverEnableCheck (s.next step) ∧
        (s.next step).fsm.stepDone = false ∧
        (if s.fsm.sampleCount + 1 < nGate then
          half = true ∧ (s.next step).fsm.sampleCount = s.fsm.sampleCount + 1
        else half = false) := by
  obtain ⟨fsm, board⟩ := next_sample samples inside rfl
  have sampled := runStep_firstHalf inside.state unmeasured inside.half
    (samples.steady s.board inside.board).calm
  rw [← fsm, ← board] at sampled
  obtain ⟨state, fresh, limited, kept, asked, count, forced⟩ := sampled
  refine ⟨forced, (s.next step).fsm.gatePhaseDisabled, ⟨?_, rfl, ?_, ?_, ?_, ?_⟩, fresh, count⟩
  · rw [state, inside.state]
  · rw [limited, inside.limit]
  · rw [kept, inside.voltage]
  · rw [asked, inside.asked]
  · rw [forced]
    exact samples.forced _ _ _ _ (samples.bench _ inside.board)

theorem run_firstHalf (samples : Samples limit Bench step) {s : Session F}
    (inside : In limit voltage Bench true false .gateDriverEnableCheck s)
    (unmeasured : s.fsm.stepDone = false) (fresh : s.fsm.sampleCount = 0) :
    In limit voltage Bench false false .gateDriverEnableCheck
      (s.run (List.replicate nGate.toNat step)) := by
  have small : nGate.toNat = 512 := by decide
  have measuring (n : Nat) (missing : n < nGate.toNat) :
      let after := s.run (List.replicate n step)
      In limit voltage Bench true false .gateDriverEnableCheck after ∧ after.fsm.stepDone = false ∧
        after.fsm.sampleCount.toNat = n := by
    induction n with
    | zero => exact ⟨inside, unmeasured, by rw [run, List.replicate_zero, List.foldl_nil, fresh]; rfl⟩
    | succ n ih =>
      obtain ⟨inside, unmeasured, count⟩ := ih (Nat.lt_of_succ_lt missing)
      rw [List.replicate_succ', run_append]
      have successor : ((s.run (List.replicate n step)).fsm.sampleCount + 1).toNat = n + 1 := by
        rw [succ_toNat (by omega), count]
      obtain ⟨-, half, inside, unmeasured, counted⟩ := next_firstHalf samples inside unmeasured
      rw [if_pos (UInt32.lt_iff_toNat_lt.mpr (by rw [successor]; exact missing))] at counted
      obtain ⟨rfl, counted⟩ := counted
      exact ⟨inside, unmeasured, (congrArg UInt32.toNat counted).trans successor⟩
  obtain ⟨n, all⟩ := Nat.exists_eq_succ_of_ne_zero (show nGate.toNat ≠ 0 by decide)
  obtain ⟨inside, unmeasured, count⟩ := measuring n (by omega)
  rw [all, Nat.succ_eq_add_one, List.replicate_succ', run_append]
  obtain ⟨-, half, inside, -, counted⟩ := next_firstHalf samples inside unmeasured
  rw [if_neg] at counted
  · rw [counted] at inside
    exact inside
  · rw [UInt32.lt_iff_toNat_lt, succ_toNat (by omega), count, all]
    exact Nat.lt_irrefl _

theorem next_secondHalf (samples : Samples limit Bench step) {s : Session F}
    (inside : In limit voltage Bench false false .gateDriverEnableCheck s)
    (unmeasured : s.fsm.stepDone = false) :
    (s.next step).board = (taken (step.meets s.board)).forceDuty 0.55 0.45 0.45 := by
  obtain ⟨-, board⟩ := next_sample samples inside rfl
  exact board.trans (runStep_secondHalf inside.state unmeasured inside.half
    (samples.steady s.board inside.board).calm)

end Session

end Unimoc.Startup
