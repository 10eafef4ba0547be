import Unimoc.Settings.Factory
import Unimoc.Startup.Committed
import Unimoc.Startup.Counting

/-! A bench of exact numbers: what a spin finds on it, and how a run goes on once a step has passed. -/
namespace Unimoc.Startup

open CurrentControl Firmware Settings

noncomputable section

namespace Passing

open HwStartup

/-! ### The bench -/

/-- What the instruments of the bench read, within what the steps take. -/
structure Meters where
  voltage : ℝ
  current : ℝ
  charged : 1.0 < voltage
  below : voltage < 60.0
  clear : 0.2 ≤ current
  within : current ≤ 6.0

def capabilities : HardwareCapabilities ℝ := ⟨60.0, 50.0, 50.0, 20.0, 60.0⟩

/-- The largest current of a run. -/
def limit : ℝ := capabilities.maxPhaseCurrent * ocFraction

def store : SettingsStore ℝ := ⟨.default, capabilities, .default, .default, false⟩

def board : Board ℝ where
  isr := { CurrentControlIsr.powerOn with hardware := true, overcurrentLimit := 60.0, dcLinkTrip := 60.0 }
  stage := .powerOn true
  outer := .powerOn
  store := store
  timerClock := 170000000
  interrupts := []
  storage := []
  initializations := []
  trace := []

variable {m : Meters}

/-- A control cycle at the voltage of the bench. -/
def samples (m : Meters) (currents : ThreePhase ℝ) : ControlCycleSamples ℝ :=
  ⟨Vector.replicate numSubSteps currents, m.voltage, false⟩

/-- A spin that finds the samples of a control cycle. -/
def sampling (m : Meters) (currents : ThreePhase ℝ) : Step ℝ :=
  ⟨fun b => { b with interrupts := [[.controlCycle (samples m currents) .zero]] }, .runOnce⟩

/-- Nothing has tripped, and the outputs are on or off. -/
structure Bench (on : Bool) (b : Board ℝ) : Prop where
  calm : b.interrupts = []
  stage : b.stage = ⟨true, on, false⟩
  hardware : b.isr.hardware = true
  current : b.isr.overcurrentTripped = false
  voltage : b.isr.overvoltageTripped = false
  calibration : b.isr.calibration = (CurrentControlIsr.powerOn : CurrentControlIsr ℝ).calibration
  overcurrentLimit : b.isr.overcurrentLimit = 60.0
  dcLinkTrip : b.isr.dcLinkTrip = 60.0
  store : b.store = store

/-- The bench after a control cycle with these currents. -/
structure Finds (m : Meters) (on : Bool) (currents : ThreePhase ℝ) (b : Board ℝ) : Prop extends Bench on b where
  currents : b.isr.rawPhaseCurrents = currents
  vdc : b.isr.rawVdc = m.voltage

/-- Currents below the limit of a run. -/
def Small (currents : ThreePhase ℝ) : Prop := |currents.a| ≤ 6.0 ∧ |currents.b| ≤ 6.0 ∧ |currents.c| ≤ 6.0

theorem Small.within {currents : ThreePhase ℝ} (small : Small currents) {most : ℝ} (above : 6.0 ≤ most) :
    currents.exceeds most = false := by
  obtain ⟨a, b, c⟩ := small
  unfold ThreePhase.exceeds
  simp only [Scalar.abs_exact, Bool.or_eq_false_iff, decide_eq_false_iff_not]
  exact ⟨⟨not_lt.mpr (a.trans above), not_lt.mpr (b.trans above)⟩, not_lt.mpr (c.trans above)⟩

theorem six_le_limit : 6.0 ≤ limit := by
  have value : limit = 60.0 * 0.10 := rfl
  rw [value]
  norm_num

variable {on : Bool} {b : Board ℝ} {currents : ThreePhase ℝ}

theorem calibrated_samples (m : Meters) (currents : ThreePhase ℝ) : CurrentControlIsr.calibrated (samples m currents)
    (CurrentControlIsr.powerOn : CurrentControlIsr ℝ).calibration = samples m currents := by
  have same (x : ℝ) : (x - Scalar.zero) * (1.0 : ℝ) = x := by
    rw [Scalar.zero_exact, sub_zero]
    norm_num
  have link : m.voltage * (1.0 : ℝ) = m.voltage := by norm_num
  unfold CurrentControlIsr.calibrated samples CurrentControlIsr.powerOn
  simp only [Vector.map_replicate, same, link]

theorem Bench.quiet (bench : Bench on b) (small : Small currents) :
    b.isr.onControlCycle (samples m currents) .zero =
      (false, (b.isr.takeInputs (samples m currents)).finishCycle .zero) := by
  have fits : currents.exceeds 60.0 = false := small.within (by norm_num)
  have current : (b.isr.takeInputs (samples m currents)).overcurrent (samples m currents) = false := by
    unfold CurrentControlIsr.overcurrent CurrentControlIsr.takeInputs
    simp only [bench.calibration, bench.overcurrentLimit, calibrated_samples]
    simp [samples, Vector.any_replicate, fits]
  have voltage : (b.isr.takeInputs (samples m currents)).overvoltage (samples m currents) = false := by
    unfold CurrentControlIsr.overvoltage CurrentControlIsr.takeInputs
    simp only [bench.calibration, bench.dcLinkTrip, calibrated_samples]
    simp [samples, m.below]
  unfold CurrentControlIsr.onControlCycle
  rw [if_neg (by simp [bench.hardware])]
  simp only [current, Bool.or_false, Bool.false_or]
  rw [show CurrentControlIsr.overvoltage (samples m currents) _ = false from voltage]
  simp only [Bool.or_false]

/-- The board of a spin that has taken the samples. -/
def found (m : Meters) (currents : ThreePhase ℝ) (b : Board ℝ) : Board ℝ := taken ((sampling m currents).meets b)

theorem Bench.cycle (bench : Bench on b) (small : Small currents) : ((sampling m currents).meets b).preempt =
    { b with interrupts := [], isr := (b.isr.takeInputs (samples m currents)).finishCycle .zero } := by
  show Board.interrupt { b with interrupts := [] } (.controlCycle (samples m currents) .zero) = _
  unfold Board.interrupt
  dsimp only
  rw [bench.quiet small]
  rfl

theorem Bench.found (m : Meters) (bench : Bench on b) (small : Small currents) :
    Finds m on currents (found m currents b) := by
  unfold Passing.found taken
  rw [bench.cycle small]
  obtain ⟨calm, stage, hardware, current, voltage, calibration, overcurrent, trip, store⟩ := bench
  exact ⟨⟨rfl, stage, hardware, current, voltage, calibration, overcurrent, trip, store⟩, rfl, rfl⟩

/-- A run with the limit of the bench; the outputs are on but for the barrier. -/
structure Runs (on : Bool) (fsm : HwStartup ℝ) : Prop where
  active : fsm.isActive = true
  limit : fsm.ocLimit = limit
  released : fsm.state = .connectMotor ∨ on = true

theorem runOnce_found (m : Meters) {fsm : HwStartup ℝ} (bench : Bench on b) (small : Small currents)
    (runs : Runs on fsm) : fsm.runOnce ((sampling m currents).meets b) = fsm.runStep (found m currents b) := by
  have finds := bench.found m small
  have ready : ((sampling m currents).meets b).preempt.isr.samplesReady = true := by
    rw [bench.cycle small]
    rfl
  have within : (Passing.found m currents b).isr.rawPhaseCurrents.exceeds fsm.ocLimit = false := by
    rw [finds.currents, runs.limit]
    exact small.within six_le_limit
  have kept : fsm.stageLost (Passing.found m currents b) = (none, Passing.found m currents b) := by
    rcases runs.released with barrier | released
    · unfold stageLost
      simp [barrier]
    · have enabled : (Passing.found m currents b).stage.getState = .enabled := by
        rw [finds.stage, released]
        rfl
      exact stageLost_steady ⟨finds.calm, enabled, within⟩ runs.active
  unfold runOnce
  rw [takeSamplesReady_calm finds.calm ready]
  simp only [Bool.not_true, Bool.false_eq_true, ↓reduceIte]
  rw [show fsm.stageLost (taken _) = _ from kept]
  simp only [runs.active, ↓reduceIte, readIsr_calm finds.calm, checkMotorOc, within, Bool.false_eq_true]

theorem Finds.forceDuty (finds : Finds m on currents b) (da db dc : ℝ) :
    Finds m on currents (b.forceDuty da db dc) := by
  obtain ⟨⟨calm, stage, hardware, current, voltage, calibration, overcurrent, trip, store⟩, raw, vdc⟩ := finds
  unfold Board.forceDuty
  rw [preempt_calm calm]
  exact ⟨⟨calm, stage, hardware, current, voltage, calibration, overcurrent, trip, store⟩, raw, vdc⟩

theorem Bench.disable (bench : Bench on b) : Bench false b.disable := by
  obtain ⟨calm, stage, hardware, current, voltage, calibration, overcurrent, trip, store⟩ := bench
  have off : b.stage.disable = ⟨true, false, false⟩ := by
    rw [stage]
    rfl
  unfold Board.disable
  rw [preempt_calm calm]
  exact ⟨calm, off, hardware, current, voltage, calibration, overcurrent, trip, store⟩

theorem Bench.enable (bench : Bench on b) : b.enable.1 = true ∧ Bench true b.enable.2 := by
  obtain ⟨calm, stage, hardware, current, voltage, calibration, overcurrent, trip, store⟩ := bench
  have released : b.stage.enable = (true, ⟨true, true, false⟩) := by
    rw [stage]
    cases on <;> rfl
  unfold Board.enable
  rw [preempt_calm calm]
  dsimp only
  rw [released]
  exact ⟨rfl, calm, rfl, hardware, current, voltage, calibration, overcurrent, trip, store⟩

theorem Bench.record (bench : Bench on b) (event : Event ℝ) : Bench on (b.record event) := by
  obtain ⟨calm, stage, hardware, current, voltage, calibration, overcurrent, trip, store⟩ := bench
  exact ⟨calm, stage, hardware, current, voltage, calibration, overcurrent, trip, store⟩

theorem Bench.setAdcTriggerOffset (bench : Bench on b) (offset : UInt32) : Bench on (b.setAdcTriggerOffset offset) := by
  obtain ⟨calm, stage, hardware, current, voltage, calibration, overcurrent, trip, store⟩ := bench
  unfold Board.setAdcTriggerOffset
  rw [preempt_calm calm]
  exact ⟨calm, stage, hardware, current, voltage, calibration, overcurrent, trip, store⟩

/-! ### Spins one after another -/

structure At (on : Bool) (fsm : HwStartup ℝ) (s : Session ℝ) : Prop where
  fsm : s.fsm = fsm
  bench : Bench on s.board

/-- What a spin with these currents does. -/
structure Spins (m : Meters) (on off : Bool) (currents : ThreePhase ℝ) (fsm after : HwStartup ℝ) : Prop where
  runs : Runs on fsm
  step : ∀ b, Finds m on currents b → (fsm.runStep b).1 = after ∧ Bench off (fsm.runStep b).2

variable {off : Bool} {fsm after : HwStartup ℝ} {s : Session ℝ}

theorem At.reaches {Reached : HwStartup ℝ → Prop} (place : At on fsm s) (small : Small currents) (runs : Runs on fsm)
    (step : ∀ b, Finds m on currents b → Reached (fsm.runStep b).1 ∧ Bench off (fsm.runStep b).2) :
    ∃ after, Reached after ∧ At off after (s.next (sampling m currents)) := by
  obtain ⟨rfl, bench⟩ := place
  have ran := runOnce_found m bench small runs
  obtain ⟨reached, board⟩ := step _ (bench.found m small)
  have next : (s.next (sampling m currents)).fsm = (s.fsm.runOnce ((sampling m currents).meets s.board)).1 ∧
      (s.next (sampling m currents)).board = (s.fsm.runOnce ((sampling m currents).meets s.board)).2 := ⟨rfl, rfl⟩
  rw [ran] at next
  exact ⟨_, reached, next.1, next.2 ▸ board⟩

theorem At.spin (place : At on fsm s) (small : Small currents) (spins : Spins m on off currents fsm after) :
    At off after (s.next (sampling m currents)) := by
  have reached : ∃ found, found = after ∧ At off found (s.next (sampling m currents)) :=
    place.reaches small spins.runs spins.step
  obtain ⟨_, rfl, place⟩ := reached
  exact place

theorem At.repeated {work : HwStartup ℝ → HwStartup ℝ} {n : Nat} (place : At true fsm s) (small : Small currents)
    (each : ∀ k < n, Spins m true true currents (work^[k] fsm) (work (work^[k] fsm))) :
    At true (work^[n] fsm) (s.run (List.replicate n (sampling m currents))) := by
  induction n with
  | zero => exact place
  | succ n ih =>
    have before := ih fun k earlier => each k (Nat.lt_succ_of_lt earlier)
    rw [List.replicate_succ', Session.run_append, Function.iterate_succ_apply']
    exact before.spin small (each n (Nat.lt_succ_self n))

/-! ### The results so far -/

theorem mean_exact (sum : ℝ) (samples : UInt32) : HwStartup.mean (F := ℝ) sum samples = sum / samples.toNat := rfl

theorem rms_exact (sum squares : ℝ) (samples : UInt32) : HwStartup.rms (F := ℝ) sum squares samples =
    if 0 < squares / samples.toNat - sum / samples.toNat * (sum / samples.toNat) then
      √(squares / samples.toNat - sum / samples.toNat * (sum / samples.toNat))
    else 0 := by
  rw [← Scalar.zero_exact]
  rfl

/-- Every step below this index has passed; the calibration is that of the bench. -/
structure Good (index : Nat) (results : StartupResults ℝ) : Prop where
  offsetA : results.adcOffsetA = 0
  offsetB : results.adcOffsetB = 0
  offsetC : results.adcOffsetC = 0
  gainVdc : results.gainVdc = 1
  gainA : results.gainA = 1
  gainB : results.gainB = 1
  gainC : results.gainC = 1
  noise : 3 < index → 0 < results.adcNoiseRmsA ∧ results.adcNoiseRmsA < noiseThreshold
  passed : ∀ step : FsmState, step.active = true → step.index.val < index →
    results.passed.get step.index = true

variable {results : StartupResults ℝ} {index : Nat} {state : FsmState}

theorem index_inj {step state : FsmState} (same : step.index = state.index) : step = state := by
  revert same
  cases step <;> cases state <;> decide

theorem Good.pass (good : Good state.index.val results)
    (noise : 3 ≤ state.index.val → 0 < results.adcNoiseRmsA ∧ results.adcNoiseRmsA < noiseThreshold) :
    Good (state.index.val + 1) (results.pass state true) := by
  obtain ⟨offsetA, offsetB, offsetC, gainVdc, gainA, gainB, gainC, -, passed⟩ := good
  refine ⟨offsetA, offsetB, offsetC, gainVdc, gainA, gainB, gainC, fun late => noise (Nat.le_of_lt_succ late), ?_⟩
  intro step active below
  by_cases here : step = state
  · rw [here]
    exact Vector.getElem_set_self state.index.isLt
  · have apart : state.index.val ≠ step.index.val := fun same => here (index_inj (Fin.ext same.symm))
    have kept : (results.pass state true).passed.get step.index = results.passed.get step.index :=
      Vector.getElem_set_ne state.index.isLt step.index.isLt apart
    rw [kept]
    exact passed step active (by omega)

theorem Good.here (good : Good state.index.val results) (early : state.index.val < 3 ∨ 3 < state.index.val) :
    Good (state.index.val + 1) (results.pass state true) := by
  refine good.pass fun late => good.noise ?_
  omega

/-- In a step that has not measured yet, in this half of the gate check. -/
structure Amid (m : Meters) (half : Bool) (step : FsmState) (fsm : HwStartup ℝ) : Prop where
  state : fsm.state = step
  unmeasured : fsm.stepDone = false
  unasked : fsm.nextStepRequested = false
  limit : fsm.ocLimit = limit
  gate : fsm.gatePhaseDisabled = half
  voltage : fsm.extVdc = m.voltage
  sweep : step.index.val ≤ 10 → fsm.sweepPos = 0 ∧ fsm.sweepNoiseA = Vector.replicate nSweepSteps 0
  good : Good step.index.val fsm.results

/-- At the start of a step. -/
structure Begins (m : Meters) (step : FsmState) (fsm : HwStartup ℝ) : Prop extends Amid m true step fsm where
  fresh : fsm.clearSamples = fsm

/-- A step has passed. -/
structure Measured (m : Meters) (step : FsmState) (fsm : HwStartup ℝ) : Prop where
  state : fsm.state = step
  measured : fsm.stepDone = true
  limit : fsm.ocLimit = limit
  gate : fsm.gatePhaseDisabled = true
  voltage : fsm.extVdc = m.voltage
  sweep : step.index.val < 10 → fsm.sweepPos = 0 ∧ fsm.sweepNoiseA = Vector.replicate nSweepSteps 0
  good : Good (step.index.val + 1) fsm.results

/-! ### On to the next step -/

def goOn (m : Meters) (motorConnected : Bool) : List (Step ℝ) :=
  [⟨id, .requestNextStep motorConnected⟩, sampling m .zero]

theorem small_zero : Small .zero := by
  have zero : |(Scalar.zero : ℝ)| ≤ 6.0 := by
    rw [Scalar.zero_exact, abs_zero]
    norm_num
  exact ⟨zero, zero, zero⟩

/-- The aid once it is asked for the next step. -/
def asking (fsm : HwStartup ℝ) : HwStartup ℝ := { fsm with nextStepRequested := true }

theorem requestNextStep_asks (here : fsm.state = state) (active : state.active = true)
    (measured : fsm.stepDone = true) : fsm.requestNextStep (state = .connectMotor) = (.accepted, asking fsm) := by
  have running : fsm.isActive = true := by
    rw [isActive, here]
    exact active
  unfold requestNextStep asking
  rw [needs_measured running measured, here, running, measured]
  by_cases barrier : state = .connectMotor
  · simp [barrier]
  · simp [barrier]

theorem Measured.next (measured : Measured m state fsm) (active : state.active = true) (goesOn : state.next ≠ .done)
    (b : Board ℝ) : Begins m state.next ((asking fsm).advanceToNextState b).1 := by
  have following := next_index active
  obtain ⟨same, -, limit, gate, voltage, sweep, good⟩ := measured
  unfold advanceToNextState asking
  dsimp only
  rw [same, if_neg goesOn]
  refine ⟨⟨rfl, rfl, rfl, limit, gate, voltage, fun early => sweep (by omega), ?_⟩, rfl⟩
  rw [following]
  obtain ⟨offsetA, offsetB, offsetC, gainVdc, gainA, gainB, gainC, noise, passed⟩ := good
  exact ⟨offsetA, offsetB, offsetC, gainVdc, gainA, gainB, gainC, noise, passed⟩

theorem Meters.valid (m : Meters) : ¬m.voltage < vdcMinValid := not_lt_of_gt m.charged

theorem Measured.valid (measured : Measured m state fsm) (other : state ≠ .currentSenseCalibration) :
    (asking fsm).validateCurrentState = true := by
  have calibrating : ¬((asking fsm).state = .currentSenseCalibration ∧ (asking fsm).extCurrent < 1e-3) :=
    fun now => other (measured.state.symm.trans now.1)
  have low : ¬((asking fsm).state = .dcLinkVoltageCheck ∧ (asking fsm).extVdc < vdcMinValid) := by
    rintro ⟨-, low⟩
    have below : fsm.extVdc < vdcMinValid := low
    rw [measured.voltage] at below
    exact m.valid below
  unfold validateCurrentState
  rw [if_neg calibrating, if_neg low]

theorem Measured.leaves (measured : Measured m state fsm) (active : state.active = true)
    (other : state ≠ .pwmDisable ∧ state ≠ .connectMotor ∧ state ≠ .currentSenseCalibration)
    (finds : Finds m on currents b) :
    ∃ after, Bench on after ∧ (asking fsm).runStep b = (asking fsm).advanceToNextState after := by
  obtain ⟨disabling, barrier, calibrating⟩ := other
  have done : (asking fsm).stepDone = true := measured.measured
  have here : (asking fsm).state = state := measured.state
  have goesOn (c : Board ℝ) : (asking fsm).continueWhenAsked c = (asking fsm).advanceToNextState c := by
    unfold continueWhenAsked
    rw [measured.valid calibrating, done]
    rfl
  have forced (da db dc : ℝ) : Bench on (b.forceDuty da db dc) := (finds.forceDuty da db dc).toBench
  unfold runStep
  rw [here]
  cases state with
  | idle | done | fault => cases active
  | pwmDisable => exact absurd rfl disabling
  | connectMotor => exact absurd rfl barrier
  | currentSenseCalibration => exact absurd rfl calibrating
  | adcOffsetCal | adcNoiseFloor | dutyForceLow | dutyForceMid | dutyForceHigh | dcLinkVoltageCheck
  | phaseAdcAlignment => exact ⟨_, forced _ _ _, (if_pos done).trans (goesOn _)⟩
  | gateDriverEnableCheck => exact ⟨b, finds.toBench, (if_pos done).trans (goesOn _)⟩

theorem advanceToNextState_later (goesOn : fsm.state.next ≠ .done) (b c : Board ℝ) :
    fsm.advanceToNextState b = ((fsm.advanceToNextState c).1, b) := by
  unfold advanceToNextState
  simp only [if_neg goesOn]

theorem At.asked (place : At on fsm s) (here : fsm.state = state) (active : state.active = true)
    (done : fsm.stepDone = true) : At on (asking fsm) (s.next ⟨id, .requestNextStep (state = .connectMotor)⟩) := by
  obtain ⟨rfl, bench⟩ := place
  unfold Session.next HwStartup.call
  dsimp only
  rw [requestNextStep_asks here active done]
  exact ⟨rfl, bench⟩

/-- The run goes on with the next step. -/
theorem At.continued {passed : HwStartup ℝ} (place : At on fsm s) (here : fsm.state = state)
    (limit : fsm.ocLimit = limit) (done : fsm.stepDone = true) (measured : Measured m state passed)
    (active : state.active = true) (goesOn : state.next ≠ .done) (released : state = .connectMotor ∨ on = true)
    (leaves : ∀ b, Finds m on .zero b →
      ∃ after, Bench off after ∧ (asking fsm).runStep b = (asking passed).advanceToNextState after) :
    ∃ after, Begins m state.next after ∧ At off after (s.run (goOn m (state = .connectMotor))) := by
  have running : Runs on (asking fsm) := by
    refine ⟨?_, limit, here ▸ released⟩
    show fsm.state.active = true
    rw [here]
    exact active
  have asked := place.asked here active done
  have onward : (asking passed).state.next ≠ .done := by
    show passed.state.next ≠ .done
    rw [measured.state]
    exact goesOn
  refine ⟨_, measured.next active goesOn s.board, asked.spin small_zero ⟨running, fun b finds => ?_⟩⟩
  obtain ⟨after, bench, advances⟩ := leaves b finds
  rw [advances, advanceToNextState_later onward after s.board]
  exact ⟨rfl, bench⟩

theorem At.goesOn (place : At true fsm s) (measured : Measured m state fsm) (active : state.active = true)
    (other : state ≠ .pwmDisable ∧ state ≠ .connectMotor ∧ state ≠ .currentSenseCalibration) :
    ∃ after, Begins m state.next after ∧ At true after (s.run (goOn m (state = .connectMotor))) := by
  have goesOn : state.next ≠ .done := by
    obtain ⟨-, -, calibrating⟩ := other
    intro last
    cases state <;> first | exact absurd last (by decide) | exact calibrating rfl | cases active
  exact place.continued measured.state measured.limit measured.measured measured active goesOn (.inr rfl)
    fun b finds => measured.leaves active other finds

theorem Bench.getState (bench : Bench false b) : b.getState = (.disabled, b) := by
  have released : b.stage.getState = .disabled := by
    rw [bench.stage]
    rfl
  unfold Board.getState
  rw [preempt_calm bench.calm]
  simp only [released]

theorem Measured.released (measured : Measured m .connectMotor fsm) (finds : Finds m false currents b) :
    ∃ after, Bench true after ∧ (asking fsm).runStep b = (asking fsm).advanceToNextState after := by
  have forced : Bench false (neutral b) := (finds.forceDuty _ _ _).toBench
  have done : (asking fsm).stepDone = true := measured.measured
  have here : (asking fsm).state = .connectMotor := measured.state
  have entered : (asking fsm).enterBarrier (neutral b) = (asking fsm, neutral b) := by
    unfold enterBarrier
    rw [done]
    rfl
  obtain ⟨enabled, bench⟩ := forced.enable
  refine ⟨_, bench.record .motorReleased, ?_⟩
  unfold runStep
  rw [here]
  dsimp only
  unfold runConnectMotorWait
  rw [entered]
  dsimp only
  rw [done, measured.valid (by decide)]
  unfold releaseMotor
  rw [forced.getState]
  simp only [Bool.and_true, asking, ↓reduceIte, reduceCtorEq, enabled, Bool.not_true, Bool.false_eq_true]

theorem At.connected (place : At false fsm s) (measured : Measured m .connectMotor fsm) :
    ∃ after, Begins m .phaseAdcAlignment after ∧ At true after (s.run (goOn m true)) :=
  place.continued measured.state measured.limit measured.measured measured rfl (by decide) (.inl rfl)
    fun _ finds => measured.released finds

/-- The first step passes when it is left. -/
theorem At.disabled (place : At true fsm s) (begins : Begins m .pwmDisable fsm) :
    ∃ after, Begins m .adcOffsetCal after ∧ At true after (s.run (sampling m .zero :: goOn m false)) := by
  have measures : Spins m true true .zero fsm { fsm with stepDone := true } := by
    refine ⟨⟨?_, begins.limit, .inr rfl⟩, fun b finds => ?_⟩
    · rw [isActive, begins.state]
      rfl
    · have working : fsm.runStep b = fsm.runPwmDisable b := by
        unfold runStep
        rw [begins.state]
      rw [working]
      unfold runPwmDisable
      rw [if_neg (by simp [begins.unasked])]
      exact ⟨rfl, (finds.forceDuty _ _ _).toBench⟩
  let passed : HwStartup ℝ := { fsm with stepDone := true, results := fsm.results.pass .pwmDisable true }
  have measured : Measured m .pwmDisable passed :=
    ⟨begins.state, rfl, begins.limit, begins.gate, begins.voltage, fun _ => begins.sweep (by decide),
      begins.good.here (.inl (by decide))⟩
  refine (place.spin small_zero measures).continued begins.state begins.limit rfl measured rfl (by decide) (.inr rfl)
    fun b finds => ⟨neutral b, (finds.forceDuty _ _ _).toBench, ?_⟩
  have asked : (asking { fsm with stepDone := true }).state = .pwmDisable := begins.state
  have valid : (asking passed).validateCurrentState = true := measured.valid (by decide)
  unfold runStep
  rw [asked]
  dsimp only
  unfold runPwmDisable
  exact if_pos valid

end Passing

end

end Unimoc.Startup
