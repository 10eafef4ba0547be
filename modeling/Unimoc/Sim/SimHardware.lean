import Unimoc.CurrentControl.HallQueue
import Unimoc.Sim.PlantEnergy

/-! The hardware layer of the simulation: control cycles around the plant, power stage, overcurrent
check, Hall capture and the controls of the tests. -/
namespace Unimoc.Sim

open CurrentControl Hardware Settings

abbrev Duties (F : Type) := Vector (ThreePhase F) numSubSteps

structure SimHardware (F : Type) where
  powerStage : PowerStage
  plant : MotorSimulation F
  initialized : Bool
  halfPeriod : F
  halfPeriodNs : UInt64
  cycleNs : UInt64
  samples : ControlCycleSamples F
  /-- Of the last sample. -/
  timestamp : UInt32
  plan : Duties F
  carry : ThreePhase F
  applied : Duties F
  /-- None until one is set: infinite. -/
  overcurrentLimit : Option F
  currentOverride : Option (ThreePhase F)
  cycleCount : UInt32
  hallEvents : HallEventQueue
  lastHallCode : UInt8
  hallOverride : Option UInt8
  freeRunning : Bool
  paused : Bool

/-- What the control cycle and the observer ask of the hardware. -/
inductive HotPathCall (F : Type)
  | setDutyPlan (plan : Duties F)
  | tripPowerStage
  | popHallEvent

inductive HardwareCall (F : Type)
  | init (pwmFrequency : F)
  | stop
  | runCycle (handlers : List (HotPathCall F))
  | enable
  | disable
  | trip
  | clearFault
  | setExternalEnable (present : Bool)
  | setOvercurrentLimit (limit : F)
  | setPhaseCurrentOverride (currents : Option (ThreePhase F))
  | setHallCodeOverride (code : Option UInt8)
  | plant (call : MotorSimulation.Call F)
  | setFreeRunning (running : Bool)
  | setPaused (paused : Bool)
  | reset

namespace SimHardware

def hallCapacity : UInt32 := 16

section Calls

variable {F : Type} [Arithmetic F]

def neutral : ThreePhase F := ⟨0.5, 0.5, 0.5⟩

def neutralDuties : Duties F := Vector.replicate numSubSteps neutral

def noSamples : ControlCycleSamples F := ⟨Vector.replicate numSubSteps ThreePhase.none, Scalar.zero, false⟩

def powerOn : SimHardware F where
  powerStage := .powerOn true
  plant := .unconfigured
  initialized := false
  halfPeriod := Scalar.zero
  halfPeriodNs := 0
  cycleNs := 0
  samples := noSamples
  timestamp := 0
  plan := neutralDuties
  carry := neutral
  applied := neutralDuties
  overcurrentLimit := none
  currentOverride := none
  cycleCount := 0
  hallEvents := ⟨List.replicate hallCapacity.toNat ⟨0, 0⟩, 0, 0, 0, 0⟩
  lastHallCode := 0
  hallOverride := none
  freeRunning := false
  paused := false

def measuredCurrents (hw : SimHardware F) : ThreePhase F := hw.currentOverride.getD hw.plant.output.phaseCurrents

def measuredHallCode (hw : SimHardware F) : UInt8 := hw.hallOverride.getD hw.plant.output.hall.code

def captureHall (timeNs : UInt64) (hw : SimHardware F) : SimHardware F :=
  let code := hw.measuredHallCode
  if code = hw.lastHallCode then hw
  else
    let edgeNs :=
      if hw.hallOverride.isNone && hw.plant.output.hall.edge then
        timeNs - Scalar.toUInt64 (hw.plant.output.hall.edgeAge * (1.0e9 : F))
      else timeNs
    { hw with
      lastHallCode := code
      hallEvents := ((HallEventQueue.push hallCapacity ⟨code, edgeNs.toUInt32⟩).run hw.hallEvents).2 }

def virtualTimeNs (hw : SimHardware F) : UInt64 := hw.cycleCount.toUInt64 * hw.cycleNs

/-- The queue holds only the present code. -/
def restartHallCapture (hw : SimHardware F) : SimHardware F :=
  { hw with
    hallEvents := hw.hallEvents.setTail hw.hallEvents.head
    lastHallCode := 0 }.captureHall hw.virtualTimeNs

def exceeds (limit : Option F) (currents : ThreePhase F) : Bool :=
  limit.any fun limit =>
    decide (limit < Scalar.abs currents.a) || decide (limit < Scalar.abs currents.b) ||
      decide (limit < Scalar.abs currents.c)

def hotPath (hw : SimHardware F) : HotPathCall F → SimHardware F
  | .setDutyPlan plan => { hw with plan }
  | .tripPowerStage => { hw with powerStage := hw.powerStage.trip }
  | .popHallEvent => { hw with hallEvents := ((HallEventQueue.pop hallCapacity).run hw.hallEvents).2 }

/-- The half period `k` and the sample at its end: the plan is one half period late. -/
def halfPeriodStep (startNs : UInt64) (k : Nat) (hw : SimHardware F) (next : ControlCycleSamples F) :
    SimHardware F × ControlCycleSamples F :=
  let duty := if k = 0 then hw.carry else hw.plan.getD (k - 1) neutral
  let plant := (hw.plant.setBridgeEnabled hw.powerStage.enabled).setPhaseDuties duty
  let hw := { hw with applied := hw.applied.setIfInBounds k duty, plant := (plant.step hw.halfPeriod).2 }
  let hw := hw.captureHall (startNs + UInt64.ofNat (k + 1) * hw.halfPeriodNs)
  let next := { next with phaseCurrents := next.phaseCurrents.setIfInBounds k hw.measuredCurrents }
  if exceeds hw.overcurrentLimit hw.measuredCurrents then
    ({ hw with powerStage := hw.powerStage.trip }, { next with overcurrent := true })
  else (hw, next)

def halfPeriods (startNs : UInt64) (count : Nat) (hw : SimHardware F) : SimHardware F × ControlCycleSamples F :=
  (List.range count).foldl (fun done k => halfPeriodStep startNs k done.1 done.2) (hw, noSamples)

/-- `handlers` is what the control cycle and then the observer call. -/
def runCycle (handlers : List (HotPathCall F)) (hw : SimHardware F) : SimHardware F :=
  if !hw.initialized then hw
  else
    let hw := handlers.foldl hotPath hw
    let startNs := hw.virtualTimeNs
    let (hw, next) := hw.halfPeriods startNs numSubSteps
    { hw with
      samples := { next with dcLink := hw.plant.output.dcLinkVoltage }
      timestamp := (startNs + UInt64.ofNat numSubSteps * hw.halfPeriodNs).toUInt32
      carry := hw.plan.getD (numSubSteps - 1) neutral
      cycleCount := hw.cycleCount + 1 }

def resetCycleState (hw : SimHardware F) : SimHardware F :=
  { hw with
    samples := { noSamples with dcLink := hw.plant.output.dcLinkVoltage }
    timestamp := 0
    plan := neutralDuties
    carry := neutral
    applied := neutralDuties
    cycleCount := 0 }

def setFreeRunning (running : Bool) (hw : SimHardware F) : SimHardware F := { hw with freeRunning := running }

/-- `factory` are the settings of the profile. -/
def init (factory : NvmSettings) (pwmFrequency : F) (hw : SimHardware F) : SimHardware F :=
  let pwmHz := Scalar.toUInt64 pwmFrequency
  if pwmHz = 0 then hw
  else
    let hw := hw.setFreeRunning false
    let plant := if hw.plant.isConfigured then hw.plant else (hw.plant.configure (parametersFromSettings factory)).2
    let hw := { hw with
      plant
      initialized := true
      halfPeriod := 1.0 / (2.0 * pwmFrequency)
      cycleNs := UInt64.ofNat numSubSteps * 1000000000 / (2 * pwmHz)
      halfPeriodNs := 1000000000 / (2 * pwmHz) }
    let hw := hw.resetCycleState.restartHallCapture
    if hw.paused then hw else hw.setFreeRunning true

def stop (hw : SimHardware F) : SimHardware F := if hw.initialized then hw.setFreeRunning false else hw

def setPaused (paused : Bool) (hw : SimHardware F) : SimHardware F :=
  { hw with paused }.setFreeRunning (!paused && hw.initialized)

def reset (hw : SimHardware F) : SimHardware F :=
  { hw with
    plant := hw.plant.reset
    currentOverride := none
    powerStage := { hw.powerStage with enabled := false, fault := !hw.powerStage.externalEnable }
    }.resetCycleState.restartHallCapture

variable (factory : NvmSettings)

def next (hw : SimHardware F) : HardwareCall F → SimHardware F
  | .init pwmFrequency => hw.init factory pwmFrequency
  | .stop => hw.stop
  | .runCycle handlers => hw.runCycle handlers
  | .enable => { hw with powerStage := hw.powerStage.enable.2 }
  | .disable => { hw with powerStage := hw.powerStage.disable }
  | .trip => { hw with powerStage := hw.powerStage.trip }
  | .clearFault => { hw with powerStage := hw.powerStage.clearFault }
  | .setExternalEnable present => { hw with powerStage := hw.powerStage.setExternalEnable present }
  | .setOvercurrentLimit limit => { hw with overcurrentLimit := some limit }
  | .setPhaseCurrentOverride currents => { hw with currentOverride := currents }
  | .setHallCodeOverride code => { hw with hallOverride := code }
  | .plant call => { hw with plant := hw.plant.next call }
  | .setFreeRunning running => hw.setFreeRunning running
  | .setPaused paused => hw.setPaused paused
  | .reset => hw.reset

/-- The timer runs a cycle or a test steps one; the other calls come in between. -/
def machine : Runs.Machine (SimHardware F) (HardwareCall F) where
  start := powerOn
  next := next factory
  admits _ _ := True

end Calls

section Captured

variable {F : Type} [Arithmetic F] (timeNs : UInt64) (hw : SimHardware F)

/-- The capture touches nothing but its queue. -/
theorem captureHall_rest : ∃ events code, hw.captureHall timeNs = { hw with hallEvents := events, lastHallCode := code } := by
  unfold captureHall
  simp only
  split
  · exact ⟨hw.hallEvents, hw.lastHallCode, rfl⟩
  · exact ⟨_, _, rfl⟩

@[simp] theorem captureHall_plant : (hw.captureHall timeNs).plant = hw.plant := by
  obtain ⟨events, code, same⟩ := captureHall_rest timeNs hw
  rw [same]

@[simp] theorem captureHall_powerStage : (hw.captureHall timeNs).powerStage = hw.powerStage := by
  obtain ⟨events, code, same⟩ := captureHall_rest timeNs hw
  rw [same]

@[simp] theorem captureHall_overcurrentLimit : (hw.captureHall timeNs).overcurrentLimit = hw.overcurrentLimit := by
  obtain ⟨events, code, same⟩ := captureHall_rest timeNs hw
  rw [same]

@[simp] theorem captureHall_currentOverride : (hw.captureHall timeNs).currentOverride = hw.currentOverride := by
  obtain ⟨events, code, same⟩ := captureHall_rest timeNs hw
  rw [same]

@[simp] theorem captureHall_halfPeriod : (hw.captureHall timeNs).halfPeriod = hw.halfPeriod := by
  obtain ⟨events, code, same⟩ := captureHall_rest timeNs hw
  rw [same]

@[simp] theorem captureHall_initialized : (hw.captureHall timeNs).initialized = hw.initialized := by
  obtain ⟨events, code, same⟩ := captureHall_rest timeNs hw
  rw [same]

end Captured

/-! ### A plant without a bridge -/

def Idle (plant : MotorSimulation ℝ) : Prop := ∀ model, plant.model = some model → model.current = ⟨0, 0⟩

theorem Idle.output {plant : MotorSimulation ℝ} (idle : Idle plant) (shown : MotorSimulation.Shown plant) :
    plant.output.rotorCurrent = ⟨0, 0⟩ ∧ plant.output.electromagneticTorque = 0 ∧
      plant.output.phaseCurrents = ⟨0, 0, 0⟩ := by
  have electrical : plant.electricalOutput.rotorCurrent = ⟨0, 0⟩ ∧ plant.electricalOutput.torque = 0 := by
    unfold MotorSimulation.electricalOutput
    cases found : plant.model with
    | none => simp [Scalar.zero_exact]
    | some model =>
      refine ⟨idle model found, ?_⟩
      show model.electromagneticTorque = 0
      rw [MotorSimulation.Energy.torque_exact, idle model found]
      ring
  have rotor := shown.rotorCurrent.trans electrical.1
  refine ⟨rotor, shown.torque.trans electrical.2, ?_⟩
  rw [shown.phaseCurrents, rotor, ThreePhase.toThreePhase_exact]
  simp [Rotor.toStator]

theorem step_idle {plant : MotorSimulation ℝ} (off : plant.inverter.enabled = false) {timeStep : ℝ}
    (positive : 0 < timeStep) : Idle (plant.step timeStep).2 := by
  intro after found
  rcases MotorSimulation.step_cases timeStep plant with ⟨refused, same⟩ | ⟨model, -, -, -, stepped, -⟩
  · rw [same] at found
    have accepted : (plant.step timeStep).1 = .ok := by
      simp [MotorSimulation.step, found, Scalar.zero_exact, positive.not_ge]
    exact absurd accepted refused
  · rw [stepped] at found
    obtain rfl := Option.some.inj found
    simp [PmsmModel.step, MotorSimulation.electricalInput, off, PmsmModel.reset, Scalar.zero_exact]

/-! ### The half periods of a cycle -/

theorem getD_set {A : Type} {n : Nat} (values : Vector A n) (place other : Nat) (value default : A) (inside : place < n) :
    (values.setIfInBounds place value).getD other default =
      if other = place then value else values.getD other default := by
  have size : values.toArray.size = n := values.size_toArray
  rw [Vector.getD, Vector.getD, Vector.toArray_setIfInBounds, Array.getD_eq_getD_getElem?, Array.getD_eq_getD_getElem?,
    Array.getElem?_setIfInBounds]
  rcases eq_or_ne other place with rfl | apart
  · rw [if_pos rfl, if_pos rfl, if_pos (by rwa [size]), Option.getD_some]
  · rw [if_neg apart.symm, if_neg apart]

/-- Tripped, and not released since. -/
def Off (stage : PowerStage) : Prop := stage.fault = true ∧ stage.enabled = false

noncomputable def sample (samples : ControlCycleSamples ℝ) (k : Nat) : ThreePhase ℝ :=
  samples.phaseCurrents.getD k ⟨0, 0, 0⟩

/-- After `count` half periods of a cycle. -/
structure Sampled (start : SimHardware ℝ) (count : Nat) (hw : SimHardware ℝ) (samples : ControlCycleSamples ℝ) : Prop where
  limit : hw.overcurrentLimit = start.overcurrentLimit
  override : hw.currentOverride = start.currentOverride
  halfPeriod : hw.halfPeriod = start.halfPeriod
  initialized : hw.initialized = start.initialized
  consistent : MotorSimulation.Consistent hw.plant
  flagged : samples.overcurrent = true ↔ ∃ k < count, exceeds start.overcurrentLimit (sample samples k) = true
  tripped : samples.overcurrent = true → Off hw.powerStage
  kept : Off start.powerStage → Off hw.powerStage
  idle : Off start.powerStage → 0 < count → Idle hw.plant
  quiet : start.currentOverride = none → ∀ i j, i < j → j < count →
    exceeds start.overcurrentLimit (sample samples i) = true → sample samples j = ⟨0, 0, 0⟩
  replaced : ∀ currents, start.currentOverride = some currents → ∀ k < count, sample samples k = currents

/-- What a half period does, apart from the capture. -/
structure Stepped (count : Nat) (hw : SimHardware ℝ) (samples : ControlCycleSamples ℝ) (after : SimHardware ℝ)
    (taken : ControlCycleSamples ℝ) (duty : ThreePhase ℝ) (measured : ThreePhase ℝ) : Prop where
  plant : after.plant =
    (((hw.plant.setBridgeEnabled hw.powerStage.enabled).setPhaseDuties duty).step hw.halfPeriod).2
  reading : measured = hw.currentOverride.getD after.plant.output.phaseCurrents
  powerStage : after.powerStage = if exceeds hw.overcurrentLimit measured then hw.powerStage.trip else hw.powerStage
  limit : after.overcurrentLimit = hw.overcurrentLimit
  override : after.currentOverride = hw.currentOverride
  halfPeriod : after.halfPeriod = hw.halfPeriod
  initialized : after.initialized = hw.initialized
  phaseCurrents : taken.phaseCurrents = samples.phaseCurrents.setIfInBounds count measured
  overcurrent : taken.overcurrent = (samples.overcurrent || exceeds hw.overcurrentLimit measured)

theorem halfPeriodStep_stepped (startNs : UInt64) (count : Nat) (hw : SimHardware ℝ) (samples : ControlCycleSamples ℝ) :
    ∃ duty measured, Stepped count hw samples (halfPeriodStep startNs count hw samples).1
      (halfPeriodStep startNs count hw samples).2 duty measured := by
  obtain ⟨duty, given⟩ : ∃ duty, duty = if count = 0 then hw.carry else hw.plan.getD (count - 1) neutral := ⟨_, rfl⟩
  refine ⟨duty, hw.currentOverride.getD
    (((hw.plant.setBridgeEnabled hw.powerStage.enabled).setPhaseDuties duty).step hw.halfPeriod).2.output.phaseCurrents, ?_⟩
  unfold halfPeriodStep
  simp only [← given, measuredCurrents, captureHall_plant, captureHall_overcurrentLimit, captureHall_currentOverride]
  split
  · rename_i above
    constructor <;> simp [above]
  · rename_i fine
    constructor <;> simp [fine]

theorem Sampled.step {start hw : SimHardware ℝ} {count : Nat} {samples : ControlCycleSamples ℝ}
    (before : Sampled start count hw samples) (inside : count < numSubSteps) (positive : 0 < start.halfPeriod)
    (startNs : UInt64) : Sampled start (count + 1) (halfPeriodStep startNs count hw samples).1
      (halfPeriodStep startNs count hw samples).2 := by
  obtain ⟨duty, measured, stepped⟩ := halfPeriodStep_stepped startNs count hw samples
  obtain ⟨after, first⟩ : ∃ after, after = (halfPeriodStep startNs count hw samples).1 := ⟨_, rfl⟩
  obtain ⟨taken, second⟩ : ∃ taken, taken = (halfPeriodStep startNs count hw samples).2 := ⟨_, rfl⟩
  rw [← first, ← second] at stepped ⊢
  have places (k : Nat) : sample taken k = if k = count then measured else sample samples k := by
    rw [sample, stepped.phaseCurrents, getD_set _ _ _ _ _ inside]
    rfl
  have kept : Off hw.powerStage → Off after.powerStage := by
    intro off
    rw [stepped.powerStage]
    split
    · exact ⟨rfl, rfl⟩
    · exact off
  have idles : Off hw.powerStage → Idle after.plant := by
    intro off
    rw [stepped.plant, before.halfPeriod]
    refine step_idle ?_ positive
    exact off.2
  have consistent : MotorSimulation.Consistent after.plant := by
    rw [stepped.plant]
    refine MotorSimulation.step_consistent ?_ _
    exact MotorSimulation.next_consistent (MotorSimulation.next_consistent before.consistent (.setBridgeEnabled _))
      (.setPhaseDuties duty)
  refine ⟨stepped.limit.trans before.limit, stepped.override.trans before.override,
    stepped.halfPeriod.trans before.halfPeriod, stepped.initialized.trans before.initialized, consistent, ?_, ?_,
    fun off => kept (before.kept off), fun off _ => idles (before.kept off), ?_, ?_⟩
  · rw [stepped.overcurrent, Bool.or_eq_true, before.flagged, before.limit]
    constructor
    · rintro (⟨k, earlier, above⟩ | above)
      · exact ⟨k, by omega, by rwa [places, if_neg earlier.ne]⟩
      · exact ⟨count, by omega, by rwa [places, if_pos rfl]⟩
    · rintro ⟨k, within, above⟩
      rw [places] at above
      rcases eq_or_ne k count with rfl | earlier
      · exact .inr (by rwa [if_pos rfl] at above)
      · exact .inl ⟨k, by omega, by rwa [if_neg earlier] at above⟩
  · intro flagged
    rw [stepped.overcurrent, Bool.or_eq_true] at flagged
    rcases flagged with earlier | above
    · exact kept (before.tripped earlier)
    · rw [stepped.powerStage, if_pos above]
      exact ⟨rfl, rfl⟩
  · intro free i j order last above
    rw [places, if_neg (by omega)] at above
    rcases eq_or_ne j count with rfl | earlier
    · have off := before.tripped (before.flagged.mpr ⟨i, order, above⟩)
      have nothing := ((idles off).output consistent.shown).2.2
      rw [places, if_pos rfl, stepped.reading, before.override, free]
      exact nothing
    · rw [places, if_neg earlier]
      exact before.quiet free i j order (by omega) above
  · intro currents given k within
    rw [places]
    split
    · rw [stepped.reading, before.override, given, Option.getD_some]
    · exact before.replaced currents given k (by omega)

theorem halfPeriods_sampled {start : SimHardware ℝ} (consistent : MotorSimulation.Consistent start.plant)
    (positive : 0 < start.halfPeriod) (startNs : UInt64) {count : Nat} (inside : count ≤ numSubSteps) :
    Sampled start count (start.halfPeriods startNs count).1 (start.halfPeriods startNs count).2 := by
  unfold halfPeriods
  induction count with
  | zero =>
    refine ⟨rfl, rfl, rfl, rfl, consistent, ?_, nofun, id, nofun, ?_, ?_⟩
    · simp [noSamples]
    · intro _ i j _ last
      exact absurd last (Nat.not_lt_zero j)
    · intro _ _ k within
      exact absurd within (Nat.not_lt_zero k)
  | succ count ih =>
    rw [List.range_succ, List.foldl_append, List.foldl_cons, List.foldl_nil]
    exact (ih (by omega)).step inside positive startNs

/-! ### Runs -/

structure Kept (hw : SimHardware ℝ) : Prop where
  consistent : MotorSimulation.Consistent hw.plant
  halfPeriod : hw.initialized = true → 0 < hw.halfPeriod

theorem hotPath_rest (hw : SimHardware ℝ) (handlers : List (HotPathCall ℝ)) :
    (handlers.foldl hotPath hw).plant = hw.plant ∧ (handlers.foldl hotPath hw).halfPeriod = hw.halfPeriod ∧
      (handlers.foldl hotPath hw).initialized = hw.initialized ∧
      (handlers.foldl hotPath hw).overcurrentLimit = hw.overcurrentLimit ∧
      (handlers.foldl hotPath hw).currentOverride = hw.currentOverride ∧
      (Off hw.powerStage → Off (handlers.foldl hotPath hw).powerStage) := by
  induction handlers generalizing hw with
  | nil => exact ⟨rfl, rfl, rfl, rfl, rfl, id⟩
  | cons call rest ih =>
    obtain ⟨plant, halfPeriod, initialized, limit, override, off⟩ := ih (hotPath hw call)
    rw [List.foldl_cons]
    cases call with
    | tripPowerStage => exact ⟨plant, halfPeriod, initialized, limit, override, fun _ => off ⟨rfl, rfl⟩⟩
    | _ => exact ⟨plant, halfPeriod, initialized, limit, override, off⟩

/-- What a cycle of the initialised hardware leaves behind. -/
theorem runCycle_sampled {hw : SimHardware ℝ} (kept : Kept hw) (ready : hw.initialized = true)
    (handlers : List (HotPathCall ℝ)) :
    ∃ start : SimHardware ℝ, start.overcurrentLimit = hw.overcurrentLimit ∧ start.currentOverride = hw.currentOverride ∧
      start.initialized = true ∧ start.halfPeriod = hw.halfPeriod ∧ (Off hw.powerStage → Off start.powerStage) ∧
      Sampled start numSubSteps (hw.runCycle handlers) (hw.runCycle handlers).samples := by
  obtain ⟨plant, halfPeriod, initialized, limit, override, off⟩ := hotPath_rest hw handlers
  refine ⟨handlers.foldl hotPath hw, limit, override, initialized.trans ready, halfPeriod, off, ?_⟩
  have sampled := halfPeriods_sampled (plant ▸ kept.consistent) (halfPeriod ▸ kept.halfPeriod ready)
    (handlers.foldl hotPath hw).virtualTimeNs (le_refl numSubSteps)
  unfold runCycle
  rw [ready]
  dsimp only
  generalize (handlers.foldl hotPath hw).halfPeriods (handlers.foldl hotPath hw).virtualTimeNs numSubSteps = cycle
    at sampled ⊢
  obtain ⟨a, b, c, d, e, f, g, h, i, j, k⟩ := sampled
  exact ⟨a, b, c, d, e, f, g, h, i, j, k⟩

variable (factory : NvmSettings)

theorem frequency_pos {frequency : ℝ} (nonzero : Scalar.toUInt64 frequency ≠ 0) : 0 < frequency := by
  by_contra nonpos
  have noFrequency : ⌊frequency⌋₊ = 0 := Nat.floor_of_nonpos (not_lt.mp nonpos)
  apply nonzero
  show UInt64.ofNat ⌊frequency⌋₊ = 0
  rw [noFrequency]
  rfl

theorem init_refused {frequency : ℝ} (noFrequency : Scalar.toUInt64 frequency = 0) (hw : SimHardware ℝ) :
    hw.init factory frequency = hw := by
  unfold init
  simp only [if_pos noFrequency]

section Accepted

variable {frequency : ℝ} (nonzero : Scalar.toUInt64 frequency ≠ 0) (hw : SimHardware ℝ)
include nonzero

theorem init_plant : (hw.init factory frequency).plant =
    if hw.plant.isConfigured = true then hw.plant else (hw.plant.configure (parametersFromSettings factory)).2 := by
  unfold init
  simp only [if_neg nonzero]
  rw [apply_ite SimHardware.plant]
  simp only [restartHallCapture, resetCycleState, setFreeRunning, captureHall_plant, ite_self]
  rfl

theorem init_initialized : (hw.init factory frequency).initialized = true := by
  unfold init
  simp only [if_neg nonzero]
  rw [apply_ite SimHardware.initialized]
  simp [restartHallCapture, resetCycleState, setFreeRunning]

theorem init_halfPeriod : (hw.init factory frequency).halfPeriod = 1.0 / (2.0 * frequency) := by
  unfold init
  simp only [if_neg nonzero]
  rw [apply_ite SimHardware.halfPeriod]
  simp [restartHallCapture, resetCycleState, setFreeRunning]

theorem init_powerStage : (hw.init factory frequency).powerStage = hw.powerStage := by
  unfold init
  simp only [if_neg nonzero]
  rw [apply_ite SimHardware.powerStage]
  simp [restartHallCapture, resetCycleState, setFreeRunning]

end Accepted

theorem init_kept {hw : SimHardware ℝ} (kept : Kept hw) (frequency : ℝ) : Kept (hw.init factory frequency) := by
  rcases eq_or_ne (Scalar.toUInt64 frequency) 0 with noFrequency | nonzero
  · rwa [init_refused factory noFrequency]
  · have positive := frequency_pos nonzero
    constructor
    · rw [init_plant factory nonzero]
      split
      · exact kept.consistent
      · exact MotorSimulation.configure_consistent kept.consistent _
    · intro _
      rw [init_halfPeriod factory nonzero]
      positivity

theorem next_kept {hw : SimHardware ℝ} (kept : Kept hw) (call : HardwareCall ℝ) : Kept (hw.next factory call) := by
  cases call with
  | init frequency => exact init_kept factory kept frequency
  | runCycle handlers =>
    cases ready : hw.initialized with
    | false => rwa [next, runCycle, ready]
    | true =>
      obtain ⟨start, -, -, initialized, halfPeriod, -, sampled⟩ := runCycle_sampled kept ready handlers
      refine ⟨sampled.consistent, fun _ => ?_⟩
      rw [next, sampled.halfPeriod, halfPeriod]
      exact kept.halfPeriod ready
  | plant call => exact ⟨MotorSimulation.next_consistent kept.consistent call, kept.halfPeriod⟩
  | stop =>
    unfold next stop
    simp only
    split <;> exact ⟨kept.consistent, kept.halfPeriod⟩
  | reset =>
    have plant := MotorSimulation.reset_consistent kept.consistent.checked.supply kept.consistent.checked.model
    exact ⟨by simpa [next, reset, restartHallCapture, resetCycleState] using plant,
      by simpa [next, reset, restartHallCapture, resetCycleState] using kept.halfPeriod⟩
  | _ => exact ⟨kept.consistent, kept.halfPeriod⟩

/-- Nothing but an acknowledgement or a reset of the simulation gives the power stage free. -/
theorem next_off {hw : SimHardware ℝ} (kept : Kept hw) (off : Off hw.powerStage) {call : HardwareCall ℝ}
    (held : call ≠ .clearFault ∧ call ≠ .reset) : Off (hw.next factory call).powerStage := by
  obtain ⟨broken, disabled⟩ := off
  cases call with
  | init frequency =>
    rw [next]
    rcases eq_or_ne (Scalar.toUInt64 frequency) 0 with noFrequency | nonzero
    · rw [init_refused factory noFrequency]
      exact ⟨broken, disabled⟩
    · rw [init_powerStage factory nonzero]
      exact ⟨broken, disabled⟩
  | stop =>
    unfold next stop
    simp only
    split <;> exact ⟨broken, disabled⟩
  | runCycle handlers =>
    cases ready : hw.initialized with
    | false =>
      rw [next, runCycle, ready]
      exact ⟨broken, disabled⟩
    | true =>
      obtain ⟨start, -, -, -, -, off, sampled⟩ := runCycle_sampled kept ready handlers
      exact sampled.kept (off ⟨broken, disabled⟩)
  | enable => simp [next, PowerStage.enable, Off, broken, disabled]
  | disable => exact ⟨broken, rfl⟩
  | trip => exact ⟨rfl, rfl⟩
  | setExternalEnable present =>
    cases present <;> simp [next, PowerStage.setExternalEnable, PowerStage.trip, Off, broken, disabled]
  | clearFault => exact absurd rfl held.1
  | reset => exact absurd rfl held.2
  | _ => exact ⟨broken, disabled⟩

theorem replay_kept (trace : List (HardwareCall ℝ)) : Kept ((machine factory).replay trace) :=
  @Runs.Machine.stays _ _ (machine factory) Kept
    ⟨MotorSimulation.unconfigured_consistent, by intro ready; cases ready⟩
    (fun _ call kept => next_kept factory kept call) trace

theorem replay_off {trace : List (HardwareCall ℝ)} (off : Off ((machine factory).replay trace).powerStage)
    (later : List (HardwareCall ℝ)) (held : ∀ call ∈ later, call ≠ .clearFault ∧ call ≠ .reset) :
    Off ((machine factory).replay (later ++ trace)).powerStage := by
  induction later with
  | nil => exact off
  | cons call later ih =>
    have before := ih fun other mem => held other (by simp [mem])
    exact next_off factory (replay_kept factory _) before (held call (by simp))

theorem next_initialized {hw : SimHardware ℝ} (kept : Kept hw) (ready : hw.initialized = true) (call : HardwareCall ℝ) :
    (hw.next factory call).initialized = true := by
  cases call with
  | init frequency =>
    rw [next]
    rcases eq_or_ne (Scalar.toUInt64 frequency) 0 with noFrequency | nonzero
    · rwa [init_refused factory noFrequency]
    · exact init_initialized factory nonzero hw
  | runCycle handlers =>
    obtain ⟨start, -, -, initialized, -, -, sampled⟩ := runCycle_sampled kept ready handlers
    exact sampled.initialized.trans initialized
  | stop =>
    unfold next stop
    simp only
    split <;> exact ready
  | reset => simpa [next, reset, restartHallCapture, resetCycleState] using ready
  | _ => exact ready

theorem replay_initialized {trace : List (HardwareCall ℝ)} (ready : ((machine factory).replay trace).initialized = true)
    (later : List (HardwareCall ℝ)) : ((machine factory).replay (later ++ trace)).initialized = true := by
  induction later with
  | nil => exact ready
  | cons call later ih => exact next_initialized factory (replay_kept factory _) ih call

/-- A cycle reports an overcurrent exactly when one of its samples exceeds the limit; the samples after
that one are free of current, and until the fault is acknowledged every later cycle ends without
current and torque, whatever else is called. -/
theorem trip_stops (past : List (HardwareCall ℝ)) (ready : ((machine factory).replay past).initialized = true)
    (handlers : List (HotPathCall ℝ)) :
    (((machine factory).replay (.runCycle handlers :: past)).samples.overcurrent = true ↔
      ∃ k < numSubSteps, exceeds ((machine factory).replay past).overcurrentLimit
        (sample ((machine factory).replay (.runCycle handlers :: past)).samples k) = true) ∧
    (((machine factory).replay past).currentOverride = none → ∀ i j, i < j → j < numSubSteps →
      exceeds ((machine factory).replay past).overcurrentLimit
        (sample ((machine factory).replay (.runCycle handlers :: past)).samples i) = true →
      sample ((machine factory).replay (.runCycle handlers :: past)).samples j = ⟨0, 0, 0⟩) ∧
    (((machine factory).replay (.runCycle handlers :: past)).samples.overcurrent = true →
      ∀ later : List (HardwareCall ℝ), (∀ call ∈ later, call ≠ .clearFault ∧ call ≠ .reset) → ∀ last,
        let after := (machine factory).replay (.runCycle last :: (later ++ .runCycle handlers :: past))
        Off after.powerStage ∧ after.plant.output.rotorCurrent = ⟨0, 0⟩ ∧
          after.plant.output.electromagneticTorque = 0 ∧ after.plant.output.phaseCurrents = ⟨0, 0, 0⟩) := by
  have kept := replay_kept factory past
  obtain ⟨start, limit, override, -, -, -, sampled⟩ := runCycle_sampled kept ready handlers
  have cycle : (machine factory).replay (.runCycle handlers :: past) = ((machine factory).replay past).runCycle handlers :=
    rfl
  rw [cycle, ← limit, ← override]
  refine ⟨sampled.flagged, sampled.quiet, ?_⟩
  intro flagged later held last
  rw [← cycle] at sampled flagged
  have off := replay_off factory (sampled.tripped flagged) later held
  have initial : ((machine factory).replay (.runCycle handlers :: past)).initialized = true :=
    next_initialized factory kept ready (.runCycle handlers)
  have running := replay_initialized factory initial later
  obtain ⟨again, -, -, -, -, stays, ended⟩ := runCycle_sampled (replay_kept factory _) running last
  have idle := ended.idle (stays off) (by decide)
  obtain ⟨rotor, torque, phases⟩ := idle.output ended.consistent.shown
  exact ⟨ended.kept (stays off), rotor, torque, phases⟩

/-- A fault injected before the first cycle: two amperes against a limit of one. -/
noncomputable def injected : List (HardwareCall ℝ) :=
  [.setPhaseCurrentOverride (some ⟨2.0, 0, 0⟩), .setOvercurrentLimit 1, .init 16000.0]

theorem injected_ready : ((machine NvmSettings.default).replay injected).initialized = true := by
  have frequency : Scalar.toUInt64 (16000.0 : ℝ) ≠ 0 := by
    have whole : ⌊(16000.0 : ℝ)⌋₊ = 16000 := by norm_num
    show UInt64.ofNat ⌊(16000.0 : ℝ)⌋₊ ≠ 0
    rw [whole]
    decide
  exact init_initialized NvmSettings.default frequency powerOn

theorem trip_stops_injected :
    ((machine NvmSettings.default).replay
      (.runCycle [] :: .enable :: .runCycle [] :: injected)).plant.output.electromagneticTorque = 0 := by
  obtain ⟨flagged, -, stops⟩ := trip_stops NvmSettings.default injected injected_ready []
  obtain ⟨start, limit, override, -, -, -, sampled⟩ := runCycle_sampled
    (replay_kept NvmSettings.default injected) injected_ready []
  have above : ((machine NvmSettings.default).replay (.runCycle [] :: injected)).samples.overcurrent = true := by
    refine flagged.mpr ⟨0, by decide, ?_⟩
    have reading := sampled.replaced ⟨2.0, 0, 0⟩ override 0 (by decide)
    have cycle : (machine NvmSettings.default).replay (.runCycle [] :: injected) =
        ((machine NvmSettings.default).replay injected).runCycle [] := rfl
    have most : ((machine NvmSettings.default).replay injected).overcurrentLimit = some 1 := rfl
    rw [cycle, reading, most]
    norm_num [exceeds, Scalar.abs_exact]
  exact (stops above [.enable] (by simp) []).2.2.1

end SimHardware

end Unimoc.Sim
