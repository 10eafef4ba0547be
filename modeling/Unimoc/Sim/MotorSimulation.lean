import Unimoc.CurrentControl.Modulator
import Unimoc.Lib.Runs
import Unimoc.Sim.HallSensor
import Unimoc.Sim.MechanicalModel

/-! The simulated drive: inverter, motor, shaft and Hall sensors, and the calls that set and
advance it. -/
namespace Unimoc.Sim

open CurrentControl Settings

structure InverterModel (F : Type) where
  duties : ThreePhase F
  enabled : Bool

namespace InverterModel

variable {F : Type} [Arithmetic F]

def init : InverterModel F := ⟨⟨0.5, 0.5, 0.5⟩, false⟩

def clamp (duty : F) : F := Scalar.clamp duty Scalar.zero (1.0 : F)

def setDuties (duties : ThreePhase F) (inverter : InverterModel F) : InverterModel F :=
  { inverter with duties := ⟨clamp duties.a, clamp duties.b, clamp duties.c⟩ }

/-- The star point is isolated: the common mode does not reach the windings. -/
def phaseVoltages (dcLinkVoltage : F) (inverter : InverterModel F) : ThreePhase F :=
  if !inverter.enabled then ⟨Scalar.zero, Scalar.zero, Scalar.zero⟩
  else
    let terminalA := dcLinkVoltage * inverter.duties.a
    let terminalB := dcLinkVoltage * inverter.duties.b
    let terminalC := dcLinkVoltage * inverter.duties.c
    let commonMode := (terminalA + terminalB + terminalC) / 3.0
    ⟨terminalA - commonMode, terminalB - commonMode, terminalC - commonMode⟩

def statorVoltage (dcLinkVoltage : F) (inverter : InverterModel F) : Stator F :=
  (inverter.phaseVoltages dcLinkVoltage).toStator

end InverterModel

inductive MotorType
  | pmsm
  | asm
  | eesm
deriving DecidableEq

/-- Codes without a name are of no motor type the simulation has. -/
def MotorType.ofNatural8 (code : UInt8) : MotorType := if code = 0 then .pmsm else if code = 1 then .asm else .eesm

structure SimulationParameters (F : Type) where
  motorType : MotorType
  pmsm : PmsmParameters F
  mechanics : MechanicalParameters F
  hallOffset : F
  dcLinkVoltage : F

structure SimulationOutput (F : Type) where
  phaseCurrents : ThreePhase F
  phaseVoltages : ThreePhase F
  dcLinkVoltage : F
  rotorCurrent : Rotor F
  fieldCurrent : F
  electromagneticTorque : F
  mechanicalAngle : RotorAngle
  mechanicalSpeed : F
  electricalAngle : RotorAngle
  electricalSpeed : F
  hall : HallSignals F

/-- `model` is absent until a configuration is accepted. -/
structure MotorSimulation (F : Type) where
  parameters : SimulationParameters F
  model : Option (PmsmModel F)
  polePairs : UInt8
  inverter : InverterModel F
  mechanics : MechanicalModel F
  hall : HallSensor F
  loadTorque : F
  output : SimulationOutput F

section Defaults

variable {F : Type} [Arithmetic F]

def PmsmParameters.defaults : PmsmParameters F := ⟨1, 0.1, 1.0e-3, 1.0e-3, Scalar.zero⟩

def MechanicalParameters.defaults : MechanicalParameters F := ⟨1.0e-4, Scalar.zero, Scalar.zero⟩

def SimulationParameters.defaults : SimulationParameters F := ⟨.pmsm, .defaults, .defaults, Scalar.zero, 48.0⟩

/-- Friction, Hall offset and DC-link voltage keep their defaults. -/
def parametersFromSettings (settings : NvmSettings) : SimulationParameters F :=
  { SimulationParameters.defaults with
    motorType := .ofNatural8 (settings.natural8 .motorType)
    pmsm :=
      { polePairs := settings.natural8 .polePairs
        statorResistance := settings.real .statorR
        lD := settings.real .lD
        lQ := settings.real .lQ
        fluxPm := settings.real .fluxPm }
    mechanics := { MechanicalParameters.defaults with inertia := settings.real .motorJ } }

def ThreePhase.none : ThreePhase F := ⟨Scalar.zero, Scalar.zero, Scalar.zero⟩

def HallSignals.none : HallSignals F := ⟨0, false, Scalar.zero⟩

def SimulationOutput.none : SimulationOutput F where
  phaseCurrents := ThreePhase.none
  phaseVoltages := ThreePhase.none
  dcLinkVoltage := Scalar.zero
  rotorCurrent := ⟨Scalar.zero, Scalar.zero⟩
  fieldCurrent := Scalar.zero
  electromagneticTorque := Scalar.zero
  mechanicalAngle := ⟨0, 0⟩
  mechanicalSpeed := Scalar.zero
  electricalAngle := ⟨0, 0⟩
  electricalSpeed := Scalar.zero
  hall := .none

end Defaults

namespace MotorSimulation

section Calls

variable {F : Type} [Arithmetic F]

def unconfigured : MotorSimulation F where
  parameters := .defaults
  model := none
  polePairs := 0
  inverter := .init
  mechanics := .init .defaults
  hall := ⟨Scalar.zero, .none⟩
  loadTorque := Scalar.zero
  output := .none

def isConfigured (s : MotorSimulation F) : Bool := s.model.isSome

def electricalOutput (s : MotorSimulation F) : ElectricalOutput F :=
  match s.model with
  | none => ⟨⟨Scalar.zero, Scalar.zero⟩, Scalar.zero, Scalar.zero⟩
  | some model => model.output

def electricalSpeed (s : MotorSimulation F) : F := s.mechanics.speed * Scalar.ofUInt64 s.polePairs.toUInt64

/-- The Hall signals are left. -/
def updateOutput (s : MotorSimulation F) : MotorSimulation F :=
  let electrical := s.electricalOutput
  let electricalAngle := s.mechanics.electricalAngle s.polePairs
  { s with output :=
    { s.output with
      electricalAngle
      electricalSpeed := s.electricalSpeed
      mechanicalAngle := s.mechanics.angle
      mechanicalSpeed := s.mechanics.speed
      rotorCurrent := electrical.rotorCurrent
      phaseCurrents :=
        (electrical.rotorCurrent.toStator (PortableSinCosProvider.calculate electricalAngle.raw)).toThreePhase
      phaseVoltages := s.inverter.phaseVoltages s.parameters.dcLinkVoltage
      dcLinkVoltage := s.parameters.dcLinkVoltage
      fieldCurrent := electrical.fieldCurrent
      electromagneticTorque := electrical.torque } }

def resetHall (s : MotorSimulation F) : MotorSimulation F :=
  let hall := s.hall.reset s.output.electricalAngle
  { s with hall, output := { s.output with hall := hall.signals } }

/-- The speed is the mean of the step. -/
def updateHall (startSpeed timeStep : F) (s : MotorSimulation F) : MotorSimulation F :=
  let hall := s.hall.update s.output.electricalAngle ((startSpeed + s.output.electricalSpeed) * (0.5 : F)) timeStep
  { s with hall, output := { s.output with hall := hall.signals } }

def reset (s : MotorSimulation F) : MotorSimulation F :=
  { s with
    model := s.model.map PmsmModel.reset
    mechanics := s.mechanics.reset
    inverter := .init }.updateOutput.resetHall

def configure (parameters : SimulationParameters F) (s : MotorSimulation F) : Status × MotorSimulation F :=
  if parameters.dcLinkVoltage ≤ Scalar.zero then (.invalidDcLinkVoltage, s)
  else
    let mechanics : MechanicalModel F := .init parameters.mechanics
    let mechanicsStatus := mechanics.validate
    if mechanicsStatus ≠ .ok then (mechanicsStatus, s)
    else
      match parameters.motorType with
      | .pmsm =>
        let model : PmsmModel F := ⟨parameters.pmsm, ⟨Scalar.zero, Scalar.zero⟩⟩
        let modelStatus := model.validate
        if modelStatus ≠ .ok then (modelStatus, s)
        else
          (.ok,
            { s with
              parameters
              model := some model
              polePairs := parameters.pmsm.polePairs
              mechanics
              hall := ⟨parameters.hallOffset, .none⟩ }.reset)
      | .asm | .eesm => (.unsupportedMotorType, s)

def setPhaseDuties (duties : ThreePhase F) (s : MotorSimulation F) : MotorSimulation F :=
  { s with inverter := s.inverter.setDuties duties }

def setBridgeEnabled (enabled : Bool) (s : MotorSimulation F) : MotorSimulation F :=
  { s with inverter := { s.inverter with enabled } }

def setDcLinkVoltage (voltage : F) (s : MotorSimulation F) : MotorSimulation F :=
  if Scalar.zero < voltage then
    { s with
      parameters := { s.parameters with dcLinkVoltage := voltage }
      output := { s.output with dcLinkVoltage := voltage } }
  else s

def setInput (loadTorque : F) (s : MotorSimulation F) : MotorSimulation F := { s with loadTorque }

def setShaftMode (mode : ShaftMode) (imposedSpeed : F) (s : MotorSimulation F) : MotorSimulation F :=
  { s with mechanics := s.mechanics.setShaftMode mode imposedSpeed }.updateOutput

def setMechanicalState (angle : RotorAngle) (speed : F) (s : MotorSimulation F) : MotorSimulation F :=
  { s with mechanics := s.mechanics.setState angle speed }.updateOutput.resetHall

/-- The mechanical state is held; the angle is sampled in the middle of the step. -/
def electricalInput (timeStep : F) (s : MotorSimulation F) : ElectricalInput F where
  statorVoltage := s.inverter.statorVoltage s.parameters.dcLinkVoltage
  electricalAngle := s.output.electricalAngle.advance (s.electricalSpeed * timeStep * (0.5 : F))
  electricalSpeed := s.electricalSpeed
  statorConnected := s.inverter.enabled

def step (timeStep : F) (s : MotorSimulation F) : Status × MotorSimulation F :=
  match s.model with
  | none => (.unsupportedMotorType, s)
  | some model =>
    if timeStep ≤ Scalar.zero then (.invalidTimeStep, s)
    else
      let startSpeed := s.electricalSpeed
      let model := model.step (s.electricalInput timeStep) timeStep
      let mechanics := s.mechanics.step model.output.torque s.loadTorque timeStep
      (.ok, ({ s with model := some model, mechanics }.updateOutput).updateHall startSpeed timeStep)

end Calls

inductive Call (F : Type)
  | configure (parameters : SimulationParameters F)
  | reset
  | setPhaseDuties (duties : ThreePhase F)
  | setBridgeEnabled (enabled : Bool)
  | setDcLinkVoltage (voltage : F)
  | setInput (loadTorque : F)
  | setShaftMode (mode : ShaftMode) (imposedSpeed : F)
  | setMechanicalState (angle : RotorAngle) (speed : F)
  | step (timeStep : F)

def next {F : Type} [Arithmetic F] (s : MotorSimulation F) : Call F → MotorSimulation F
  | .configure parameters => (s.configure parameters).2
  | .reset => s.reset
  | .setPhaseDuties duties => s.setPhaseDuties duties
  | .setBridgeEnabled enabled => s.setBridgeEnabled enabled
  | .setDcLinkVoltage voltage => s.setDcLinkVoltage voltage
  | .setInput loadTorque => s.setInput loadTorque
  | .setShaftMode mode imposedSpeed => s.setShaftMode mode imposedSpeed
  | .setMechanicalState angle speed => s.setMechanicalState angle speed
  | .step timeStep => (s.step timeStep).2

/-! ### What the calls keep -/

def InRange (duties : ThreePhase ℝ) : Prop :=
  (0 ≤ duties.a ∧ duties.a ≤ 1) ∧ (0 ≤ duties.b ∧ duties.b ≤ 1) ∧ (0 ≤ duties.c ∧ duties.c ≤ 1)

/-- The parts were checked. -/
structure Checked (s : MotorSimulation ℝ) : Prop where
  duties : InRange s.inverter.duties
  supply : 0 < s.parameters.dcLinkVoltage
  model : ∀ model, s.model = some model →
    PmsmModel.Valid model.parameters ∧ model.parameters.polePairs = s.polePairs ∧
      MechanicalModel.Valid s.mechanics.parameters

/-- The output is that of the states. -/
structure Shown (s : MotorSimulation ℝ) : Prop where
  electricalAngle : s.output.electricalAngle = s.mechanics.electricalAngle s.polePairs
  electricalSpeed : s.output.electricalSpeed = s.electricalSpeed
  mechanicalAngle : s.output.mechanicalAngle = s.mechanics.angle
  mechanicalSpeed : s.output.mechanicalSpeed = s.mechanics.speed
  rotorCurrent : s.output.rotorCurrent = s.electricalOutput.rotorCurrent
  torque : s.output.electromagneticTorque = s.electricalOutput.torque
  phaseCurrents : s.output.phaseCurrents =
    (s.output.rotorCurrent.toStator (PortableSinCosProvider.calculate s.output.electricalAngle.raw)).toThreePhase
  phaseVoltages : s.output.phaseVoltages.a + s.output.phaseVoltages.b + s.output.phaseVoltages.c = 0

/-- From the first configuration on. -/
structure Measured (s : MotorSimulation ℝ) : Prop where
  code : s.isConfigured = true → s.hall.signals.code = s.hall.code s.output.electricalAngle
  hall : s.isConfigured = true → s.output.hall = s.hall.signals
  dcLinkVoltage : s.isConfigured = true → s.output.dcLinkVoltage = s.parameters.dcLinkVoltage

structure Consistent (s : MotorSimulation ℝ) : Prop where
  checked : Checked s
  shown : Shown s
  measured : Measured s

theorem phaseVoltages_sum (dcLinkVoltage : ℝ) (inverter : InverterModel ℝ) :
    (inverter.phaseVoltages dcLinkVoltage).a + (inverter.phaseVoltages dcLinkVoltage).b +
      (inverter.phaseVoltages dcLinkVoltage).c = 0 := by
  have three : (3.0 : ℝ) = 3 := by norm_num
  unfold InverterModel.phaseVoltages
  split
  · norm_num [Scalar.zero_exact]
  · rw [three]
    ring

theorem clamp_range (duty : ℝ) : 0 ≤ InverterModel.clamp duty ∧ InverterModel.clamp duty ≤ 1 := by
  have one : (1.0 : ℝ) = 1 := by norm_num
  rw [InverterModel.clamp, Scalar.clamp_exact, Scalar.zero_exact, one]
  exact ⟨le_min (le_max_right _ _) zero_le_one, min_le_right _ _⟩

theorem half_range : InRange (InverterModel.init : InverterModel ℝ).duties := by
  have half : 0 ≤ (0.5 : ℝ) ∧ (0.5 : ℝ) ≤ 1 := by norm_num
  exact ⟨half, half, half⟩

section Parts

variable {s : MotorSimulation ℝ}

theorem updateOutput_shown (s : MotorSimulation ℝ) : Shown s.updateOutput where
  electricalAngle := rfl
  electricalSpeed := rfl
  mechanicalAngle := rfl
  mechanicalSpeed := rfl
  rotorCurrent := rfl
  torque := rfl
  phaseCurrents := rfl
  phaseVoltages := phaseVoltages_sum _ _

theorem Checked.updateOutput (checked : Checked s) : Checked s.updateOutput :=
  ⟨checked.duties, checked.supply, checked.model⟩

theorem Checked.resetHall (checked : Checked s) : Checked s.resetHall :=
  ⟨checked.duties, checked.supply, checked.model⟩

theorem Checked.updateHall (checked : Checked s) (startSpeed timeStep : ℝ) : Checked (s.updateHall startSpeed timeStep) :=
  ⟨checked.duties, checked.supply, checked.model⟩

theorem Shown.updateHall (shown : Shown s) (startSpeed timeStep : ℝ) : Shown (s.updateHall startSpeed timeStep) :=
  ⟨shown.electricalAngle, shown.electricalSpeed, shown.mechanicalAngle, shown.mechanicalSpeed, shown.rotorCurrent,
    shown.torque, shown.phaseCurrents, shown.phaseVoltages⟩

theorem Shown.resetHall (shown : Shown s) : Shown s.resetHall :=
  ⟨shown.electricalAngle, shown.electricalSpeed, shown.mechanicalAngle, shown.mechanicalSpeed, shown.rotorCurrent,
    shown.torque, shown.phaseCurrents, shown.phaseVoltages⟩

theorem update_code (sensor : HallSensor ℝ) (angle : RotorAngle) (speed timeStep : ℝ) :
    (sensor.update angle speed timeStep).signals.code = (sensor.update angle speed timeStep).code angle := by
  have kept : (sensor.update angle speed timeStep).offset = sensor.offset := by
    unfold HallSensor.update
    simp only
    split <;> rfl
  have same : (sensor.update angle speed timeStep).code angle = sensor.code angle := by
    rw [HallSensor.code, HallSensor.position, kept]
    rfl
  rw [same]
  unfold HallSensor.update
  simp only
  split
  · rename_i equal
    exact equal.symm
  · rfl

theorem updateHall_measured (supply : s.output.dcLinkVoltage = s.parameters.dcLinkVoltage) (startSpeed timeStep : ℝ) :
    Measured (s.updateHall startSpeed timeStep) :=
  ⟨fun _ => update_code _ _ _ _, fun _ => rfl, fun _ => supply⟩

theorem resetHall_measured (supply : s.output.dcLinkVoltage = s.parameters.dcLinkVoltage) : Measured s.resetHall :=
  ⟨fun _ => rfl, fun _ => rfl, fun _ => supply⟩

theorem Checked.advanced (checked : Checked s) (startSpeed timeStep : ℝ) :
    Consistent (s.updateOutput.updateHall startSpeed timeStep) :=
  ⟨checked.updateOutput.updateHall _ _, (updateOutput_shown s).updateHall _ _, updateHall_measured rfl _ _⟩

/-- After both the output is right, whatever it was before. -/
theorem Checked.settled (checked : Checked s) : Consistent s.updateOutput.resetHall :=
  ⟨checked.updateOutput.resetHall, (updateOutput_shown s).resetHall, resetHall_measured rfl⟩

end Parts

/-! ### Calls -/

section Kept

variable {s : MotorSimulation ℝ}

theorem unconfigured_shown : Shown unconfigured := by
  have zeroReal : (Scalar.zero : ℝ) = 0 := Scalar.zero_exact
  refine ⟨?_, ?_, rfl, rfl, rfl, rfl, ?_, ?_⟩
  · have angle : (RotorAngle.mk 0 0) = .fromAbsoluteRaw 0 := by decide
    simpa [unconfigured, SimulationOutput.none, MechanicalModel.electricalAngle, MechanicalModel.init,
      RotorAngle.absoluteRaw] using angle
  · simp [unconfigured, SimulationOutput.none, electricalSpeed, MechanicalModel.init, zeroReal]
  · simp [unconfigured, SimulationOutput.none, Rotor.toStator, Stator.toThreePhase, ThreePhase.none, zeroReal]
  · simp [unconfigured, SimulationOutput.none, ThreePhase.none, zeroReal]

theorem unconfigured_consistent : Consistent unconfigured where
  checked := ⟨half_range, by norm_num [unconfigured, SimulationParameters.defaults], fun _ found => nomatch found⟩
  shown := unconfigured_shown
  measured := ⟨fun on => (nomatch on), fun on => (nomatch on), fun on => (nomatch on)⟩

theorem reset_consistent (supply : 0 < s.parameters.dcLinkVoltage)
    (valid : ∀ model, s.model = some model → PmsmModel.Valid model.parameters ∧
      model.parameters.polePairs = s.polePairs ∧ MechanicalModel.Valid s.mechanics.parameters) :
    Consistent s.reset := by
  refine Checked.settled ⟨half_range, supply, ?_⟩
  intro model found
  obtain ⟨before, was, rfl⟩ := Option.map_eq_some_iff.mp found
  exact valid before was

/-- A refused configuration leaves everything; an accepted one is that of the parameters. -/
theorem configure_cases (parameters : SimulationParameters ℝ) (s : MotorSimulation ℝ) :
    (s.configure parameters).1 ≠ .ok ∧ (s.configure parameters).2 = s ∨
    (s.configure parameters).1 = .ok ∧ 0 < parameters.dcLinkVoltage ∧ MechanicalModel.Valid parameters.mechanics ∧
      PmsmModel.Valid parameters.pmsm ∧
      (s.configure parameters).2 = { s with
        parameters
        model := some ⟨parameters.pmsm, ⟨Scalar.zero, Scalar.zero⟩⟩
        polePairs := parameters.pmsm.polePairs
        mechanics := .init parameters.mechanics
        hall := ⟨parameters.hallOffset, .none⟩ }.reset := by
  unfold configure
  rw [Scalar.zero_exact]
  split
  · exact .inl ⟨nofun, rfl⟩
  · rename_i supply
    simp only
    split
    · rename_i refused
      exact .inl ⟨refused, rfl⟩
    · rename_i mechanics
      have shaft := (MechanicalModel.validate_ok _).mp (not_not.mp mechanics)
      cases parameters.motorType with
      | pmsm =>
        simp only
        split
        · rename_i refused
          exact .inl ⟨refused, rfl⟩
        · rename_i model
          exact .inr ⟨rfl, not_le.mp supply, shaft, (PmsmModel.validate_ok _).mp (not_not.mp model), rfl⟩
      | asm => exact .inl ⟨nofun, rfl⟩
      | eesm => exact .inl ⟨nofun, rfl⟩

theorem configure_consistent (consistent : Consistent s) (parameters : SimulationParameters ℝ) :
    Consistent (s.configure parameters).2 := by
  rcases configure_cases parameters s with ⟨-, same⟩ | ⟨-, supply, mechanics, pmsm, result⟩
  · rw [same]
    exact consistent
  · rw [result]
    refine reset_consistent supply ?_
    intro model found
    cases found
    exact ⟨pmsm, rfl, mechanics⟩

/-- A step is refused, or every part takes it. -/
theorem step_cases (timeStep : ℝ) (s : MotorSimulation ℝ) :
    (s.step timeStep).1 ≠ .ok ∧ (s.step timeStep).2 = s ∨
    ∃ model, s.model = some model ∧ 0 < timeStep ∧ (s.step timeStep).1 = .ok ∧
      (s.step timeStep).2.model = some (model.step (s.electricalInput timeStep) timeStep) ∧
      (s.step timeStep).2.mechanics = s.mechanics.step
        (model.step (s.electricalInput timeStep) timeStep).electromagneticTorque s.loadTorque timeStep := by
  unfold step
  rw [Scalar.zero_exact]
  cases found : s.model with
  | none => exact .inl ⟨nofun, rfl⟩
  | some model =>
    simp only
    split
    · exact .inl ⟨nofun, rfl⟩
    · rename_i positive
      exact .inr ⟨model, rfl, not_le.mp positive, rfl, rfl, rfl⟩

theorem step_consistent (consistent : Consistent s) (timeStep : ℝ) : Consistent (s.step timeStep).2 := by
  unfold step
  cases found : s.model with
  | none => exact consistent
  | some model =>
    simp only
    split
    · exact consistent
    · obtain ⟨pmsm, pairs, shaft⟩ := consistent.checked.model model found
      refine @Checked.advanced { s with
        model := some (model.step (s.electricalInput timeStep) timeStep)
        mechanics := s.mechanics.step (model.step (s.electricalInput timeStep) timeStep).output.torque s.loadTorque
          timeStep } ⟨consistent.checked.duties, consistent.checked.supply, ?_⟩ s.electricalSpeed timeStep
      intro after stepped
      obtain rfl := Option.some.inj stepped
      rw [PmsmModel.step_parameters]
      exact ⟨pmsm, pairs, shaft⟩

/-- What is only taken note of until the next step. -/
theorem Consistent.fed (consistent : Consistent s) {inverter : InverterModel ℝ} (range : InRange inverter.duties)
    (loadTorque : ℝ) : Consistent { s with inverter, loadTorque } := by
  obtain ⟨⟨-, supply, model⟩, shown, measured⟩ := consistent
  refine ⟨⟨range, supply, model⟩, ?_, measured.code, measured.hall, measured.dcLinkVoltage⟩
  exact ⟨shown.electricalAngle, shown.electricalSpeed, shown.mechanicalAngle, shown.mechanicalSpeed,
    shown.rotorCurrent, shown.torque, shown.phaseCurrents, shown.phaseVoltages⟩

theorem setDcLinkVoltage_consistent (consistent : Consistent s) (voltage : ℝ) :
    Consistent (s.setDcLinkVoltage voltage) := by
  unfold setDcLinkVoltage
  rw [Scalar.zero_exact]
  split
  · rename_i positive
    obtain ⟨⟨duties, -, model⟩, shown, measured⟩ := consistent
    refine ⟨⟨duties, positive, model⟩, ?_, measured.code, measured.hall, fun _ => rfl⟩
    exact ⟨shown.electricalAngle, shown.electricalSpeed, shown.mechanicalAngle, shown.mechanicalSpeed,
      shown.rotorCurrent, shown.torque, shown.phaseCurrents, shown.phaseVoltages⟩
  · exact consistent

theorem setShaftMode_consistent (consistent : Consistent s) (mode : ShaftMode) (imposedSpeed : ℝ) :
    Consistent (s.setShaftMode mode imposedSpeed) := by
  have kept : (s.mechanics.setShaftMode mode imposedSpeed).parameters = s.mechanics.parameters ∧
      (s.mechanics.setShaftMode mode imposedSpeed).angle = s.mechanics.angle := by
    unfold MechanicalModel.setShaftMode
    simp only
    split <;> exact ⟨rfl, rfl⟩
  have angle : (s.setShaftMode mode imposedSpeed).output.electricalAngle = s.output.electricalAngle := by
    rw [consistent.shown.electricalAngle, MechanicalModel.electricalAngle, ← kept.2]
    rfl
  have checked := consistent.checked
  refine ⟨Checked.updateOutput ⟨checked.duties, checked.supply, ?_⟩, updateOutput_shown _, ?_⟩
  · intro model found
    exact kept.1 ▸ checked.model model found
  · exact ⟨fun on => (consistent.measured.code on).trans (congrArg s.hall.code angle.symm), consistent.measured.hall,
      fun _ => rfl⟩

theorem setMechanicalState_consistent (consistent : Consistent s) (angle : RotorAngle) (speed : ℝ) :
    Consistent (s.setMechanicalState angle speed) := by
  have kept : (s.mechanics.setState angle speed).parameters = s.mechanics.parameters := by
    unfold MechanicalModel.setState
    simp only
    split <;> rfl
  have checked := consistent.checked
  refine Checked.settled ⟨checked.duties, checked.supply, ?_⟩
  intro model found
  exact kept ▸ checked.model model found

theorem next_consistent (consistent : Consistent s) (call : Call ℝ) : Consistent (s.next call) := by
  cases call with
  | configure parameters => exact configure_consistent consistent parameters
  | reset => exact reset_consistent consistent.checked.supply consistent.checked.model
  | setPhaseDuties duties => exact consistent.fed ⟨clamp_range _, clamp_range _, clamp_range _⟩ s.loadTorque
  | setBridgeEnabled enabled =>
    exact @Consistent.fed s consistent { s.inverter with enabled } consistent.checked.duties s.loadTorque
  | setDcLinkVoltage voltage => exact setDcLinkVoltage_consistent consistent voltage
  | setInput loadTorque => exact consistent.fed consistent.checked.duties loadTorque
  | setShaftMode mode imposedSpeed => exact setShaftMode_consistent consistent mode imposedSpeed
  | setMechanicalState angle speed => exact setMechanicalState_consistent consistent angle speed
  | step timeStep => exact step_consistent consistent timeStep

end Kept

/-! ### Runs -/

noncomputable def run (calls : List (Call ℝ)) : MotorSimulation ℝ := calls.foldl next unconfigured

theorem run_consistent (calls : List (Call ℝ)) : Consistent (run calls) := by
  refine List.foldlRecOn calls next unconfigured_consistent ?_
  intro s consistent call _
  exact next_consistent consistent call

theorem toThreePhase_sum (vector : Stator ℝ) :
    vector.toThreePhase.a + vector.toThreePhase.b + vector.toThreePhase.c = 0 := by
  rw [ThreePhase.toThreePhase_exact]
  ring

/-- After any calls in any order: the phase currents and the phase voltages sum to zero, the
electrical angle and speed are those of the shaft times the pole pairs, the duties are in range, and
once a configuration was accepted the Hall code is that of the angle and a valid one. -/
theorem run_output (calls : List (Call ℝ)) :
    ((run calls).output.phaseCurrents.a + (run calls).output.phaseCurrents.b + (run calls).output.phaseCurrents.c = 0 ∧
      (run calls).output.phaseVoltages.a + (run calls).output.phaseVoltages.b +
        (run calls).output.phaseVoltages.c = 0) ∧
    ((run calls).output.electricalAngle =
        .fromAbsoluteRaw ((run calls).output.mechanicalAngle.absoluteRaw * (run calls).polePairs.toUInt64.toInt64) ∧
      (run calls).output.electricalSpeed = (run calls).output.mechanicalSpeed * (run calls).polePairs.toNat) ∧
    InRange (run calls).inverter.duties ∧
    ((run calls).isConfigured = true →
      (run calls).output.hall.code = (run calls).hall.code (run calls).output.electricalAngle ∧
        (run calls).output.hall.code ≠ 0 ∧ (run calls).output.hall.code ≠ 7 ∧
        (run calls).output.dcLinkVoltage = (run calls).parameters.dcLinkVoltage) := by
  obtain ⟨checked, shown, measured⟩ := run_consistent calls
  refine ⟨⟨?_, shown.phaseVoltages⟩, ⟨?_, ?_⟩, checked.duties, ?_⟩
  · rw [shown.phaseCurrents]
    exact toThreePhase_sum _
  · rw [shown.electricalAngle, shown.mechanicalAngle]
    rfl
  · rw [shown.electricalSpeed, shown.mechanicalSpeed, electricalSpeed]
    rfl
  · intro configured
    rw [measured.hall configured, measured.code configured]
    obtain ⟨first, last⟩ := HallSensor.code_valid (run calls).hall (run calls).output.electricalAngle
    exact ⟨rfl, first, last, measured.dcLinkVoltage configured⟩

end MotorSimulation

end Unimoc.Sim
