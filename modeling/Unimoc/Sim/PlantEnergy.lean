import Unimoc.Sim.MotorSimulation

/-! Where the energy of the simulated motor goes, and how large its currents get. -/
namespace Unimoc.Sim.MotorSimulation

open CurrentControl

/-! ### Energy -/

namespace Energy

/-- Of the currents in the inductances. -/
noncomputable def stored (s : MotorSimulation ℝ) : ℝ :=
  match s.model with
  | none => 0
  | some model => 0.75 * (model.parameters.lD * model.current.d ^ 2 + model.parameters.lQ * model.current.q ^ 2)

/-- What an accepted step does at its length; no other call does any work. -/
noncomputable def work (power : PmsmModel ℝ → ℝ) (s : MotorSimulation ℝ) : Call ℝ → ℝ
  | .step timeStep =>
    match s.model with
    | none => 0
    | some model =>
      if 0 < timeStep then timeStep * power (model.step (s.electricalInput timeStep) timeStep) else 0
  | _ => 0

/-- From the inverter into the motor, by the voltages of the step and the currents at its end. -/
noncomputable def electrical (s : MotorSimulation ℝ) (call : Call ℝ) : ℝ :=
  match call with
  | .step timeStep =>
    let voltage := PmsmModel.rotorVoltage (s.electricalInput timeStep)
    work (fun model => 1.5 * (voltage.d * model.current.d + voltage.q * model.current.q)) s call
  | _ => 0

/-- To the shaft, by the torque of the step and the speed it was computed for. -/
noncomputable def shaft (s : MotorSimulation ℝ) (call : Call ℝ) : ℝ :=
  work (fun model => model.electromagneticTorque * s.mechanics.speed) s call

/-- Over calls, oldest first. -/
noncomputable def total (amount : MotorSimulation ℝ → Call ℝ → ℝ) : MotorSimulation ℝ → List (Call ℝ) → ℝ
  | _, [] => 0
  | s, call :: rest => amount s call + total amount (s.next call) rest

theorem statorVoltage_off {inverter : InverterModel ℝ} (off : inverter.enabled = false) (dcLinkVoltage : ℝ) :
    inverter.statorVoltage dcLinkVoltage = ⟨0, 0⟩ := by
  rw [InverterModel.statorVoltage, ThreePhase.toStator_exact]
  simp [InverterModel.phaseVoltages, off, Scalar.zero_exact]

theorem torque_exact (model : PmsmModel ℝ) : model.electromagneticTorque =
    3 / 2 * ((model.parameters.fluxPm + (model.parameters.lD - model.parameters.lQ) * model.current.d) *
      model.current.q * model.parameters.polePairs.toNat) := by
  have half : (1.5 : ℝ) = 3 / 2 := by norm_num
  have pairs : (Scalar.ofUInt64 model.parameters.polePairs.toUInt64 : ℝ) = model.parameters.polePairs.toNat := rfl
  unfold PmsmModel.electromagneticTorque
  rw [half, pairs]
  ring

end Energy

open Energy

/-- Three duties span a hexagon. -/
theorem hexagon {a b c : ℝ} (first : 0 ≤ a ∧ a ≤ 1) (second : 0 ≤ b ∧ b ≤ 1) (third : 0 ≤ c ∧ c ≤ 1) :
    a ^ 2 + b ^ 2 + c ^ 2 - a * b - b * c - c * a ≤ 1 := by
  have below {x : ℝ} (range : 0 ≤ x ∧ x ≤ 1) : x ^ 2 ≤ x := by
    rw [sq]
    exact mul_le_of_le_one_left range.1 range.2
  have corner := mul_nonneg (mul_nonneg (sub_nonneg.mpr first.2) (sub_nonneg.mpr second.2)) (sub_nonneg.mpr third.2)
  have other := mul_nonneg (mul_nonneg first.1 second.1) third.1
  linarith [below first, below second, below third]

theorem statorVoltage_le {inverter : InverterModel ℝ} (range : InRange inverter.duties) {dcLinkVoltage : ℝ}
    (nonneg : 0 ≤ dcLinkVoltage) :
    ‖(⟨(inverter.statorVoltage dcLinkVoltage).alpha, (inverter.statorVoltage dcLinkVoltage).beta⟩ : ℂ)‖ ≤
      2 / 3 * dcLinkVoltage := by
  obtain ⟨a, b, c⟩ := range
  refine abs_le_of_sq_le_sq' ?_ (by positivity) |>.2
  rw [Rotation.norm_sq]
  cases on : inverter.enabled with
  | false =>
    rw [Energy.statorVoltage_off on]
    norm_num
    positivity
  | true =>
    have constant : sqrt3By2 ^ 2 ≤ 3 / 4 := by
      unfold sqrt3By2
      norm_num
    have across := mul_le_mul_of_nonneg_right constant (sq_nonneg (inverter.duties.b - inverter.duties.c))
    have sides := mul_le_mul_of_nonneg_left (hexagon a b c) (sq_nonneg dcLinkVoltage)
    have scaled := mul_le_mul_of_nonneg_left across (sq_nonneg dcLinkVoltage)
    rw [InverterModel.statorVoltage, ThreePhase.toStator_exact]
    simp only [InverterModel.phaseVoltages, on, Bool.not_true, Bool.false_eq_true, if_false]
    linarith

/-- The transform makes no voltage longer. -/
theorem rotorVoltage_le (input : ElectricalInput ℝ) :
    ‖(⟨(PmsmModel.rotorVoltage input).d, (PmsmModel.rotorVoltage input).q⟩ : ℂ)‖ ≤
      ‖(⟨input.statorVoltage.alpha, input.statorVoltage.beta⟩ : ℂ)‖ := by
  obtain ⟨-, short⟩ := PortableSinCosProvider.calculate_length input.electricalAngle.raw
  refine abs_le_of_sq_le_sq' ?_ (norm_nonneg _) |>.2
  have scaled := mul_le_mul_of_nonneg_left short
    (add_nonneg (sq_nonneg input.statorVoltage.alpha) (sq_nonneg input.statorVoltage.beta))
  rw [Rotation.norm_sq, Rotation.norm_sq, PmsmModel.rotorVoltage, Stator.toRotor]
  linarith

theorem drivingVoltage_le (parameters : PmsmParameters ℝ) (input : ElectricalInput ℝ) :
    ‖PmsmModel.drivingVoltage parameters input‖ ≤
      ‖(⟨input.statorVoltage.alpha, input.statorVoltage.beta⟩ : ℂ)‖ + |input.electricalSpeed * parameters.fluxPm| := by
  have parts : PmsmModel.drivingVoltage parameters input =
      (⟨(PmsmModel.rotorVoltage input).d, (PmsmModel.rotorVoltage input).q⟩ : ℂ) -
        (⟨0, input.electricalSpeed * parameters.fluxPm⟩ : ℂ) := by
    apply Complex.ext
    · simp [PmsmModel.drivingVoltage]
    · simp [PmsmModel.drivingVoltage]
  have magnet : ‖(⟨0, input.electricalSpeed * parameters.fluxPm⟩ : ℂ)‖ = |input.electricalSpeed * parameters.fluxPm| := by
    refine (sq_eq_sq₀ (norm_nonneg _) (abs_nonneg _)).mp ?_
    rw [Rotation.norm_sq, sq_abs]
    ring
  rw [parts, ← magnet]
  exact (norm_sub_le _ _).trans (add_le_add_left (rotorVoltage_le input) _)

/-- Calls with a limited supply whose steps start at speeds with a limited back-EMF. -/
noncomputable def limited (voltage backEmf : ℝ) : Runs.Machine (MotorSimulation ℝ) (Call ℝ) where
  start := unconfigured
  next := next
  admits s
    | .step _ => s.parameters.dcLinkVoltage ≤ voltage ∧
        ∀ model, s.model = some model → |s.electricalSpeed * model.parameters.fluxPm| ≤ backEmf
    | _ => True

/-- Of the flux linkage the currents make. -/
noncomputable def fluxLimit (voltage backEmf : ℝ) (parameters : PmsmParameters ℝ) : ℝ :=
  (2.0 / 3.0 * voltage + backEmf) * PmsmModel.largestInductance parameters / parameters.statorResistance

theorem fluxLimit_eq (voltage backEmf : ℝ) (parameters : PmsmParameters ℝ) : fluxLimit voltage backEmf parameters =
    (2 / 3 * voltage + backEmf) * PmsmModel.largestInductance parameters / parameters.statorResistance := by
  have share : (2.0 / 3.0 : ℝ) = 2 / 3 := by norm_num
  rw [fluxLimit, share]

def Bounded (voltage backEmf : ℝ) (s : MotorSimulation ℝ) : Prop :=
  ∀ model, s.model = some model →
    ‖PmsmModel.flux model.parameters model.current‖ ≤ fluxLimit voltage backEmf model.parameters

section Limited

variable {voltage backEmf : ℝ} {s : MotorSimulation ℝ}

theorem flux_zero (parameters : PmsmParameters ℝ) : PmsmModel.flux parameters ⟨0, 0⟩ = 0 := by
  apply Complex.ext <;> simp [PmsmModel.flux]

/-- Without currents no limit is reached. -/
theorem reset_bounded (nonneg : 0 ≤ voltage ∧ 0 ≤ backEmf) (checked : ∀ model, s.model = some model →
    PmsmModel.Valid model.parameters) : Bounded voltage backEmf s.reset := by
  intro model found
  obtain ⟨before, was, rfl⟩ := Option.map_eq_some_iff.mp found
  have valid := checked before was
  have currentless : before.reset.current = ⟨0, 0⟩ := by simp [PmsmModel.reset, Scalar.zero_exact]
  have most := (PmsmModel.largestInductance_pos valid).le
  have resistance := valid.resistance.le
  rw [currentless, flux_zero, norm_zero, fluxLimit_eq]
  show 0 ≤ (2 / 3 * voltage + backEmf) * PmsmModel.largestInductance before.parameters /
    before.parameters.statorResistance
  have sum : 0 ≤ 2 / 3 * voltage + backEmf := by linarith
  positivity

variable (checked : Checked s) (bounded : Bounded voltage backEmf s)
include checked

theorem step_bounded (bounded : Bounded voltage backEmf s) (timeStep : ℝ)
    (admitted : (limited voltage backEmf).admits s (.step timeStep)) :
    Bounded voltage backEmf (s.step timeStep).2 := by
  obtain ⟨supply, slow⟩ := admitted
  rcases step_cases timeStep s with ⟨-, same⟩ | ⟨model, found, positive, -, stepped, -⟩
  · rw [same]
    exact bounded
  · obtain ⟨valid, -, -⟩ := checked.model model found
    have inside := bounded model found
    intro after present
    rw [stepped] at present
    obtain rfl := Option.some.inj present
    rw [PmsmModel.step_parameters]
    have least := (norm_nonneg _).trans inside
    cases on : s.inverter.enabled with
    | false =>
      have currentless : (model.step (s.electricalInput timeStep) timeStep).current = ⟨0, 0⟩ := by
        simp [PmsmModel.step, electricalInput, on, PmsmModel.reset, Scalar.zero_exact]
      rw [currentless, flux_zero, norm_zero]
      exact least
    | true =>
      have implicit := @PmsmModel.step_implicit model.parameters valid (s.electricalInput timeStep) timeStep positive on
        model.current
      have accretive := PmsmModel.losses_accretive valid positive (s.electricalInput timeStep)
        (model.step (s.electricalInput timeStep) timeStep).current
      refine Resolvent.bounded (PmsmModel.decay_pos valid positive).le implicit.balance accretive inside ?_
      have drive := (drivingVoltage_le model.parameters (s.electricalInput timeStep)).trans
        (add_le_add (statorVoltage_le checked.duties checked.supply.le) (slow model found))
      have most := PmsmModel.largestInductance_pos valid
      have resistance := valid.resistance
      have balance : PmsmModel.decay model.parameters timeStep * fluxLimit voltage backEmf model.parameters =
          timeStep * (2 / 3 * voltage + backEmf) := by
        rw [PmsmModel.decay, fluxLimit_eq]
        field_simp
      rw [norm_mul, Complex.norm_real, Real.norm_of_nonneg positive.le, balance]
      refine mul_le_mul_of_nonneg_left (drive.trans ?_) positive.le
      linarith

theorem next_bounded (nonneg : 0 ≤ voltage ∧ 0 ≤ backEmf) (bounded : Bounded voltage backEmf s) (call : Call ℝ)
    (admitted : (limited voltage backEmf).admits s call) : Bounded voltage backEmf (s.next call) := by
  have idle {t : MotorSimulation ℝ} (same : t.model = s.model) : Bounded voltage backEmf t :=
    fun model found => bounded model (same ▸ found)
  cases call with
  | configure parameters =>
    rcases configure_cases parameters s with ⟨-, same⟩ | ⟨-, -, -, valid, result⟩
    · exact idle (congrArg MotorSimulation.model same)
    · rw [next, result]
      exact reset_bounded nonneg fun model found => by cases found; exact valid
  | reset => exact reset_bounded nonneg fun model found => (checked.model model found).1
  | setDcLinkVoltage voltage =>
    refine idle ?_
    unfold next setDcLinkVoltage
    simp only
    split <;> rfl
  | step timeStep => exact step_bounded checked bounded timeStep admitted
  | _ => exact idle rfl

end Limited

/-- As long as the supply and the back-EMF stay limited, so do the currents, whatever the duties, the
angles, the step lengths and the order of the calls. -/
theorem run_bounded (voltage backEmf : ℝ) (nonneg : 0 ≤ voltage ∧ 0 ≤ backEmf) (trace : List (Call ℝ))
    (legal : (limited voltage backEmf).Legal trace) (model : PmsmModel ℝ)
    (configured : ((limited voltage backEmf).replay trace).model = some model) :
    model.parameters.statorResistance * ‖PmsmModel.flux model.parameters model.current‖ ≤
      (2 / 3 * voltage + backEmf) * PmsmModel.largestInductance model.parameters := by
  have kept := Runs.Machine.invariant
    (fun s _ => Consistent s ∧ Bounded voltage backEmf s) ⟨unconfigured_consistent, (by intro _ found; cases found)⟩
    (fun call _ before admitted => ⟨next_consistent before.1 call,
      next_bounded before.1.checked nonneg before.2 call admitted⟩) trace legal
  obtain ⟨consistent, bounded⟩ := kept
  have resistance := (consistent.checked.model model configured).1.resistance
  have limit := bounded model configured
  rwa [fluxLimit_eq, le_div_iff₀ resistance, mul_comm] at limit

theorem configure_accepted {parameters : SimulationParameters ℝ} (supply : 0 < parameters.dcLinkVoltage)
    (pmsm : parameters.motorType = .pmsm) (mechanics : MechanicalModel.Valid parameters.mechanics)
    (valid : PmsmModel.Valid parameters.pmsm) (s : MotorSimulation ℝ) : (s.configure parameters).1 = .ok := by
  have shaft : (MechanicalModel.init parameters.mechanics).validate = .ok := (MechanicalModel.validate_ok _).mpr mechanics
  have motor : (⟨parameters.pmsm, ⟨Scalar.zero, Scalar.zero⟩⟩ : PmsmModel ℝ).validate = .ok :=
    (PmsmModel.validate_ok _).mpr valid
  unfold configure
  rw [Scalar.zero_exact, if_neg supply.not_ge]
  simp only [shaft, pmsm, ← Scalar.zero_exact, motor]
  rfl

/-- Twelve volts and a motor of ones. -/
noncomputable def unitDrive : SimulationParameters ℝ := ⟨.pmsm, PmsmModel.unitMotor, ⟨1, 0, 0⟩, 0, 12.0⟩

theorem unitDrive_configured : next unconfigured (.configure unitDrive) =
    { unconfigured with
      parameters := unitDrive
      model := some ⟨PmsmModel.unitMotor, ⟨Scalar.zero, Scalar.zero⟩⟩
      polePairs := 1
      mechanics := .init ⟨1, 0, 0⟩
      hall := ⟨0, .none⟩ }.reset := by
  have motor : PmsmModel.Valid PmsmModel.unitMotor := (PmsmModel.validate_ok _).mp (PmsmModel.unitMotor_valid ⟨0, 0⟩)
  have accepted := @configure_accepted unitDrive (by norm_num [unitDrive]) rfl
    ⟨one_pos, le_rfl, le_rfl⟩ motor unconfigured
  rcases configure_cases unitDrive unconfigured with ⟨refused, -⟩ | ⟨-, -, -, -, result⟩
  · exact absurd accepted refused
  · exact result

/-- A second with all of it on one phase of the motor at rest. -/
theorem run_bounded_twelve :
    ∃ model, ((limited 12 0).replay [.step 1, .setBridgeEnabled true, .setPhaseDuties ⟨1, 0, 0⟩,
        .configure unitDrive]).model = some model ∧
      model.parameters.statorResistance * ‖PmsmModel.flux model.parameters model.current‖ ≤
        (2 / 3 * 12 + 0) * PmsmModel.largestInductance model.parameters := by
  obtain ⟨before, start⟩ : ∃ s, s = (limited 12 0).replay
    [.setBridgeEnabled true, .setPhaseDuties ⟨1, 0, 0⟩, .configure unitDrive] := ⟨_, rfl⟩
  have present : before.model = some ⟨PmsmModel.unitMotor, ⟨Scalar.zero, Scalar.zero⟩⟩ := by
    rw [start]
    simp only [Runs.Machine.replay_cons, limited, Runs.Machine.replay_nil, unitDrive_configured]
    rfl
  have supply : before.parameters.dcLinkVoltage = 12 := by
    rw [start]
    simp only [Runs.Machine.replay_cons, limited, Runs.Machine.replay_nil, unitDrive_configured]
    show (12.0 : ℝ) = 12
    norm_num
  have rest : before.electricalSpeed = 0 := by
    rw [start]
    simp only [Runs.Machine.replay_cons, limited, Runs.Machine.replay_nil, unitDrive_configured]
    show Scalar.zero * _ = (0 : ℝ)
    rw [Scalar.zero_exact, zero_mul]
  have legal : (limited 12 0).Legal [.step 1, .setBridgeEnabled true, .setPhaseDuties ⟨1, 0, 0⟩,
      .configure unitDrive] := by
    refine ⟨?_, trivial, trivial, trivial, trivial⟩
    rw [← start]
    exact ⟨supply.le, fun model _ => by rw [rest, zero_mul, abs_zero]⟩
  have last : (limited 12 0).replay [.step 1, .setBridgeEnabled true, .setPhaseDuties ⟨1, 0, 0⟩,
      .configure unitDrive] = (before.step 1).2 := by
    rw [Runs.Machine.replay_cons, ← start]
    rfl
  have stepped : (before.step 1).2.model = some (PmsmModel.step (before.electricalInput 1) 1
      ⟨PmsmModel.unitMotor, ⟨Scalar.zero, Scalar.zero⟩⟩) := by
    have positive : ¬(1 : ℝ) ≤ Scalar.zero := by norm_num [Scalar.zero_exact]
    simp only [step, present, if_neg positive]
    rfl
  have found := (congrArg MotorSimulation.model last).trans stepped
  exact ⟨_, found, run_bounded 12 0 (by norm_num) _ legal _ found⟩

end Unimoc.Sim.MotorSimulation
