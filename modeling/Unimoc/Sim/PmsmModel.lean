import Mathlib.Analysis.Complex.Basic
import Unimoc.CurrentControl.SinCosProvider
import Unimoc.Lib.Resolvent

/-! The simulated permanent-magnet motor: its stator currents in the frame of the rotor, by backward
Euler steps with the speed held. -/
namespace Unimoc.Sim

open CurrentControl

inductive Status
  | ok
  | unsupportedMotorType
  | invalidPolePairs
  | invalidResistance
  | invalidInductance
  | invalidFlux
  | invalidInertia
  | invalidFriction
  | invalidDcLinkVoltage
  | invalidTimeStep
deriving DecidableEq, Repr

/-- The angle is that of the middle of the step. -/
structure ElectricalInput (F : Type) where
  statorVoltage : Stator F
  electricalAngle : RotorAngle
  electricalSpeed : F
  statorConnected : Bool

structure ElectricalOutput (F : Type) where
  rotorCurrent : Rotor F
  torque : F
  fieldCurrent : F

structure PmsmParameters (F : Type) where
  polePairs : UInt8
  statorResistance : F
  lD : F
  lQ : F
  fluxPm : F

structure PmsmModel (F : Type) where
  parameters : PmsmParameters F
  current : Rotor F

namespace PmsmModel

section Steps

variable {F : Type} [Arithmetic F]

def validate (model : PmsmModel F) : Status :=
  let parameters := model.parameters
  if parameters.polePairs = 0 then .invalidPolePairs
  else if parameters.statorResistance ≤ Scalar.zero then .invalidResistance
  else if parameters.lD ≤ Scalar.zero ∨ parameters.lQ ≤ Scalar.zero then .invalidInductance
  else if parameters.fluxPm < Scalar.zero then .invalidFlux
  else .ok

def reset (model : PmsmModel F) : PmsmModel F := { model with current := ⟨Scalar.zero, Scalar.zero⟩ }

def step (input : ElectricalInput F) (timeStep : F) (model : PmsmModel F) : PmsmModel F :=
  if !input.statorConnected then model.reset
  else
    let parameters := model.parameters
    let voltage := input.statorVoltage.toRotor (PortableSinCosProvider.calculate input.electricalAngle.raw)
    let rotation := input.electricalSpeed * timeStep
    let resistiveDt := parameters.statorResistance * timeStep
    let diagonalD := parameters.lD + resistiveDt
    let couplingQ := parameters.lQ * rotation
    let couplingD := parameters.lD * rotation
    let diagonalQ := parameters.lQ + resistiveDt
    let fluxBalanceD := parameters.lD * model.current.d + voltage.d * timeStep
    let fluxBalanceQ := parameters.lQ * model.current.q +
      (voltage.q - input.electricalSpeed * parameters.fluxPm) * timeStep
    let d := (fluxBalanceD + fluxBalanceQ * (couplingQ / diagonalQ)) /
      (diagonalD + couplingQ * (couplingD / diagonalQ))
    let q := (fluxBalanceQ - couplingD * d) / diagonalQ
    { model with current := ⟨d, q⟩ }

def electromagneticTorque (model : PmsmModel F) : F :=
  let flux := model.parameters.fluxPm + (model.parameters.lD - model.parameters.lQ) * model.current.d
  flux * model.current.q * ((1.5 : F) * Scalar.ofUInt64 model.parameters.polePairs.toUInt64)

def output (model : PmsmModel F) : ElectricalOutput F :=
  ⟨model.current, model.electromagneticTorque, Scalar.zero⟩

end Steps

/-! ### The equations of a step -/

/-- Two equations by elimination. -/
theorem eliminated {diagonalD diagonalQ couplingD couplingQ balanceD balanceQ d q : ℝ} (nonzero : diagonalQ ≠ 0)
    (second : q * diagonalQ = balanceQ - couplingD * d)
    (first : d * (diagonalD + couplingQ * (couplingD / diagonalQ)) = balanceD + balanceQ * (couplingQ / diagonalQ)) :
    d * diagonalD = balanceD + q * couplingQ := by
  have balance : balanceQ = q * diagonalQ + couplingD * d := by linarith
  rw [balance] at first
  have parts : (q * diagonalQ + couplingD * d) * (couplingQ / diagonalQ) =
      q * couplingQ + d * (couplingQ * (couplingD / diagonalQ)) := by
    field_simp
  rw [parts] at first
  linarith

/-- What `validate` lets pass. -/
structure Valid (parameters : PmsmParameters ℝ) : Prop where
  polePairs : parameters.polePairs ≠ 0
  resistance : 0 < parameters.statorResistance
  lD : 0 < parameters.lD
  lQ : 0 < parameters.lQ
  flux : 0 ≤ parameters.fluxPm

theorem validate_ok (model : PmsmModel ℝ) : model.validate = .ok ↔ Valid model.parameters := by
  unfold validate
  simp only [Scalar.zero_exact]
  constructor
  · intro ok
    split_ifs at ok with pairs resistance inductance flux
    obtain ⟨lD, lQ⟩ := not_or.mp inductance
    exact ⟨pairs, not_le.mp resistance, not_le.mp lD, not_le.mp lQ, not_lt.mp flux⟩
  · intro ⟨pairs, resistance, lD, lQ, flux⟩
    rw [if_neg pairs, if_neg (not_le.mpr resistance), if_neg (not_or.mpr ⟨not_le.mpr lD, not_le.mpr lQ⟩),
      if_neg (not_lt.mpr flux)]

/-- The voltages of the motor in the frame of the rotor. -/
noncomputable def rotorVoltage (input : ElectricalInput ℝ) : Rotor ℝ :=
  input.statorVoltage.toRotor (PortableSinCosProvider.calculate input.electricalAngle.raw)

/-- The machine equations over one step, everything but the start taken at its end. -/
structure Implicit (parameters : PmsmParameters ℝ) (input : ElectricalInput ℝ) (timeStep : ℝ) (start stop : Rotor ℝ) :
    Prop where
  d : parameters.lD * (stop.d - start.d) = timeStep * ((rotorVoltage input).d -
    parameters.statorResistance * stop.d + input.electricalSpeed * (parameters.lQ * stop.q))
  q : parameters.lQ * (stop.q - start.q) = timeStep * ((rotorVoltage input).q -
    parameters.statorResistance * stop.q - input.electricalSpeed * (parameters.lD * stop.d + parameters.fluxPm))

section Equations

variable {parameters : PmsmParameters ℝ} (valid : Valid parameters) {input : ElectricalInput ℝ} {timeStep : ℝ}
  (positive : 0 < timeStep)
include valid positive

theorem step_implicit (connected : input.statorConnected = true) (start : Rotor ℝ) :
    Implicit parameters input timeStep start (step input timeStep ⟨parameters, start⟩).current := by
  have lD := valid.lD
  have lQ := valid.lQ
  have resistive : 0 < parameters.statorResistance * timeStep := mul_pos valid.resistance positive
  have diagonal : parameters.lQ + parameters.statorResistance * timeStep ≠ 0 := by positivity
  have square : 0 ≤ parameters.lQ * (input.electricalSpeed * timeStep) *
      (parameters.lD * (input.electricalSpeed * timeStep) /
        (parameters.lQ + parameters.statorResistance * timeStep)) := by
    have product : parameters.lQ * (input.electricalSpeed * timeStep) *
        (parameters.lD * (input.electricalSpeed * timeStep) /
          (parameters.lQ + parameters.statorResistance * timeStep)) =
        parameters.lQ * parameters.lD * (input.electricalSpeed * timeStep) ^ 2 /
          (parameters.lQ + parameters.statorResistance * timeStep) := by ring
    rw [product]
    positivity
  have determinant : parameters.lD + parameters.statorResistance * timeStep +
      parameters.lQ * (input.electricalSpeed * timeStep) * (parameters.lD * (input.electricalSpeed * timeStep) /
        (parameters.lQ + parameters.statorResistance * timeStep)) ≠ 0 := by positivity
  obtain ⟨stop, result⟩ : ∃ stop, stop = (step input timeStep ⟨parameters, start⟩).current := ⟨_, rfl⟩
  have parts := result
  rw [← result]
  simp only [step, connected, Bool.not_true, Bool.false_eq_true, if_false] at parts
  have d := congrArg Rotor.d parts
  have q := congrArg Rotor.q parts
  simp only at d q
  rw [← d] at q
  rw [eq_div_iff determinant] at d
  rw [eq_div_iff diagonal] at q
  refine ⟨?_, ?_⟩
  · have first := eliminated diagonal q d
    unfold rotorVoltage
    linarith
  · unfold rotorVoltage
    linarith

end Equations

/-! ### Flux linkages -/

/-- Without the magnet. -/
noncomputable def flux (parameters : PmsmParameters ℝ) (current : Rotor ℝ) : ℂ :=
  ⟨parameters.lD * current.d, parameters.lQ * current.q⟩

noncomputable def largestInductance (parameters : PmsmParameters ℝ) : ℝ := max parameters.lD parameters.lQ

/-- What the resistance takes from the flux linkage in a step, relative to what is left. -/
noncomputable def decay (parameters : PmsmParameters ℝ) (timeStep : ℝ) : ℝ :=
  parameters.statorResistance * timeStep / largestInductance parameters

/-- The voltage that drives the flux linkage: that of the magnet is taken off. -/
noncomputable def drivingVoltage (parameters : PmsmParameters ℝ) (input : ElectricalInput ℝ) : ℂ :=
  ⟨(rotorVoltage input).d, (rotorVoltage input).q - input.electricalSpeed * parameters.fluxPm⟩

/-- The resistive drop and the turning of the frame over a step. -/
noncomputable def losses (parameters : PmsmParameters ℝ) (input : ElectricalInput ℝ) (timeStep : ℝ) (current : Rotor ℝ) : ℂ :=
  ⟨timeStep * (parameters.statorResistance * current.d - input.electricalSpeed * (parameters.lQ * current.q)),
    timeStep * (parameters.statorResistance * current.q + input.electricalSpeed * (parameters.lD * current.d))⟩

theorem Implicit.balance {parameters : PmsmParameters ℝ} {input : ElectricalInput ℝ} {timeStep : ℝ} {start stop : Rotor ℝ}
    (implicit : Implicit parameters input timeStep start stop) :
    flux parameters stop + losses parameters input timeStep stop =
      flux parameters start + timeStep * drivingVoltage parameters input := by
  obtain ⟨d, q⟩ := implicit
  apply Complex.ext
  · simp only [PmsmModel.flux, losses, drivingVoltage, Complex.add_re, Complex.re_ofReal_mul]
    linarith
  · simp only [PmsmModel.flux, losses, drivingVoltage, Complex.add_im, Complex.im_ofReal_mul]
    linarith

def difference (first second : Rotor ℝ) : Rotor ℝ := ⟨first.d - second.d, first.q - second.q⟩

theorem flux_difference (parameters : PmsmParameters ℝ) (first second : Rotor ℝ) :
    flux parameters (difference first second) = flux parameters first - flux parameters second := by
  apply Complex.ext <;> simp [flux, difference, mul_sub]

theorem losses_difference (parameters : PmsmParameters ℝ) (input : ElectricalInput ℝ) (timeStep : ℝ)
    (first second : Rotor ℝ) : losses parameters input timeStep (difference first second) =
      losses parameters input timeStep first - losses parameters input timeStep second := by
  apply Complex.ext <;> simp [losses, difference] <;> ring

section Decay

variable {parameters : PmsmParameters ℝ} (valid : Valid parameters) {timeStep : ℝ} (positive : 0 < timeStep)
include valid

theorem largestInductance_pos : 0 < largestInductance parameters := lt_max_of_lt_left valid.lD

theorem decay_pos (positive : 0 < timeStep) : 0 < decay parameters timeStep :=
  div_pos (mul_pos valid.resistance positive) (largestInductance_pos valid)

/-- The turning takes nothing. -/
theorem losses_accretive (positive : 0 < timeStep) (input : ElectricalInput ℝ) (current : Rotor ℝ) :
    decay parameters timeStep * ‖flux parameters current‖ ^ 2 ≤
      inner ℝ (losses parameters input timeStep current) (flux parameters current) := by
  have most := largestInductance_pos valid
  have product : inner ℝ (losses parameters input timeStep current) (flux parameters current) =
      parameters.statorResistance * timeStep * (parameters.lD * current.d ^ 2 + parameters.lQ * current.q ^ 2) := by
    simp only [Complex.inner, losses, flux, Complex.mul_re, Complex.conj_re, Complex.conj_im]
    ring
  have weighted {inductance : ℝ} (inside : 0 < inductance) (least : inductance ≤ largestInductance parameters) (i : ℝ) :
      (inductance * i) ^ 2 ≤ largestInductance parameters * (inductance * i ^ 2) := by
    have scaled := mul_le_mul_of_nonneg_right least (mul_nonneg inside.le (sq_nonneg i))
    linarith
  have sum := add_le_add (weighted valid.lD (le_max_left _ _) current.d) (weighted valid.lQ (le_max_right _ _) current.q)
  have resistive := mul_nonneg valid.resistance.le positive.le
  have scaled := mul_le_mul_of_nonneg_left sum resistive
  rw [product, decay, flux, Rotation.norm_sq, div_mul_eq_mul_div, div_le_iff₀ most]
  linarith

theorem Implicit.closer (positive : 0 < timeStep) {input : ElectricalInput ℝ} {a b first second : Rotor ℝ}
    (one : Implicit parameters input timeStep a first) (other : Implicit parameters input timeStep b second) :
    (1 + decay parameters timeStep) * ‖flux parameters first - flux parameters second‖ ≤
      ‖flux parameters a - flux parameters b‖ := by
  rw [← flux_difference, ← flux_difference]
  refine Resolvent.norm_le ?_ (losses_accretive valid positive input _)
  rw [flux_difference, flux_difference, losses_difference]
  linear_combination one.balance - other.balance

theorem flux_injective {first second : Rotor ℝ} (same : flux parameters first = flux parameters second) :
    first = second := by
  have re := congrArg Complex.re same
  have im := congrArg Complex.im same
  have d := mul_left_cancel₀ valid.lD.ne' re
  have q := mul_left_cancel₀ valid.lQ.ne' im
  cases first
  cases second
  simp_all

/-- The step is the only solution of its equations. -/
theorem Implicit.unique (positive : 0 < timeStep) {input : ElectricalInput ℝ} {start first second : Rotor ℝ}
    (one : Implicit parameters input timeStep start first) (other : Implicit parameters input timeStep start second) :
    first = second := by
  have closer := one.closer valid positive other
  rw [sub_self, norm_zero] at closer
  have factor : 0 < 1 + decay parameters timeStep := by linarith [decay_pos valid positive]
  have vanishes : ‖flux parameters first - flux parameters second‖ ≤ 0 := nonpos_of_mul_nonpos_right closer factor
  exact flux_injective valid (sub_eq_zero.mp (norm_le_zero_iff.mp vanishes))

end Decay

/-! ### Runs of steps -/

/-- A step with its length. -/
abbrev TimedInput := ElectricalInput ℝ × ℝ

noncomputable def run (inputs : List TimedInput) (model : PmsmModel ℝ) : PmsmModel ℝ :=
  inputs.foldl (fun model input => model.step input.1 input.2) model

theorem step_parameters (input : ElectricalInput ℝ) (timeStep : ℝ) (model : PmsmModel ℝ) :
    (model.step input timeStep).parameters = model.parameters := by
  unfold step reset
  split <;> rfl

noncomputable def next (parameters : PmsmParameters ℝ) (current : Rotor ℝ) (input : TimedInput) : Rotor ℝ :=
  (step input.1 input.2 ⟨parameters, current⟩).current

theorem run_current (inputs : List TimedInput) (parameters : PmsmParameters ℝ) (current : Rotor ℝ) :
    run inputs ⟨parameters, current⟩ = ⟨parameters, inputs.foldl (next parameters) current⟩ := by
  unfold run
  induction inputs generalizing current with
  | nil => rfl
  | cons input rest ih =>
    have first : step input.1 input.2 ⟨parameters, current⟩ = ⟨parameters, next parameters current input⟩ := by
      rw [next]
      exact congrArg (fun p => PmsmModel.mk p _) (step_parameters input.1 input.2 ⟨parameters, current⟩)
    rw [List.foldl_cons, first, ih, List.foldl_cons]

theorem next_closer {parameters : PmsmParameters ℝ} (valid : Valid parameters) (input : TimedInput)
    (positive : 0 < input.2) (first second : Rotor ℝ) :
    ‖flux parameters (next parameters first input) - flux parameters (next parameters second input)‖ ≤
      1 / (1 + decay parameters input.2) * ‖flux parameters first - flux parameters second‖ := by
  have factor : 0 < 1 + decay parameters input.2 := by linarith [decay_pos valid positive]
  rw [one_div_mul_eq_div, le_div_iff₀ factor, mul_comm]
  cases connected : input.1.statorConnected with
  | true =>
    exact (step_implicit valid positive connected first).closer valid positive
      (step_implicit valid positive connected second)
  | false =>
    have same : next parameters first input = next parameters second input := by
      simp [next, step, connected, reset]
    rw [same, sub_self, norm_zero, mul_zero]
    exact norm_nonneg _

/-- Whatever the voltages, speeds and step lengths: two motors that differ in their currents only
come closer in every step. -/
theorem run_closer (first second : PmsmModel ℝ) (same : second.parameters = first.parameters)
    (valid : first.validate = .ok) (inputs : List TimedInput) (positive : ∀ input ∈ inputs, 0 < input.2) :
    ‖flux first.parameters (first.run inputs).current - flux first.parameters (second.run inputs).current‖ ≤
      (inputs.map fun input => 1 / (1 + decay first.parameters input.2)).prod *
        ‖flux first.parameters first.current - flux first.parameters second.current‖ := by
  obtain ⟨parameters, current⟩ := first
  obtain ⟨others, other⟩ := second
  obtain rfl : parameters = others := same.symm
  have valid := (validate_ok _).mp valid
  rw [run_current, run_current]
  have nonneg (input : TimedInput) (positive : 0 < input.2) : 0 ≤ 1 / (1 + decay parameters input.2) := by
    have less := decay_pos valid positive
    positivity
  exact @Resolvent.run_le _ _ (next parameters) (fun a b => ‖flux parameters a - flux parameters b‖) _
    (fun input => 0 < input.2) nonneg (fun input positive => next_closer valid input positive) inputs positive
    current other

/-- Equal inductances of one, a resistance of one, a magnet of one. -/
def unitMotor : PmsmParameters ℝ := ⟨1, 1, 1, 1, 1⟩

theorem unitMotor_valid (current : Rotor ℝ) : validate ⟨unitMotor, current⟩ = .ok :=
  (validate_ok _).mpr ⟨(by decide : (1 : UInt8) ≠ 0), one_pos, one_pos, one_pos, zero_le_one⟩

/-- A second of a locked rotor without a voltage halves the current. -/
theorem run_closer_unit :
    ‖flux unitMotor ((⟨unitMotor, ⟨4, 0⟩⟩ : PmsmModel ℝ).run [(⟨⟨0, 0⟩, ⟨0, 0⟩, 0, true⟩, 1)]).current -
        flux unitMotor ((⟨unitMotor, ⟨0, 0⟩⟩ : PmsmModel ℝ).run [(⟨⟨0, 0⟩, ⟨0, 0⟩, 0, true⟩, 1)]).current‖ ≤
      1 / 2 * ‖flux unitMotor ⟨4, 0⟩ - flux unitMotor ⟨0, 0⟩‖ := by
  have closer := run_closer ⟨unitMotor, ⟨4, 0⟩⟩ ⟨unitMotor, ⟨0, 0⟩⟩ rfl (unitMotor_valid _)
    [(⟨⟨0, 0⟩, ⟨0, 0⟩, 0, true⟩, 1)] (by simp)
  norm_num [decay, largestInductance, unitMotor] at closer ⊢
  exact closer

/-! ### Operating points -/

/-- The equations of the machine with constant currents. -/
structure Stationary (parameters : PmsmParameters ℝ) (input : ElectricalInput ℝ) (current : Rotor ℝ) : Prop where
  d : (rotorVoltage input).d = parameters.statorResistance * current.d -
    input.electricalSpeed * (parameters.lQ * current.q)
  q : (rotorVoltage input).q = parameters.statorResistance * current.q +
    input.electricalSpeed * (parameters.lD * current.d + parameters.fluxPm)

section Operating

variable {parameters : PmsmParameters ℝ} (valid : Valid parameters) {input : ElectricalInput ℝ}
  (connected : input.statorConnected = true) {timeStep : ℝ} (positive : 0 < timeStep)
include valid connected positive

theorem step_stationary (current : Rotor ℝ) :
    (step input timeStep ⟨parameters, current⟩).current = current ↔ Stationary parameters input current := by
  have solved := step_implicit valid positive connected current
  constructor
  · intro kept
    rw [kept] at solved
    obtain ⟨d, q⟩ := solved
    rw [sub_self, mul_zero, eq_comm] at d q
    have d := (mul_eq_zero_iff_left positive.ne').mp d
    have q := (mul_eq_zero_iff_left positive.ne').mp q
    exact ⟨by linarith, by linarith⟩
  · intro stationary
    refine solved.unique valid positive ⟨?_, ?_⟩
    · rw [stationary.d]
      ring
    · rw [stationary.q]
      ring

end Operating

/-- The current an input settles at. -/
noncomputable def settled (parameters : PmsmParameters ℝ) (input : ElectricalInput ℝ) : Rotor ℝ :=
  let determinant := parameters.statorResistance ^ 2 + input.electricalSpeed ^ 2 * parameters.lD * parameters.lQ
  let d := (rotorVoltage input).d
  let q := (rotorVoltage input).q - input.electricalSpeed * parameters.fluxPm
  ⟨(parameters.statorResistance * d + input.electricalSpeed * parameters.lQ * q) / determinant,
    (parameters.statorResistance * q - input.electricalSpeed * parameters.lD * d) / determinant⟩

theorem settled_stationary {parameters : PmsmParameters ℝ} (valid : Valid parameters) (input : ElectricalInput ℝ) :
    Stationary parameters input (settled parameters input) := by
  have resistance := valid.resistance
  have lD := valid.lD
  have lQ := valid.lQ
  have determinant : parameters.statorResistance ^ 2 + input.electricalSpeed ^ 2 * parameters.lD * parameters.lQ ≠ 0 := by
    positivity
  unfold settled
  constructor
  · field_simp
    ring
  · field_simp
    ring

theorem run_stationary {parameters : PmsmParameters ℝ} (valid : Valid parameters) {input : ElectricalInput ℝ}
    (connected : input.statorConnected = true) {timeStep : ℝ} (positive : 0 < timeStep) {current : Rotor ℝ}
    (stationary : Stationary parameters input current) (steps : Nat) :
    run (List.replicate steps (input, timeStep)) ⟨parameters, current⟩ = ⟨parameters, current⟩ := by
  have kept : next parameters current (input, timeStep) = current :=
    (step_stationary valid connected positive current).mpr stationary
  rw [run_current]
  congr 1
  induction steps with
  | zero => rfl
  | succ steps ih => rw [List.replicate_succ, List.foldl_cons, kept, ih]

/-- A connected step of any length keeps exactly the currents that solve the stationary equations of
the machine, and under a constant input every start comes closer to them by a fixed factor. -/
theorem operating_point (model : PmsmModel ℝ) (valid : model.validate = .ok) (input : ElectricalInput ℝ)
    (connected : input.statorConnected = true) (timeStep : ℝ) (positive : 0 < timeStep) :
    ((model.step input timeStep).current = model.current ↔ Stationary model.parameters input model.current) ∧
    Stationary model.parameters input (settled model.parameters input) ∧
    ∀ steps, ‖flux model.parameters (model.run (List.replicate steps (input, timeStep))).current -
        flux model.parameters (settled model.parameters input)‖ ≤
      (1 / (1 + decay model.parameters timeStep)) ^ steps *
        ‖flux model.parameters model.current - flux model.parameters (settled model.parameters input)‖ := by
  have passed := (validate_ok model).mp valid
  have stationary := settled_stationary passed input
  refine ⟨step_stationary passed connected positive model.current, stationary, ?_⟩
  intro steps
  have closer := run_closer model ⟨model.parameters, settled model.parameters input⟩ rfl valid
    (List.replicate steps (input, timeStep)) (by simp [positive])
  rw [run_stationary passed connected positive stationary, List.map_replicate, List.prod_replicate] at closer
  exact closer

theorem operating_point_unit :
    ((step ⟨⟨0, 0⟩, ⟨0, 0⟩, 1, true⟩ 1 ⟨unitMotor, ⟨-1 / 2, -1 / 2⟩⟩).current = ⟨-1 / 2, -1 / 2⟩) := by
  obtain ⟨kept, -, -⟩ := operating_point ⟨unitMotor, ⟨-1 / 2, -1 / 2⟩⟩ (unitMotor_valid _)
    ⟨⟨0, 0⟩, ⟨0, 0⟩, 1, true⟩ rfl 1 one_pos
  refine kept.mpr ⟨?_, ?_⟩
  · norm_num [rotorVoltage, Stator.toRotor, unitMotor]
  · norm_num [rotorVoltage, Stator.toRotor, unitMotor]

end PmsmModel

end Unimoc.Sim
