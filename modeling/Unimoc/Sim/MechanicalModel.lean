import Unimoc.Sim.PmsmModel

/-! The simulated shaft: one mass with viscous and Coulomb friction. -/
namespace Unimoc.Sim

open CurrentControl

inductive ShaftMode
  | free
  | imposedSpeed
deriving DecidableEq

structure MechanicalParameters (F : Type) where
  inertia : F
  viscousFriction : F
  coulombFriction : F

structure MechanicalModel (F : Type) where
  parameters : MechanicalParameters F
  mode : ShaftMode
  imposedSpeed : F
  angle : RotorAngle
  speed : F

namespace MechanicalModel

section Steps

variable {F : Type} [Arithmetic F]

def init (parameters : MechanicalParameters F) : MechanicalModel F :=
  ⟨parameters, .free, Scalar.zero, ⟨0, 0⟩, Scalar.zero⟩

def validate (model : MechanicalModel F) : Status :=
  if model.parameters.inertia ≤ Scalar.zero then .invalidInertia
  else if model.parameters.viscousFriction < Scalar.zero ∨ model.parameters.coulombFriction < Scalar.zero then
    .invalidFriction
  else .ok

/-- The mode and the imposed speed are kept. -/
def reset (model : MechanicalModel F) : MechanicalModel F := { model with angle := ⟨0, 0⟩, speed := Scalar.zero }

def setShaftMode (mode : ShaftMode) (imposedSpeed : F) (model : MechanicalModel F) : MechanicalModel F :=
  let model := { model with mode, imposedSpeed }
  if mode = .imposedSpeed then { model with speed := imposedSpeed } else model

def setState (angle : RotorAngle) (speed : F) (model : MechanicalModel F) : MechanicalModel F :=
  let model := { model with angle }
  if model.mode = .free then { model with speed } else model

/-- Friction holds the shaft and stops it, but does not turn it round. -/
def freeSpeed (driveTorque timeStep : F) (model : MechanicalModel F) : F :=
  let coulomb := model.parameters.coulombFriction
  let viscous := model.parameters.viscousFriction * model.speed
  if Scalar.eq model.speed Scalar.zero then
    if coulomb < driveTorque then (driveTorque - coulomb) / model.parameters.inertia * timeStep
    else if driveTorque < -coulomb then (driveTorque + coulomb) / model.parameters.inertia * timeStep
    else Scalar.zero
  else
    let friction := if Scalar.zero < model.speed then viscous + coulomb else viscous - coulomb
    let next := model.speed + (driveTorque - friction) / model.parameters.inertia * timeStep
    let reversed := if Scalar.zero < model.speed then next < Scalar.zero else Scalar.zero < next
    let frictionStops := driveTorque ≤ coulomb ∧ -coulomb ≤ driveTorque
    if reversed ∧ frictionStops then Scalar.zero else next

/-- The angle advances by the mean of the speeds. -/
def step (electromagneticTorque loadTorque timeStep : F) (model : MechanicalModel F) : MechanicalModel F :=
  let speed :=
    if model.mode = .imposedSpeed then model.imposedSpeed
    else model.freeSpeed (electromagneticTorque - loadTorque) timeStep
  { model with
    speed
    angle := model.angle.advance ((model.speed + speed) * timeStep * (0.5 : F)) }

def electricalAngle (polePairs : UInt8) (model : MechanicalModel F) : RotorAngle :=
  .fromAbsoluteRaw (model.angle.absoluteRaw * polePairs.toUInt64.toInt64)

end Steps

/-! ### Friction -/

structure Valid (parameters : MechanicalParameters ℝ) : Prop where
  inertia : 0 < parameters.inertia
  viscous : 0 ≤ parameters.viscousFriction
  coulomb : 0 ≤ parameters.coulombFriction

theorem validate_ok (model : MechanicalModel ℝ) : model.validate = .ok ↔ Valid model.parameters := by
  unfold validate
  simp only [Scalar.zero_exact]
  constructor
  · intro ok
    split_ifs at ok with inertia friction
    obtain ⟨viscous, coulomb⟩ := not_or.mp friction
    exact ⟨not_le.mp inertia, not_lt.mp viscous, not_lt.mp coulomb⟩
  · intro ⟨inertia, viscous, coulomb⟩
    rw [if_neg (not_le.mpr inertia), if_neg (not_or.mpr ⟨not_lt.mpr viscous, not_lt.mpr coulomb⟩)]

theorem eq_exact (a b : ℝ) : Scalar.eq a b = true ↔ a = b := by
  unfold Scalar.eq
  rw [Bool.and_eq_true, decide_eq_true_iff, decide_eq_true_iff]
  exact le_antisymm_iff.symm

section Step

variable {model : MechanicalModel ℝ} {drive timeStep margin : ℝ}

theorem freeSpeed_moving (moving : model.speed ≠ 0) : model.freeSpeed drive timeStep =
    (let friction := if 0 < model.speed then
        model.parameters.viscousFriction * model.speed + model.parameters.coulombFriction
      else model.parameters.viscousFriction * model.speed - model.parameters.coulombFriction
    let next := model.speed + (drive - friction) / model.parameters.inertia * timeStep
    if (if 0 < model.speed then next < 0 else 0 < next) ∧
      (drive ≤ model.parameters.coulombFriction ∧ -model.parameters.coulombFriction ≤ drive) then 0 else next) := by
  have unequal : ¬Scalar.eq model.speed 0 = true := mt (eq_exact _ _).mp moving
  unfold freeSpeed
  simp only [Scalar.zero_exact, if_neg unequal]

def mirrored (model : MechanicalModel ℝ) : MechanicalModel ℝ := { model with speed := -model.speed }

/-- Both directions are alike. -/
theorem freeSpeed_mirrored (moving : model.speed ≠ 0) :
    model.mirrored.freeSpeed (-drive) timeStep = -model.freeSpeed drive timeStep := by
  have other : model.mirrored.speed ≠ 0 := neg_ne_zero.mpr moving
  have mirror : model.mirrored.speed + (-drive - (if 0 < model.mirrored.speed then
        model.mirrored.parameters.viscousFriction * model.mirrored.speed + model.mirrored.parameters.coulombFriction
      else model.mirrored.parameters.viscousFriction * model.mirrored.speed -
        model.mirrored.parameters.coulombFriction)) / model.mirrored.parameters.inertia * timeStep =
      -(model.speed + (drive - (if 0 < model.speed then
          model.parameters.viscousFriction * model.speed + model.parameters.coulombFriction
        else model.parameters.viscousFriction * model.speed - model.parameters.coulombFriction)) /
          model.parameters.inertia * timeStep) := by
    simp only [mirrored, Left.neg_pos_iff]
    rcases lt_or_gt_of_ne moving with negative | positive
    · rw [if_pos negative, if_neg negative.le.not_gt]
      ring
    · rw [if_neg positive.le.not_gt, if_pos positive]
      ring
  rw [freeSpeed_moving moving, freeSpeed_moving other]
  simp only [mirror]
  simp only [mirrored, Left.neg_pos_iff, Left.neg_neg_iff, neg_le_neg_iff]
  grind

theorem freeSpeed_rest (held : |drive| ≤ model.parameters.coulombFriction) (rest : model.speed = 0) :
    model.freeSpeed drive timeStep = 0 := by
  have resting : Scalar.eq model.speed 0 = true := (eq_exact _ _).mpr rest
  obtain ⟨low, high⟩ := abs_le.mp held
  unfold freeSpeed
  simp only [Scalar.zero_exact, if_pos resting]
  rw [if_neg (by linarith), if_neg (by linarith)]

variable (valid : Valid model.parameters) (positive : 0 < timeStep) (nonneg : 0 ≤ margin)
  (held : |drive| ≤ model.parameters.coulombFriction - margin)
include valid positive nonneg held

/-- A drive that friction can hold takes the margin off a speed, down to standstill. -/
theorem freeSpeed_forwards (forwards : 0 < model.speed) :
    0 ≤ model.freeSpeed drive timeStep ∧
      model.freeSpeed drive timeStep ≤ max 0 (model.speed - margin / model.parameters.inertia * timeStep) := by
  obtain ⟨low, high⟩ := abs_le.mp held
  have viscous := mul_nonneg valid.viscous forwards.le
  have slower : (drive - (model.parameters.viscousFriction * model.speed + model.parameters.coulombFriction)) /
      model.parameters.inertia * timeStep ≤ -(margin / model.parameters.inertia * timeStep) := by
    rw [← neg_mul, ← neg_div]
    gcongr
    · exact valid.inertia.le
    · linarith
  rw [freeSpeed_moving forwards.ne']
  simp only [if_pos forwards]
  split_ifs with stops
  · exact ⟨le_rfl, le_max_left _ _⟩
  · have stays : drive ≤ model.parameters.coulombFriction ∧ -model.parameters.coulombFriction ≤ drive :=
      ⟨by linarith, by linarith⟩
    have on := not_lt.mp fun reversed => stops ⟨reversed, stays⟩
    exact ⟨on, le_max_of_le_right (by linarith)⟩

theorem freeSpeed_backwards (backwards : model.speed < 0) :
    model.freeSpeed drive timeStep ≤ 0 ∧
      -model.freeSpeed drive timeStep ≤ max 0 (-model.speed - margin / model.parameters.inertia * timeStep) := by
  have forwards : 0 < model.mirrored.speed := neg_pos.mpr backwards
  have mirrored := @freeSpeed_forwards model.mirrored (-drive) timeStep margin valid positive nonneg
    (by rwa [abs_neg]) forwards
  rw [freeSpeed_mirrored backwards.ne] at mirrored
  exact ⟨neg_nonneg.mp mirrored.1, mirrored.2⟩

/-- Towards standstill, and not past it. -/
theorem freeSpeed_held : 0 ≤ model.speed * model.freeSpeed drive timeStep ∧
    |model.freeSpeed drive timeStep| ≤ max 0 (|model.speed| - margin / model.parameters.inertia * timeStep) := by
  rcases lt_trichotomy model.speed 0 with backwards | rest | forwards
  · obtain ⟨stays, slower⟩ := freeSpeed_backwards valid positive nonneg held backwards
    rw [abs_of_nonpos stays, abs_of_neg backwards]
    exact ⟨mul_nonneg_of_nonpos_of_nonpos backwards.le stays, slower⟩
  · rw [freeSpeed_rest (held.trans (by linarith)) rest, mul_zero, abs_zero]
    exact ⟨le_rfl, le_max_left _ _⟩
  · obtain ⟨stays, slower⟩ := freeSpeed_forwards valid positive nonneg held forwards
    rw [abs_of_nonneg stays, abs_of_pos forwards]
    exact ⟨mul_nonneg forwards.le stays, slower⟩

end Step

/-! ### Runs -/

structure ShaftInput where
  electromagneticTorque : ℝ
  loadTorque : ℝ
  timeStep : ℝ

noncomputable def run (inputs : List ShaftInput) (model : MechanicalModel ℝ) : MechanicalModel ℝ :=
  inputs.foldl (fun model input => model.step input.electromagneticTorque input.loadTorque input.timeStep) model

theorem step_free (em load timeStep : ℝ) {model : MechanicalModel ℝ} (free : model.mode = .free) :
    (model.step em load timeStep).speed = model.freeSpeed (em - load) timeStep := by
  simp [step, free]

theorem toInt_fraction {value : ℝ} (nonneg : 0 ≤ value) (below : value < 1) : Scalar.toInt value = 0 := by
  obtain ⟨low, high⟩ := PortableSinCosProvider.toInt_floor nonneg (below.trans (by norm_num))
  have least : (Scalar.toInt value : ℝ) < (1 : ℤ) := by
    push_cast
    linarith
  have most : ((-1 : ℤ) : ℝ) < Scalar.toInt value := by
    push_cast
    linarith
  have upper : Scalar.toInt value < 1 := by exact_mod_cast least
  have lower : -1 < Scalar.toInt value := by exact_mod_cast most
  omega

theorem advance_zero (angle : RotorAngle) : angle.advance (0 : ℝ) = angle := by
  have half : (0 : ℝ) + (0.5 : ℝ) < 1 := by norm_num
  have zeroInt : Scalar.toInt (0 : ℝ) = 0 := toInt_fraction le_rfl one_pos
  have counts : RotorAngle.roundToInt64 (0 : ℝ) = 0 := by
    unfold RotorAngle.roundToInt64
    rw [Scalar.zero_exact, if_pos le_rfl]
    exact toInt_fraction (by norm_num) half
  have nothing : (Scalar.ofInt 0 : ℝ) = 0 := by
    rw [PortableSinCosProvider.ofInt_exact (by norm_num)]
    norm_num
  have scaled : ((0 : ℝ) - 0) * (4294967296.0 : ℝ) = 0 := by norm_num
  have product : (0 : ℝ) * RotorAngle.revolutionsPerRadian = 0 := zero_mul _
  unfold RotorAngle.advance
  simp only [product, zeroInt, nothing, scaled, counts]
  simp [RotorAngle.countsPerHalfRevolution, RotorAngle.addRaw]

theorem step_rest {em load timeStep : ℝ} {model : MechanicalModel ℝ} (free : model.mode = .free) (rest : model.speed = 0)
    (held : |em - load| ≤ model.parameters.coulombFriction) : model.step em load timeStep = model := by
  have still := @freeSpeed_rest model (em - load) timeStep held rest
  have kept : (model.step em load timeStep).angle = model.angle := by
    simp [step, free, still, rest, advance_zero]
  have speed : (model.step em load timeStep).speed = model.speed := by
    rw [step_free _ _ _ free, still, rest]
  cases model
  simp_all [step]

/-- A drive that stays below the friction by a margin: the shaft never turns round and loses speed at
a steady rate until it rests; there it keeps its angle. -/
theorem friction_stops (model : MechanicalModel ℝ) (valid : model.validate = .ok) (free : model.mode = .free)
    (margin : ℝ) (nonneg : 0 ≤ margin) (inputs : List ShaftInput)
    (held : ∀ input ∈ inputs, 0 < input.timeStep ∧
      |input.electromagneticTorque - input.loadTorque| ≤ model.parameters.coulombFriction - margin) :
    0 ≤ model.speed * (model.run inputs).speed ∧
    |(model.run inputs).speed| ≤
      max 0 (|model.speed| - margin / model.parameters.inertia * (inputs.map ShaftInput.timeStep).sum) ∧
    (model.speed = 0 → model.run inputs = model) := by
  have passed := (validate_ok model).mp valid
  have rate : 0 ≤ margin / model.parameters.inertia := div_nonneg nonneg passed.inertia.le
  unfold run
  induction inputs generalizing model with
  | nil =>
    refine ⟨mul_self_nonneg _, ?_, fun _ => rfl⟩
    simp
  | cons input rest ih =>
    obtain ⟨positive, drive⟩ := held input (by simp)
    have less : |input.electromagneticTorque - input.loadTorque| ≤ model.parameters.coulombFriction :=
      drive.trans (by linarith)
    obtain ⟨after, result⟩ :
        ∃ after, after = model.step input.electromagneticTorque input.loadTorque input.timeStep := ⟨_, rfl⟩
    have parameters : after.parameters = model.parameters := by rw [result, step]
    have mode : after.mode = .free := by rw [result, step, free]
    have speed : after.speed = _ := result ▸ step_free _ _ _ free
    obtain ⟨sign, slower⟩ := freeSpeed_held passed positive nonneg drive
    rw [← speed] at sign slower
    rw [← parameters] at passed held
    obtain ⟨later, bound, rests⟩ := ih after ((validate_ok _).mpr passed) mode
      (fun other mem => held other (by simp [mem])) passed (parameters ▸ rate)
    rw [parameters] at bound
    rw [List.foldl_cons, List.map_cons, List.sum_cons, ← result]
    refine ⟨?_, ?_, ?_⟩
    · rcases eq_or_ne after.speed 0 with stopped | moving
      · rw [rests stopped, stopped, mul_zero]
      · have square : 0 < after.speed ^ 2 := by positivity
        refine nonneg_of_mul_nonneg_right ?_ square
        calc 0 ≤ (model.speed * after.speed) * (after.speed * _) := mul_nonneg sign later
          _ = after.speed ^ 2 * (model.speed * _) := by ring
    · have time : 0 ≤ (rest.map ShaftInput.timeStep).sum := by
        apply List.sum_nonneg
        intro value mem
        obtain ⟨other, inside, rfl⟩ := List.mem_map.mp mem
        exact (held other (by simp [inside])).1.le
      have taken := mul_nonneg rate time
      refine bound.trans (max_le (le_max_left _ _) ?_)
      have least := slower
      rcases le_max_iff.mp slower with stopped | going
      · exact le_max_of_le_left (by linarith)
      · refine le_max_of_le_right ?_
        rw [mul_add]
        linarith
    · intro standing
      have same : after = model := result.trans (step_rest free standing less)
      rw [rests (same ▸ standing), same]

/-- A drag of one against a friction of two stops an inertia of one from a speed of three in three seconds. -/
theorem friction_stops_three :
    |(run (List.replicate 3 ⟨0, 1, 1⟩) ⟨⟨1, 0, 2⟩, .free, 0, ⟨0, 0⟩, 3⟩).speed| ≤ 0 := by
  obtain ⟨-, slower, -⟩ := friction_stops ⟨⟨1, 0, 2⟩, .free, 0, ⟨0, 0⟩, 3⟩
    ((validate_ok _).mpr ⟨one_pos, le_rfl, zero_le_two⟩) rfl 1 zero_le_one (List.replicate 3 ⟨0, 1, 1⟩)
    (by norm_num)
  norm_num at slower
  exact abs_nonpos_iff.mpr slower

end MechanicalModel

end Unimoc.Sim
