import Unimoc.CurrentControl.Controllers
import Unimoc.Lib.Runs
import Unimoc.Units.Extended

/-! The speed controller in exact arithmetic: its torque and its integral, under bounds that change
from step to step and may be infinite. -/
namespace Unimoc.CurrentControl

/-- One call of the controller, with the bounds the caller has set for it. -/
structure SpeedStep where
  /-- `Update`, else `Track`. -/
  ramped : Bool
  setpoint : ℝ
  measured : ℝ
  dt : ℝ
  torqueMin : ExtendedReal
  torqueMax : ExtendedReal

structure SpeedTuning where
  kp : ℝ
  ki : ℝ
  accelLimit : ℝ
  torqueLimit : ℝ

namespace SpeedController

section Bounds

variable {F : Type} [Scalar F] (torqueLimit torqueMin torqueMax : F)

def lowerBound : F := Scalar.max (-torqueLimit) torqueMin

def upperBound : F := Scalar.min torqueLimit torqueMax

end Bounds

section Unbounded

open ExtendedReal

theorem lowerBound_none (limit : ℝ) : lowerBound (real limit) (infinite true) = real (-limit) :=
  if_neg Bool.noConfusion

theorem upperBound_none (limit : ℝ) : upperBound (real limit) (infinite false) = real limit :=
  if_neg (not_infinite_lt _)

end Unbounded

theorem bounds_real {limit : ℝ} {torqueMin torqueMax : ExtendedReal}
    (ordered : lowerBound (.real limit) torqueMin ≤ upperBound (.real limit) torqueMax) :
    ∃ lower upper : ℝ, lowerBound (.real limit) torqueMin = .real lower ∧
      upperBound (.real limit) torqueMax = .real upper ∧ -limit ≤ lower ∧ lower ≤ upper ∧
      upper ≤ limit := by
  have low : lowerBound (.real limit) torqueMin = .infinite false ∨
      ∃ lower : ℝ, lowerBound (.real limit) torqueMin = .real lower ∧ -limit ≤ lower := by
    unfold lowerBound Scalar.max
    split_ifs with above
    · cases torqueMin with
      | nan => exact absurd above (ExtendedReal.not_lt_nan _)
      | infinite negative => exact .inl (congrArg _ above)
      | real least => exact .inr ⟨least, rfl, le_of_lt above⟩
    · exact .inr ⟨-limit, rfl, le_refl _⟩
  have high : upperBound (.real limit) torqueMax = .infinite true ∨
      ∃ upper : ℝ, upperBound (.real limit) torqueMax = .real upper ∧ upper ≤ limit := by
    unfold upperBound Scalar.min
    split_ifs with below
    · cases torqueMax with
      | nan => exact absurd below (ExtendedReal.not_nan_lt _)
      | infinite negative => exact .inl (congrArg _ below)
      | real most => exact .inr ⟨most, rfl, le_of_lt below⟩
    · exact .inr ⟨limit, rfl, le_refl _⟩
  rcases low with infinite | ⟨lower, low, least⟩
  · rw [infinite] at ordered
    rcases high with opposite | ⟨upper, high, -⟩
    · rw [opposite] at ordered
      rcases ordered with wrong | wrong <;> cases wrong
    · rw [high] at ordered
      cases ordered
  · rcases high with infinite | ⟨upper, high, most⟩
    · rw [low, infinite] at ordered
      cases ordered
    · rw [low, high] at ordered
      exact ⟨lower, upper, low, high, least, ordered, most⟩

variable {g : SpeedTuning} {lower upper error integral : ℝ}

/-- The integral with the error of a step, before any limit. -/
def added (g : SpeedTuning) (error dt integral : ℝ) : ℝ := integral + g.kp * error * (g.ki * dt)

/-- The integral after a step: it stops while the output is saturated in the direction of the error. -/
noncomputable def integrated (g : SpeedTuning) (lower upper error dt integral : ℝ) : ℝ :=
  open Classical in
  if (upper < g.kp * error + added g error dt integral ∧ 0 < error) ∨
      (g.kp * error + added g error dt integral < lower ∧ error < 0) then integral
  else min (max (added g error dt integral) lower) upper

theorem integrated_within {limit : ℝ} (least : -limit ≤ lower) (ordered : lower ≤ upper)
    (most : upper ≤ limit) (within : |integral| ≤ limit) (dt : ℝ) :
    |integrated g lower upper error dt integral| ≤ limit := by
  unfold integrated
  split_ifs
  · exact within
  · rw [abs_le]
    exact ⟨least.trans (le_min (le_max_right _ _) ordered), (min_le_right _ _).trans most⟩

/-- Saturated at the upper bound with a positive error the integral either stays, or the step takes
something back. -/
theorem integrated_le (positive : 0 < error)
    (reached : upper ≤ g.kp * error + integral) (inside : lower ≤ integral) (dt : ℝ) :
    integrated g lower upper error dt integral ≤ integral := by
  unfold integrated
  split_ifs with windsUp
  · exact le_refl _
  · have taken : g.kp * error * (g.ki * dt) ≤ 0 := by
      by_contra more
      exact windsUp (.inl ⟨by unfold added; linarith, positive⟩)
    have down : added g error dt integral ≤ integral := by
      unfold added
      linarith
    exact (min_le_left _ _).trans (max_le down inside)

theorem le_integrated (negative : error < 0)
    (reached : g.kp * error + integral ≤ lower) (inside : integral ≤ upper) (dt : ℝ) :
    integral ≤ integrated g lower upper error dt integral := by
  unfold integrated
  split_ifs with windsUp
  · exact le_refl _
  · have given : 0 ≤ g.kp * error * (g.ki * dt) := by
      by_contra less
      exact windsUp (.inr ⟨by unfold added; linarith, negative⟩)
    have up : integral ≤ added g error dt integral := by
      unfold added
      linarith
    exact le_min (le_max_of_le_left up) inside

/-- A controller with finite values. -/
structure Tuned (g : SpeedTuning) (reference integral : ℝ) (c : SpeedController ExtendedReal) : Prop where
  kp : c.kp = .real g.kp
  ki : c.ki = .real g.ki
  accelLimit : c.accelLimit = .real g.accelLimit
  torqueLimit : c.torqueLimit = .real g.torqueLimit
  reference : c.reference = .real reference
  integral : c.integral = .real integral

section Step

variable {reference : ℝ} {c : SpeedController ExtendedReal} (tuned : Tuned g reference integral c)
  (limited : 0 ≤ g.torqueLimit) (low : lowerBound (.real g.torqueLimit) c.torqueMin = .real lower)
  (high : upperBound (.real g.torqueLimit) c.torqueMax = .real upper)
include tuned limited low high

theorem track_real (speedReference measured dt : ℝ) :
    c.track (.real speedReference) (.real measured) (.real dt) =
      let settled := integrated g lower upper (speedReference - measured) dt integral
      { c with
        reference := .real speedReference
        integral := .real settled
        output := .real (min (max (g.kp * (speedReference - measured) + settled) lower) upper) } := by
  have limit : (if Scalar.zero < c.torqueLimit then c.torqueLimit else Scalar.zero) =
      .real g.torqueLimit := by
    rw [tuned.torqueLimit, ExtendedReal.scalar_zero]
    split_ifs with positive
    · rfl
    · exact congrArg _ (le_antisymm limited (not_lt.mp positive))
  unfold lowerBound at low
  unfold upperBound at high
  unfold track integrated added
  simp only [limit, low, high]
  simp only [ExtendedReal.finite_real, Bool.not_true, Bool.or_self, Bool.false_eq_true, ↓reduceIte,
    ExtendedReal.scalar_zero, tuned.kp, tuned.ki, tuned.integral, ExtendedReal.sub_real,
    ExtendedReal.mul_real, ExtendedReal.add_real, ExtendedReal.lt_real, ExtendedReal.clamp_real,
    Bool.not_eq_true', Bool.or_eq_false_iff, Bool.and_eq_false_iff, decide_eq_false_iff_not]
  split_ifs with settles windsUp windsUp
  · grind
  · rw [ExtendedReal.add_real, ExtendedReal.clamp_real]
  · rw [ExtendedReal.add_real, ExtendedReal.clamp_real]
  · grind

omit limited low high in
theorem update_track (setpoint measured dt : ℝ) :
    ∃ taken : ℝ, c.update (.real setpoint) (.real measured) (.real dt) =
      c.track (.real taken) (.real measured) (.real dt) := by
  unfold update
  simp only [ExtendedReal.finite_real, Bool.not_true, Bool.false_eq_true, ↓reduceIte, tuned.accelLimit,
    tuned.reference, ExtendedReal.mul_real, ExtendedReal.sub_real, ExtendedReal.add_real,
    ExtendedReal.clamp_real]
  split_ifs
  · exact ⟨_, rfl⟩
  · exact ⟨setpoint, rfl⟩

end Step

noncomputable def next (c : SpeedController ExtendedReal) (call : SpeedStep) : SpeedController ExtendedReal :=
  let c := { c with torqueMin := call.torqueMin, torqueMax := call.torqueMax }
  if call.ramped then c.update (.real call.setpoint) (.real call.measured) (.real call.dt)
  else c.track (.real call.setpoint) (.real call.measured) (.real call.dt)

noncomputable def loaded (g : SpeedTuning) (start : ℝ) : SpeedController ExtendedReal :=
  { (initial : SpeedController ExtendedReal) with
    kp := ExtendedReal.real g.kp, ki := ExtendedReal.real g.ki
    accelLimit := ExtendedReal.real g.accelLimit
    torqueLimit := ExtendedReal.real g.torqueLimit }.reset (.real start)

/-- Calls with bounds that leave room. -/
noncomputable def machine (g : SpeedTuning) (start : ℝ) :
    Runs.Machine (SpeedController ExtendedReal) SpeedStep where
  start := loaded g start
  next := next
  admits _ call := lowerBound (.real g.torqueLimit) call.torqueMin ≤ upperBound (.real g.torqueLimit) call.torqueMax

theorem tuned_loaded (g : SpeedTuning) (start : ℝ) : Tuned g start 0 (loaded g start) where
  kp := rfl
  ki := rfl
  accelLimit := rfl
  torqueLimit := rfl
  reference := rfl
  integral := ExtendedReal.scalar_zero

/-- A step that took a reference, between two bounds. -/
structure Stepped (g : SpeedTuning) (lower upper measured dt integral taken : ℝ)
    (after : SpeedController ExtendedReal) : Prop where
  tuned : Tuned g taken (integrated g lower upper (taken - measured) dt integral) after
  output : after.output = .real (min (max
    (g.kp * (taken - measured) + integrated g lower upper (taken - measured) dt integral) lower) upper)

theorem Tuned.next {reference : ℝ} {c : SpeedController ExtendedReal} (tuned : Tuned g reference integral c)
    (limited : 0 ≤ g.torqueLimit) {call : SpeedStep}
    (low : lowerBound (.real g.torqueLimit) call.torqueMin = .real lower)
    (high : upperBound (.real g.torqueLimit) call.torqueMax = .real upper) :
    ∃ taken, Stepped g lower upper call.measured call.dt integral taken (c.next call) := by
  have bounded : Tuned g reference integral { c with torqueMin := call.torqueMin, torqueMax := call.torqueMax } :=
    { tuned with }
  have stepped (taken : ℝ) : Stepped g lower upper call.measured call.dt integral taken
      ({ c with torqueMin := call.torqueMin, torqueMax := call.torqueMax }.track (.real taken)
        (.real call.measured) (.real call.dt)) := by
    rw [track_real bounded limited low high]
    exact ⟨⟨tuned.kp, tuned.ki, tuned.accelLimit, tuned.torqueLimit, rfl, rfl⟩, rfl⟩
  unfold SpeedController.next
  cases call.ramped with
  | true =>
    obtain ⟨taken, same⟩ := update_track bounded call.setpoint call.measured call.dt
    simp only [↓reduceIte, same]
    exact ⟨taken, stepped taken⟩
  | false =>
    simp only [Bool.false_eq_true, ↓reduceIte]
    exact ⟨call.setpoint, stepped call.setpoint⟩

theorem run_tuned (limited : 0 ≤ g.torqueLimit) {start : ℝ} {trace : List SpeedStep}
    (legal : (machine g start).Legal trace) :
    ∃ reference integral, Tuned g reference integral ((machine g start).replay trace) ∧
      |integral| ≤ g.torqueLimit := by
  induction trace with
  | nil => exact ⟨start, 0, tuned_loaded g start, by rwa [abs_zero]⟩
  | cons call past ih =>
    obtain ⟨reference, integral, tuned, within⟩ := ih legal.2
    obtain ⟨lower, upper, low, high, least, ordered, most⟩ := bounds_real legal.1
    obtain ⟨taken, stepped⟩ := tuned.next limited low high
    exact ⟨taken, _, stepped.tuned, integrated_within least ordered most within call.dt⟩

/-- The torque of a call keeps to its bounds, the integral to the torque limit, and a saturated call
does not wind the integral up. -/
def KeepsLimits (g : SpeedTuning) (call : SpeedStep) (before after : SpeedController ExtendedReal) : Prop :=
  ∃ lower upper old new reference torque : ℝ,
    lowerBound (.real g.torqueLimit) call.torqueMin = .real lower ∧
    upperBound (.real g.torqueLimit) call.torqueMax = .real upper ∧
    before.integral = .real old ∧ after.integral = .real new ∧
    after.reference = .real reference ∧ after.output = .real torque ∧
    (lower ≤ torque ∧ torque ≤ upper) ∧ |new| ≤ g.torqueLimit ∧
    (upper ≤ g.kp * (reference - call.measured) + old → 0 < reference - call.measured → lower ≤ old →
      new ≤ old) ∧
    (g.kp * (reference - call.measured) + old ≤ lower → reference - call.measured < 0 → old ≤ upper →
      old ≤ new)

theorem Tuned.keepsLimits {reference : ℝ} {c : SpeedController ExtendedReal}
    (tuned : Tuned g reference integral c) (limited : 0 ≤ g.torqueLimit) (within : |integral| ≤ g.torqueLimit) {call : SpeedStep}
    (admitted : lowerBound (.real g.torqueLimit) call.torqueMin ≤
      upperBound (.real g.torqueLimit) call.torqueMax) : KeepsLimits g call c (c.next call) := by
  obtain ⟨lower, upper, low, high, least, ordered, most⟩ := bounds_real admitted
  obtain ⟨taken, after, output⟩ := tuned.next limited low high
  refine ⟨lower, upper, integral, _, taken, _, low, high, tuned.integral, after.integral, after.reference,
    output, ⟨?_, ?_⟩, ?_, ?_, ?_⟩
  · exact le_min (le_max_right _ _) ordered
  · exact min_le_right _ _
  · exact integrated_within least ordered most within call.dt
  · intro reached positive inside
    exact integrated_le positive reached inside call.dt
  · intro reached negative inside
    exact le_integrated negative reached inside call.dt

end SpeedController

/-- Every call of a run keeps its limits, whatever the bounds of the calls before it were. -/
theorem speedController_limited (g : SpeedTuning) (limited : 0 ≤ g.torqueLimit) (start : ℝ) (trace : List SpeedStep)
    (legal : (SpeedController.machine g start).Legal trace) :
    Runs.Throughout (fun call past => SpeedController.KeepsLimits g call
      ((SpeedController.machine g start).replay past)
      ((SpeedController.machine g start).replay (call :: past))) trace := by
  induction trace with
  | nil => exact Runs.throughout_nil _
  | cons call past ih =>
    rw [Runs.throughout_cons]
    obtain ⟨reference, integral, tuned, within⟩ := SpeedController.run_tuned limited legal.2
    exact ⟨tuned.keepsLimits limited within legal.1, ih legal.2⟩

/-- A large error without any bound, then the opposite one with the torque held to half. -/
noncomputable def saturatingSteps : List SpeedStep :=
  [⟨false, -10.0, 0, 1, .real (-0.5), .infinite false⟩, ⟨true, 10.0, 0, 1, .infinite true, .infinite false⟩]

theorem speedController_limited_saturating :
    Runs.Throughout (fun call past => SpeedController.KeepsLimits ⟨1, 1, 0, 1⟩ call
      ((SpeedController.machine ⟨1, 1, 0, 1⟩ 0).replay past)
      ((SpeedController.machine ⟨1, 1, 0, 1⟩ 0).replay (call :: past))) saturatingSteps := by
  refine speedController_limited ⟨1, 1, 0, 1⟩ zero_le_one 0 saturatingSteps ⟨?_, ?_, trivial⟩
  · show SpeedController.lowerBound (ExtendedReal.real 1) (.real (-0.5)) ≤
      SpeedController.upperBound (ExtendedReal.real 1) (.infinite false)
    rw [SpeedController.upperBound_none, SpeedController.lowerBound, ExtendedReal.neg_real,
      ExtendedReal.max_real, ExtendedReal.le_real]
    norm_num
  · show SpeedController.lowerBound (ExtendedReal.real 1) (.infinite true) ≤
      SpeedController.upperBound (ExtendedReal.real 1) (.infinite false)
    rw [SpeedController.upperBound_none, SpeedController.lowerBound_none, ExtendedReal.le_real]
    norm_num

end Unimoc.CurrentControl
