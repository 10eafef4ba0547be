import Unimoc.CurrentControl.OuterLoop
import Unimoc.Units.Extended

/-! The current and power limits at the end of the outer loop. -/
namespace Unimoc.CurrentControl

structure TorqueRange (F : Type) where
  lower : F
  upper : F

namespace DcLinkLimit

section Plain

variable {F : Type} [Scalar F] (window : DcLinkLimit F)

/-- The full charge limit up to `regenDerateStart`, zero from `trip`. -/
def allowedChargeCurrent (dcLink : F) : F :=
  if ¬window.regenDerateStart < dcLink then window.chargeCurrentMax
  else if ¬dcLink < window.trip then Scalar.zero
  else window.chargeCurrentMax * ((window.trip - dcLink) / (window.trip - window.regenDerateStart))

/-- Unbounded at standstill or without a DC-link reading. -/
def allowedTorque (speed dcLink : F) : TorqueRange F :=
  if ¬Scalar.zero < dcLink || Scalar.eq speed Scalar.zero || !Scalar.isFinite speed then
    ⟨-Scalar.infinity, Scalar.infinity⟩
  else
    let motoring := dcLink * window.driveCurrentMax / speed
    let braking := -(dcLink * window.allowedChargeCurrent dcLink) / speed
    if Scalar.zero < speed then ⟨braking, motoring⟩ else ⟨motoring, braking⟩

/-- Only the q current makes power in this estimate. -/
def limit (current : Rotor F) (torqueConstant speed dcLink : F) : Rotor F :=
  if ¬Scalar.zero < dcLink then current
  else
    let power := torqueConstant * current.q * speed
    let motoringMax := dcLink * window.driveCurrentMax
    let brakingMax := -(dcLink * window.allowedChargeCurrent dcLink)
    if motoringMax < power then ⟨current.d, current.q * (motoringMax / power)⟩
    else if power < brakingMax then ⟨current.d, current.q * (brakingMax / power)⟩
    else current

end Plain

end DcLinkLimit

section Plain

variable {F : Type} [Scalar F]

def limitCurrent (currentLimit : F) (current : Rotor F) : Rotor F :=
  if !Scalar.isFinite current.d || !Scalar.isFinite current.q then .zero
  else
    let magnitude := Scalar.hypot current.d current.q
    if magnitude ≤ currentLimit || magnitude ≤ Scalar.zero then current
    else
      let scale := currentLimit / magnitude
      ⟨current.d * scale, current.q * scale⟩

end Plain

/-! ### In exact arithmetic -/

def Within (radius : ℝ) (current : Rotor ExtendedReal) : Prop :=
  ∃ d q, current = ⟨.real d, .real q⟩ ∧ Real.sqrt (d * d + q * q) ≤ radius

theorem zero_within {radius : ℝ} (nonneg : 0 ≤ radius) : Within radius Rotor.zero := by
  refine ⟨0, 0, ?_, ?_⟩
  · simp [Rotor.zero]
  · simpa using nonneg

theorem limitCurrent_within {radius : ℝ} (nonneg : 0 ≤ radius) (current : Rotor ExtendedReal) :
    Within radius (limitCurrent (.real radius) current) := by
  unfold limitCurrent
  split
  · exact zero_within nonneg
  · rename_i finite
    simp only [Bool.or_eq_true, Bool.not_eq_true', not_or, Bool.not_eq_false] at finite
    obtain ⟨x, dReal⟩ := ExtendedReal.isFinite_real finite.1
    obtain ⟨y, qReal⟩ := ExtendedReal.isFinite_real finite.2
    obtain ⟨d, q⟩ := current
    simp only at dReal qReal
    subst dReal qReal
    have root := Real.sqrt_nonneg (x * x + y * y)
    simp only [ExtendedReal.hypot_real, ExtendedReal.scalar_zero, ExtendedReal.le_real, Bool.or_eq_true,
      decide_eq_true_eq]
    split
    · rename_i small
      exact ⟨x, y, rfl, small.elim id fun below => below.trans nonneg⟩
    · rename_i large
      obtain ⟨outside, positive⟩ := not_or.mp large
      have length : 0 < Real.sqrt (x * x + y * y) := not_le.mp positive
      have square : Real.sqrt (x * x + y * y) * Real.sqrt (x * x + y * y) = x * x + y * y :=
        Real.mul_self_sqrt (add_nonneg (mul_self_nonneg x) (mul_self_nonneg y))
      generalize Real.sqrt (x * x + y * y) = m at *
      rw [ExtendedReal.quotient_real _ length.ne']
      refine ⟨x * (radius / m), y * (radius / m), rfl, le_of_eq ?_⟩
      have scaled : x * (radius / m) * (x * (radius / m)) + y * (radius / m) * (y * (radius / m)) =
          radius * radius := by
        field_simp
        linear_combination radius ^ 2 * (-square)
      rw [scaled]
      exact Real.sqrt_mul_self nonneg

theorem limitCurrent_zero (radius : ℝ) :
    limitCurrent (.real radius) Rotor.zero = (Rotor.zero : Rotor ExtendedReal) := by
  simp [limitCurrent, Rotor.zero, ExtendedReal.hypot_real]

/-- The charge current allowed at a DC-link voltage. -/
noncomputable def chargeAt (chargeMax derateStart trip dcLink : ℝ) : ℝ :=
  if ¬derateStart < dcLink then chargeMax
  else if ¬dcLink < trip then 0
  else chargeMax * ((trip - dcLink) / (trip - derateStart))

theorem chargeAt_nonneg {chargeMax derateStart trip : ℝ} (nonneg : 0 ≤ chargeMax) (dcLink : ℝ) :
    0 ≤ chargeAt chargeMax derateStart trip dcLink := by
  unfold chargeAt
  split_ifs with derated inside
  · have derating : 0 ≤ (trip - dcLink) / (trip - derateStart) := by
      apply div_nonneg
      · linarith
      · linarith
    exact mul_nonneg nonneg derating
  · exact le_refl 0
  · exact nonneg

/-- Limits that are real numbers and leave room for the derating. -/
structure DcLinkLimit.Sound (window : DcLinkLimit ExtendedReal) (drive charge derateStart trip : ℝ) :
    Prop where
  values : window = ⟨.real drive, .real charge, .real derateStart, .real trip⟩
  drive_nonneg : 0 ≤ drive
  charge_nonneg : 0 ≤ charge
  room : derateStart < trip

namespace DcLinkLimit.Sound

variable {window : DcLinkLimit ExtendedReal} {drive charge derateStart trip : ℝ}
  (sound : window.Sound drive charge derateStart trip)
include sound

theorem allowedChargeCurrent_real (v : ℝ) :
    window.allowedChargeCurrent (.real v) = .real (chargeAt charge derateStart trip v) := by
  have room : trip - derateStart ≠ 0 := (sub_pos.mpr sound.room).ne'
  rw [sound.values]
  unfold allowedChargeCurrent chargeAt
  simp only [ExtendedReal.lt_real, ExtendedReal.sub_real, ExtendedReal.scalar_zero,
    ExtendedReal.quotient_real _ room, ExtendedReal.mul_real]
  split_ifs <;> rfl

theorem limit_real {v : ℝ} (positive : 0 < v) (d q k w : ℝ) :
    window.limit ⟨.real d, .real q⟩ (.real k) (.real w) (.real v) =
      ⟨.real d, .real (
        if v * drive < k * q * w then q * (v * drive / (k * q * w))
        else if k * q * w < -(v * chargeAt charge derateStart trip v) then
          q * (-(v * chargeAt charge derateStart trip v) / (k * q * w))
        else q)⟩ := by
  have motoring : 0 ≤ v * drive := mul_nonneg positive.le sound.drive_nonneg
  have braking : 0 ≤ v * chargeAt charge derateStart trip v :=
    mul_nonneg positive.le (chargeAt_nonneg sound.charge_nonneg v)
  unfold DcLinkLimit.limit
  rw [sound.allowedChargeCurrent_real, sound.values]
  simp only [ExtendedReal.scalar_zero, ExtendedReal.lt_real, positive, not_true_eq_false, if_false,
    ExtendedReal.mul_real, ExtendedReal.neg_real]
  split_ifs with above below
  · rw [ExtendedReal.quotient_real _ (motoring.trans_lt above).ne', ExtendedReal.mul_real]
  · have nonzero : k * q * w ≠ 0 := by linarith
    rw [ExtendedReal.quotient_real _ (by linarith), ExtendedReal.mul_real]
  · rfl

theorem limit_power {v : ℝ} (positive : 0 < v) (d q k w : ℝ) :
    ∃ y, window.limit ⟨.real d, .real q⟩ (.real k) (.real w) (.real v) = ⟨.real d, .real y⟩ ∧
      -(v * chargeAt charge derateStart trip v) ≤ k * y * w ∧ k * y * w ≤ v * drive := by
  have motoring : 0 ≤ v * drive := mul_nonneg positive.le sound.drive_nonneg
  have braking : 0 ≤ v * chargeAt charge derateStart trip v :=
    mul_nonneg positive.le (chargeAt_nonneg sound.charge_nonneg v)
  have scaled {bound : ℝ} (power : k * q * w ≠ 0) : k * (q * (bound / (k * q * w))) * w = bound := by
    rw [show k * (q * (bound / (k * q * w))) * w = k * q * w * (bound / (k * q * w)) by ring]
    exact mul_div_cancel₀ bound power
  refine ⟨_, sound.limit_real positive d q k w, ?_⟩
  split_ifs with above below
  · rw [scaled (motoring.trans_lt above).ne']
    exact ⟨(neg_nonpos.mpr braking).trans motoring, le_refl _⟩
  · rw [scaled (by linarith)]
    exact ⟨le_refl _, (neg_nonpos.mpr braking).trans motoring⟩
  · exact ⟨not_lt.mp below, not_lt.mp above⟩

theorem motoring_real {dcLink power : ExtendedReal} (positive : Scalar.zero < dcLink)
    (above : dcLink * window.driveCurrentMax < power) :
    ∃ bound, 0 ≤ bound ∧ dcLink * window.driveCurrentMax = .real bound := by
  rw [sound.values] at above ⊢
  simp only [ExtendedReal.scalar_zero] at positive
  rcases dcLink with _ | negative | v
  · exact absurd positive id
  · obtain rfl : negative = false := positive
    rcases sound.drive_nonneg.eq_or_lt with zero | drives
    · subst zero
      change (ExtendedReal.mul (.infinite false) (.real 0)).Lt power at above
      rw [ExtendedReal.infinite_mul_zero] at above
      exact absurd above (ExtendedReal.not_nan_lt power)
    · have infinite : (.infinite false * .real drive : ExtendedReal) = .infinite false := by
        refine (ExtendedReal.infinite_mul drives.ne' false).trans ?_
        simp [drives.le]
      rw [infinite] at above
      exact absurd above (ExtendedReal.not_infinite_lt power)
  · exact ⟨v * drive, mul_nonneg (le_of_lt positive) sound.drive_nonneg, rfl⟩

theorem braking_real {dcLink power : ExtendedReal} (positive : Scalar.zero < dcLink)
    (below : power < -(dcLink * window.allowedChargeCurrent dcLink)) :
    ∃ bound, bound ≤ 0 ∧ -(dcLink * window.allowedChargeCurrent dcLink) = .real bound := by
  simp only [ExtendedReal.scalar_zero] at positive
  rcases dcLink with _ | negative | v
  · exact absurd positive id
  · obtain rfl : negative = false := positive
    have reached : window.regenDerateStart < .infinite false := by
      rw [sound.values]
      rfl
    have beyond : ¬(.infinite false : ExtendedReal) < window.trip := ExtendedReal.not_infinite_lt _
    have refused : window.allowedChargeCurrent (.infinite false) = .real 0 := by
      unfold allowedChargeCurrent
      rw [if_neg (not_not.mpr reached), if_pos beyond, ExtendedReal.scalar_zero]
    rw [refused] at below
    change power.Lt (ExtendedReal.negate (ExtendedReal.mul (.infinite false) (.real 0))) at below
    rw [ExtendedReal.infinite_mul_zero] at below
    exact absurd below (ExtendedReal.not_lt_nan power)
  · rw [sound.allowedChargeCurrent_real]
    exact ⟨-(v * chargeAt charge derateStart trip v), neg_nonpos.mpr
      (mul_nonneg (le_of_lt positive) (chargeAt_nonneg sound.charge_nonneg v)), rfl⟩

theorem limit_shrinks (k d q : ℝ) (speed dcLink : ExtendedReal) :
    ∃ ratio, 0 ≤ ratio ∧ ratio ≤ 1 ∧
      window.limit ⟨.real d, .real q⟩ (.real k) speed dcLink = ⟨.real d, .real (q * ratio)⟩ := by
  have unchanged : ∃ ratio, 0 ≤ ratio ∧ ratio ≤ 1 ∧
      (⟨.real d, .real q⟩ : Rotor ExtendedReal) = ⟨.real d, .real (q * ratio)⟩ :=
    ⟨1, zero_le_one, le_refl 1, by rw [mul_one]⟩
  unfold DcLinkLimit.limit
  simp only
  split_ifs with positive above below
  · obtain ⟨bound, nonneg, motoring⟩ := sound.motoring_real positive above
    rw [motoring] at above ⊢
    obtain ⟨ratio, low, high, quotient⟩ := ExtendedReal.div_above nonneg above
    exact ⟨ratio, low, high, congrArg (fun r => (⟨.real d, .real q * r⟩ : Rotor ExtendedReal)) quotient⟩
  · obtain ⟨bound, nonpos, braking⟩ := sound.braking_real positive below
    rw [braking] at below ⊢
    obtain ⟨ratio, low, high, quotient⟩ := ExtendedReal.div_below nonpos below
    exact ⟨ratio, low, high, congrArg (fun r => (⟨.real d, .real q * r⟩ : Rotor ExtendedReal)) quotient⟩
  · exact unchanged
  · exact unchanged

theorem limit_within {radius k : ℝ} {current : Rotor ExtendedReal} (within : Within radius current)
    (speed dcLink : ExtendedReal) : Within radius (window.limit current (.real k) speed dcLink) := by
  obtain ⟨d, q, rfl, length⟩ := within
  obtain ⟨ratio, low, high, scaled⟩ := sound.limit_shrinks k d q speed dcLink
  refine ⟨d, q * ratio, scaled, le_trans (Real.sqrt_le_sqrt ?_) length⟩
  have small : ratio * ratio ≤ 1 := mul_le_one₀ high low high
  nlinarith [mul_self_nonneg q]

theorem limit_zero (k : ℝ) (speed dcLink : ExtendedReal) :
    window.limit Rotor.zero (.real k) speed dcLink = Rotor.zero := by
  have zero : (Rotor.zero : Rotor ExtendedReal) = ⟨.real 0, .real 0⟩ := by simp [Rotor.zero]
  obtain ⟨ratio, -, -, scaled⟩ := sound.limit_shrinks k 0 0 speed dcLink
  rw [zero, scaled, zero_mul]

end DcLinkLimit.Sound

end Unimoc.CurrentControl
