import Unimoc.CurrentControl.DcLinkLimit

/-! What the DC-link limits leave of a torque, in exact arithmetic. -/
namespace Unimoc.CurrentControl

section Derating

variable {chargeMax derateStart trip : ℝ}

theorem chargeAt_full {v : ℝ} (below : v ≤ derateStart) :
    chargeAt chargeMax derateStart trip v = chargeMax :=
  if_pos (not_lt.mpr below)

theorem chargeAt_tripped (room : derateStart < trip) {v : ℝ} (tripped : trip ≤ v) :
    chargeAt chargeMax derateStart trip v = 0 := by
  unfold chargeAt
  rw [if_neg (not_not.mpr (room.trans_le tripped)), if_pos (not_lt.mpr tripped)]

theorem chargeAt_derated {v : ℝ} (above : derateStart < v) (inside : v < trip) :
    chargeAt chargeMax derateStart trip v = chargeMax * ((trip - v) / (trip - derateStart)) := by
  unfold chargeAt
  rw [if_neg (not_not.mpr above), if_neg (not_not.mpr inside)]

theorem chargeAt_le (nonneg : 0 ≤ chargeMax) (room : derateStart < trip) (v : ℝ) :
    chargeAt chargeMax derateStart trip v ≤ chargeMax := by
  rcases le_or_gt v derateStart with below | above
  · exact (chargeAt_full below).le
  rcases le_or_gt trip v with tripped | inside
  · exact (chargeAt_tripped room tripped).trans_le nonneg
  rw [chargeAt_derated above inside]
  have part : (trip - v) / (trip - derateStart) ≤ 1 := by
    apply div_le_one_of_le₀
    · linarith
    · linarith
  exact mul_le_of_le_one_right nonneg part

theorem chargeAt_antitone (nonneg : 0 ≤ chargeMax) (room : derateStart < trip) :
    Antitone (chargeAt chargeMax derateStart trip) := by
  intro low high order
  rcases le_or_gt low derateStart with full | derated
  · rw [chargeAt_full full]
    exact chargeAt_le nonneg room high
  rcases le_or_gt trip high with tripped | inside
  · rw [chargeAt_tripped room tripped]
    exact chargeAt_nonneg nonneg low
  rw [chargeAt_derated derated (order.trans_lt inside),
    chargeAt_derated (derated.trans_le order) inside]
  have span : 0 < trip - derateStart := sub_pos.mpr room
  gcongr

end Derating

section Clamping

variable {a m b w : ℝ}

theorem clamp_cases {lower upper : ℝ} (order : lower ≤ upper) (a : ℝ) :
    min (max a lower) upper = if upper < a then upper else if a < lower then lower else a := by
  split_ifs with above below
  · exact min_eq_right (le_max_of_le_left above.le)
  · rw [max_eq_right below.le, min_eq_left order]
  · rw [max_eq_left (not_lt.mp below), min_eq_left (not_lt.mp above)]

theorem clamp_forward (motoring : 0 ≤ m) (braking : 0 ≤ b) (forward : 0 < w) :
    (if m < a * w then m / w else if a * w < -b then -b / w else a) =
      min (max a (-b / w)) (m / w) := by
  have order : -b / w ≤ m / w := by
    gcongr
    linarith
  simp only [clamp_cases order, div_lt_iff₀ forward, lt_div_iff₀ forward]

theorem clamp_backward (motoring : 0 ≤ m) (braking : 0 ≤ b) (backward : w < 0) :
    (if m < a * w then m / w else if a * w < -b then -b / w else a) =
      min (max a (m / w)) (-b / w) := by
  have order : m / w ≤ -b / w := div_le_div_of_nonpos_of_le backward.le (by linarith)
  simp only [clamp_cases order, lt_div_iff_of_neg backward, div_lt_iff_of_neg backward]
  split_ifs
  · linarith
  · rfl
  · rfl
  · rfl

end Clamping

namespace DcLinkLimit.Sound

variable {window : DcLinkLimit ExtendedReal} {drive charge derateStart trip : ℝ}
  (sound : window.Sound drive charge derateStart trip)
include sound

theorem allowedTorque_turning {v w : ℝ} (positive : 0 < v) (turning : w ≠ 0) :
    window.allowedTorque (.real w) (.real v) =
      if 0 < w then ⟨.real (-(v * chargeAt charge derateStart trip v) / w), .real (v * drive / w)⟩
      else ⟨.real (v * drive / w), .real (-(v * chargeAt charge derateStart trip v) / w)⟩ := by
  have moving : Scalar.eq (ExtendedReal.real w) Scalar.zero = false := by
    rcases turning.lt_or_gt with backward | forward
    · simp [Scalar.eq, not_le.mpr backward]
    · simp [Scalar.eq, not_le.mpr forward]
  unfold allowedTorque
  rw [sound.allowedChargeCurrent_real, sound.values, moving]
  simp only [ExtendedReal.scalar_zero, ExtendedReal.lt_real, positive, ExtendedReal.mul_real,
    ExtendedReal.neg_real, ExtendedReal.quotient_real _ turning, ExtendedReal.finite_real,
    not_true_eq_false, decide_false, Bool.or_self, Bool.not_true, Bool.false_eq_true, if_false]

omit sound in
theorem allowedTorque_standstill (v : ExtendedReal) :
    window.allowedTorque (.real 0) v = ⟨.infinite true, .infinite false⟩ := by
  unfold allowedTorque
  rw [if_pos (by simp [Scalar.eq])]
  rfl

omit sound in
theorem clamp_unbounded (a : ℝ) :
    Scalar.clamp (.real a) (.infinite true) (.infinite false) = (.real a : ExtendedReal) := by
  have above : ¬(.real a : ExtendedReal) < .infinite true := Bool.false_ne_true ∘ Eq.symm
  have below : ¬(.infinite false : ExtendedReal) < .real a := ExtendedReal.not_infinite_lt _
  unfold Scalar.clamp Scalar.min Scalar.max
  rw [if_neg above, if_neg below]

theorem limit_torque {v : ℝ} (positive : 0 < v) {k : ℝ} (constant : 0 < k) (d q w : ℝ) :
    ∃ y, window.limit ⟨.real d, .real q⟩ (.real k) (.real w) (.real v) = ⟨.real d, .real y⟩ ∧
      .real (k * y) = Scalar.clamp (.real (k * q)) (window.allowedTorque (.real w) (.real v)).lower
        (window.allowedTorque (.real w) (.real v)).upper := by
  have motoring : 0 ≤ v * drive := mul_nonneg positive.le sound.drive_nonneg
  have braking : 0 ≤ v * chargeAt charge derateStart trip v :=
    mul_nonneg positive.le (chargeAt_nonneg sound.charge_nonneg v)
  refine ⟨_, sound.limit_real positive d q k w, ?_⟩
  rcases eq_or_ne w 0 with rfl | turning
  · rw [allowedTorque_standstill, clamp_unbounded]
    simp only [mul_zero, not_lt.mpr motoring, not_lt.mpr (neg_nonpos.mpr braking), if_false]
  -- the q current is scaled by a power over a power, the torque by a torque over a torque
  have scaled {bound : ℝ} (power : k * q * w ≠ 0) : k * (q * (bound / (k * q * w))) = bound / w := by
    have current : q ≠ 0 := by
      rintro rfl
      simp at power
    field_simp
  have torque : k * (if v * drive < k * q * w then q * (v * drive / (k * q * w))
        else if k * q * w < -(v * chargeAt charge derateStart trip v) then
          q * (-(v * chargeAt charge derateStart trip v) / (k * q * w))
        else q) =
      if v * drive < k * q * w then v * drive / w
      else if k * q * w < -(v * chargeAt charge derateStart trip v) then
        -(v * chargeAt charge derateStart trip v) / w
      else k * q := by
    split_ifs with above below
    · exact scaled (motoring.trans_lt above).ne'
    · exact scaled (by linarith)
    · rfl
  rw [torque, sound.allowedTorque_turning positive turning]
  rcases turning.lt_or_gt with backward | forward
  · rw [if_neg (not_lt.mpr backward.le)]
    simp only [Scalar.clamp, ExtendedReal.max_real, ExtendedReal.min_real]
    rw [clamp_backward motoring braking backward]
  · rw [if_pos forward]
    simp only [Scalar.clamp, ExtendedReal.max_real, ExtendedReal.min_real]
    rw [clamp_forward motoring braking forward]

end DcLinkLimit.Sound

/-- The limiter acts on the q current alone, as a clamp of the torque, and the charge current fades
out between the start of the derating and the trip. -/
theorem limit_clamps_torque (window : DcLinkLimit ExtendedReal) (drive charge derateStart trip : ℝ)
    (sound : window.Sound drive charge derateStart trip) :
    (∀ k v, 0 < k → 0 < v → ∀ d q w : ℝ, ∃ y : ℝ,
      window.limit ⟨.real d, .real q⟩ (.real k) (.real w) (.real v) = ⟨.real d, .real y⟩ ∧
      (0 ≤ q → 0 ≤ y) ∧ (q ≤ 0 → y ≤ 0) ∧
      .real k * .real y = Scalar.clamp (.real k * .real q)
        (window.allowedTorque (.real w) (.real v)).lower
        (window.allowedTorque (.real w) (.real v)).upper) ∧
    (∀ low high : ℝ, low ≤ high →
      window.allowedChargeCurrent (.real high) ≤ window.allowedChargeCurrent (.real low)) ∧
    (∀ v : ℝ, v ≤ derateStart → window.allowedChargeCurrent (.real v) = window.chargeCurrentMax) ∧
    (∀ v : ℝ, trip ≤ v → window.allowedChargeCurrent (.real v) = Scalar.zero) := by
  refine ⟨?_, ?_, ?_, ?_⟩
  · intro k v constant positive d q w
    obtain ⟨y, limited, torque⟩ := sound.limit_torque positive constant d q w
    obtain ⟨ratio, nonneg, -, shrunk⟩ := sound.limit_shrinks k d q (.real w) (.real v)
    obtain rfl : y = q * ratio := by
      rw [limited] at shrunk
      injection shrunk with _ second
      injection second
    refine ⟨q * ratio, limited, ?_, ?_, torque⟩
    · intro forward
      exact mul_nonneg forward nonneg
    · intro backward
      exact mul_nonpos_of_nonpos_of_nonneg backward nonneg
  · intro low high order
    rw [sound.allowedChargeCurrent_real, sound.allowedChargeCurrent_real]
    exact chargeAt_antitone sound.charge_nonneg sound.room order
  · intro v below
    rw [sound.allowedChargeCurrent_real, chargeAt_full below, sound.values]
  · intro v tripped
    rw [sound.allowedChargeCurrent_real, chargeAt_tripped sound.room tripped, ExtendedReal.scalar_zero]

theorem limit_clamps_torque_braking :
    ∃ y : ℝ,
      (⟨.real 20, .real 10, .real 50, .real 60⟩ : DcLinkLimit ExtendedReal).limit
        ⟨.real 0, .real (-40)⟩ (.real 2) (.real 30) (.real 55) = ⟨.real 0, .real y⟩ ∧
      .real 2 * .real y = Scalar.clamp (.real 2 * .real (-40) : ExtendedReal)
        ((⟨.real 20, .real 10, .real 50, .real 60⟩ : DcLinkLimit ExtendedReal).allowedTorque
          (.real 30) (.real 55)).lower
        ((⟨.real 20, .real 10, .real 50, .real 60⟩ : DcLinkLimit ExtendedReal).allowedTorque
          (.real 30) (.real 55)).upper := by
  have sound : (⟨.real 20, .real 10, .real 50, .real 60⟩ : DcLinkLimit ExtendedReal).Sound 20 10 50 60 := by
    constructor
    · rfl
    · norm_num
    · norm_num
    · norm_num
  obtain ⟨y, limited, -, -, torque⟩ := (limit_clamps_torque _ 20 10 50 60 sound).1 2 55
    (by norm_num) (by norm_num) 0 (-40) 30
  exact ⟨y, limited, torque⟩

end Unimoc.CurrentControl
