import Unimoc.CurrentControl.WellDefined
import Unimoc.Lib.Runs

/-! The voltage circle of the current controller, and what back-calculation makes of its
integrators, in exact arithmetic. -/
namespace Unimoc.CurrentControl

/-- What one step of the controller is called with, its gains and its period apart. -/
structure ControlInput (F : Type) where
  iRef : Rotor F
  iMeas : Rotor F
  omega : F
  vDc : F

noncomputable def Rotor.length (vector : Rotor ℝ) : ℝ :=
  Real.sqrt (vector.d * vector.d + vector.q * vector.q)

theorem Rotor.abs_d_le (vector : Rotor ℝ) : |vector.d| ≤ vector.length := by
  apply Real.abs_le_sqrt
  nlinarith [mul_self_nonneg vector.q]

theorem Rotor.abs_q_le (vector : Rotor ℝ) : |vector.q| ≤ vector.length := by
  apply Real.abs_le_sqrt
  nlinarith [mul_self_nonneg vector.d]

theorem Rotor.length_scaled {scale : ℝ} (nonneg : 0 ≤ scale) (vector : Rotor ℝ) :
    Rotor.length ⟨vector.d * scale, vector.q * scale⟩ = vector.length * scale := by
  unfold Rotor.length
  have square : vector.d * scale * (vector.d * scale) + vector.q * scale * (vector.q * scale) =
      (vector.d * vector.d + vector.q * vector.q) * (scale * scale) := by ring
  rw [square, Real.sqrt_mul' _ (mul_self_nonneg scale), Real.sqrt_mul_self nonneg]

namespace CurrentController

section Steps

variable {F : Type} [Arithmetic F]

def reset (cc : CurrentController F) : CurrentController F :=
  { cc with integratorD := Scalar.zero, integratorQ := Scalar.zero }

def feedforward (cc : CurrentController F) (input : ControlInput F) : Rotor F :=
  ⟨-(input.omega * (cc.lQ * input.iMeas.q)), input.omega * (cc.lD * input.iMeas.d + cc.psi)⟩

def unlimited (gains : CurrentGains F) (cc : CurrentController F) (input : ControlInput F) : Rotor F :=
  ⟨gains.kpD * (input.iRef.d - input.iMeas.d) + cc.integratorD + (cc.feedforward input).d,
    gains.kpQ * (input.iRef.q - input.iMeas.q) + cc.integratorQ + (cc.feedforward input).q⟩

def step (gains : CurrentGains F) (dt : F) (cc : CurrentController F) (input : ControlInput F) :
    Rotor F × CurrentController F :=
  cc.update plainDivision input.iRef input.iMeas input.omega dt input.vDc gains

theorem step_voltage (gains : CurrentGains F) (dt : F) (cc : CurrentController F) (input : ControlInput F) :
    (cc.step gains dt input).1 =
      limited plainDivision (cc.unlimited gains input) (cc.vMax * input.vDc) := rfl

theorem step_integrators (gains : CurrentGains F) (dt : F) (cc : CurrentController F)
    (input : ControlInput F) :
    (cc.step gains dt input).2 =
      { cc with
        integratorD := cc.integratorD + (gains.kiD * (input.iRef.d - input.iMeas.d) +
          cc.kbD * ((cc.step gains dt input).1.d - (cc.unlimited gains input).d)) * dt
        integratorQ := cc.integratorQ + (gains.kiQ * (input.iRef.q - input.iMeas.q) +
          cc.kbQ * ((cc.step gains dt input).1.q - (cc.unlimited gains input).q)) * dt } := rfl

end Steps

theorem limited_inside {raw : Rotor ℝ} {limit : ℝ} (nonneg : 0 ≤ limit) (inside : raw.length ≤ limit) :
    limited plainDivision raw limit = raw := by
  have square : raw.d * raw.d + raw.q * raw.q ≤ limit * limit :=
    ((Real.sqrt_le_left nonneg).mp inside).trans_eq (sq limit)
  exact if_neg (not_lt.mpr square)

theorem limited_outside {raw : Rotor ℝ} {limit : ℝ} (nonneg : 0 ≤ limit) (outside : limit < raw.length) :
    limited plainDivision raw limit = ⟨raw.d * (limit / raw.length), raw.q * (limit / raw.length)⟩ := by
  have square : limit * limit < raw.d * raw.d + raw.q * raw.q :=
    (sq limit).symm.trans_lt ((Real.lt_sqrt nonneg).mp outside)
  exact if_pos square

/-- The voltage is the demand with its direction kept and its length cut at the circle. -/
theorem limited_circle {limit : ℝ} (nonneg : 0 ≤ limit) (raw : Rotor ℝ) :
    ∃ scale, 0 ≤ scale ∧ limited plainDivision raw limit = ⟨raw.d * scale, raw.q * scale⟩ ∧
      (limited plainDivision raw limit).length ≤ limit := by
  rcases le_or_gt (raw.length) limit with inside | outside
  · refine ⟨1, zero_le_one, ?_, ?_⟩
    · rw [limited_inside nonneg inside, mul_one, mul_one]
    · rw [limited_inside nonneg inside]
      exact inside
  · have positive : 0 < raw.length := nonneg.trans_lt outside
    have scale : 0 ≤ limit / raw.length := div_nonneg nonneg positive.le
    refine ⟨limit / raw.length, scale, limited_outside nonneg outside, ?_⟩
    rw [limited_outside nonneg outside, Rotor.length_scaled scale, mul_div_cancel₀ limit positive.ne']

/-! ### The integrators -/

/-- What bounds the integrator of an axis: gains, period, and the bounds of the error, of the
feedforward and of the voltage. -/
noncomputable def axisBound (kp ki kb dt error feed voltage : ℝ) : ℝ :=
  voltage + |kp| * error + feed + |ki * dt| * error / (kb * dt)

/-- Limited or not, a share `kb * dt` of the integrator is replaced by what the other terms leave
of the voltage. -/
theorem axis_step {kp ki kb dt error feed voltage : ℝ} (leak : 0 < kb * dt) (whole : kb * dt ≤ 1)
    {e f u i : ℝ} (smallError : |e| ≤ error) (smallFeed : |f| ≤ feed) (smallVoltage : |u| ≤ voltage)
    (bounded : |i| ≤ axisBound kp ki kb dt error feed voltage) :
    |i + (ki * e + kb * (u - (kp * e + i + f))) * dt| ≤ axisBound kp ki kb dt error feed voltage := by
  have blend : i + (ki * e + kb * (u - (kp * e + i + f))) * dt =
      (1 - kb * dt) * i + kb * dt * (u - kp * e - f) + ki * dt * e := by ring
  have kept : |(1 - kb * dt) * i| ≤
      (1 - kb * dt) * axisBound kp ki kb dt error feed voltage := by
    rw [abs_mul, abs_of_nonneg (sub_nonneg.mpr whole)]
    exact mul_le_mul_of_nonneg_left bounded (sub_nonneg.mpr whole)
  have proportional : |kp * e| ≤ |kp| * error := by
    rw [abs_mul]
    exact mul_le_mul_of_nonneg_left smallError (abs_nonneg kp)
  have replaced : |kb * dt * (u - kp * e - f)| ≤ kb * dt * (voltage + |kp| * error + feed) := by
    rw [abs_mul, abs_of_pos leak]
    apply mul_le_mul_of_nonneg_left _ leak.le
    calc |u - kp * e - f| ≤ |u - kp * e| + |f| := abs_sub _ _
      _ ≤ |u| + |kp * e| + |f| := by gcongr; exact abs_sub _ _
      _ ≤ voltage + |kp| * error + feed := by gcongr
  have integrated : |ki * dt * e| ≤ |ki * dt| * error := by
    rw [abs_mul]
    exact mul_le_mul_of_nonneg_left smallError (abs_nonneg _)
  calc |i + (ki * e + kb * (u - (kp * e + i + f))) * dt|
      ≤ |(1 - kb * dt) * i| + |kb * dt * (u - kp * e - f)| + |ki * dt * e| := by
        rw [blend]
        exact abs_add_three _ _ _
    _ ≤ (1 - kb * dt) * axisBound kp ki kb dt error feed voltage +
          kb * dt * (voltage + |kp| * error + feed) + |ki * dt| * error := by gcongr
    _ = axisBound kp ki kb dt error feed voltage := by
        have share : kb * dt * (|ki * dt| * error / (kb * dt)) = |ki * dt| * error :=
          mul_div_cancel₀ _ leak.ne'
        unfold axisBound
        linear_combination -share

/-- Bounds of what a run is called with, axis by axis. -/
structure InputBounds where
  error : Rotor NNReal
  feed : Rotor NNReal
  voltage : NNReal

/-- The steps whose errors, feedforward and voltage limit are within the bounds. -/
structure InputBounds.Admits (bounds : InputBounds) (cc : CurrentController ℝ) (input : ControlInput ℝ) :
    Prop where
  errorD : |input.iRef.d - input.iMeas.d| ≤ bounds.error.d
  errorQ : |input.iRef.q - input.iMeas.q| ≤ bounds.error.q
  feedD : |(cc.feedforward input).d| ≤ bounds.feed.d
  feedQ : |(cc.feedforward input).q| ≤ bounds.feed.q
  vMax : 0 ≤ cc.vMax
  vDc : 0 ≤ input.vDc
  voltage : cc.vMax * input.vDc ≤ bounds.voltage

/-- Steps of one period with constant gains, from a reset on. -/
noncomputable def machine (gains : CurrentGains ℝ) (dt : ℝ) (bounds : InputBounds)
    (cc : CurrentController ℝ) : Runs.Machine (CurrentController ℝ) (ControlInput ℝ) where
  start := cc.reset
  next cc input := (cc.step gains dt input).2
  admits := bounds.Admits

/-- What the steps keep: the parameters of the reset, and both integrators within their bounds. -/
structure Wound (gains : CurrentGains ℝ) (dt : ℝ) (bounds : InputBounds) (start cc : CurrentController ℝ) :
    Prop where
  kbD : cc.kbD = start.kbD
  kbQ : cc.kbQ = start.kbQ
  d : |cc.integratorD| ≤
    axisBound gains.kpD gains.kiD start.kbD dt bounds.error.d bounds.feed.d bounds.voltage
  q : |cc.integratorQ| ≤
    axisBound gains.kpQ gains.kiQ start.kbQ dt bounds.error.q bounds.feed.q bounds.voltage

theorem Wound.next {gains : CurrentGains ℝ} {dt : ℝ} {bounds : InputBounds} {start cc : CurrentController ℝ}
    (wound : Wound gains dt bounds start cc) (leakD : 0 < start.kbD * dt) (wholeD : start.kbD * dt ≤ 1)
    (leakQ : 0 < start.kbQ * dt) (wholeQ : start.kbQ * dt ≤ 1) {input : ControlInput ℝ}
    (admitted : bounds.Admits cc input) : Wound gains dt bounds start (cc.step gains dt input).2 := by
  have radius : 0 ≤ cc.vMax * input.vDc := mul_nonneg admitted.vMax admitted.vDc
  obtain ⟨-, -, -, inside⟩ := limited_circle radius (cc.unlimited gains input)
  rw [← step_voltage gains dt] at inside
  have voltage := inside.trans admitted.voltage
  rw [step_integrators]
  constructor
  · exact wound.kbD
  · exact wound.kbQ
  · rw [wound.kbD]
    exact axis_step leakD wholeD admitted.errorD admitted.feedD
      ((Rotor.abs_d_le _).trans voltage) wound.d
  · rw [wound.kbQ]
    exact axis_step leakQ wholeQ admitted.errorQ admitted.feedQ
      ((Rotor.abs_q_le _).trans voltage) wound.q

theorem wound_reset {gains : CurrentGains ℝ} {dt : ℝ} {bounds : InputBounds} (cc : CurrentController ℝ)
    (leakD : 0 < cc.kbD * dt) (leakQ : 0 < cc.kbQ * dt) : Wound gains dt bounds cc cc.reset := by
  have zero {kp ki kb : ℝ} {error feed : NNReal} (leak : 0 < kb * dt) :
      |(Scalar.zero : ℝ)| ≤ axisBound kp ki kb dt error feed bounds.voltage := by
    rw [Scalar.zero_exact, abs_zero]
    unfold axisBound
    positivity
  constructor
  · rfl
  · rfl
  · exact zero leakD
  · exact zero leakQ

theorem wound_run {gains : CurrentGains ℝ} {dt : ℝ} {bounds : InputBounds} {cc : CurrentController ℝ}
    (leakD : 0 < cc.kbD * dt) (wholeD : cc.kbD * dt ≤ 1) (leakQ : 0 < cc.kbQ * dt)
    (wholeQ : cc.kbQ * dt ≤ 1) (trace : List (ControlInput ℝ))
    (legal : (cc.machine gains dt bounds).Legal trace) :
    Wound gains dt bounds cc ((cc.machine gains dt bounds).replay trace) := by
  induction trace with
  | nil => exact wound_reset cc leakD leakQ
  | cons input past ih => exact (ih legal.2).next leakD wholeD leakQ wholeQ legal.1

end CurrentController

/-- The voltage keeps to its circle and to the direction of the demand; back-calculation that takes
back at most the whole excess in a step keeps both integrators bounded. -/
theorem currentController_bounded (cc : CurrentController ℝ) (gains : CurrentGains ℝ) (dt : ℝ) :
    (∀ input : ControlInput ℝ, 0 ≤ input.vDc → 0 ≤ cc.vMax →
      (cc.step gains dt input).1.length ≤ cc.vMax * input.vDc ∧
      (∃ scale : ℝ, 0 ≤ scale ∧ (cc.step gains dt input).1 =
        ⟨(cc.unlimited gains input).d * scale, (cc.unlimited gains input).q * scale⟩) ∧
      ((cc.unlimited gains input).length ≤ cc.vMax * input.vDc →
        (cc.step gains dt input).1 = cc.unlimited gains input)) ∧
    (0 < cc.kbD * dt → cc.kbD * dt ≤ 1 → 0 < cc.kbQ * dt → cc.kbQ * dt ≤ 1 →
      ∀ (bounds : CurrentController.InputBounds) (trace : List (ControlInput ℝ)),
        (cc.machine gains dt bounds).Legal trace →
        |((cc.machine gains dt bounds).replay trace).integratorD| ≤
          CurrentController.axisBound gains.kpD gains.kiD cc.kbD dt bounds.error.d bounds.feed.d
            bounds.voltage ∧
        |((cc.machine gains dt bounds).replay trace).integratorQ| ≤
          CurrentController.axisBound gains.kpQ gains.kiQ cc.kbQ dt bounds.error.q bounds.feed.q
            bounds.voltage) := by
  constructor
  · intro input dcLink share
    have radius : 0 ≤ cc.vMax * input.vDc := mul_nonneg share dcLink
    obtain ⟨scale, nonneg, scaled, inside⟩ :=
      CurrentController.limited_circle radius (cc.unlimited gains input)
    rw [CurrentController.step_voltage]
    refine ⟨inside, ⟨scale, nonneg, scaled⟩, ?_⟩
    intro small
    exact CurrentController.limited_inside radius small
  · intro leakD wholeD leakQ wholeQ bounds trace legal
    have wound := CurrentController.wound_run leakD wholeD leakQ wholeQ trace legal
    exact ⟨wound.d, wound.q⟩

noncomputable def halfBack : CurrentController ℝ := ⟨0, 0, 0, 1, 1, 1, 0, 0⟩

noncomputable def saturating : ControlInput ℝ := ⟨⟨10.0, 0⟩, ⟨0, 0⟩, 0, 5⟩

theorem currentController_bounded_saturating :
    (halfBack.step ⟨1, 1, 1, 1⟩ (1 / 2) saturating).1.length ≤ 5 ∧
      |((halfBack.machine ⟨1, 1, 1, 1⟩ (1 / 2) ⟨⟨10, 0⟩, ⟨0, 0⟩, 5⟩).replay
        [saturating]).integratorD| ≤ 25 := by
  obtain ⟨circle, runs⟩ := currentController_bounded halfBack ⟨1, 1, 1, 1⟩ (1 / 2)
  have leak : 0 < (1 : ℝ) * (1 / 2) ∧ (1 : ℝ) * (1 / 2) ≤ 1 := by norm_num
  have admitted : CurrentController.InputBounds.Admits ⟨⟨10, 0⟩, ⟨0, 0⟩, 5⟩ halfBack.reset saturating := by
    constructor <;>
      norm_num [saturating, halfBack, CurrentController.reset, CurrentController.feedforward]
  constructor
  · refine (circle saturating ?_ ?_).1.trans ?_ <;> norm_num [saturating, halfBack]
  · refine (runs leak.1 leak.2 leak.1 leak.2 _ [saturating] ⟨admitted, trivial⟩).1.trans ?_
    norm_num [CurrentController.axisBound, halfBack]

end Unimoc.CurrentControl
