import Unimoc.CurrentControl.MechanicalObserver
import Unimoc.Lib.Kalman
import Unimoc.Lib.Yields
import Unimoc.Settings.ExactValues

/-! The mechanical observer in exact arithmetic, with a wrap that refuses an angle more than
eight revolutions away. -/
namespace Unimoc.CurrentControl

open Settings

theorem pi_value : (pi : ℝ) = 13176795 / 4194304 := by
  have bits : Binary32.ofBits (0x40490FDB : UInt32).toNat = .finite 13176795 (-22) := by decide
  show (Binary32.ofBits (0x40490FDB : UInt32).toNat).value = _
  rw [bits]
  norm_num [Binary.value]

theorem pi_pos : 0 < (pi : ℝ) := by
  rw [pi_value]
  norm_num

theorem twoPi_eq : (twoPi : ℝ) = 2 * pi := by
  unfold twoPi
  norm_num

/-- An angle of (-pi, pi]. -/
structure Principal (angle : ℝ) : Prop where
  above : -pi < angle
  below : angle ≤ pi

/-- The wrap of the source, for angles that it may be asked for. -/
noncomputable def wrapWithin (angle : ℝ) : Option ℝ :=
  open Classical in if |angle| ≤ 8 * twoPi then wrapAngle 9 angle else none

theorem wrapDown_yields {steps : Nat} {value : ℝ} (k : Nat) (enough : k < steps)
    (near : value ≤ pi + k * twoPi) :
    Yields (fun wrapped => wrapped ≤ pi ∧ (wrapped = value ∨ -pi < wrapped)) (wrapDown steps value) := by
  induction steps generalizing value k with
  | zero => omega
  | succ steps ih =>
    unfold wrapDown
    refine Yields.ite (fun outside => ?_) fun inside => Yields.pure ⟨not_lt.mp inside, .inl rfl⟩
    have positive : k ≠ 0 := by
      rintro rfl
      simp at near
      linarith
    obtain ⟨k, rfl⟩ := Nat.exists_eq_succ_of_ne_zero positive
    have closer : value - twoPi ≤ pi + k * twoPi := by
      push_cast at near
      linarith
    refine (ih k (by omega) closer).mono fun wrapped found => ⟨found.1, .inr ?_⟩
    rcases found.2 with same | above
    · rw [same, twoPi_eq]
      linarith
    · exact above

theorem wrapUp_yields {steps : Nat} {value : ℝ} (k : Nat) (enough : k < steps)
    (near : -pi < value + k * twoPi) (below : value ≤ pi) : Yields Principal (wrapUp steps value) := by
  induction steps generalizing value k with
  | zero => omega
  | succ steps ih =>
    unfold wrapUp
    refine Yields.ite (fun outside => ?_) fun inside => Yields.pure ⟨not_le.mp inside, below⟩
    have positive : k ≠ 0 := by
      rintro rfl
      simp at near
      linarith
    obtain ⟨k, rfl⟩ := Nat.exists_eq_succ_of_ne_zero positive
    refine ih k (by omega) ?_ ?_
    · push_cast at near
      linarith
    · rw [twoPi_eq]
      linarith

theorem wrapWithin_yields {angle : ℝ} (within : |angle| ≤ 8 * twoPi) :
    Yields Principal (wrapWithin angle) := by
  obtain ⟨lower, upper⟩ := abs_le.mp within
  have positive := pi_pos
  have revolution := twoPi_eq
  unfold wrapWithin
  rw [if_pos within]
  refine (wrapDown_yields 8 (by norm_num) (by push_cast; linarith)).bind fun wrapped found => ?_
  refine wrapUp_yields 8 (by norm_num) ?_ found.1
  rcases found.2 with same | above
  · rw [same]
    push_cast
    linarith
  · push_cast
    linarith

theorem wrapWithin_refuses {angle : ℝ} (beyond : 8 * twoPi < |angle|) : wrapWithin angle = none :=
  if_neg (not_le.mpr beyond)

namespace MechanicalObserver

variable {s : NvmSettings} {obs : MechanicalObserver ℝ}

def matrix (obs : MechanicalObserver ℝ) : Matrix (Fin 3) (Fin 3) ℝ := Matrix.of obs.p

@[simp] theorem matrix_apply (i j : Fin 3) : obs.matrix i j = obs.p i j := rfl

theorem within_reach {angle turn : ℝ} (wrapped : |angle| ≤ pi) (reach : |turn| ≤ 7.5 * twoPi) :
    |angle + turn| ≤ 8 * twoPi := by
  have triangle := abs_add_le angle turn
  have revolution := twoPi_eq
  norm_num at reach
  linarith

noncomputable def transition (obs : MechanicalObserver ℝ) (dt : ℝ) : Matrix (Fin 3) (Fin 3) ℝ :=
  !![1, 0, -(dt / obs.j); dt, 1, 0; 0, 0, 1]

theorem predictCovariance_matrix (obs : MechanicalObserver ℝ) (dt : ℝ) :
    (obs.predictCovariance dt).matrix =
      obs.transition dt * obs.matrix * (obs.transition dt).conjTranspose +
        obs.q • (1 : Matrix (Fin 3) (Fin 3) ℝ) := by
  ext row column
  simp only [Matrix.add_apply, Matrix.mul_apply, Matrix.conjTranspose_apply, Matrix.smul_apply,
    Fin.sum_univ_three, star_trivial, matrix_apply, smul_eq_mul]
  fin_cases row <;> fin_cases column <;> simp [predictCovariance, transition] <;> ring

structure Configured (s : NvmSettings) (obs : MechanicalObserver ℝ) : Prop where
  omegaMax : obs.omegaMax = s.real .motorOmegaMax
  omegaMin : obs.omegaMin = s.real .motorOmegaMin
  q : obs.q = s.real .mechObsQ
  r : obs.r = s.real .mechObsR

/-- The parameters are those of the settings, and the covariance is one. -/
structure Filtered (s : NvmSettings) (obs : MechanicalObserver ℝ) : Prop extends Configured s obs where
  covariance : obs.matrix.PosSemidef

structure Tracked (s : NvmSettings) (obs : MechanicalObserver ℝ) : Prop extends Filtered s obs where
  angle : Principal obs.theta
  slowest : 2 * s.real .motorOmegaMin ≤ obs.omega
  fastest : obs.omega ≤ 2 * s.real .motorOmegaMax
  circle : obs.sinTheta * obs.sinTheta + obs.cosTheta * obs.cosTheta = 1

/-- Twice the larger of the speed limits. -/
noncomputable def speedGuard (s : NvmSettings) : ℝ :=
  2.0 * max (s.real .motorOmegaMax : ℝ) (-s.real .motorOmegaMin)

theorem speed_within {omega : ℝ} (slowest : 2 * s.real .motorOmegaMin ≤ omega)
    (fastest : omega ≤ 2 * s.real .motorOmegaMax) : |omega| ≤ speedGuard s := by
  have forward := le_max_left (s.real .motorOmegaMax : ℝ) (-s.real .motorOmegaMin)
  have backward := le_max_right (s.real .motorOmegaMax : ℝ) (-s.real .motorOmegaMin)
  unfold speedGuard
  exact abs_le.mpr ⟨by linarith, by linarith⟩

theorem Tracked.speed (tracked : Tracked s obs) : |obs.omega| ≤ speedGuard s :=
  speed_within tracked.slowest tracked.fastest

theorem Tracked.theta_le (tracked : Tracked s obs) : |obs.theta| ≤ pi :=
  abs_le.mpr ⟨tracked.angle.above.le, tracked.angle.below⟩

theorem circle (theta : ℝ) :
    Real.sin theta * Real.sin theta + Real.cos theta * Real.cos theta = 1 := by
  rw [← sq, ← sq]
  exact Real.sin_sq_add_cos_sq theta

theorem reset_matrix (theta omega : ℝ) : (obs.reset theta omega).matrix = 0 := by
  ext row column
  show (Scalar.zero : ℝ) = 0
  norm_num [Scalar.zero]

theorem Configured.reset (configured : Configured s obs) {theta omega : ℝ} (angle : Principal theta)
    (slowest : 2 * s.real .motorOmegaMin ≤ omega) (fastest : omega ≤ 2 * s.real .motorOmegaMax) :
    Tracked s (obs.reset theta omega) :=
  { omegaMax := configured.omegaMax
    omegaMin := configured.omegaMin
    q := configured.q
    r := configured.r
    covariance := reset_matrix theta omega ▸ Matrix.PosSemidef.zero
    angle := angle
    slowest := slowest
    fastest := fastest
    circle := circle theta }

theorem Tracked.predictCovariance (steady : 0 ≤ (s.real .mechObsQ : ℝ)) (tracked : Tracked s obs) (dt : ℝ) :
    Tracked s (obs.predictCovariance dt) := by
  exact
    { tracked with
      covariance := by
        rw [predictCovariance_matrix]
        exact Kalman.predict_posSemidef tracked.covariance _ (tracked.q ▸ steady) }

/-- The measurement is left out, or the covariance follows it and the speed by its row of the gain. -/
def Corrects (row state : Fin 3) (innovation noise : ℝ) (obs next : MechanicalObserver ℝ) : Prop :=
  next = obs ∨ 0 < obs.matrix state state + noise ∧ next.matrix = Kalman.update obs.matrix state noise ∧
    |next.omega| ≤ |obs.omega + Kalman.gain obs.matrix state noise row * innovation|

/-- A measurement of the speed with this noise, at the limit, turns the angle by so many half
revolutions at most. -/
def TurnsWithin (limit noise : ℝ) (halves : Nat) (obs : MechanicalObserver ℝ) : Prop :=
  |obs.omegaPhiCovariance| * (|obs.omega| - limit) ≤ halves * pi * (obs.phiVariance + noise)

theorem TurnsWithin.mono {limit noise : ℝ} {halves more : Nat} (psd : obs.matrix.PosSemidef)
    (noise_nonneg : 0 ≤ noise) (fewer : halves ≤ more) (turns : obs.TurnsWithin limit noise halves) :
    obs.TurnsWithin limit noise more := by
  have variance : 0 ≤ obs.p 0 0 := psd.diag_nonneg (i := 0)
  have positive := pi_pos
  refine le_trans turns ?_
  gcongr

theorem reset_turns {limit noise : ℝ} (noise_nonneg : 0 ≤ noise) (halves : Nat) {theta omega : ℝ} :
    (obs.reset theta omega).TurnsWithin limit noise halves := by
  have certain (row column : Fin 3) : (obs.reset theta omega).p row column = 0 :=
    congrFun (congrFun (@reset_matrix obs theta omega) row) column
  have positive := pi_pos
  unfold TurnsWithin omegaPhiCovariance phiVariance
  rw [certain, certain, abs_zero, zero_mul, zero_add]
  positivity

/-- A measurement of the angle, at most half a revolution away, adds half a revolution. -/
theorem TurnsWithin.measured {next : MechanicalObserver ℝ} {limit spread innovation noise : ℝ} {halves : Nat}
    (psd : obs.matrix.PosSemidef) (noise_nonneg : 0 ≤ noise) (spread_nonneg : 0 ≤ spread)
    (near : |innovation| ≤ pi) (corrects : Corrects 0 1 innovation noise obs next)
    (turns : obs.TurnsWithin limit spread halves) : next.TurnsWithin limit spread (halves + 1) := by
  rcases corrects with rfl | ⟨usable, covariance, speed⟩
  · exact turns.mono psd spread_nonneg (Nat.le_succ halves)
  have revolution := pi_pos
  have left := (Kalman.update_posSemidef psd noise_nonneg usable).diag_nonneg (i := 0)
  have variance := psd.diag_nonneg (i := 0)
  have share := Kalman.update_share psd noise_nonneg 0 spread_nonneg usable
  have moved := Kalman.update_moved psd noise_nonneg 0 spread_nonneg usable
  have shrunk := Kalman.update_measured (0 : Fin 3) usable
  have swapped : obs.p 0 1 = obs.p 1 0 := Kalman.symmetric psd 0 1
  rw [← covariance] at share moved left shrunk
  simp only [matrix_apply] at share moved left variance shrunk usable
  have step : |next.omega| ≤ |obs.omega| + |obs.p 1 0| / (obs.p 1 1 + noise) * pi := by
    refine speed.trans ((abs_add_le _ _).trans (add_le_add le_rfl ?_))
    rw [abs_mul, Kalman.gain, abs_div, matrix_apply, matrix_apply, swapped, abs_of_pos usable]
    gcongr
  unfold TurnsWithin omegaPhiCovariance phiVariance at turns ⊢
  rcases (add_nonneg variance spread_nonneg).eq_or_lt with certain | uncertain
  · have minor := Kalman.covariance_le psd 1 0
    have level : obs.p 1 0 = 0 := by
      simp only [matrix_apply] at minor
      nlinarith
    rw [shrunk, level, zero_mul, abs_zero, zero_mul]
    positivity
  have faster : |next.p 1 0| * (|obs.omega| - limit) ≤ halves * pi * (next.p 0 0 + spread) := by
    by_cases slow : |obs.omega| ≤ limit
    · exact (mul_nonpos_of_nonneg_of_nonpos (abs_nonneg _) (sub_nonpos.mpr slow)).trans (by positivity)
    have excess : 0 ≤ |obs.omega| - limit := by linarith
    refine le_of_mul_le_mul_right ?_ uncertain
    calc |next.p 1 0| * (|obs.omega| - limit) * (obs.p 0 0 + spread)
        = |next.p 1 0| * (obs.p 0 0 + spread) * (|obs.omega| - limit) := by ring
      _ ≤ |obs.p 1 0| * (next.p 0 0 + spread) * (|obs.omega| - limit) := by gcongr
      _ = |obs.p 1 0| * (|obs.omega| - limit) * (next.p 0 0 + spread) := by ring
      _ ≤ halves * pi * (obs.p 0 0 + spread) * (next.p 0 0 + spread) := by gcongr
      _ = halves * pi * (next.p 0 0 + spread) * (obs.p 0 0 + spread) := by ring
  calc |next.p 1 0| * (|next.omega| - limit)
      ≤ |next.p 1 0| * (|obs.omega| + |obs.p 1 0| / (obs.p 1 1 + noise) * pi - limit) := by gcongr
    _ = |next.p 1 0| * (|obs.omega| - limit) + |next.p 1 0| * (|obs.p 1 0| / (obs.p 1 1 + noise)) * pi := by ring
    _ ≤ halves * pi * (next.p 0 0 + spread) + (next.p 0 0 + spread) * pi := by
      gcongr
      exact moved uncertain
    _ = ↑(halves + 1) * pi * (next.p 0 0 + spread) := by
      push_cast
      ring

section

variable (accepted : Accepted Binary32 s)
include accepted

theorem Filtered.clamped (filtered : Filtered s obs) :
    2 * s.real .motorOmegaMin ≤ obs.clampSpeed.omega ∧
      obs.clampSpeed.omega ≤ 2 * s.real .motorOmegaMax := by
  have lower := accepted.omegaMin_exact
  have upper := accepted.omegaMax_exact
  simp only [clampSpeed, filtered.omegaMax, filtered.omegaMin, Scalar.isFinite, Bool.not_true,
    Bool.false_eq_true, ↓reduceIte]
  norm_num
  constructor <;> split_ifs <;> linarith

theorem Filtered.settled (filtered : Filtered s obs) {theta : ℝ} (angle : Principal theta) :
    Tracked s { obs.clampSpeed with theta := theta }.updateSinCos := by
  obtain ⟨slowest, fastest⟩ := filtered.clamped accepted
  exact
    { omegaMax := filtered.omegaMax
      omegaMin := filtered.omegaMin
      q := filtered.q
      r := filtered.r
      covariance := filtered.covariance
      angle := angle
      slowest := slowest
      fastest := fastest
      circle := circle theta }

theorem Tracked.holdStill (tracked : Tracked s obs) : Tracked s obs.holdStill := by
  have zero : obs.holdStill.omega = 0 := by norm_num [MechanicalObserver.holdStill, Scalar.zero]
  have lower := accepted.omegaMin_exact
  have upper := accepted.omegaMax_exact
  exact
    { tracked with
      slowest := by rw [zero]; linarith
      fastest := by rw [zero]; linarith }

theorem tracked_init (obs : MechanicalObserver ℝ) : Tracked s (obs.init s) := by
  have zero : (Scalar.zero : ℝ) = 0 := by norm_num [Scalar.zero]
  have lower := accepted.omegaMin_exact
  have upper := accepted.omegaMax_exact
  have angle := pi_pos
  unfold MechanicalObserver.init
  rw [zero]
  exact Configured.reset ⟨rfl, rfl, rfl, rfl⟩ ⟨by linarith, angle.le⟩ (by linarith) (by linarith)

theorem Filtered.clamped_le (filtered : Filtered s obs) : |obs.clampSpeed.omega| ≤ |obs.omega| := by
  have lower := accepted.omegaMin_exact
  have upper := accepted.omegaMax_exact
  simp only [clampSpeed, filtered.omegaMax, filtered.omegaMin, Scalar.isFinite, Bool.not_true,
    Bool.false_eq_true, ↓reduceIte]
  norm_num
  split_ifs with above below
  · exact abs_le_abs_of_nonneg (by linarith) above.le
  · exact abs_le_abs_of_nonpos (by linarith) below.le
  · exact le_rfl

theorem Filtered.wrapped (filtered : Filtered s obs) {angle : ℝ} (reach : |angle| ≤ 8 * twoPi) :
    Yields (fun next => Tracked s next ∧ next.p = obs.p ∧ |next.omega| ≤ |obs.omega|) (do
      let theta ← wrapWithin angle
      pure { obs.clampSpeed with theta := theta }.updateSinCos) :=
  (wrapWithin_yields reach).bind fun _ principal =>
    Yields.pure ⟨filtered.settled accepted principal, rfl, filtered.clamped_le accepted⟩

theorem Tracked.predict (tracked : Tracked s obs) (iDq : Rotor ℝ) {dt : ℝ} (forward : 0 ≤ dt)
    (reach : speedGuard s * dt ≤ 7.5 * twoPi) :
    Yields (Tracked s) (obs.predict wrapWithin iDq dt) := by
  unfold MechanicalObserver.predict
  have kept (mEl omega : ℝ) : Filtered s { obs with mEl := mEl, omega := omega } := { tracked with }
  refine ((kept _ _).wrapped accepted (within_reach tracked.theta_le ?_)).mono fun _ moved => moved.1
  obtain ⟨slowest, fastest⟩ := (kept _ _).clamped accepted
  rw [abs_mul, abs_of_nonneg forward]
  exact (mul_le_mul_of_nonneg_right (speed_within slowest fastest) forward).trans reach

theorem Tracked.correct (tracked : Tracked s obs) {state : Fin 3} {innovation noise : ℝ}
    (noise_nonneg : 0 ≤ noise)
    (reach : 0 < obs.matrix state state + noise →
      |Kalman.gain obs.matrix state noise 1 * innovation| ≤ 7.5 * twoPi) :
    Yields (fun next => Tracked s next ∧ Corrects 0 state innovation noise obs next)
      (obs.correct wrapWithin state innovation noise) := by
  unfold MechanicalObserver.correct
  refine Yields.ite (fun _ => Yields.pure ⟨tracked, .inl rfl⟩) fun usable => ?_
  have variance : 0 < obs.matrix state state + noise := by
    norm_num [Scalar.zero, Scalar.isFinite] at usable
    exact usable
  have gain (row : Fin 3) : obs.p row state * (1.0 / (obs.p state state + noise)) =
      Kalman.gain obs.matrix state noise row := by
    norm_num [Kalman.gain, div_eq_mul_inv]
  have covariance : (Matrix.of fun row column => obs.p row column -
      obs.p row state * (1.0 / (obs.p state state + noise)) * obs.p state column) =
        Kalman.update obs.matrix state noise := by
    ext row column
    simp [Kalman.update, ← gain, Matrix.vecMulVec_apply]
  have kept := Kalman.update_posSemidef tracked.covariance noise_nonneg variance
  refine (Filtered.wrapped accepted ?_ (within_reach tracked.theta_le ?_)).mono fun next moved => ?_
  · exact
      { omegaMax := tracked.omegaMax
        omegaMin := tracked.omegaMin
        q := tracked.q
        r := tracked.r
        covariance := (congrArg Matrix.PosSemidef covariance).mpr kept }
  · simpa only [gain] using reach variance
  · obtain ⟨settled, same, slower⟩ := moved
    refine ⟨settled, .inr ⟨variance, (congrArg Matrix.of same).trans covariance, ?_⟩⟩
    simpa only [gain] using slower

theorem Tracked.updateAngle (tracked : Tracked s obs) {innovation noise : ℝ} (noise_nonneg : 0 ≤ noise)
    (reach : |innovation| ≤ 8 * twoPi) :
    Yields (fun next => Tracked s next ∧ ∃ wrapped, |wrapped| ≤ pi ∧ Corrects 0 1 wrapped noise obs next)
      (obs.updateAngle wrapWithin innovation noise) := by
  unfold MechanicalObserver.updateAngle
  refine (wrapWithin_yields reach).bind fun wrapped principal => ?_
  have wrapped_le : |wrapped| ≤ pi := abs_le.mpr ⟨principal.above.le, principal.below⟩
  refine (tracked.correct accepted noise_nonneg fun _ => ?_).mono fun next moved =>
    ⟨moved.1, wrapped, wrapped_le, moved.2⟩
  obtain ⟨positive, atMost⟩ := Kalman.gain_measured tracked.covariance noise_nonneg 1
  have moved : |Kalman.gain obs.matrix 1 noise 1 * wrapped| ≤ 1 * pi := by
    rw [abs_mul, abs_of_nonneg positive]
    exact mul_le_mul atMost wrapped_le (abs_nonneg wrapped) zero_le_one
  have revolution := twoPi_eq
  have angle := pi_pos
  refine moved.trans ?_
  norm_num
  linarith

theorem Tracked.updateSpeed (tracked : Tracked s obs) {innovation noise : ℝ} (noise_nonneg : 0 ≤ noise)
    (reach : |obs.p 1 0| * |innovation| ≤ 7.5 * twoPi * (obs.p 0 0 + noise)) :
    Yields (Tracked s) (obs.updateSpeed wrapWithin innovation noise) := by
  refine (tracked.correct accepted noise_nonneg fun variance => ?_).mono fun _ moved => moved.1
  have scaled : |Kalman.gain obs.matrix 0 noise 1 * innovation| =
      |obs.p 1 0| * |innovation| / (obs.p 0 0 + noise) := by
    unfold Kalman.gain
    rw [abs_mul, abs_div, abs_of_pos variance, matrix_apply, matrix_apply]
    ring
  rw [scaled]
  exact (div_le_iff₀ variance).mpr reach

end

end MechanicalObserver

end Unimoc.CurrentControl
