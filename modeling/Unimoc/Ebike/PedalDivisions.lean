import Unimoc.CurrentControl.BoundedAngles
import Unimoc.Ebike.PedalMean
import Unimoc.Lib.Kalman
import Unimoc.Units.Extended

/-! The divisions of the pedal observer, in exact arithmetic with the special values that a
division by zero leaves. -/
namespace Unimoc.Ebike

open CurrentControl ExtendedReal

/-- The numbers of the observer as extended reals. -/
def PedalObserverConfig.extended (config : PedalObserverConfig ℝ) : PedalObserverConfig ExtendedReal where
  pulsesPerRev := config.pulsesPerRev
  angleVariance := .real config.angleVariance
  cadenceNoise := .real config.cadenceNoise
  stopTimeout := .real config.stopTimeout
  torqueTimeConstant := .real config.torqueTimeConstant
  zeroOffset := .real config.zeroOffset
  zeroWindow := .real config.zeroWindow
  zeroHold := .real config.zeroHold
  zeroTimeConstant := .real config.zeroTimeConstant

def PedalCovariance.extended (p : PedalCovariance ℝ) : PedalCovariance ExtendedReal :=
  ⟨.real p.angle, .real p.cross, .real p.cadence⟩

namespace PedalObserver

def extended (obs : PedalObserver ℝ) : PedalObserver ExtendedReal where
  config := obs.config.extended
  pulsesPerRev := obs.pulsesPerRev
  pulseAngle := .real obs.pulseAngle
  angle := .real obs.angle
  omega := .real obs.omega
  p := obs.p.extended
  timeSincePulse := .real obs.timeSincePulse
  stillTime := .real obs.stillTime
  pulsesSeen := obs.pulsesSeen
  pedaling := obs.pedaling
  bins := obs.bins.map .real
  binIndex := obs.binIndex
  completedBins := obs.completedBins
  binSum := .real obs.binSum
  binCount := obs.binCount
  meanTorque := .real obs.meanTorque
  torqueFast := .real obs.torqueFast
  zeroOffset := .real obs.zeroOffset

section Lifted

variable (wrap : ℝ → ℝ) (dt : ℝ) (obs : PedalObserver ℝ)

theorem cutCadence_extended (positive : 0 < obs.pulseAngle) : obs.extended.cutCadence = obs.cutCadence.extended := by
  unfold cutCadence
  by_cases overdue : obs.pulseAngle * overdueMargin < obs.omega * obs.timeSincePulse
  · have margin : (0 : ℝ) < overdueMargin := by norm_num [overdueMargin]
    have late : obs.timeSincePulse ≠ 0 := by
      intro zero
      rw [zero, mul_zero] at overdue
      exact absurd overdue (mul_pos positive margin).le.not_gt
    dsimp only
    rw [if_pos overdue]
    refine (if_pos overdue).trans ?_
    exact congrArg (fun omega => { obs.extended with omega := omega }) (quotient_real _ late)
  · dsimp only
    rw [if_neg overdue]
    exact if_neg overdue

theorem predictCovariance_extended (noise : ℝ) (p : PedalCovariance ℝ) :
    predictCovariance (.real noise) (.real dt) p.extended = (predictCovariance noise dt p).extended := by
  have three : (3.0 : ℝ) ≠ 0 := by norm_num
  have two : (2.0 : ℝ) ≠ 0 := by norm_num
  have third : (.real noise * .real dt * .real dt * .real dt / 3.0 : ExtendedReal) =
      .real (noise * dt * dt * dt / 3.0) := quotient_real _ three
  have half : (.real noise * .real dt * .real dt / 2.0 : ExtendedReal) = .real (noise * dt * dt / 2.0) :=
    quotient_real _ two
  unfold predictCovariance PedalCovariance.extended
  dsimp only
  rw [third, half]
  rfl

theorem predict_extended (positive : 0 < obs.pulseAngle) :
    obs.extended.predict (ExtendedReal.map wrap) (.real dt) = (obs.predict wrap dt).extended := by
  by_cases still : obs.pulsesSeen = 0
  · rw [predict_still wrap dt obs still]
    exact predict_still _ _ obs.extended still
  · by_cases long : obs.config.stopTimeout < obs.timeSincePulse + dt
    · rw [predict_stops wrap dt obs still long]
      exact predict_stops _ _ obs.extended still long
    · have cut : obs.extended.moved (ExtendedReal.map wrap) (.real dt) = (obs.moved wrap dt).extended :=
        cutCadence_extended
          { obs with timeSincePulse := obs.timeSincePulse + dt, angle := wrap (obs.angle + obs.omega * dt) } positive
      rw [predict_moved wrap dt obs still long]
      refine (predict_moved _ _ obs.extended still long).trans ?_
      rw [cut]
      exact congrArg (fun p => { (obs.moved wrap dt).extended with p := p }) (predictCovariance_extended ..)

theorem fuseAngle_extended (innovation : ℝ) (usable : obs.p.angle + obs.config.angleVariance ≠ 0) :
    obs.extended.fuseAngle (ExtendedReal.map wrap) (.real innovation) = (obs.fuseAngle wrap innovation).extended := by
  have angle : (.real obs.p.angle / (.real obs.p.angle + .real obs.config.angleVariance) : ExtendedReal) =
      .real (obs.p.angle / (obs.p.angle + obs.config.angleVariance)) := quotient_real _ usable
  have cross : (.real obs.p.cross / (.real obs.p.angle + .real obs.config.angleVariance) : ExtendedReal) =
      .real (obs.p.cross / (obs.p.angle + obs.config.angleVariance)) := quotient_real _ usable
  have rest (gain : ℝ) : ((1.0 : ExtendedReal) - .real gain) = .real (1.0 - gain) := sub_real _ _
  unfold fuseAngle extended PedalCovariance.extended PedalObserverConfig.extended
  dsimp only
  rw [angle, cross, rest]
  simp only [mul_real, sub_real, add_real]
  rfl

theorem bin_extended :
    (if 0 < obs.binCount then .real obs.binSum / Scalar.ofUInt64 obs.binCount.toUInt64
      else .real obs.torqueFast : ExtendedReal) =
      .real (if 0 < obs.binCount then obs.binSum / Scalar.ofUInt64 obs.binCount.toUInt64 else obs.torqueFast) := by
  by_cases present : 0 < obs.binCount
  · have nonzero : (Scalar.ofUInt64 obs.binCount.toUInt64 : ℝ) ≠ 0 := by
      show (obs.binCount.toNat : ℝ) ≠ 0
      exact_mod_cast (UInt32.lt_iff_toNat_lt.mp present).ne'
    rw [if_pos present, if_pos present]
    exact quotient_real _ nonzero
  · rw [if_neg present, if_neg present]

theorem total_extended (slot : ℕ → ℕ) (bins : List ℝ) (ages : List ℕ) (total : ℝ) :
    ages.foldl (fun total i => total + (bins.map ExtendedReal.real).getD (slot i) Scalar.zero) (.real total) =
      .real (ages.foldl (fun total i => total + bins.getD (slot i) Scalar.zero) total) := by
  induction ages generalizing total with
  | nil => rfl
  | cons age ages ih =>
    have found : (bins.map ExtendedReal.real).getD (slot age) Scalar.zero =
        .real (bins.getD (slot age) Scalar.zero) := by
      rw [List.getD_eq_getElem?_getD, List.getD_eq_getElem?_getD, List.getElem?_map]
      cases bins[slot age]? with
      | none => rfl
      | some bin => rfl
    rw [List.foldl_cons, List.foldl_cons, found, add_real]
    exact ih _

theorem finishBin_extended (pulses : obs.pulsesPerRev ≤ 64) :
    obs.extended.finishBin = obs.finishBin.extended := by
  have bin := bin_extended obs
  have completed : (count (min (obs.completedBins + 1) (max (obs.pulsesPerRev / 2) 1)) : ℝ) ≠ 0 := by
    rw [count_eq (by omega)]
    exact_mod_cast (by omega : min (obs.completedBins + 1) (max (obs.pulsesPerRev / 2) 1) ≠ 0)
  have mean (slot : ℕ → ℕ) (bins : List ℝ) :
      ((List.range (min (obs.completedBins + 1) (max (obs.pulsesPerRev / 2) 1))).foldl
        (fun total i => total + (bins.map ExtendedReal.real).getD (slot i) Scalar.zero) Scalar.zero /
          count (min (obs.completedBins + 1) (max (obs.pulsesPerRev / 2) 1)) : ExtendedReal) =
      .real ((List.range (min (obs.completedBins + 1) (max (obs.pulsesPerRev / 2) 1))).foldl
        (fun total i => total + bins.getD (slot i) Scalar.zero) Scalar.zero /
          count (min (obs.completedBins + 1) (max (obs.pulsesPerRev / 2) 1))) :=
    (congrArg (· / count _) (total_extended slot bins _ Scalar.zero)).trans (quotient_real _ completed)
  unfold finishBin extended
  dsimp only
  rw [bin, ← List.map_set, mean]
  rfl

theorem pulsed_extended (pulses : obs.pulsesPerRev ≤ 64) (seen : ℕ) :
    obs.extended.pulsed seen = (obs.pulsed seen).extended :=
  congrArg (fun closed : PedalObserver ExtendedReal =>
    { closed with timeSincePulse := Scalar.zero, pulsesSeen := seen })
    (finishBin_extended { obs with pedaling := true } pulses)

theorem measured_extended (late : obs.timeSincePulse ≠ 0) : obs.extended.measured = obs.measured.extended := by
  have cadence : (.real obs.pulseAngle / .real obs.timeSincePulse : ExtendedReal) =
      .real (obs.pulseAngle / obs.timeSincePulse) := quotient_real _ late
  have hundredth : (initialCadenceVariance / 100.0 : ExtendedReal) = .real (initialCadenceVariance / 100.0) :=
    quotient_real _ (by norm_num)
  show { obs.extended.counted with
    omega := real obs.pulseAngle / real obs.timeSincePulse
    angle := obs.extended.pulseAngle * count obs.extended.counted.binIndex
    p := ⟨.real obs.config.angleVariance, Scalar.zero, initialCadenceVariance / 100.0⟩ } = _
  rw [cadence, hundredth]
  rfl

theorem corrected_extended (usable : obs.p.angle + obs.config.angleVariance ≠ 0) :
    obs.extended.corrected (ExtendedReal.map wrap) = (obs.corrected wrap).extended := by
  have innovation : (.real obs.pulseAngle * count obs.counted.binIndex - .real obs.angle : ExtendedReal) =
      .real (obs.pulseAngle * count obs.counted.binIndex - obs.angle) := sub_real _ _
  have fused := fuseAngle_extended wrap obs.counted
    (wrap (obs.pulseAngle * count obs.counted.binIndex - obs.angle)) usable
  refine Eq.trans ?_ fused
  show obs.counted.extended.fuseAngle _
    (ExtendedReal.map wrap (.real obs.pulseAngle * count obs.counted.binIndex - .real obs.angle)) = _
  rw [innovation]
  rfl

theorem onPulse_extended (pulses : obs.pulsesPerRev ≤ 64)
    (usable : obs.p.angle + obs.config.angleVariance ≠ 0) (late : obs.pulsesSeen = 1 → obs.timeSincePulse ≠ 0) :
    obs.extended.onPulse (ExtendedReal.map wrap) = (obs.onPulse wrap).extended := by
  by_cases still : obs.pulsesSeen = 0
  · rw [onPulse_first wrap obs still]
    exact onPulse_first _ obs.extended still
  by_cases second : obs.pulsesSeen = 1
  · rw [onPulse_second wrap obs second]
    refine (onPulse_second _ obs.extended second).trans ?_
    rw [measured_extended obs (late second)]
    exact pulsed_extended obs.measured pulses 2
  · rw [onPulse_later wrap obs still second]
    refine (onPulse_later _ obs.extended still second).trans ?_
    rw [corrected_extended wrap obs usable]
    exact pulsed_extended (obs.corrected wrap) pulses 2

theorem held_extended (torque : ℝ) : obs.extended.Held (.real torque) ↔ obs.Held torque := by
  have error : (.real torque - .real obs.zeroOffset : ExtendedReal) = .real (torque - obs.zeroOffset) := sub_real _ _
  unfold Held
  show (_ ∨ _) ∨ ¬(_ < (.real torque - .real obs.zeroOffset : ExtendedReal) ∧
    (.real torque - .real obs.zeroOffset : ExtendedReal) < _) ↔ _
  rw [error]
  rfl

theorem trimZero_extended (torque : ℝ) (usable : obs.config.zeroTimeConstant ≠ 0) :
    obs.extended.trimZero (.real dt) (.real torque) = (obs.trimZero dt torque).extended := by
  have share : (.real dt / .real obs.config.zeroTimeConstant : ExtendedReal) =
      .real (dt / obs.config.zeroTimeConstant) := quotient_real _ usable
  have error : (.real torque - .real obs.zeroOffset : ExtendedReal) = .real (torque - obs.zeroOffset) := sub_real _ _
  by_cases held : obs.Held torque
  · rw [trimZero_held dt obs held]
    exact trimZero_held _ _ ((held_extended obs torque).mpr held)
  · rw [trimZero_follows dt obs held]
    refine (trimZero_follows _ _ (mt (held_extended obs torque).mp held)).trans ?_
    show { obs.extended with
      zeroOffset := real obs.zeroOffset +
        (real torque - real obs.zeroOffset) * (real dt / real obs.config.zeroTimeConstant) } = _
    rw [error, share]
    rfl

theorem filtered_extended (compensated : ℝ) (long : obs.config.torqueTimeConstant + dt ≠ 0) :
    obs.extended.filtered (.real dt) (.real compensated) = (obs.filtered dt compensated).extended := by
  have share : (.real dt / (.real obs.config.torqueTimeConstant + .real dt) : ExtendedReal) =
      .real (dt / (obs.config.torqueTimeConstant + dt)) := quotient_real _ long
  have away : (.real compensated - .real obs.torqueFast : ExtendedReal) = .real (compensated - obs.torqueFast) :=
    sub_real _ _
  show { obs.extended with
    torqueFast := real obs.torqueFast + (real compensated - real obs.torqueFast) *
      (real dt / (real obs.config.torqueTimeConstant + real dt)) } = _
  rw [share, away]
  rfl

theorem sampled_extended (compensated : ℝ) :
    obs.extended.sampled (.real compensated) = (obs.sampled compensated).extended := by
  unfold sampled
  by_cases turning : 0 < obs.pulsesSeen
  · rw [if_pos turning]
    exact if_pos turning
  · rw [if_neg turning]
    exact if_neg turning

theorem closeStep_extended (torque : ℝ) (usable : obs.config.zeroTimeConstant ≠ 0)
    (long : obs.config.torqueTimeConstant + dt ≠ 0) :
    obs.extended.closeStep (.real dt) (.real torque) = (obs.closeStep dt torque).extended := by
  have compensated : (.real torque - .real obs.zeroOffset : ExtendedReal) = .real (torque - obs.zeroOffset) :=
    sub_real _ _
  have kept : ((obs.filtered dt (torque - obs.zeroOffset)).sampled (torque - obs.zeroOffset)).config = obs.config := by
    unfold sampled
    split_ifs <;> rfl
  unfold closeStep
  rw [← trimZero_extended dt _ torque (kept ▸ usable), ← sampled_extended, ← filtered_extended dt obs _ long]
  show trimZero _ _ ((obs.extended.filtered _ (.real torque - .real obs.zeroOffset)).sampled
    (.real torque - .real obs.zeroOffset)) = _
  rw [compensated]

theorem create_extended (config : PedalObserverConfig ℝ) : create config.extended = (create config).extended := by
  have pulses : (count (min (max config.pulsesPerRev.toNat 2) maxPedalPulses) : ℝ) ≠ 0 := by
    have large : maxPedalPulses = 64 := rfl
    rw [count_eq (by omega)]
    exact_mod_cast (by omega : min (max config.pulsesPerRev.toNat 2) maxPedalPulses ≠ 0)
  have angle : (twoPi * 1.0 / count (min (max config.pulsesPerRev.toNat 2) maxPedalPulses) : ExtendedReal) =
      .real (twoPi * 1.0 / count (min (max config.pulsesPerRev.toNat 2) maxPedalPulses)) := quotient_real _ pulses
  have bins : (List.replicate maxPedalPulses Scalar.zero).map real = List.replicate maxPedalPulses Scalar.zero :=
    List.map_replicate
  unfold create extended resetCrank
  dsimp only
  rw [bins]
  show ({ pulseAngle := twoPi * 1.0 / count (min (max config.pulsesPerRev.toNat 2) maxPedalPulses), .. } :
    PedalObserver ExtendedReal) = _
  rw [angle]
  rfl

end Lifted

end PedalObserver

/-- What the divisions of the observer need of its configuration. -/
structure PedalObserverConfig.Sound (config : PedalObserverConfig ℝ) : Prop where
  angleVariance : 0 < config.angleVariance
  cadenceNoise : 0 ≤ config.cadenceNoise
  torqueTimeConstant : 0 ≤ config.torqueTimeConstant
  zeroTimeConstant : 0 < config.zeroTimeConstant

theorem PedalObserverConfig.default_sound (pulses : UInt8) :
    ({ PedalObserverConfig.default with pulsesPerRev := pulses } : PedalObserverConfig ℝ).Sound := by
  constructor <;> norm_num [PedalObserverConfig.default]

namespace PedalCovariance

open Matrix

def matrix (p : PedalCovariance ℝ) : Matrix (Fin 2) (Fin 2) ℝ := !![p.angle, p.cross; p.cross, p.cadence]

theorem diagonal_posSemidef {angle cadence : ℝ} (angle_nonneg : 0 ≤ angle) (cadence_nonneg : 0 ≤ cadence) :
    (matrix ⟨angle, Scalar.zero, cadence⟩).PosSemidef := by
  have same : matrix ⟨angle, Scalar.zero, cadence⟩ = diagonal ![angle, cadence] := by
    ext i j
    fin_cases i <;> fin_cases j <;> simp [matrix, Scalar.zero_exact]
  rw [same, posSemidef_diagonal_iff]
  intro i
  fin_cases i
  · exact angle_nonneg
  · exact cadence_nonneg

theorem predict_exact (noise dt : ℝ) (p : PedalCovariance ℝ) :
    PedalObserver.predictCovariance noise dt p =
      ⟨p.angle + (dt * (2 * p.cross + dt * p.cadence) + noise * dt * dt * dt / 3),
        p.cross + (dt * p.cadence + noise * dt * dt / 2), p.cadence + noise * dt⟩ := by
  have two : (2.0 : ℝ) = 2 := by norm_num
  have three : (3.0 : ℝ) = 3 := by norm_num
  unfold PedalObserver.predictCovariance
  rw [← two, ← three]

theorem predict_matrix (noise dt : ℝ) (p : PedalCovariance ℝ) :
    (PedalObserver.predictCovariance noise dt p).matrix =
      !![1, dt; 0, 1] * p.matrix * !![1, dt; 0, 1]ᴴ +
        ((noise * dt) • vecMulVec ![dt / 2, 1] ![dt / 2, 1] + (noise * dt ^ 3 / 12) • vecMulVec ![1, 0] ![1, 0]) := by
  rw [predict_exact, conjTranspose_eq_transpose_of_trivial]
  ext i j
  simp only [matrix, Matrix.add_apply, Matrix.smul_apply, Matrix.mul_apply, Fin.sum_univ_two, transpose_apply,
    vecMulVec_apply]
  fin_cases i <;> fin_cases j <;> simp <;> ring

theorem predict_posSemidef {noise dt : ℝ} (noise_nonneg : 0 ≤ noise) (forward : 0 ≤ dt) {p : PedalCovariance ℝ}
    (psd : p.matrix.PosSemidef) : (PedalObserver.predictCovariance noise dt p).matrix.PosSemidef := by
  rw [predict_matrix]
  refine (psd.mul_mul_conjTranspose_same _).add (PosSemidef.add ?_ ?_)
  · exact (posSemidef_vecMulVec_self_star ![dt / 2, 1]).smul (mul_nonneg noise_nonneg forward)
  · exact (posSemidef_vecMulVec_self_star ![1, 0]).smul (by positivity)

end PedalCovariance

namespace PedalObserver

theorem fuseAngle_matrix (wrap : ℝ → ℝ) (innovation : ℝ) (obs : PedalObserver ℝ) :
    (obs.fuseAngle wrap innovation).p.matrix = Kalman.update obs.p.matrix 0 obs.config.angleVariance := by
  have one : (1.0 : ℝ) = 1 := by norm_num
  unfold fuseAngle
  rw [one]
  ext i j
  fin_cases i <;> fin_cases j <;>
    simp [PedalCovariance.matrix, Kalman.update, Kalman.gain, Matrix.vecMulVec_apply] <;> ring

/-- What keeps the divisors of the observer positive. -/
structure Usable (obs : PedalObserver ℝ) : Prop where
  pulseAngle : 0 < obs.pulseAngle
  covariance : obs.p.matrix.PosSemidef

section Usable

variable {config : PedalObserverConfig ℝ} (sound : config.Sound) (wrap : ℝ → ℝ) {dt : ℝ} {obs : PedalObserver ℝ}

theorem initial_posSemidef : (initialCovariance : PedalCovariance ℝ).matrix.PosSemidef :=
  PedalCovariance.diagonal_posSemidef (by norm_num) (by norm_num [initialCadenceVariance])

theorem Usable.create (config : PedalObserverConfig ℝ) : (create config).Usable := by
  have large : maxPedalPulses = 64 := rfl
  have pulses : (0 : ℝ) < (min (max config.pulsesPerRev.toNat 2) maxPedalPulses : Nat) := by
    exact_mod_cast (by omega : 0 < min (max config.pulsesPerRev.toNat 2) maxPedalPulses)
  refine ⟨?_, initial_posSemidef⟩
  show 0 < twoPi * 1.0 / count (min (max config.pulsesPerRev.toNat 2) maxPedalPulses)
  rw [count_eq (by omega)]
  rw [twoPi_eq]
  have angle := pi_pos
  exact div_pos (by norm_num [angle]) pulses

theorem Usable.variance (usable : obs.Usable) : 0 ≤ obs.p.angle :=
  usable.covariance.diag_nonneg (i := 0)

theorem Usable.predict (usable : obs.Usable) (noise : 0 ≤ obs.config.cadenceNoise) (forward : 0 ≤ dt) :
    (obs.predict wrap dt).Usable := by
  by_cases still : obs.pulsesSeen = 0
  · rw [predict_still wrap dt obs still]
    exact ⟨usable.pulseAngle, usable.covariance⟩
  by_cases long : obs.config.stopTimeout < obs.timeSincePulse + dt
  · rw [predict_stops wrap dt obs still long]
    exact ⟨usable.pulseAngle, initial_posSemidef⟩
  · obtain ⟨omega, turned⟩ := predict_turns wrap dt obs still long
    rw [turned]
    exact ⟨usable.pulseAngle, PedalCovariance.predict_posSemidef noise forward usable.covariance⟩

theorem Usable.onPulse (usable : obs.Usable) (noise : 0 < obs.config.angleVariance) : (obs.onPulse wrap).Usable := by
  by_cases still : obs.pulsesSeen = 0
  · rw [onPulse_first wrap obs still]
    exact ⟨usable.pulseAngle, initial_posSemidef⟩
  by_cases second : obs.pulsesSeen = 1
  · rw [onPulse_second wrap obs second]
    refine ⟨usable.pulseAngle, PedalCovariance.diagonal_posSemidef noise.le ?_⟩
    norm_num [initialCadenceVariance]
  · rw [onPulse_later wrap obs still second]
    refine ⟨usable.pulseAngle, ?_⟩
    have innovation := add_pos_of_nonneg_of_pos usable.variance noise
    have fused : (Kalman.update obs.p.matrix 0 obs.config.angleVariance).PosSemidef :=
      Kalman.update_posSemidef usable.covariance noise.le innovation
    rw [← fuseAngle_matrix wrap (wrap (obs.pulseAngle * count obs.counted.binIndex - obs.angle))] at fused
    exact fused

theorem Usable.closeStep (usable : obs.Usable) (torque : ℝ) : (obs.closeStep dt torque).Usable := by
  obtain ⟨offset, trimmed⟩ :=
    trimZero_eq dt ((obs.filtered dt (torque - obs.zeroOffset)).sampled (torque - obs.zeroOffset)) torque
  unfold PedalObserver.closeStep
  rw [trimmed]
  unfold sampled
  split_ifs
  · exact ⟨usable.pulseAngle, usable.covariance⟩
  · exact ⟨usable.pulseAngle, usable.covariance⟩

end Usable

/-- No division has left a special value. -/
def IsReal (obs : PedalObserver ExtendedReal) : Prop := ∃ real : PedalObserver ℝ, obs = real.extended

/-- The pulses of a step divide by no zero, and an interval that gives the cadence is positive. -/
def PulsesSafe (wrap : ℝ → ℝ) (dt : ExtendedReal) :
    ExtendedReal × PedalObserver ExtendedReal → List ExtendedReal → Prop
  | _, [] => True
  | progress, age :: ages =>
    (before (ExtendedReal.map wrap) dt progress age).IsReal ∧
      ((before (ExtendedReal.map wrap) dt progress age).pulsesSeen = 1 →
        real 0 < (before (ExtendedReal.map wrap) dt progress age).timeSincePulse) ∧
      (edge (ExtendedReal.map wrap) dt progress age).2.IsReal ∧
      PulsesSafe wrap dt (edge (ExtendedReal.map wrap) dt progress age) ages

/-- The second pulse since the crank stood still comes later than the first. -/
def PulsesApart (timeout fast dt : ℝ) : ℝ × PedalHistory → List ℝ → Prop
  | _, [] => True
  | history, age :: ages =>
    let waiting := history.2.passes timeout (PedalHistory.pulseTime dt history.1 age - history.1)
    (waiting.sincePulse = some 0 → waiting.intervals ≠ []) ∧
      PulsesApart timeout fast dt (PedalHistory.edge timeout fast dt history age) ages

section Pulses

variable {config : PedalObserverConfig ℝ} (sound : config.Sound) (wrap : ℝ → ℝ) {dt fast offset : ℝ}
  {progress : ℝ × PedalObserver ℝ} {history : ℝ × PedalHistory}

theorem before_extended (dt : ℝ) (usable : progress.2.Usable) (age : ℝ) :
    before (ExtendedReal.map wrap) (real dt) (real progress.1, progress.2.extended) (real age) =
      (before wrap dt progress age).extended := by
  unfold before
  rw [sub_real, clamp_real, sub_real, ← Scalar.clamp_exact]
  exact predict_extended wrap _ _ usable.pulseAngle

theorem Follows.once {obs : PedalObserver ℝ} {since : ℝ} {samples : List ℝ}
    (follows : Follows config obs ⟨some since, [], samples⟩) : obs.pulsesSeen = 1 ∧ obs.timeSincePulse = since := by
  have one := follows.single.mpr rfl
  have turning : obs.pulsesSeen ≠ 0 := fun still => by cases follows.sincePulse_none still
  exact ⟨by omega, (Option.some.inj (follows.sincePulse_some turning)).symm⟩

theorem interval_positive {obs : PedalObserver ℝ} {waiting : PedalHistory} (follows : Follows config obs waiting) :
    (obs.pulsesSeen = 1 → 0 < obs.timeSincePulse) ↔ (waiting.sincePulse = some 0 → waiting.intervals ≠ []) := by
  have single := follows.single
  constructor
  · intro positive zero none
    have turning : obs.pulsesSeen ≠ 0 := by
      intro still
      rw [follows.sincePulse_none still] at zero
      cases zero
    rw [follows.sincePulse_some turning] at zero
    have one := single.mpr none
    have later := positive (by omega)
    rw [Option.some.inj zero] at later
    exact lt_irrefl 0 later
  · intro apart second
    have since := follows.sincePulse_some (by omega)
    refine lt_of_le_of_ne follows.later fun zero => ?_
    exact apart (zero ▸ since) (single.mp (by omega))

include sound

theorem before_usable (underway : Underway config dt fast offset progress history) (usable : progress.2.Usable)
    (age : ℝ) : (before wrap dt progress age).Usable := by
  obtain ⟨clamped, later, -⟩ := underway.time age
  refine usable.predict wrap (underway.follows.tuned ▸ sound.cadenceNoise) (sub_nonneg.mpr ?_)
  rw [clamped, underway.elapsed]
  exact later

theorem edge_extended (underway : Underway config dt fast offset progress history) (usable : progress.2.Usable)
    (age : ℝ) (late : (before wrap dt progress age).pulsesSeen = 1 → 0 < (before wrap dt progress age).timeSincePulse) :
    edge (ExtendedReal.map wrap) (real dt) (real progress.1, progress.2.extended) (real age) =
      (real (edge wrap dt progress age).1, (edge wrap dt progress age).2.extended) := by
  have follows := underway.waits wrap age
  have waiting := before_usable sound wrap underway usable age
  have noise : 0 < (before wrap dt progress age).config.angleVariance := follows.tuned ▸ sound.angleVariance
  have variance := add_pos_of_nonneg_of_pos waiting.variance noise
  have pulses := (pulsesOf_bounds config).2.1
  have counted := onPulse_extended wrap (before wrap dt progress age) (follows.pulses ▸ pulses) variance.ne'
    fun second => (late second).ne'
  rw [edge_eq, before_extended wrap dt usable age, counted, sub_real, clamp_real, ← Scalar.clamp_exact]
  rfl

/-- The pulses of a step over the extended reals, as long as no division has failed. -/
theorem pulses_extended (underway : Underway config dt fast offset progress history) (usable : progress.2.Usable)
    (ages : List ℝ) :
    (PulsesSafe wrap (real dt) (real progress.1, progress.2.extended) (ages.map real) ↔
      PulsesApart config.stopTimeout fast dt history ages) ∧
    (PulsesApart config.stopTimeout fast dt history ages →
      (ages.map real).foldl (edge (ExtendedReal.map wrap) (real dt)) (real progress.1, progress.2.extended) =
        (real (ages.foldl (edge wrap dt) progress).1, (ages.foldl (edge wrap dt) progress).2.extended) ∧
      (ages.foldl (edge wrap dt) progress).2.Usable) := by
  induction ages generalizing progress history with
  | nil => exact ⟨Iff.rfl, fun _ => ⟨rfl, usable⟩⟩
  | cons age ages ih =>
    have follows := underway.waits wrap age
    have interval := interval_positive follows
    have waiting := before_extended wrap dt usable age
    have lifted := edge_extended sound wrap underway usable age
    have onwards : (edge wrap dt progress age).2.Usable :=
      (before_usable sound wrap underway usable age).onPulse wrap (follows.tuned ▸ sound.angleVariance)
    obtain ⟨safe, values⟩ := ih (underway.edge wrap age) onwards
    refine ⟨⟨?_, ?_⟩, ?_⟩
    · rintro ⟨-, positive, -, rest⟩
      rw [waiting] at positive
      refine ⟨interval.mp positive, safe.mp ?_⟩
      rwa [lifted positive] at rest
    · rintro ⟨apart, rest⟩
      have positive := interval.mpr apart
      refine ⟨⟨_, waiting⟩, ?_, ⟨_, congrArg Prod.snd (lifted positive)⟩, ?_⟩
      · rw [waiting]
        exact positive
      · rw [lifted positive]
        exact safe.mpr rest
    · rintro ⟨apart, rest⟩
      rw [List.map_cons, List.foldl_cons, List.foldl_cons, lifted (interval.mpr apart)]
      exact values rest

theorem close_extended (underway : Underway config dt fast offset progress history) (usable : progress.2.Usable)
    (forward : 0 < dt) (torque : ℝ) :
    (progress.2.extended.predict (ExtendedReal.map wrap) (real dt - real progress.1)).closeStep (real dt) (real torque) =
      ((progress.2.predict wrap (dt - progress.1)).closeStep dt torque).extended ∧
    ((progress.2.predict wrap (dt - progress.1)).closeStep dt torque).Usable := by
  have rest : 0 ≤ dt - progress.1 := sub_nonneg.mpr (underway.elapsed ▸ underway.within)
  have tuned : (progress.2.predict wrap (dt - progress.1)).config = config :=
    (underway.follows.predict wrap rest).tuned
  have noise : 0 ≤ progress.2.config.cadenceNoise := by
    rw [underway.follows.tuned]
    exact sound.cadenceNoise
  have filter : (progress.2.predict wrap (dt - progress.1)).config.torqueTimeConstant + dt ≠ 0 := by
    rw [tuned]
    exact (add_pos_of_nonneg_of_pos sound.torqueTimeConstant forward).ne'
  have trim : (progress.2.predict wrap (dt - progress.1)).config.zeroTimeConstant ≠ 0 := by
    rw [tuned]
    exact sound.zeroTimeConstant.ne'
  refine ⟨?_, (usable.predict wrap noise rest).closeStep torque⟩
  rw [sub_real, predict_extended wrap _ _ usable.pulseAngle]
  exact closeStep_extended dt _ torque trim filter

end Pulses

/-- The same runs over the extended reals. -/
noncomputable def pedalsExtended (wrap : ℝ → ℝ) (config : PedalObserverConfig ℝ) :
    Runs.Machine (PedalObserver ExtendedReal) PedalStep where
  start := create config.extended
  next obs event :=
    obs.step (ExtendedReal.map wrap) (real event.dt) (real event.torque) (event.pulseAges.map real)
  admits _ event := 0 < event.dt

section Runs

variable (wrap : ℝ → ℝ) (config : PedalObserverConfig ℝ)

/-- A step of a run divides by no zero. -/
def StepSafe (event : PedalStep) (past : List PedalStep) : Prop :=
  PulsesSafe wrap (real event.dt) (Scalar.zero, (pedalsExtended wrap config).replay past)
    (event.pulseAges.map real) ∧
  ((pedalsExtended wrap config).replay (event :: past)).IsReal

/-- In a step of a run the second pulse since the crank stood still comes later than the first. -/
def StepApart (event : PedalStep) (past : List PedalStep) : Prop :=
  PulsesApart config.stopTimeout ((pedals wrap config).replay past).torqueFast event.dt
    (0, history wrap config past) event.pulseAges

variable {wrap config}

theorem step_safe (sound : config.Sound) {event : PedalStep} {past : List PedalStep}
    (legal : (pedals wrap config).Legal (event :: past))
    (same : (pedalsExtended wrap config).replay past = ((pedals wrap config).replay past).extended)
    (usable : ((pedals wrap config).replay past).Usable) :
    (StepSafe wrap config event past ↔ StepApart wrap config event past) ∧
    (StepApart wrap config event past →
      (pedalsExtended wrap config).replay (event :: past) = ((pedals wrap config).replay (event :: past)).extended ∧
      ((pedals wrap config).replay (event :: past)).Usable) := by
  obtain ⟨forward, earlier⟩ := legal
  have follows := @pedals_follow wrap config past earlier
  have start := follows.edges wrap (le_of_lt forward) []
  have done := follows.edges wrap (le_of_lt forward) event.pulseAges
  obtain ⟨safe, values⟩ := pulses_extended sound wrap start usable event.pulseAges
  have stepped (apart : StepApart wrap config event past) :
      (pedalsExtended wrap config).replay (event :: past) = ((pedals wrap config).replay (event :: past)).extended ∧
      ((pedals wrap config).replay (event :: past)).Usable := by
    obtain ⟨lifted, kept⟩ := values apart
    obtain ⟨closed, after⟩ := close_extended sound wrap done kept forward event.torque
    refine ⟨Eq.trans ?_ closed, after⟩
    rw [Runs.Machine.replay_cons, same]
    exact congrArg (fun progress : ExtendedReal × PedalObserver ExtendedReal =>
      (progress.2.predict (ExtendedReal.map wrap) (real event.dt - progress.1)).closeStep (real event.dt)
        (real event.torque)) lifted
  refine ⟨?_, stepped⟩
  constructor
  · rintro ⟨pulses, -⟩
    rw [same] at pulses
    exact safe.mp pulses
  · intro apart
    refine ⟨?_, ⟨_, (stepped apart).1⟩⟩
    rw [same]
    exact safe.mpr apart

/-- The run over the extended reals, as long as no division has failed. -/
theorem pedals_safe (sound : config.Sound) {trace : List PedalStep} (legal : (pedals wrap config).Legal trace) :
    (Runs.Throughout (StepSafe wrap config) trace ↔ Runs.Throughout (StepApart wrap config) trace) ∧
    (Runs.Throughout (StepApart wrap config) trace →
      (pedalsExtended wrap config).replay trace = ((pedals wrap config).replay trace).extended ∧
      ((pedals wrap config).replay trace).Usable) := by
  induction trace with
  | nil =>
    refine ⟨iff_of_true (Runs.throughout_nil _) (Runs.throughout_nil _), fun _ => ⟨create_extended config, ?_⟩⟩
    exact .create config
  | cons event past ih =>
    obtain ⟨safe, values⟩ := ih legal.2
    simp only [Runs.throughout_cons]
    constructor
    · constructor
      · rintro ⟨newest, older⟩
        obtain ⟨same, usable⟩ := values (safe.mp older)
        exact ⟨(step_safe sound legal same usable).1.mp newest, safe.mp older⟩
      · rintro ⟨newest, older⟩
        obtain ⟨same, usable⟩ := values older
        exact ⟨(step_safe sound legal same usable).1.mpr newest, safe.mpr older⟩
    · rintro ⟨newest, older⟩
      obtain ⟨same, usable⟩ := values older
      exact (step_safe sound legal same usable).2 newest

/-- A run divides by no zero exactly when each second pulse since the crank stood still comes later
than the first. -/
theorem divisions_safe (wrap : ℝ → ℝ) (config : PedalObserverConfig ℝ) (sound : config.Sound) (trace : List PedalStep)
    (legal : (pedals wrap config).Legal trace) :
    (pedalsExtended wrap config).start.IsReal ∧
      (Runs.Throughout (StepSafe wrap config) trace ↔ Runs.Throughout (StepApart wrap config) trace) :=
  ⟨⟨_, create_extended config⟩, (pedals_safe sound legal).1⟩

end Runs

section Bench

theorem default_sound : (PedalObserverConfig.default : PedalObserverConfig ℝ).Sound :=
  PedalObserverConfig.default_sound 36

noncomputable def delayed : PedalStep := ⟨0.02, 0, [0.03, 0.025]⟩

noncomputable def punctual : PedalStep := ⟨0.02, 0, [0.015, 0.005]⟩

theorem delayed_forward : 0 < delayed.dt := by norm_num [delayed]

/-- The observer over the extended reals as the second of these edges comes. -/
noncomputable def secondEdge : PedalObserver ExtendedReal :=
  before (ExtendedReal.map id) (real delayed.dt)
    (edge (ExtendedReal.map id) (real delayed.dt) (Scalar.zero, (pedalsExtended id .default).start) (real 0.03))
    (real 0.025)

theorem secondEdge_interval : secondEdge.pulsesSeen = 1 ∧ secondEdge.timeSincePulse = real 0 := by
  have first : PedalHistory.pulseTime 0.02 0 0.03 = 0 := by norm_num [PedalHistory.pulseTime]
  have second : PedalHistory.pulseTime 0.02 0 0.025 = 0 := by norm_num [PedalHistory.pulseTime]
  have turning : ¬(0.5 : ℝ) < 0 := by norm_num
  have start : Underway .default delayed.dt (create .default).torqueFast (create .default).zeroOffset
      (Scalar.zero, create .default) (0, .still) :=
    Follows.create.edges id delayed_forward.le []
  have usable := Usable.create .default
  have follows := start.waits id 0.03
  have lifted := edge_extended default_sound id start usable 0.03
    ((interval_positive follows).mpr fun turning => by cases turning)
  have onwards := start.edge id 0.03
  have kept : (edge id delayed.dt (Scalar.zero, create .default) 0.03).2.Usable :=
    (before_usable default_sound id start usable 0.03).onPulse id (follows.tuned ▸ default_sound.angleVariance)
  have waiting := onwards.waits id 0.025
  have clock : PedalHistory.passes 0.5
      (PedalHistory.pulseTime 0.02 (PedalHistory.edge 0.5 Scalar.zero 0.02 (0, .still) 0.03).1 0.025 -
        (PedalHistory.edge 0.5 Scalar.zero 0.02 (0, .still) 0.03).1)
      (PedalHistory.edge 0.5 Scalar.zero 0.02 (0, .still) 0.03).2 = ⟨some 0, [], []⟩ := by
    simp [PedalHistory.edge, PedalHistory.passes, PedalHistory.pulse, PedalHistory.still, first, second, turning]
  replace waiting : Follows .default _ ⟨some 0, [], []⟩ := clock ▸ waiting
  have same : secondEdge =
      (before id delayed.dt (edge id delayed.dt (Scalar.zero, create .default) 0.03) 0.025).extended := by
    have pulse := before_extended id delayed.dt kept 0.025
    have created : (pedalsExtended id .default).start = extended (create .default) := create_extended _
    unfold secondEdge
    rw [created]
    exact (congrArg (fun progress => before (ExtendedReal.map id) (real delayed.dt) progress (real 0.025)) lifted).trans
      pulse
  obtain ⟨once, zero⟩ := waiting.once
  rw [same]
  exact ⟨once, congrArg real zero⟩

/-- Both collapse to its begin, and the cadence is divided by the time between them. -/
theorem pulses_collapse : (pedals id .default).Legal [delayed] ∧ delayed.dt ≤ 0.02 ∧
    (∀ age ∈ delayed.pulseAges, 0 ≤ age) ∧ secondEdge.pulsesSeen = 1 ∧ secondEdge.timeSincePulse = real 0 ∧
    ¬StepSafe id .default delayed [] := by
  refine ⟨⟨delayed_forward, trivial⟩, le_refl _, ?_, secondEdge_interval.1, secondEdge_interval.2, ?_⟩
  · norm_num [delayed]
  · rintro ⟨⟨-, -, -, -, positive, -⟩, -⟩
    have interval := positive secondEdge_interval.1
    have zero : (real 0 < real (0 : ℝ)) := secondEdge_interval.2 ▸ interval
    exact lt_irrefl (0 : ℝ) zero

theorem divisions_safe_punctual : Runs.Throughout (StepSafe id .default) [punctual] := by
  have first : PedalHistory.pulseTime 0.02 0 0.015 = 0.005 := by norm_num [PedalHistory.pulseTime]
  have second : PedalHistory.pulseTime 0.02 0.005 0.005 - 0.005 = 0.01 := by norm_num [PedalHistory.pulseTime]
  have turning : ¬(0.5 : ℝ) < 0.01 := by norm_num
  have forward : 0 < punctual.dt := by norm_num [punctual]
  refine (divisions_safe id .default default_sound [punctual] ⟨forward, trivial⟩).2.mpr
    ((Runs.throughout_cons ..).mpr ⟨?_, Runs.throughout_nil _⟩)
  show PulsesApart 0.5 Scalar.zero 0.02 (0, .still) [0.015, 0.005]
  refine ⟨?_, ?_, trivial⟩
  · simp [PedalHistory.passes, PedalHistory.still]
  · simp [PedalHistory.edge, PedalHistory.passes, PedalHistory.pulse, PedalHistory.still, first, second, turning]
    norm_num

end Bench

end PedalObserver

end Unimoc.Ebike
