import Unimoc.CurrentControl.BoundedAngles
import Unimoc.Lib.Runs
import Unimoc.Settings.Factory

/-! The covariance of the mechanical observer in exact arithmetic: its scalar assignments against
the matrices of a Kalman filter, and what any order of them keeps. -/
namespace Unimoc.CurrentControl

open Settings Matrix

namespace MechanicalObserver

variable (wrap : ℝ → Id ℝ) (obs : MechanicalObserver ℝ)

def estimate : Fin 3 → ℝ := ![obs.omega, obs.theta, obs.mL]

noncomputable def settled : MechanicalObserver ℝ :=
  { obs.clampSpeed with theta := wrap obs.clampSpeed.theta }.updateSinCos

@[simp] theorem settled_matrix : (obs.settled wrap).matrix = obs.matrix := rfl

@[simp] theorem settled_q : (obs.settled wrap).q = obs.q := rfl

theorem correct_usable {state : Fin 3} {innovation noise : ℝ} (usable : 0 < obs.matrix state state + noise) :
    (obs.correct wrap state innovation noise).run =
      (obs.corrected (obs.estimate + innovation • Kalman.gain obs.matrix state noise)
        (Kalman.update obs.matrix state noise)).settled wrap := by
  have gain (row : Fin 3) : obs.p row state * (1.0 / (obs.p state state + noise)) =
      Kalman.gain obs.matrix state noise row := by
    norm_num [Kalman.gain, div_eq_mul_inv]
  have moved (row : Fin 3) : obs.p row state * (1.0 / (obs.p state state + noise)) * innovation =
      innovation * Kalman.gain obs.matrix state noise row := by
    rw [gain, mul_comm]
  have shrunk : (fun row column => obs.p row column -
      obs.p row state * (1.0 / (obs.p state state + noise)) * obs.p state column) =
        Kalman.update obs.matrix state noise := by
    ext row column
    rw [gain]
    rfl
  have measured : ({ obs with
      p := fun row column => obs.p row column -
        obs.p row state * (1.0 / (obs.p state state + noise)) * obs.p state column
      omega := obs.omega + obs.p 0 state * (1.0 / (obs.p state state + noise)) * innovation
      theta := obs.theta + obs.p 1 state * (1.0 / (obs.p state state + noise)) * innovation
      mL := obs.mL + obs.p 2 state * (1.0 / (obs.p state state + noise)) * innovation } :
        MechanicalObserver ℝ) =
      obs.corrected (obs.estimate + innovation • Kalman.gain obs.matrix state noise)
        (Kalman.update obs.matrix state noise) := by
    rw [moved, moved, moved, shrunk]
    rfl
  have guard : ¬(!decide ((Scalar.zero : ℝ) < obs.p state state + noise) ||
      !Scalar.isFinite innovation) = true := by
    rw [Scalar.zero_exact]
    simpa [Scalar.isFinite] using usable
  unfold correct
  rw [if_neg guard]
  exact congrArg (settled wrap) measured

theorem correct_unusable {state : Fin 3} {noise : ℝ} (innovation : ℝ)
    (unusable : ¬0 < obs.matrix state state + noise) :
    (obs.correct wrap state innovation noise).run = obs := by
  have guard : (!decide ((Scalar.zero : ℝ) < obs.p state state + noise) ||
      !Scalar.isFinite innovation) = true := by
    rw [Scalar.zero_exact]
    simpa [Scalar.isFinite] using unusable
  unfold correct
  rw [if_pos guard]
  rfl

theorem correct_matrix (state : Fin 3) (innovation noise : ℝ) :
    (obs.correct wrap state innovation noise).run.matrix =
      if 0 < obs.matrix state state + noise then Kalman.update obs.matrix state noise else obs.matrix := by
  split_ifs with usable
  · rw [correct_usable wrap obs usable]
    rfl
  · rw [correct_unusable wrap obs innovation usable]

theorem correct_symmetric (symm : obs.matrix.IsSymm) (state : Fin 3) (innovation noise : ℝ) :
    (obs.correct wrap state innovation noise).run.matrix.IsSymm := by
  rw [correct_matrix]
  split_ifs
  · exact Kalman.update_symmetric symm state noise
  · exact symm

theorem correct_posSemidef (psd : obs.matrix.PosSemidef) (state : Fin 3) (innovation : ℝ) {noise : ℝ}
    (positive : 0 < noise) :
    (obs.correct wrap state innovation noise).run.matrix.PosSemidef := by
  rw [correct_matrix]
  split_ifs with usable
  · exact Kalman.update_posSemidef psd positive.le usable
  · exact psd

theorem correct_q (state : Fin 3) (innovation noise : ℝ) :
    (obs.correct wrap state innovation noise).run.q = obs.q := by
  by_cases usable : 0 < obs.matrix state state + noise
  · rw [correct_usable wrap obs usable]
    rfl
  · rw [correct_unusable wrap obs innovation usable]

theorem correct_comm (psd : obs.matrix.PosSemidef) (first second : Fin 3)
    (firstInnovation secondInnovation : ℝ) {firstNoise secondNoise : ℝ} (firstPositive : 0 < firstNoise)
    (secondPositive : 0 < secondNoise) :
    ((obs.correct wrap first firstInnovation firstNoise).run.correct wrap second secondInnovation
        secondNoise).run.matrix =
      ((obs.correct wrap second secondInnovation secondNoise).run.correct wrap first firstInnovation
        firstNoise).run.matrix := by
  have variance {P : Matrix (Fin 3) (Fin 3) ℝ} (covariance : P.PosSemidef) (state : Fin 3) {noise : ℝ}
      (positive : 0 < noise) : 0 < P state state + noise :=
    add_pos_of_nonneg_of_pos covariance.diag_nonneg positive
  have firstUsable := variance psd first firstPositive
  have secondUsable := variance psd second secondPositive
  have afterFirst := Kalman.update_posSemidef psd firstPositive.le firstUsable
  have afterSecond := Kalman.update_posSemidef psd secondPositive.le secondUsable
  have apart : 0 < (obs.matrix first first + firstNoise) * (obs.matrix second second + secondNoise) -
      obs.matrix first second ^ 2 := by
    have joint := Kalman.covariance_le psd first second
    have firstVariance := psd.diag_nonneg (i := first)
    have secondVariance := psd.diag_nonneg (i := second)
    nlinarith [mul_nonneg firstVariance secondPositive.le, mul_nonneg secondVariance firstPositive.le,
      mul_pos firstPositive secondPositive]
  rw [correct_matrix, correct_matrix, correct_matrix, correct_matrix, if_pos firstUsable,
    if_pos secondUsable, if_pos (variance afterFirst second secondPositive),
    if_pos (variance afterSecond first firstPositive)]
  exact Kalman.update_comm (Kalman.isSymm psd) firstUsable.ne' secondUsable.ne'
    apart.ne'

end MechanicalObserver

/-! ### Any order of operations -/

/-- The operations on the covariance, and the ones that leave it alone. -/
inductive ObserverEvent (F : Type) where
  | predictCovariance (dt : F)
  | updateAngle (innovation noise : F)
  | updateSpeed (innovation noise : F)
  | holdStill
  | reset (theta omega : F)

namespace ObserverEvent

def Positive : ObserverEvent ℝ → Prop
  | .predictCovariance dt => 0 < dt
  | .updateAngle _ noise => 0 < noise
  | .updateSpeed _ noise => 0 < noise
  | .holdStill => True
  | .reset _ _ => True

def predicts {F : Type} : ObserverEvent F → Bool
  | .predictCovariance _ => true
  | _ => false

def apply {F : Type} [Arithmetic F] (wrap : F → Id F) (obs : MechanicalObserver F) :
    ObserverEvent F → MechanicalObserver F
  | .predictCovariance dt => obs.predictCovariance dt
  | .updateAngle innovation noise => (obs.updateAngle wrap innovation noise).run
  | .updateSpeed innovation noise => (obs.updateSpeed wrap innovation noise).run
  | .holdStill => obs.holdStill
  | .reset theta omega => obs.reset theta omega

/-- The observer loaded from settings, and the operations after that. -/
noncomputable def machine (wrap : ℝ → Id ℝ) (settings : NvmSettings) (before : MechanicalObserver ℝ) :
    Runs.Machine (MechanicalObserver ℝ) (ObserverEvent ℝ) where
  start := before.init settings
  next := apply wrap
  admits _ event := event.Positive

variable {wrap : ℝ → Id ℝ} {obs : MechanicalObserver ℝ}

theorem apply_q (event : ObserverEvent ℝ) : (event.apply wrap obs).q = obs.q := by
  cases event with
  | predictCovariance dt => rfl
  | updateAngle innovation noise => exact obs.correct_q wrap 1 (wrap innovation) noise
  | updateSpeed innovation noise => exact obs.correct_q wrap 0 innovation noise
  | holdStill => rfl
  | reset theta omega => rfl

theorem apply_posSemidef (steady : 0 ≤ obs.q) (psd : obs.matrix.PosSemidef) {event : ObserverEvent ℝ}
    (positive : event.Positive) : (event.apply wrap obs).matrix.PosSemidef := by
  cases event with
  | predictCovariance dt =>
    show (obs.predictCovariance dt).matrix.PosSemidef
    rw [MechanicalObserver.predictCovariance_matrix]
    exact Kalman.predict_posSemidef psd _ steady
  | updateAngle innovation noise => exact obs.correct_posSemidef wrap psd 1 (wrap innovation) positive
  | updateSpeed innovation noise => exact obs.correct_posSemidef wrap psd 0 innovation positive
  | holdStill => exact psd
  | reset theta omega =>
    show (obs.reset theta omega).matrix.PosSemidef
    rw [MechanicalObserver.reset_matrix]
    exact PosSemidef.zero

theorem apply_zero (zero : obs.matrix = 0) {event : ObserverEvent ℝ} (measures : event.predicts = false) :
    (event.apply wrap obs).matrix = 0 := by
  have corrected (state : Fin 3) (innovation noise : ℝ) :
      (obs.correct wrap state innovation noise).run.matrix = 0 := by
    rw [MechanicalObserver.correct_matrix, zero]
    split_ifs
    · ext row column
      simp [Kalman.update, Kalman.gain, vecMulVec_apply]
    · rfl
  cases event with
  | predictCovariance dt => cases measures
  | updateAngle innovation noise => exact corrected 1 (wrap innovation) noise
  | updateSpeed innovation noise => exact corrected 0 innovation noise
  | holdStill => exact zero
  | reset theta omega => exact MechanicalObserver.reset_matrix theta omega

theorem predicted_zero (zero : obs.matrix = 0) (dt : ℝ) :
    (obs.predictCovariance dt).matrix = obs.q • (1 : Matrix (Fin 3) (Fin 3) ℝ) := by
  rw [MechanicalObserver.predictCovariance_matrix, zero, Matrix.mul_zero, Matrix.zero_mul, zero_add]

section Run

variable {s : NvmSettings} {before : MechanicalObserver ℝ}

theorem run_q (trace : List (ObserverEvent ℝ)) :
    ((machine wrap s before).replay trace).q = s.real .mechObsQ := by
  induction trace with
  | nil => rfl
  | cons event past ih => exact (apply_q event).trans ih

theorem run_zero {trace : List (ObserverEvent ℝ)} (measures : ∀ event ∈ trace, event.predicts = false) :
    ((machine wrap s before).replay trace).matrix = 0 := by
  induction trace with
  | nil => exact MechanicalObserver.reset_matrix _ _
  | cons event past ih =>
    have older := ih fun e member => measures e (List.mem_cons_of_mem event member)
    exact apply_zero older (measures event List.mem_cons_self)

theorem run_posSemidef (steady : 0 ≤ (s.real .mechObsQ : ℝ)) {trace : List (ObserverEvent ℝ)}
    (legal : (machine wrap s before).Legal trace) :
    ((machine wrap s before).replay trace).matrix.PosSemidef := by
  induction trace with
  | nil =>
    show (before.init s).matrix.PosSemidef
    rw [MechanicalObserver.init, MechanicalObserver.reset_matrix]
    exact PosSemidef.zero
  | cons event past ih => exact apply_posSemidef ((run_q past).symm ▸ steady) (ih legal.2) legal.1

end Run

end ObserverEvent

section Bench

def negativeNoise : NvmSettings := NvmSettings.default.set .mechObsQ (0xC0000000 : UInt32)

theorem negativeNoise_q : (negativeNoise.real .mechObsQ : ℝ) = -2 := by
  have pattern : (negativeNoise.real .mechObsQ : Binary32) = .finite (-8388608) (-22) := by decide
  rw [real_value, pattern]
  norm_num [Binary.value]

/-- The wrap of the source, for angles within eight revolutions. -/
noncomputable def wrapNear (angle : ℝ) : Id ℝ := pure ((wrapAngle 9 angle).getD angle)

noncomputable def blankObserver : MechanicalObserver ℝ :=
  ⟨0, 0, 0, 0, 0, 0, 0, 0, 0, 0, 0, 0, 0, 0, 0, fun _ _ => 0⟩

noncomputable def predictedOnce (s : NvmSettings) : MechanicalObserver ℝ :=
  (ObserverEvent.machine wrapNear s blankObserver).replay [.predictCovariance 1]

theorem predictedOnce_matrix (s : NvmSettings) :
    (predictedOnce s).matrix = (s.real .mechObsQ : ℝ) • (1 : Matrix (Fin 3) (Fin 3) ℝ) :=
  ObserverEvent.predicted_zero (MechanicalObserver.reset_matrix _ _) 1

end Bench

/-- The scalar assignments are the matrices of the filter: the prediction, a usable measurement, and
two measurements in either order. -/
theorem observer_algebra (obs : MechanicalObserver ℝ) (wrap : ℝ → Id ℝ) (symm : obs.matrix.IsSymm) :
    (∀ dt : ℝ, 0 < dt → 0 < obs.j →
      (obs.predictCovariance dt).matrix =
        !![1, 0, -(dt / obs.j); dt, 1, 0; 0, 0, 1] * obs.matrix *
            !![1, 0, -(dt / obs.j); dt, 1, 0; 0, 0, 1]ᵀ + obs.q • (1 : Matrix (Fin 3) (Fin 3) ℝ)) ∧
    (∀ (state : Fin 3) (innovation noise : ℝ),
      (0 < Kalman.innovationVariance obs.matrix (Pi.single state 1) noise →
        (obs.correct wrap state innovation noise).run =
          (obs.corrected
            (obs.estimate + innovation • Kalman.textbookGain obs.matrix (Pi.single state 1) noise)
            (Kalman.textbookUpdate obs.matrix (Pi.single state 1) noise)).settled wrap) ∧
      (¬0 < Kalman.innovationVariance obs.matrix (Pi.single state 1) noise →
        (obs.correct wrap state innovation noise).run = obs) ∧
      (obs.correct wrap state innovation noise).run.matrix.IsSymm) ∧
    (obs.matrix.PosSemidef → ∀ angle speed angleNoise speedNoise : ℝ, 0 < angleNoise → 0 < speedNoise →
      ((obs.updateAngle wrap angle angleNoise).run.updateSpeed wrap speed speedNoise).run.matrix =
        ((obs.updateSpeed wrap speed speedNoise).run.updateAngle wrap angle angleNoise).run.matrix) := by
  refine ⟨?_, ?_, ?_⟩
  · intro dt _ _
    rw [obs.predictCovariance_matrix, conjTranspose_eq_transpose_of_trivial]
    rfl
  · intro state innovation noise
    rw [Kalman.innovationVariance_single, Kalman.textbookGain_single, Kalman.textbookUpdate_single]
    refine ⟨?_, ?_, obs.correct_symmetric wrap symm state innovation noise⟩
    · intro usable
      exact obs.correct_usable wrap usable
    · intro unusable
      exact obs.correct_unusable wrap innovation unusable
  · intro psd angle speed angleNoise speedNoise anglePositive speedPositive
    exact obs.correct_comm wrap psd 1 0 (wrap angle) speed anglePositive speedPositive

/-- One prediction leaves -2 on the diagonal: a symmetric matrix, but the measurement that the textbook
would use is refused. -/
theorem correct_refuses :
    validate negativeNoise simCapabilities = .success ∧ (predictedOnce negativeNoise).matrix.IsSymm ∧
      ((predictedOnce negativeNoise).correct wrapNear 0 1 1).run.matrix ≠
        Kalman.textbookUpdate (predictedOnce negativeNoise).matrix (Pi.single 0 1) 1 := by
  have matrix := predictedOnce_matrix negativeNoise
  rw [negativeNoise_q] at matrix
  refine ⟨by decide, ?_, ?_⟩
  · rw [matrix]
    exact isSymm_one.smul _
  · rw [MechanicalObserver.correct_matrix, Kalman.textbookUpdate_single, matrix]
    intro same
    have entry := congrFun (congrFun same 0) 0
    norm_num [Kalman.update, Kalman.gain, vecMulVec_apply] at entry

theorem observer_algebra_started :
    (predictedOnce .default).matrix.IsSymm ∧
      ((predictedOnce .default).correct wrapNear 0 1 1).run.matrix.IsSymm := by
  have symm : (predictedOnce .default).matrix.IsSymm := by
    rw [predictedOnce_matrix]
    exact isSymm_one.smul _
  obtain ⟨-, measured, -⟩ := observer_algebra (predictedOnce .default) wrapNear symm
  exact ⟨symm, (measured 0 1 1).2.2⟩

/-- After every operation the covariance is positive semi-definite, exactly when the process noise is
not negative or nothing was predicted. -/
theorem covariance_posSemidef_iff (s : NvmSettings) (wrap : ℝ → Id ℝ) (before : MechanicalObserver ℝ)
    (trace : List (ObserverEvent ℝ)) (legal : (ObserverEvent.machine wrap s before).Legal trace) :
    Runs.Throughout (fun event past =>
      ((ObserverEvent.machine wrap s before).replay (event :: past)).matrix.PosSemidef) trace ↔
      0 ≤ (s.real .mechObsQ : ℝ) ∨ ∀ event ∈ trace, event.predicts = false := by
  induction trace with
  | nil => simp
  | cons event past ih =>
    rw [Runs.throughout_cons, ih legal.2]
    constructor
    · rintro ⟨psd, steady | measures⟩
      · exact .inl steady
      cases event with
      | predictCovariance dt =>
        -- the first prediction leaves the process noise alone on the diagonal
        have noise := psd.diag_nonneg (i := 0)
        have certain : ((ObserverEvent.machine wrap s before).replay past).matrix = 0 :=
          ObserverEvent.run_zero measures
        have predicted := ObserverEvent.predicted_zero certain dt
        change 0 ≤ (((ObserverEvent.machine wrap s before).replay past).predictCovariance dt).matrix 0 0
          at noise
        rw [predicted, ObserverEvent.run_q] at noise
        left
        simpa using noise
      | _ => exact .inr (List.forall_mem_cons.mpr ⟨rfl, measures⟩)
    · rintro (steady | measures)
      · exact ⟨ObserverEvent.run_posSemidef steady legal, .inl steady⟩
      · refine ⟨?_, .inr (List.forall_mem_cons.mp measures).2⟩
        rw [ObserverEvent.run_zero measures]
        exact PosSemidef.zero

/-- The validation takes a process noise of -2, and the first prediction leaves it as a variance. -/
theorem negative_noise_accepted :
    validate negativeNoise simCapabilities = .success ∧
      (ObserverEvent.machine wrapNear negativeNoise blankObserver).Legal [.predictCovariance 1] ∧
      ¬((ObserverEvent.machine wrapNear negativeNoise blankObserver).replay
        [.predictCovariance 1]).matrix.PosSemidef := by
  refine ⟨by decide, ⟨one_pos, trivial⟩, ?_⟩
  intro psd
  have noise := psd.diag_nonneg (i := 0)
  change 0 ≤ (predictedOnce negativeNoise).matrix 0 0 at noise
  rw [predictedOnce_matrix, negativeNoise_q] at noise
  norm_num at noise

theorem covariance_posSemidef_iff_measured :
    (ObserverEvent.machine wrapNear negativeNoise blankObserver).Legal [.updateSpeed 3 1] ∧
      Runs.Throughout (fun event past =>
        ((ObserverEvent.machine wrapNear negativeNoise blankObserver).replay
          (event :: past)).matrix.PosSemidef) [.updateSpeed 3 1] := by
  have legal : (ObserverEvent.machine wrapNear negativeNoise blankObserver).Legal [.updateSpeed 3 1] :=
    ⟨one_pos, trivial⟩
  refine ⟨legal, ?_⟩
  refine (covariance_posSemidef_iff negativeNoise wrapNear blankObserver _ legal).mpr (.inr ?_)
  simp [ObserverEvent.predicts]

end Unimoc.CurrentControl
