import Mathlib.Analysis.Complex.Basic
import Unimoc.CurrentControl.SlowUpdate
import Unimoc.Lib.Resolvent
import Unimoc.Units.Exact

/-! The voltage-model flux observer over runs: its feedback lets the start be forgotten, and the
estimate of the magnet is off only by what the magnet is off the set flux. -/
namespace Unimoc.CurrentControl.PmsmFluxObserver

/-- One call, the frame of the estimate by its sine and cosine, and the flux linkage of the magnet
in that frame. -/
structure Step where
  uDq : Rotor ℝ
  iDq : Rotor ℝ
  setFlux : Rotor ℝ
  frame : SinCos ℝ
  magnet : Rotor ℝ

/-- What stays over a run. -/
structure Gains where
  rs : ℝ
  lD : ℝ
  lQ : ℝ
  cD : ℝ
  cQ : ℝ
  dt : ℝ

def Has (gains : Gains) (flux : PmsmFluxObserver ℝ) : Prop :=
  flux.rs = gains.rs ∧ flux.lD = gains.lD ∧ flux.lQ = gains.lQ ∧ flux.cD = gains.cD ∧ flux.cQ = gains.cQ

/-- The mechanical observer is only read for its sine and cosine. -/
noncomputable def next (obs : MechanicalObserver ℝ) (gains : Gains) (flux : PmsmFluxObserver ℝ) (step : Step) :
    PmsmFluxObserver ℝ :=
  (flux.calculate step.uDq step.iDq step.setFlux gains.dt
    { obs with sinTheta := step.frame.sin, cosTheta := step.frame.cos }).2

noncomputable def answer (obs : MechanicalObserver ℝ) (gains : Gains) (flux : PmsmFluxObserver ℝ) (step : Step) : Option ℝ :=
  (flux.calculate step.uDq step.iDq step.setFlux gains.dt
    { obs with sinTheta := step.frame.sin, cosTheta := step.frame.cos }).1

namespace Step

def Unit (step : Step) : Prop := step.frame.cos ^ 2 + step.frame.sin ^ 2 = 1

/-- Cosine and sine of the turn from one frame to the next. -/
noncomputable def turnCos (a b : Step) : ℝ := a.frame.cos * b.frame.cos + a.frame.sin * b.frame.sin

noncomputable def turnSin (a b : Step) : ℝ := a.frame.cos * b.frame.sin - a.frame.sin * b.frame.cos

/-- The flux linkage of the stator in the frame of the step: currents and magnet. -/
noncomputable def linkage (gains : Gains) (step : Step) : Rotor ℝ :=
  ⟨gains.lD * step.iDq.d + step.magnet.d, gains.lQ * step.iDq.q + step.magnet.q⟩

/-- The law of induction from one step to the next, in the frame of the later one. -/
structure Induced (gains : Gains) (a b : Step) : Prop where
  d : (linkage gains b).d = turnCos a b * (linkage gains a).d + turnSin a b * (linkage gains a).q +
    gains.dt * (b.uDq.d - gains.rs * b.iDq.d)
  q : (linkage gains b).q = turnCos a b * (linkage gains a).q - turnSin a b * (linkage gains a).d +
    gains.dt * (b.uDq.q - gains.rs * b.iDq.q)

end Step

/-- What the estimate of the magnet is off. -/
noncomputable def error (flux : PmsmFluxObserver ℝ) (step : Step) : ℂ :=
  ⟨flux.psiPmD - step.magnet.d, flux.psiPmQ - step.magnet.q⟩

/-- What the magnet is off the set flux. -/
noncomputable def off (step : Step) : ℂ := ⟨step.setFlux.d - step.magnet.d, step.setFlux.q - step.magnet.q⟩

/-- Consecutive steps: the factor `rho` covers turn and feedback together. -/
structure Follows (gains : Gains) (rho slack : ℝ) (a b : Step) : Prop where
  unit : b.Unit
  induced : Step.Induced gains a b
  gentle : 1 - gains.dt * (Step.turnCos a b * (gains.cD + gains.cQ) - |gains.cD - gains.cQ|) +
    (gains.dt * max |gains.cD| |gains.cQ|) ^ 2 ≤ rho ^ 2
  near : ‖off a‖ ≤ slack

/-- What the feedback holds up of the estimate when the magnet is off. -/
noncomputable def floor (gains : Gains) (rho slack : ℝ) : ℝ :=
  gains.dt * (max |gains.cD| |gains.cQ| * slack) / (1 - rho)

/-- The state after a step. -/
structure After (gains : Gains) (flux : PmsmFluxObserver ℝ) (step : Step) : Prop where
  has : Has gains flux
  psiAlpha : flux.psiAlpha = (flux.psiPmD + gains.lD * step.iDq.d) * step.frame.cos -
    (flux.psiPmQ + gains.lQ * step.iDq.q) * step.frame.sin
  psiBeta : flux.psiBeta = (flux.psiPmD + gains.lD * step.iDq.d) * step.frame.sin +
    (flux.psiPmQ + gains.lQ * step.iDq.q) * step.frame.cos
  fbD : flux.fbD = gains.cD * (step.setFlux.d - flux.psiPmD)
  fbQ : flux.fbQ = gains.cQ * (step.setFlux.q - flux.psiPmQ)

section Single

variable (obs : MechanicalObserver ℝ) {gains : Gains} {flux : PmsmFluxObserver ℝ}

theorem next_after (has : Has gains flux) {step : Step} (unit : step.Unit) :
    After gains (next obs gains flux step) step := by
  obtain ⟨rs, lD, lQ, cD, cQ⟩ := has
  have square : step.frame.cos ^ 2 + step.frame.sin ^ 2 = 1 := unit
  refine ⟨⟨rs, lD, lQ, cD, cQ⟩, ?_, ?_, ?_, ?_⟩
  · simp only [next, calculate, lD, lQ]
    linear_combination -(flux.psiAlpha + ((step.uDq.d - flux.rs * step.iDq.d + flux.fbD) * step.frame.cos -
      (step.uDq.q - flux.rs * step.iDq.q + flux.fbQ) * step.frame.sin) * gains.dt) * square
  · simp only [next, calculate, lD, lQ]
    linear_combination -(flux.psiBeta + ((step.uDq.d - flux.rs * step.iDq.d + flux.fbD) * step.frame.sin +
      (step.uDq.q - flux.rs * step.iDq.q + flux.fbQ) * step.frame.cos) * gains.dt) * square
  · simp only [next, calculate, cD]
  · simp only [next, calculate, cQ]

/-- The error turns with the frame, the feedback takes its share, and what the magnet is off the set
flux comes in through the feedback. -/
theorem next_error {a b : Step} (before : After gains flux a) (unit : b.Unit) (induced : Step.Induced gains a b) :
    error (next obs gains flux b) b =
      ⟨Step.turnCos a b * (error flux a).re + Step.turnSin a b * (error flux a).im -
          gains.dt * (gains.cD * (error flux a).re) + gains.dt * (gains.cD * (a.setFlux.d - a.magnet.d)),
        Step.turnCos a b * (error flux a).im - Step.turnSin a b * (error flux a).re -
          gains.dt * (gains.cQ * (error flux a).im) + gains.dt * (gains.cQ * (a.setFlux.q - a.magnet.q))⟩ := by
  obtain ⟨⟨rs, lD, lQ, cD, cQ⟩, alpha, beta, fbD, fbQ⟩ := before
  obtain ⟨d, q⟩ := induced
  have square : b.frame.cos ^ 2 + b.frame.sin ^ 2 = 1 := unit
  simp only [Step.linkage, Step.turnCos, Step.turnSin] at d q
  apply Complex.ext
  · simp only [error, next, calculate, rs, lD, alpha, beta, fbD, fbQ, Step.turnCos, Step.turnSin]
    linear_combination gains.dt * (b.uDq.d - gains.rs * b.iDq.d + gains.cD * (a.setFlux.d - flux.psiPmD)) * square - d
  · simp only [error, next, calculate, rs, lQ, alpha, beta, fbD, fbQ, Step.turnCos, Step.turnSin]
    linear_combination gains.dt * (b.uDq.q - gains.rs * b.iDq.q + gains.cQ * (a.setFlux.q - flux.psiPmQ)) * square - q

end Single

/-- Cauchy-Schwarz for the double angle. -/
theorem swing_le {turnCos turnSin : ℝ} (unit : turnCos ^ 2 + turnSin ^ 2 = 1) (x y : ℝ) :
    |turnCos * (x ^ 2 - y ^ 2) + turnSin * (2 * x * y)| ≤ x ^ 2 + y ^ 2 := by
  have nonneg : 0 ≤ x ^ 2 + y ^ 2 := by positivity
  apply abs_le_of_sq_le_sq _ nonneg
  have across : (turnCos * (x ^ 2 - y ^ 2) + turnSin * (2 * x * y)) ^ 2 +
      (turnSin * (x ^ 2 - y ^ 2) - turnCos * (2 * x * y)) ^ 2 = (x ^ 2 + y ^ 2) ^ 2 := by
    linear_combination (x ^ 2 + y ^ 2) ^ 2 * unit
  linarith [sq_nonneg (turnSin * (x ^ 2 - y ^ 2) - turnCos * (2 * x * y))]

/-- The larger of two gains on both axes. -/
theorem larger_gain (cD cQ x y : ℝ) : cD ^ 2 * x ^ 2 + cQ ^ 2 * y ^ 2 ≤ max |cD| |cQ| ^ 2 * (x ^ 2 + y ^ 2) := by
  have along : cD ^ 2 ≤ max |cD| |cQ| ^ 2 := sq_le_sq.mpr ((le_max_left _ _).trans (le_abs_self _))
  have across : cQ ^ 2 ≤ max |cD| |cQ| ^ 2 := sq_le_sq.mpr ((le_max_right _ _).trans (le_abs_self _))
  linarith [mul_le_mul_of_nonneg_right along (sq_nonneg x), mul_le_mul_of_nonneg_right across (sq_nonneg y)]

/-- The turn with the feedback on it, one gain an axis. -/
theorem turned_le {turnCos turnSin : ℝ} (unit : turnCos ^ 2 + turnSin ^ 2 = 1) {cD cQ dt rho : ℝ} (ahead : 0 ≤ dt)
    (nonneg : 0 ≤ rho)
    (gentle : 1 - dt * (turnCos * (cD + cQ) - |cD - cQ|) + (dt * max |cD| |cQ|) ^ 2 ≤ rho ^ 2) (z : ℂ) :
    ‖(⟨turnCos * z.re + turnSin * z.im - dt * (cD * z.re), turnCos * z.im - turnSin * z.re - dt * (cQ * z.im)⟩ : ℂ)‖ ≤
      rho * ‖z‖ := by
  apply le_of_sq_le_sq _ (mul_nonneg nonneg (norm_nonneg z))
  rw [mul_pow, Complex.sq_norm, Complex.sq_norm, Complex.normSq_apply, Complex.normSq_apply]
  have swing := swing_le unit z.re z.im
  have spread : (cD - cQ) * (turnCos * (z.re ^ 2 - z.im ^ 2) + turnSin * (2 * z.re * z.im)) ≥
      -(|cD - cQ| * (z.re ^ 2 + z.im ^ 2)) := by
    have product := neg_abs_le ((cD - cQ) * (turnCos * (z.re ^ 2 - z.im ^ 2) + turnSin * (2 * z.re * z.im)))
    rw [abs_mul] at product
    linarith [mul_le_mul_of_nonneg_left swing (abs_nonneg (cD - cQ))]
  have share := mul_le_mul_of_nonneg_left spread ahead
  have square := mul_le_mul_of_nonneg_left (larger_gain cD cQ z.re z.im) (sq_nonneg dt)
  have bound := mul_le_mul_of_nonneg_right gentle (add_nonneg (sq_nonneg z.re) (sq_nonneg z.im))
  have expanded :
      (turnCos * z.re + turnSin * z.im - dt * (cD * z.re)) * (turnCos * z.re + turnSin * z.im - dt * (cD * z.re)) +
        (turnCos * z.im - turnSin * z.re - dt * (cQ * z.im)) * (turnCos * z.im - turnSin * z.re - dt * (cQ * z.im)) =
      (z.re ^ 2 + z.im ^ 2) - dt * (turnCos * (cD + cQ) * (z.re ^ 2 + z.im ^ 2)) -
        dt * ((cD - cQ) * (turnCos * (z.re ^ 2 - z.im ^ 2) + turnSin * (2 * z.re * z.im))) +
        dt ^ 2 * (cD ^ 2 * z.re ^ 2 + cQ ^ 2 * z.im ^ 2) := by
    linear_combination (z.re ^ 2 + z.im ^ 2) * unit
  rw [expanded]
  linarith

/-- A gain an axis. -/
theorem gained_le (cD cQ : ℝ) (z : ℂ) : ‖(⟨cD * z.re, cQ * z.im⟩ : ℂ)‖ ≤ max |cD| |cQ| * ‖z‖ := by
  have nonneg : 0 ≤ max |cD| |cQ| := (abs_nonneg cD).trans (le_max_left _ _)
  apply le_of_sq_le_sq _ (mul_nonneg nonneg (norm_nonneg z))
  rw [mul_pow, Complex.sq_norm, Complex.sq_norm, Complex.normSq_apply, Complex.normSq_apply]
  linarith [larger_gain cD cQ z.re z.im]

section Runs

variable (obs : MechanicalObserver ℝ) {gains : Gains} {rho slack : ℝ}

theorem turn_unit {a b : Step} (before : a.Unit) (after : b.Unit) :
    Step.turnCos a b ^ 2 + Step.turnSin a b ^ 2 = 1 := by
  have first : a.frame.cos ^ 2 + a.frame.sin ^ 2 = 1 := before
  have second : b.frame.cos ^ 2 + b.frame.sin ^ 2 = 1 := after
  simp only [Step.turnCos, Step.turnSin]
  linear_combination (b.frame.cos ^ 2 + b.frame.sin ^ 2) * first + second

/-- A step towards the floor. -/
theorem next_closer (ahead : 0 ≤ gains.dt) (nonneg : 0 ≤ rho) (below : rho < 1) {flux : PmsmFluxObserver ℝ} {a b : Step}
    (before : After gains flux a) (unit : a.Unit) (follows : Follows gains rho slack a b) :
    ‖error (next obs gains flux b) b‖ - floor gains rho slack ≤ rho * (‖error flux a‖ - floor gains rho slack) := by
  have turned := turned_le (turn_unit unit follows.unit) ahead nonneg follows.gentle (error flux a)
  have pulled := gained_le gains.cD gains.cQ (off a)
  have split : error (next obs gains flux b) b =
      (⟨Step.turnCos a b * (error flux a).re + Step.turnSin a b * (error flux a).im -
          gains.dt * (gains.cD * (error flux a).re),
        Step.turnCos a b * (error flux a).im - Step.turnSin a b * (error flux a).re -
          gains.dt * (gains.cQ * (error flux a).im)⟩ : ℂ) +
        (gains.dt : ℂ) * ⟨gains.cD * (off a).re, gains.cQ * (off a).im⟩ := by
    rw [next_error obs before follows.unit follows.induced]
    apply Complex.ext <;> simp [off]
  have drive : ‖(gains.dt : ℂ) * (⟨gains.cD * (off a).re, gains.cQ * (off a).im⟩ : ℂ)‖ ≤
      gains.dt * (max |gains.cD| |gains.cQ| * slack) := by
    rw [norm_mul, Complex.norm_real, Real.norm_of_nonneg ahead]
    have largest : 0 ≤ max |gains.cD| |gains.cQ| := (abs_nonneg _).trans (le_max_left _ _)
    exact mul_le_mul_of_nonneg_left (pulled.trans (mul_le_mul_of_nonneg_left follows.near largest)) ahead
  have level : floor gains rho slack * (1 - rho) = gains.dt * (max |gains.cD| |gains.cQ| * slack) :=
    div_mul_cancel₀ _ (by linarith)
  rw [split]
  have both := (norm_add_le _ _).trans (add_le_add turned drive)
  linarith

/-- Over a run of calls the error of the estimate falls to the floor like the powers of the factor. -/
theorem run_error (ahead : 0 ≤ gains.dt) (nonneg : 0 ≤ rho) (below : rho < 1) {flux : PmsmFluxObserver ℝ}
    (has : Has gains flux) {first : Step} (unit : first.Unit) (rest : List Step)
    (chain : List.IsChain (Follows gains rho slack) (first :: rest)) :
    ‖error (rest.foldl (next obs gains) (next obs gains flux first)) (rest.getLastD first)‖ - floor gains rho slack ≤
      rho ^ rest.length * (‖error (next obs gains flux first) first‖ - floor gains rho slack) := by
  refine (Resolvent.settles (next obs gains) (fun flux step => After gains flux step ∧ step.Unit)
    (fun flux step => ‖error flux step‖) nonneg ?_ ?_ rest _ first ⟨next_after obs has unit, unit⟩ chain).2
  · intro flux a b before follows
    exact ⟨next_after obs before.1.has follows.unit, follows.unit⟩
  · intro flux a b before follows
    exact next_closer obs ahead nonneg below before.1 before.2 follows

/-- The angle that a run of calls ends with: however wrong the start, the answer comes down to the
angle of the magnet in the frame, up to what the magnet was off the set flux. -/
theorem angle_settles (ahead : 0 ≤ gains.dt) (nonneg : 0 ≤ rho) (below : rho < 1) {flux : PmsmFluxObserver ℝ}
    (has : Has gains flux) {first : Step} (unit : first.Unit) (rest : List Step) (last : Step)
    (chain : List.IsChain (Follows gains rho slack) (first :: (rest ++ [last]))) (magnet : 0 < last.setFlux.d) :
    ∃ angle, answer obs gains (rest.foldl (next obs gains) (next obs gains flux first)) last = some angle ∧
      |angle - last.magnet.q / last.setFlux.d| ≤ (floor gains rho slack + rho ^ (rest.length + 1) *
        (‖error (next obs gains flux first) first‖ - floor gains rho slack)) / last.setFlux.d := by
  have settled := run_error obs ahead nonneg below has unit (rest ++ [last]) chain
  rw [List.foldl_append, List.foldl_cons, List.foldl_nil, List.getLastD_concat, List.length_append,
    List.length_singleton] at settled
  generalize ended : rest.foldl (next obs gains) (next obs gains flux first) = before at settled ⊢
  refine ⟨(next obs gains before last).psiPmQ / last.setFlux.d, ?_, ?_⟩
  · simp [answer, next, calculate, Scalar.zero_exact, magnet]
  · have part : |(next obs gains before last).psiPmQ - last.magnet.q| ≤ ‖error (next obs gains before last) last‖ :=
      Complex.abs_im_le_norm (error (next obs gains before last) last)
    rw [← sub_div, abs_div, abs_of_pos magnet]
    apply div_le_div_of_nonneg_right _ magnet.le
    linarith

end Runs

section Bench

def anyObserver : MechanicalObserver ℝ := ⟨0, 0, 0, 0, 0, 0, 0, 0, 0, 0, 0, 0, 0, 0, 0, 0⟩

noncomputable def unitGains : Gains := ⟨1, 1, 1, 1, 1, 0.5⟩

def unitFlux : PmsmFluxObserver ℝ := ⟨1, 1, 1, 1, 1, 0, 0, 0, 0, 0, 0⟩

/-- No current, and the voltage of the turning magnet. -/
noncomputable def turning (cos sin : ℝ) : Step := ⟨⟨0.4, 1.2⟩, ⟨0, 0⟩, ⟨1, 0⟩, ⟨sin, cos⟩, ⟨1, 0⟩⟩

theorem turning_follows {c s c' s' : ℝ} (unit : c' ^ 2 + s' ^ 2 = 1) (forward : c * c' + s * s' = 4 / 5)
    (ahead : c * s' - s * c' = 3 / 5) : Follows unitGains (7 / 10) 0 (turning c s) (turning c' s') where
  unit := unit
  induced := by
    constructor
    · simp only [Step.linkage, Step.turnCos, Step.turnSin, turning, unitGains, forward, ahead]
      norm_num
    · simp only [Step.linkage, Step.turnCos, Step.turnSin, turning, unitGains, forward, ahead]
      norm_num
  gentle := by
    simp only [Step.turnCos, turning, unitGains, forward]
    norm_num
  near := by
    have nothing : off (turning c s) = 0 := by apply Complex.ext <;> simp [off, turning]
    rw [nothing, norm_zero]

theorem angle_settles_turning :
    ∃ angle, answer anyObserver unitGains ([turning (4 / 5) (3 / 5)].foldl (next anyObserver unitGains)
        (next anyObserver unitGains unitFlux (turning 1 0))) (turning (7 / 25) (24 / 25)) = some angle ∧
      |angle - 0 / 1| ≤ (floor unitGains (7 / 10) 0 + (7 / 10) ^ (1 + 1) *
        (‖error (next anyObserver unitGains unitFlux (turning 1 0)) (turning 1 0)‖ - floor unitGains (7 / 10) 0)) / 1 := by
  have chain : List.IsChain (Follows unitGains (7 / 10) 0)
      (turning 1 0 :: ([turning (4 / 5) (3 / 5)] ++ [turning (7 / 25) (24 / 25)])) := by
    simp only [List.singleton_append, List.isChain_cons_cons, List.isChain_singleton, and_true]
    constructor
    · apply turning_follows <;> norm_num
    · apply turning_follows <;> norm_num
  exact angle_settles anyObserver (by norm_num [unitGains]) (by norm_num) (by norm_num) ⟨rfl, rfl, rfl, rfl, rfl⟩
    (by norm_num [Step.Unit, turning]) [turning (4 / 5) (3 / 5)] (turning (7 / 25) (24 / 25)) chain
    (by norm_num [turning])

end Bench

end Unimoc.CurrentControl.PmsmFluxObserver
