import Mathlib.Analysis.SpecialFunctions.Exp
import Unimoc.Ebike.EbikeControl
import Unimoc.Lib.Runs
import Unimoc.Settings.ExactValues

/-! The assist torque over runs in exact arithmetic: its bounds, and the time its release takes. -/
namespace Unimoc.Ebike

open Settings

structure AssistStep where
  dt : ℝ
  input : AssistInput ℝ

namespace AssistConfig

/-- Parameters as the validation of the settings leaves them. -/
structure Sound (config : AssistConfig ℝ) : Prop where
  gains : ∀ level, 0 ≤ config.levelGain.getD level 0
  maxRatio : 0 ≤ config.maxRatio
  torqueRatio : 0 ≤ config.torqueRatio
  minCadence : 0 ≤ config.minCadence
  riseTime : 0 < config.riseTime
  fallTime : 0 < config.fallTime

theorem gains_nonneg {gains : List ℝ} (each : ∀ gain ∈ gains, 0 ≤ gain) (level : Nat) : 0 ≤ gains.getD level 0 := by
  rw [List.getD_eq_getElem?_getD]
  cases found : gains[level]? with
  | none => exact le_rfl
  | some gain => exact each gain (List.mem_of_getElem? found)

theorem default_sound : (AssistConfig.default : AssistConfig ℝ).Sound := by
  refine ⟨gains_nonneg ?_, ?_, ?_, ?_, ?_, ?_⟩ <;> unfold AssistConfig.default <;> norm_num

theorem accepted_sound {s : NvmSettings} {limits : HardwareCapabilities Binary32}
    (accepted : validate s limits = .success) : (EbikeParameters.from s : EbikeParameters ℝ).assist.Sound := by
  have finite := (validate_accepted accepted).finite
  have gain {r : Register} (listed : r ∈ finiteReals) (inside : isGain Binary32 s r = true) :
      0 ≤ (s.real r : ℝ) := by
    rw [← finite_zero.2]
    rw [isGain, Bool.and_eq_true, decide_eq_true_eq] at inside
    exact (Binary.le_value finite_zero.1 (finite r listed)).mp inside.1
  have nonneg {r : Register} (listed : r ∈ finiteReals) (refused : ¬(s.real r : Binary32) < Scalar.zero) :
      0 ≤ (s.real r : ℝ) := by
    rw [← finite_zero.2]
    exact not_lt.mp fun below => refused ((Binary.lt_value (finite r listed) finite_zero.1).mpr below)
  have positive {r : Register} (listed : r ∈ finiteReals) (refused : ¬(s.real r : Binary32) ≤ Scalar.zero) :
      0 < (s.real r : ℝ) := by
    rw [← finite_zero.2]
    exact not_le.mp fun below => refused ((Binary.le_value (finite r listed) finite_zero.1).mpr below)
  unfold validate at accepted
  obtain ⟨-, accepted⟩ := passed accepted (by decide)
  obtain ⟨-, accepted⟩ := passed accepted (by decide)
  obtain ⟨-, accepted⟩ := passed accepted (by decide)
  obtain ⟨-, accepted⟩ := passed accepted (by decide)
  obtain ⟨-, accepted⟩ := passed accepted (by decide)
  obtain ⟨-, accepted⟩ := passed accepted (by decide)
  obtain ⟨-, accepted⟩ := passed accepted (by decide)
  obtain ⟨ebike, -⟩ := passed accepted (by decide)
  simp only [Bool.or_eq_true, not_or, Bool.not_eq_true, Bool.not_eq_false, decide_eq_true_eq,
    Bool.not_eq_eq_eq_not, Bool.not_true, isNotAbove, isNegative] at ebike
  obtain ⟨⟨⟨⟨⟨⟨⟨⟨⟨⟨⟨⟨⟨⟨⟨⟨-, gain1⟩, gain2⟩, gain3⟩, gain4⟩, gain5⟩, maxRatio⟩, torqueRatio⟩, -⟩, -⟩, minCadence⟩,
    -⟩, riseTime⟩, fallTime⟩, -⟩, -⟩, -⟩ := ebike
  have off : (0 : ℝ) ≤ 0.0 := by norm_num
  refine ⟨gains_nonneg ?_, gain (by decide) maxRatio, gain (by decide) torqueRatio, nonneg (by decide) minCadence,
    positive (by decide) riseTime, positive (by decide) fallTime⟩
  show ∀ gain ∈ [(0.0 : ℝ), s.real .ebikeGain1, s.real .ebikeGain2, s.real .ebikeGain3, s.real .ebikeGain4,
    s.real .ebikeGain5, s.real .ebikeGain5, s.real .ebikeGain5], 0 ≤ gain
  simp only [List.forall_mem_cons]
  exact ⟨off, gain (by decide) gain1, gain (by decide) gain2, gain (by decide) gain3, gain (by decide) gain4,
    gain (by decide) gain5, gain (by decide) gain5, gain (by decide) gain5, by simp⟩

end AssistConfig

namespace AssistController

theorem magnitude_nonneg (speed : ℝ) : 0 ≤ if speed < Scalar.zero then -speed else speed := by
  rw [Scalar.zero_exact]
  split_ifs with backward
  · exact (neg_pos.mpr backward).le
  · exact not_lt.mp backward

section Step

variable {config : AssistConfig ℝ} (sound : config.Sound) (input : AssistInput ℝ)
include sound

theorem target_bounds :
    0 ≤ (target Real.exp input config).2 ∧ (target Real.exp input config).2 ≤ max input.torqueLimit 0 := by
  have magnitude := magnitude_nonneg input.motorSpeed
  unfold target
  dsimp only
  generalize (if input.motorSpeed < Scalar.zero then -input.motorSpeed else input.motorSpeed) = motor at magnitude ⊢
  split
  · rw [Scalar.zero_exact]
    exact ⟨le_rfl, le_max_right ..⟩
  · rename_i on
    simp only [Bool.or_eq_true, decide_eq_true_eq, not_or, not_le, not_lt, Scalar.zero_exact] at on
    obtain ⟨⟨⟨⟨-, cadence⟩, driving⟩, -⟩, limit⟩ := on
    have turning : 0 ≤ input.cadence := sound.minCadence.trans cadence
    have gain := sound.gains (min input.level.toNat (assistLevels - 1))
    have speedRatio : 0 ≤ if input.cadence < motor * config.torqueRatio then input.cadence / motor
        else config.torqueRatio := by
      split_ifs
      · exact div_nonneg turning magnitude
      · exact sound.torqueRatio
    have fade (x : ℝ) : 0 ≤ Scalar.clamp x Scalar.zero 1.0 := by
      rw [Scalar.clamp_exact, Scalar.zero_exact]
      exact le_min (le_max_right ..) (by norm_num)
    simp only [Scalar.min_exact, Scalar.zero_exact] at fade ⊢
    refine ⟨le_min (mul_nonneg (mul_nonneg (mul_nonneg driving.le ?_) speedRatio) (fade _)) limit.le,
      (min_le_right ..).trans (le_max_left ..)⟩
    exact le_min (mul_nonneg (Real.exp_nonneg _) gain) sound.maxRatio

omit sound in
theorem step_torque (dt : ℝ) (assist : AssistController ℝ) :
    (assist.step Real.exp dt input).torque =
      let target := (target Real.exp input assist.config).2
      let limit := max input.torqueLimit 0
      if assist.torque < target then min (assist.torque + limit * (dt / assist.config.riseTime)) target
      else max (assist.torque - max limit assist.torque * (dt / assist.config.fallTime)) target := by
  unfold step
  simp only [Scalar.max_exact, Scalar.min_exact, Scalar.zero_exact]

variable {dt : ℝ} (forward : 0 ≤ dt) {assist : AssistController ℝ} (same : assist.config = config)
  (nonneg : 0 ≤ assist.torque)
include forward same nonneg

theorem step_bounds :
    0 ≤ (assist.step Real.exp dt input).torque ∧
      (assist.step Real.exp dt input).torque ≤ max assist.torque (max input.torqueLimit 0) ∧
      (assist.step Real.exp dt input).torque ≤ assist.torque + max input.torqueLimit 0 * (dt / config.riseTime) := by
  subst same
  obtain ⟨least, most⟩ := target_bounds sound input
  have limit : 0 ≤ max input.torqueLimit 0 := le_max_right ..
  have up : 0 ≤ max input.torqueLimit 0 * (dt / assist.config.riseTime) :=
    mul_nonneg limit (div_nonneg forward sound.riseTime.le)
  have down : 0 ≤ max (max input.torqueLimit 0) assist.torque * (dt / assist.config.fallTime) :=
    mul_nonneg (limit.trans (le_max_left ..)) (div_nonneg forward sound.fallTime.le)
  rw [step_torque]
  dsimp only
  split_ifs with below
  · exact ⟨le_min (add_nonneg nonneg up) least, ((min_le_right ..).trans most).trans (le_max_right ..),
      min_le_left ..⟩
  · have lower : max (assist.torque - max (max input.torqueLimit 0) assist.torque * (dt / assist.config.fallTime))
        (target Real.exp input assist.config).2 ≤ assist.torque :=
      max_le (sub_le_self _ down) (not_lt.mp below)
    exact ⟨least.trans (le_max_right ..), lower.trans (le_max_left ..), lower.trans (le_add_of_nonneg_right up)⟩

omit sound forward in
theorem step_release (dt : ℝ) (zero : (target Real.exp input config).2 = 0) :
    (assist.step Real.exp dt input).torque =
      max (assist.torque - max (max input.torqueLimit 0) assist.torque * (dt / config.fallTime)) 0 := by
  subst same
  rw [step_torque]
  dsimp only
  rw [zero, if_neg (not_lt.mpr nonneg)]

end Step

/-! ### Runs -/

/-- The law over its steps; no time runs backward. -/
noncomputable def ramp (config : AssistConfig ℝ) : Runs.Machine (AssistController ℝ) AssistStep where
  start := .create config
  next assist event := assist.step Real.exp event.dt event.input
  admits _ event := 0 ≤ event.dt

/-- The largest of the limits seen so far, of which a negative one is zero. -/
noncomputable def largestLimit : List AssistStep → ℝ
  | [] => 0
  | event :: past => max event.input.torqueLimit (largestLimit past)

/-- A time in which the target is zero: the torque it began with, and how long it has lasted. -/
structure Release where
  begun : ℝ
  elapsed : ℝ

noncomputable def release (config : AssistConfig ℝ) : List AssistStep → Option Release
  | [] => none
  | event :: past =>
    open Classical in
    if (target Real.exp event.input config).2 = 0 then
      match release config past with
      | some begun => some { begun with elapsed := begun.elapsed + event.dt }
      | none => some ⟨((ramp config).replay past).torque, event.dt⟩
    else none

/-- The bounds of the torque in a state that a run reaches. -/
structure Bounded (config : AssistConfig ℝ) (trace : List AssistStep) : Prop where
  nonneg : 0 ≤ ((ramp config).replay trace).torque
  within : ((ramp config).replay trace).torque ≤ largestLimit trace
  rises : ∀ event past, trace = event :: past → ((ramp config).replay trace).torque ≤
    ((ramp config).replay past).torque + max event.input.torqueLimit 0 * (event.dt / config.riseTime)

/-- The bounds, and the end of a release after the fall time. -/
structure Ramped (config : AssistConfig ℝ) (trace : List AssistStep) : Prop extends Bounded config trace where
  releases : ∀ begun, release config trace = some begun → config.fallTime ≤ begun.elapsed →
    ((ramp config).replay trace).torque = 0

/-- The slope of the release is still that of its begin: by the limit, by a torque that has not
fallen yet, or because there is nothing left to release. -/
def OnSlope (config : AssistConfig ℝ) (event : AssistStep) (past : List AssistStep) : Prop :=
  ∀ begun, release config past = some begun → (target Real.exp event.input config).2 = 0 →
    begun.begun ≤ event.input.torqueLimit ∨ begun.begun ≤ ((ramp config).replay past).torque ∨
      ((ramp config).replay past).torque = 0

/-- The torque keeps between zero and the largest limit. -/
structure Held (config : AssistConfig ℝ) (assist : AssistController ℝ) (trace : List AssistStep) : Prop where
  tuned : assist.config = config
  nonneg : 0 ≤ assist.torque
  within : assist.torque ≤ largestLimit trace

/-- The torque of a release lies below the line that ends at the fall time. -/
structure Falling (config : AssistConfig ℝ) (assist : AssistController ℝ) (trace : List AssistStep) : Prop
    extends Held config assist trace where
  slope : ∀ begun, release config trace = some begun → 0 ≤ begun.begun ∧
    assist.torque ≤ max (begun.begun - begun.begun * (begun.elapsed / config.fallTime)) 0

theorem largestLimit_nonneg : ∀ trace, 0 ≤ largestLimit trace
  | [] => le_rfl
  | _ :: past => (largestLimit_nonneg past).trans (le_max_right ..)

/-- One step at the slope of the begin or steeper keeps below the line. -/
theorem below_line {torque begun elapsed share slope : ℝ} (positive : 0 ≤ begun) (forward : 0 ≤ share)
    (below : torque ≤ max (begun - begun * elapsed) 0) (steep : begun ≤ slope) :
    max (torque - slope * share) 0 ≤ max (begun - begun * (elapsed + share)) 0 := by
  have fallen := mul_le_mul_of_nonneg_right steep forward
  have promised := mul_nonneg positive forward
  refine max_le ?_ (le_max_right ..)
  rcases le_total (begun - begun * elapsed) 0 with spent | left
  · rw [max_eq_right spent] at below
    exact le_max_of_le_right (by linarith)
  · rw [max_eq_left left] at below
    exact le_max_of_le_left (by linarith)

section Runs

variable {config : AssistConfig ℝ} (sound : config.Sound)
include sound

theorem held_next {event : AssistStep} {past : List AssistStep}
    (held : Held config ((ramp config).replay past) past) (forward : 0 ≤ event.dt) :
    Held config ((ramp config).next ((ramp config).replay past) event) (event :: past) := by
  obtain ⟨nonneg, within, -⟩ := step_bounds sound event.input forward held.tuned held.nonneg
  refine ⟨held.tuned, nonneg, within.trans ?_⟩
  refine max_le (held.within.trans (le_max_right ..)) (max_le (le_max_left ..) ?_)
  exact (largestLimit_nonneg past).trans (le_max_right ..)

theorem falling_next {event : AssistStep} {past : List AssistStep}
    (falling : Falling config ((ramp config).replay past) past) (forward : 0 ≤ event.dt)
    (onSlope : OnSlope config event past) :
    Falling config ((ramp config).next ((ramp config).replay past) event) (event :: past) := by
  refine ⟨held_next sound falling.toHeld forward, fun begun found => ?_⟩
  unfold release at found
  split_ifs at found with zero
  have released := step_release event.input falling.tuned falling.nonneg event.dt zero
  have share : 0 ≤ event.dt / config.fallTime := div_nonneg forward sound.fallTime.le
  change _ ∧ (((ramp config).replay past).step Real.exp event.dt event.input).torque ≤ _
  rw [released]
  cases before : release config past with
  | none =>
    rw [before] at found
    cases found
    refine ⟨falling.nonneg, max_le_max_right 0 (sub_le_sub_left ?_ _)⟩
    exact mul_le_mul_of_nonneg_right (le_max_right ..) share
  | some earlier =>
    rw [before] at found
    cases found
    obtain ⟨positive, slope⟩ := falling.slope earlier before
    refine ⟨positive, ?_⟩
    dsimp only
    rw [add_div]
    rcases onSlope earlier before zero with limit | high | ended
    · exact below_line positive share slope ((limit.trans (le_max_left ..)).trans (le_max_left ..))
    · exact below_line positive share slope (high.trans (le_max_right ..))
    · have down : 0 ≤ max (max event.input.torqueLimit 0) ((ramp config).replay past).torque *
          (event.dt / config.fallTime) :=
        mul_nonneg ((le_max_right _ _).trans (le_max_left ..)) share
      refine max_le ?_ (le_max_right ..)
      exact le_max_of_le_right (by linarith)

omit sound in
theorem ramp_config (trace : List AssistStep) : ((ramp config).replay trace).config = config :=
  Runs.Machine.stays (fun assist : AssistController ℝ => assist.config = config) rfl (fun _ _ kept => kept) trace

theorem ramp_held : ∀ trace, (ramp config).Legal trace → Held config ((ramp config).replay trace) trace := by
  have zero : (Scalar.zero : ℝ) = 0 := Scalar.zero_exact
  refine Runs.Machine.invariant (Held config) ⟨rfl, zero.ge, zero.le⟩ ?_
  exact fun event past held forward => held_next sound held forward

theorem ramp_falling : ∀ trace, (ramp config).Legal trace → Runs.Throughout (OnSlope config) trace →
    Falling config ((ramp config).replay trace) trace := by
  refine Runs.Machine.invariant_under (OnSlope config) (Falling config) ?_ ?_
  · exact ⟨ramp_held sound [] trivial, fun begun found => by cases found⟩
  · exact fun event past falling forward onSlope => falling_next sound falling forward onSlope

theorem ramp_bounded (trace : List AssistStep) (legal : (ramp config).Legal trace) : Bounded config trace := by
  have held := ramp_held sound trace legal
  refine ⟨held.nonneg, held.within, ?_⟩
  rintro event past rfl
  have before := ramp_held sound past legal.2
  exact (step_bounds sound _ legal.1 before.tuned before.nonneg).2.2

/-- Over every run the torque keeps its bounds, and it is zero once a release has lasted the fall time,
when the slope of each release stays that of its begin. -/
theorem assist_ramps (trace : List AssistStep) (legal : (ramp config).Legal trace) :
    Bounded config trace ∧ (Runs.Throughout (OnSlope config) trace → Ramped config trace) := by
  have bounded := ramp_bounded sound trace legal
  refine ⟨bounded, fun onSlope => ⟨bounded, fun begun found spent => ?_⟩⟩
  obtain ⟨positive, slope⟩ := (ramp_falling sound trace legal onSlope).slope begun found
  have whole : 1 ≤ begun.elapsed / config.fallTime := (one_le_div sound.fallTime).mpr spent
  have under : begun.begun - begun.begun * (begun.elapsed / config.fallTime) ≤ 0 :=
    sub_nonpos.mpr (le_mul_of_one_le_right positive whole)
  exact le_antisymm (slope.trans (max_le under le_rfl)) bounded.nonneg

end Runs

section Bench

noncomputable def pushing : AssistStep := ⟨0.02, ⟨true, 10.0, 52, 0, 100.0, 25, 3⟩⟩

noncomputable def derated : AssistStep := ⟨0.02, { pushing.input with torqueLimit := 0 }⟩

noncomputable def stopped : AssistStep := ⟨0.15, { pushing.input with pedaling := false }⟩

theorem pushing_target : (target Real.exp pushing.input AssistConfig.default).2 = 25 := by
  have boost : 1 ≤ Real.exp (5 / 3) := Real.one_le_exp (by norm_num)
  have level : min (3 : UInt8).toNat (assistLevels - 1) = 3 := by decide
  unfold target pushing AssistConfig.default maxExponent
  simp only [Scalar.min_exact, Scalar.clamp_exact, Scalar.zero_exact, level]
  norm_num
  have ratio : 1 ≤ min (Real.exp (5 / 3)) 4 := le_min boost (by norm_num)
  linarith

theorem derated_target (config : AssistConfig ℝ) : (target Real.exp derated.input config).2 = 0 := by
  unfold target
  dsimp only
  rw [if_pos (by simp [derated, Scalar.zero_exact])]
  exact Scalar.zero_exact

theorem pushing_torque : ((ramp .default).replay [pushing]).torque = 1 := by
  show ((AssistController.create .default).step Real.exp pushing.dt pushing.input).torque = 1
  have fresh : (create (.default : AssistConfig ℝ)).torque = 0 := Scalar.zero_exact
  have tuned : (create (.default : AssistConfig ℝ)).config = .default := rfl
  rw [step_torque]
  simp only [tuned, fresh, pushing_target]
  norm_num [pushing, AssistConfig.default]

theorem derated_torque (n : Nat) :
    ((ramp .default).replay (List.replicate n derated ++ [pushing])).torque = (13 / 15) ^ n := by
  induction n with
  | zero => exact pushing_torque.trans (pow_zero _).symm
  | succ n ih =>
    have power : (0 : ℝ) ≤ (13 / 15) ^ n := by positivity
    have next := step_release derated.input (ramp_config (List.replicate n derated ++ [pushing]))
      (ih ▸ power) derated.dt (derated_target .default)
    rw [ih] at next
    refine next.trans ?_
    have limit : derated.input.torqueLimit = 0 := rfl
    have share : derated.dt / (AssistConfig.default : AssistConfig ℝ).fallTime = 2 / 15 := by
      norm_num [derated, AssistConfig.default]
    rw [limit, share, max_self, max_eq_right power, pow_succ, max_eq_left (by linarith)]
    ring

theorem pushing_release : release .default [pushing] = none := by
  unfold release
  rw [if_neg (by rw [pushing_target]; norm_num)]

theorem derated_release (n : Nat) :
    release .default (List.replicate (n + 1) derated ++ [pushing]) = some ⟨1, (n + 1) * 0.02⟩ := by
  induction n with
  | zero =>
    show release .default [derated, pushing] = _
    rw [release, if_pos (derated_target .default), pushing_release]
    dsimp only
    rw [pushing_torque]
    norm_num [derated]
  | succ n ih =>
    rw [List.replicate_succ, List.cons_append, release, if_pos (derated_target .default), ih]
    norm_num [derated]
    ring

/-- Eight steps of 20 ms without a torque limit, in a fall time of 150 ms, leave a third of the torque. -/
theorem assist_lingers : (ramp .default).Legal (List.replicate 8 derated ++ [pushing]) ∧
    ((ramp .default).replay (List.replicate 8 derated ++ [pushing])).torque = (13 / 15) ^ 8 ∧
    ¬Ramped .default (List.replicate 8 derated ++ [pushing]) := by
  refine ⟨?_, derated_torque 8, fun ramped => ?_⟩
  · have pushed : 0 ≤ pushing.dt := by norm_num [pushing]
    have held : 0 ≤ derated.dt := by norm_num [derated]
    exact ⟨held, held, held, held, held, held, held, held, pushed, trivial⟩
  · have ended := ramped.releases _ (derated_release 7) (by norm_num [AssistConfig.default])
    rw [derated_torque 8] at ended
    norm_num at ended

theorem assist_ramps_stopped : Ramped .default [stopped, pushing] := by
  have pushed : 0 ≤ pushing.dt := by norm_num [pushing]
  have still : 0 ≤ stopped.dt := by norm_num [stopped]
  refine (assist_ramps AssistConfig.default_sound [stopped, pushing] ⟨still, pushed, trivial⟩).2 ?_
  simp only [Runs.throughout_cons, Runs.throughout_nil, and_true]
  constructor
  · intro begun found
    rw [pushing_release] at found
    cases found
  · intro begun found
    cases found

end Bench

end AssistController

end Unimoc.Ebike
