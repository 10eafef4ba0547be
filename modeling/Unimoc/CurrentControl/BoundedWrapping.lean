import Unimoc.CurrentControl.BoundedAngles
import Unimoc.CurrentControl.SlowUpdate
import Unimoc.CurrentControl.WellDefined

/-! How far from zero the angles are that the observer interrupt wraps, over its runs. -/
namespace Unimoc.CurrentControl

open Settings MechanicalObserver

/-- The settings keep the sector boundaries and a cycle at the guard speed within reach. -/
structure KeepsReach (s : NvmSettings) : Prop where
  noise : 0 ≤ (s.real .mechObsQ : ℝ)
  offset : s.natural8 .hallEnable ≠ 0 → -(8 * twoPi) ≤ (s.real .hallOffset : ℝ) ∧
    (s.real .hallOffset : ℝ) + 5 * HallFusion.sectorWidth ≤ 8 * twoPi
  speed : speedGuard s * dtSlowFromPwmFrequency (s.real .pwmFrequency) ≤ 7.5 * twoPi

theorem sectorWidth_eq : (HallFusion.sectorWidth : ℝ) = pi / 3 := by
  unfold HallFusion.sectorWidth
  norm_num

theorem sectorWidth_pos : 0 < (HallFusion.sectorWidth : ℝ) := by
  rw [sectorWidth_eq]
  exact div_pos pi_pos three_pos

theorem Principal.magnitude {angle : ℝ} (principal : Principal angle) : |angle| ≤ pi :=
  abs_le.mpr ⟨principal.above.le, principal.below⟩

namespace PmsmFluxObserver

/-- The flux across the estimate after the next step. -/
noncomputable def quadrature (uDq iDq : Rotor ℝ) (dt : ℝ) (obs : MechanicalObserver ℝ)
    (flux : PmsmFluxObserver ℝ) : ℝ :=
  flux.psiBeta * obs.cosTheta - flux.psiAlpha * obs.sinTheta +
    (uDq.q - flux.rs * iDq.q + flux.fbQ) * dt - flux.lQ * iDq.q

theorem calculate_error {obs : MechanicalObserver ℝ}
    (circle : obs.sinTheta * obs.sinTheta + obs.cosTheta * obs.cosTheta = 1)
    (uDq iDq setFlux : Rotor ℝ) (dt : ℝ) (flux : PmsmFluxObserver ℝ) :
    (flux.calculate uDq iDq setFlux dt obs).1 =
      if 0 < setFlux.d then some (flux.quadrature uDq iDq dt obs / setFlux.d) else none := by
  have rotated (d q : ℝ) :
      -(flux.psiAlpha + (d * obs.cosTheta - q * obs.sinTheta) * dt) * obs.sinTheta +
          (flux.psiBeta + (d * obs.sinTheta + q * obs.cosTheta) * dt) * obs.cosTheta =
        flux.psiBeta * obs.cosTheta - flux.psiAlpha * obs.sinTheta + q * dt := by
    linear_combination q * dt * circle
  have zero : (Scalar.zero : ℝ) = 0 := by norm_num [Scalar.zero]
  simp only [calculate, rotated, quadrature, zero]
  by_cases positive : 0 < setFlux.d
  · simp [positive]
  · simp [positive]

/-- No flux across the estimate is larger, whatever its angle. -/
noncomputable def fluxSize (uDq iDq : Rotor ℝ) (dt : ℝ) (flux : PmsmFluxObserver ℝ) : ℝ :=
  Real.sqrt (flux.psiAlpha ^ 2 + flux.psiBeta ^ 2) +
    (|uDq.q| + |flux.rs * iDq.q| + |flux.fbQ|) * dt + |flux.lQ * iDq.q|

theorem quadrature_le {obs : MechanicalObserver ℝ}
    (circle : obs.sinTheta * obs.sinTheta + obs.cosTheta * obs.cosTheta = 1) {dt : ℝ} (forward : 0 ≤ dt)
    (uDq iDq : Rotor ℝ) (flux : PmsmFluxObserver ℝ) :
    |flux.quadrature uDq iDq dt obs| ≤ flux.fluxSize uDq iDq dt := by
  have turned : |flux.psiBeta * obs.cosTheta - flux.psiAlpha * obs.sinTheta| ≤
      Real.sqrt (flux.psiAlpha ^ 2 + flux.psiBeta ^ 2) := by
    refine Real.abs_le_sqrt ?_
    have square := sq_nonneg (flux.psiAlpha * obs.cosTheta + flux.psiBeta * obs.sinTheta)
    linear_combination square + (flux.psiAlpha ^ 2 + flux.psiBeta ^ 2) * circle
  have driven : |(uDq.q - flux.rs * iDq.q + flux.fbQ) * dt| ≤ (|uDq.q| + |flux.rs * iDq.q| + |flux.fbQ|) * dt := by
    rw [abs_mul, abs_of_nonneg forward]
    refine mul_le_mul_of_nonneg_right ?_ forward
    exact (abs_add_le _ _).trans (add_le_add (abs_sub _ _) le_rfl)
  unfold quadrature fluxSize
  exact (abs_sub _ _).trans (add_le_add ((abs_add_le _ _).trans (add_le_add turned driven)) le_rfl)

end PmsmFluxObserver

namespace HallFusion

variable {s : NvmSettings} {hall : HallFusion ℝ}

structure Mounted (s : NvmSettings) (hall : HallFusion ℝ) : Prop where
  enabled : hall.enabled = decide (s.natural8 .hallEnable ≠ 0)
  offset : hall.offset = s.real .hallOffset
  rEdge : hall.rEdge = s.real .hallREdge
  rSector : hall.rSector = s.real .hallRSector

theorem ofInt32_nonneg {ticks : Int32} (forward : 0 < ticks) : (0 : ℝ) ≤ ofInt32 ticks := by
  have after : ¬ticks < 0 := Int32.lt_asymm forward
  unfold ofInt32
  rw [if_neg after]
  exact Nat.cast_nonneg _

theorem speed_excess {limit speed : ℝ} (nonneg : 0 ≤ limit)
    (outside : limit < speed ∨ speed < -limit) :
    limit < |speed| ∧
      |(if Scalar.zero < speed then limit else -limit) - speed| = |speed| - limit := by
  have zero : (Scalar.zero : ℝ) = 0 := by norm_num [Scalar.zero]
  rw [zero]
  rcases outside with above | below
  · have forward : 0 < speed := by linarith
    rw [if_pos forward, abs_of_pos forward, abs_of_neg (by linarith)]
    exact ⟨above, by ring⟩
  · have backward : speed < 0 := by linarith
    rw [if_neg backward.not_gt, abs_of_neg backward, abs_of_pos (by linarith)]
    exact ⟨by linarith, by ring⟩

/-- Ticks since a change, as many as the speed bound takes. -/
def agedTicks (reference change : UInt32) : Int32 :=
  if maxAgeTicks < ticksSince change reference then maxAgeTicks else ticksSince change reference

theorem agedChange_ticks (reference : UInt32) (hall : HallFusion ℝ) :
    ticksSince (hall.agedChange reference).lastChange reference = agedTicks reference hall.lastChange := by
  have back : reference - (reference - maxAgeTicks.toUInt32) = maxAgeTicks.toUInt32 := by grind
  unfold agedChange agedTicks
  split
  · unfold ticksSince
    rw [back]
    rfl
  · rfl

/-- The speed bound that a change gives turns the angle by so many half revolutions at most. -/
def SpeedWithin (s : NvmSettings) (reference : UInt32) (tickPeriod : ℝ) (halves : Nat)
    (obs : MechanicalObserver ℝ) (change : UInt32) : Prop :=
  let ticks := agedTicks reference change
  let sinceChange := tickPeriod * ofInt32 ticks
  0 < ticks → obs.TurnsWithin (sectorWidth / sinceChange * 2.0)
    (s.real .hallRSector / (sinceChange * sinceChange)) halves

theorem sectorStart_yields (reach : KeepsReach s) (mounted : Mounted s hall)
    (enabled : s.natural8 .hallEnable ≠ 0) (sector : Fin 6) :
    Yields Principal (hall.sectorStart wrapWithin sector) := by
  obtain ⟨lower, upper⟩ := reach.offset enabled
  have width := sectorWidth_eq
  have positive := pi_pos
  have index : (Scalar.ofUInt64 (UInt64.ofNat sector.val) : ℝ) = (sector.val : ℝ) := by
    show ((UInt64.ofNat sector.val).toNat : ℝ) = sector.val
    rw [UInt64.toNat_ofNat_of_lt' (sector.isLt.trans (by decide))]
  have first : (0 : ℝ) ≤ sector.val := Nat.cast_nonneg _
  have last : (sector.val : ℝ) ≤ 5 := by exact_mod_cast Nat.le_of_lt_succ sector.isLt
  refine wrapWithin_yields ?_
  rw [index, mounted.offset, abs_le]
  constructor <;> nlinarith

theorem edgeAngle_yields (reach : KeepsReach s) (mounted : Mounted s hall)
    (enabled : s.natural8 .hallEnable ≠ 0) (previous code : UInt8) :
    Yields (fun edge => ∀ angle, edge = some angle → Principal angle)
      (hall.edgeAngle wrapWithin previous code) := by
  have start (sector : Fin 6) : Yields (fun edge => ∀ angle, edge = some angle → Principal angle)
      (some <$> hall.sectorStart wrapWithin sector) :=
    (sectorStart_yields reach mounted enabled sector).map fun start principal angle found =>
      Option.some.inj found ▸ principal
  have missed : Yields (fun edge => ∀ angle, edge = some angle → Principal angle)
      (pure (f := Option) (none : Option ℝ)) := Yields.pure fun angle found => by cases found
  unfold edgeAngle
  cases sector previous with
  | none => exact missed
  | some source =>
    cases sector code with
    | none => exact missed
    | some target =>
      refine Yields.ite (fun _ => start target) fun _ => ?_
      exact Yields.ite (fun _ => start source) fun _ => missed

theorem sectorInnovation_yields (reach : KeepsReach s) (mounted : Mounted s hall)
    (enabled : s.natural8 .hallEnable ≠ 0) (sector : Fin 6) {estimate : ℝ} (near : |estimate| ≤ pi) :
    Yields (fun innovation => |innovation| ≤ pi) (hall.sectorInnovation wrapWithin sector estimate) := by
  have width := sectorWidth_eq
  have positive := pi_pos
  have revolution := twoPi_eq
  obtain ⟨low, high⟩ := abs_le.mp near
  unfold sectorInnovation
  refine (sectorStart_yields reach mounted enabled sector).bind fun start principal => ?_
  have above := principal.above
  have below := principal.below
  refine (wrapWithin_yields ?_).bind fun deviation wrapped => Yields.pure ?_
  · rw [abs_le]
    norm_num
    constructor <;> linarith
  · have least := wrapped.above
    have most := wrapped.below
    rw [abs_le]
    norm_num [Scalar.zero]
    constructor <;> split_ifs <;> linarith

structure Steady (s : NvmSettings) (hall : HallFusion ℝ) (obs : MechanicalObserver ℝ) : Prop where
  mounted : Mounted s hall
  tracked : Tracked s obs

/-- The cycle's changes bound the speed, with so many half revolutions at most. -/
structure Bounding (s : NvmSettings) (changes : List UInt32) (reference : UInt32) (tickPeriod : ℝ)
    (halves : Nat) (hall : HallFusion ℝ) (obs : MechanicalObserver ℝ) : Prop extends Steady s hall obs where
  changed : hall.lastChange ∈ changes
  turns : ∀ change ∈ changes, SpeedWithin s reference tickPeriod halves obs change

variable {obs : MechanicalObserver ℝ} (accepted : Accepted Binary32 s) (reach : KeepsReach s)
  (enabled : s.natural8 .hallEnable ≠ 0) {changes : List UInt32} {reference : UInt32} {tickPeriod : ℝ}
include accepted

theorem spread_nonneg (sinceChange : ℝ) :
    0 ≤ (s.real .hallRSector : ℝ) / (sinceChange * sinceChange) :=
  div_nonneg (accepted.real_positive (by decide)).le (mul_self_nonneg sinceChange)

theorem speedWithin_mono {halves more : Nat} (tracked : Tracked s obs) (fewer : halves ≤ more) {change : UInt32}
    (within : SpeedWithin s reference tickPeriod halves obs change) :
    SpeedWithin s reference tickPeriod more obs change := fun later =>
  (within later).mono tracked.covariance (spread_nonneg accepted _) fewer

theorem updateAngle_yields {innovation noise : ℝ} {halves : Nat} (tracked : Tracked s obs)
    (noise_nonneg : 0 ≤ noise) (near : |innovation| ≤ 8 * twoPi)
    (turns : ∀ change ∈ changes, SpeedWithin s reference tickPeriod halves obs change) :
    Yields (fun next => Tracked s next ∧
        ∀ change ∈ changes, SpeedWithin s reference tickPeriod (halves + 1) next change)
      (obs.updateAngle wrapWithin innovation noise) := by
  refine (tracked.updateAngle accepted noise_nonneg near).mono fun next moved => ?_
  obtain ⟨kept, wrapped, half, corrects⟩ := moved
  exact ⟨kept, fun change listed later => TurnsWithin.measured tracked.covariance noise_nonneg
    (spread_nonneg accepted _) half corrects (turns change listed later)⟩

include reach enabled

theorem fuseEvent_yields {now : Progress ℝ} {event : HallEvent} {halves : Nat}
    (steady : Bounding s changes reference tickPeriod halves now.hall now.obs)
    (listed : event.timestamp ∈ changes)
    (recent : speedGuard s * |tickPeriod * ofInt32 (ticksSince event.timestamp reference)| ≤ 7 * twoPi) :
    Yields (fun next => Bounding s changes reference tickPeriod (halves + 1) next.hall next.obs)
      (fuseEvent wrapWithin reference tickPeriod now event) := by
  obtain ⟨⟨mounted, tracked⟩, changed, turns⟩ := steady
  have more (change : UInt32) (here : change ∈ changes) :
      SpeedWithin s reference tickPeriod (halves + 1) now.obs change :=
    speedWithin_mono accepted tracked (Nat.le_succ halves) (turns change here)
  unfold fuseEvent
  refine Yields.ite (fun _ => Yields.pure ⟨⟨mounted, tracked⟩, changed, more⟩) fun _ => ?_
  refine Yields.bind (p := fun fused => Mounted s fused.1 ∧ Tracked s fused.2 ∧
      ∀ change ∈ changes, SpeedWithin s reference tickPeriod (halves + 1) fused.2 change) ?_
    fun fused found => Yields.pure ⟨⟨{ found.1 with }, found.2.1⟩, listed, found.2.2⟩
  refine Yields.ite (fun _ => Yields.pure ⟨{ mounted with }, tracked, more⟩) fun _ => ?_
  refine (edgeAngle_yields reach mounted enabled _ _).bind fun edge boundary => ?_
  cases edge with
  | none => exact Yields.ite (fun _ => Yields.pure ⟨{ mounted with }, tracked, more⟩) fun _ =>
      Yields.pure ⟨mounted, tracked, more⟩
  | some edge =>
    have near := (boundary edge rfl).magnitude
    have turned : |now.obs.omega * (tickPeriod * ofInt32 (ticksSince event.timestamp reference))| ≤
        7 * twoPi := by
      rw [abs_mul]
      exact (mul_le_mul_of_nonneg_right tracked.speed (abs_nonneg _)).trans recent
    have revolution := twoPi_eq
    have innovation_near := (abs_sub _ _).trans
      (add_le_add ((abs_add_le edge _).trans (add_le_add near turned)) tracked.theta_le)
    refine (wrapWithin_yields (innovation_near.trans (by linarith))).bind fun innovation wrapped => ?_
    refine (updateAngle_yields accepted tracked ?_ (wrapped.magnitude.trans ?_) turns).bind fun obs moved =>
      Yields.pure ⟨{ mounted with }, moved⟩
    · rw [mounted.rEdge]
      exact (accepted.real_positive (by decide)).le
    · linarith [pi_pos]

theorem fuseSector_yields {halves : Nat} (steady : Bounding s changes reference tickPeriod halves hall obs)
    (sector : Fin 6) :
    Yields (fun fused => Bounding s changes reference tickPeriod (halves + 1) fused.1 fused.2)
      (fuseSector wrapWithin sector hall obs) := by
  obtain ⟨⟨mounted, tracked⟩, changed, turns⟩ := steady
  have positive := pi_pos
  have revolution := twoPi_eq
  have width := sectorWidth_eq
  unfold fuseSector
  refine (sectorInnovation_yields reach mounted enabled sector tracked.theta_le).bind
    fun innovation near => ?_
  refine Yields.bind (p := fun fused => Tracked s fused ∧
      ∀ change ∈ changes, SpeedWithin s reference tickPeriod (halves + 1) fused change) ?_
    fun fused moved => Yields.pure ⟨⟨{ mounted with }, moved.1⟩, changed, moved.2⟩
  refine Yields.ite (fun _ => ?_) fun _ => Yields.ite (fun _ => ?_) fun _ => Yields.pure ⟨tracked, ?_⟩
  · refine (sectorStart_yields reach mounted enabled sector).bind fun start principal => ?_
    have above := principal.above
    have below := principal.below
    refine (wrapWithin_yields ?_).bind fun centre middle => Yields.pure ⟨?_, fun change _ _ => ?_⟩
    · rw [abs_le]
      norm_num
      constructor <;> linarith
    · exact tracked.toConfigured.reset middle tracked.slowest tracked.fastest
    · exact reset_turns (spread_nonneg accepted _) _
  · refine updateAngle_yields accepted tracked ?_ (near.trans (by linarith)) turns
    rw [mounted.rSector]
    exact (accepted.real_positive (by decide)).le
  · exact fun change listed => speedWithin_mono accepted tracked (Nat.le_succ halves) (turns change listed)

omit reach enabled in
theorem fuseSpeed_yields (forward : 0 ≤ tickPeriod)
    (steady : Bounding s changes reference tickPeriod 15 hall obs) :
    Yields (fun fused => Steady s fused.1 fused.2)
      (fuseSpeed wrapWithin reference tickPeriod hall obs) := by
  obtain ⟨⟨mounted, tracked⟩, changed, turns⟩ := steady
  have aged : Mounted s (hall.agedChange reference) := by
    unfold agedChange
    split
    · exact { mounted with }
    · exact mounted
  have within := turns _ changed
  unfold SpeedWithin at within
  unfold fuseSpeed
  simp only [agedChange_ticks, aged.rSector]
  refine Yields.ite (fun _ => Yields.pure ⟨aged, tracked⟩) fun after => ?_
  have later : 0 < agedTicks reference hall.lastChange := Int32.not_le.mp after
  have bounded := within later
  have since_nonneg := mul_nonneg forward (ofInt32_nonneg later)
  generalize tickPeriod * ofInt32 _ = since at since_nonneg bounded ⊢
  have limit_nonneg : (0 : ℝ) ≤ sectorWidth / since * 2.0 :=
    mul_nonneg (div_nonneg sectorWidth_pos.le since_nonneg) (by norm_num)
  generalize sectorWidth / since * 2.0 = limit at limit_nonneg bounded ⊢
  refine Yields.bind (p := Tracked s) ?_ fun fused moved => Yields.pure ⟨aged, ?_⟩
  · refine Yields.ite (fun outside => ?_) fun _ => Yields.pure tracked
    refine tracked.updateSpeed accepted (spread_nonneg accepted since) ?_
    obtain ⟨-, excess⟩ := speed_excess limit_nonneg (by simpa using outside)
    have fifteen : ((15 : Nat) : ℝ) * pi = 7.5 * twoPi := by
      rw [twoPi_eq]
      push_cast
      ring
    rw [excess, ← fifteen]
    exact bounded
  · split
    · exact moved.holdStill accepted
    · exact moved

/-- What the Hall sensors bring in a cycle keeps the angles within reach. -/
structure EventsWithin (s : NvmSettings) (events : List HallEvent) (reference : UInt32)
    (tickPeriod : ℝ) (halves : Nat) (hall : HallFusion ℝ) (obs : MechanicalObserver ℝ) : Prop where
  few : events.length ≤ 8
  recent : ∀ event ∈ events,
    speedGuard s * |tickPeriod * ofInt32 (ticksSince event.timestamp reference)| ≤ 7 * twoPi
  speed : ∀ change ∈ hall.lastChange :: events.map HallEvent.timestamp,
    SpeedWithin s reference tickPeriod halves obs change

theorem update_yields {events : List HallEvent} (forward : 0 ≤ tickPeriod) (steady : Steady s hall obs)
    (within : EventsWithin s events reference tickPeriod 6 hall obs) :
    Yields (fun fused => Steady s fused.1 fused.2)
      (hall.update wrapWithin events reference tickPeriod obs) := by
  let changes := hall.lastChange :: events.map HallEvent.timestamp
  let counted (halves : Nat) (now : Progress ℝ) :=
    Bounding s changes reference tickPeriod halves now.hall now.obs
  have start : counted 6 ⟨hall, obs, hall.code⟩ := ⟨steady, List.mem_cons_self, within.speed⟩
  have taken : Yields (counted (6 + events.length))
      (events.foldlM (fuseEvent wrapWithin reference tickPeriod) ⟨hall, obs, hall.code⟩) := by
    refine Yields.foldlM_counted (fun halves now kept event listed => ?_) start
    exact fuseEvent_yields accepted reach enabled kept
      (List.mem_cons_of_mem _ (List.mem_map_of_mem listed)) (within.recent event listed)
  have codes : Yields (fun fused => if fused.2 then
        Bounding s changes reference tickPeriod 15 fused.1.1 fused.1.2
      else Steady s fused.1.1 fused.1.2)
      (fuseCodes wrapWithin events reference tickPeriod hall obs) := by
    unfold fuseCodes
    refine taken.bind fun now kept => ?_
    cases sector now.codeAtReference with
    | none => exact Yields.pure (show Steady s _ _ from ⟨{ kept.mounted with }, kept.tracked⟩)
    | some inside =>
      refine (fuseSector_yields accepted reach enabled kept inside).bind fun fused held => ?_
      have few : 6 + events.length + 1 ≤ 15 := by
        have := within.few
        omega
      refine Yields.pure (show Bounding s _ reference tickPeriod 15 _ _ from { held with turns := ?_ })
      exact fun change listed => speedWithin_mono accepted held.tracked few (held.turns change listed)
  obtain ⟨⟨fused, valid⟩, found, held⟩ := codes
  unfold update
  rw [found]
  refine Yields.ite (fun known => ?_) fun unknown => ?_
  · exact fuseSpeed_yields accepted forward (by simpa [known] using held)
  · exact Yields.pure (by simpa [unknown] using held)

end HallFusion

namespace Hfi

variable {s : NvmSettings} {hfi : Hfi ℝ} {obs : MechanicalObserver ℝ}

/-- The largest error of currents of these sizes; the middle samples count against the outer ones. -/
noncomputable def errorSize (samples : Vector (Rotor ℝ) 4) : ℝ :=
  rawError (samples.mapIdx fun k sample =>
    if k % 3 = 0 then ⟨|sample.d|, |sample.q|⟩ else ⟨-|sample.d|, -|sample.q|⟩)

theorem rawError_le (samples : Vector (Rotor ℝ) 4) : |rawError samples| ≤ errorSize samples := by
  have size : errorSize samples = |samples[0].q| + |samples[1].q| + (|samples[2].d| + |samples[3].d|) := by
    simp [errorSize, rawError]
    ring
  rw [size]
  exact (abs_sub _ _).trans (add_le_add (abs_sub _ _) (abs_sub _ _))

theorem update_completes (accepted : Accepted Binary32 s) (steady : 0 ≤ (s.real .mechObsQ : ℝ))
    (tracked : Tracked s obs) (complete : hfi.step = 3) {iAb : Stator ℝ} {angle : SinCos ℝ}
    (within : errorSize (hfi.recorded iAb angle) * |hfi.errorGain| ≤ 8 * twoPi) (dt : ℝ) :
    Yields (fun next => next.1.step = 0 ∧ Tracked s next.2) (hfi.update wrapWithin iAb angle dt obs) := by
  have first : (hfi.step + 1) % 4 = 0 := by rw [complete]
  have reach : |rawError (hfi.recorded iAb angle) * hfi.errorGain| ≤ 8 * twoPi := by
    rw [abs_mul]
    exact (mul_le_mul_of_nonneg_right (rawError_le _) (abs_nonneg _)).trans within
  unfold update
  refine Yields.bind (p := Tracked s) ?_ fun obs kept => Yields.pure ⟨first, kept⟩
  refine Yields.ite (fun _ => ?_) fun other => absurd complete other
  refine ((tracked.predictCovariance steady dt).updateAngle accepted ?_ reach).mono fun _ moved => moved.1
  show 0 ≤ obs.r
  rw [tracked.r]
  exact (accepted.real_positive (by decide)).le

theorem update_records (tracked : Tracked s obs) (recording : hfi.step < 3) (iAb : Stator ℝ)
    (angle : SinCos ℝ) (dt : ℝ) :
    Yields (fun next => next.1.step = hfi.step + 1 ∧ Tracked s next.2)
      (hfi.update wrapWithin iAb angle dt obs) := by
  have later : (hfi.step + 1) % 4 = hfi.step + 1 := Nat.mod_eq_of_lt (by omega)
  unfold update
  refine Yields.bind (p := Tracked s) ?_ fun obs kept => Yields.pure ⟨later, kept⟩
  rw [if_neg recording.ne]
  exact Yields.pure tracked

end Hfi

namespace SlowUpdate

variable {s : NvmSettings} {slow : SlowUpdate ℝ} {view : CycleView ℝ}

structure Sound (s : NvmSettings) (slow : SlowUpdate ℝ) : Prop where
  steady : HallFusion.Steady s slow.hall slow.obs
  injection : slow.hfi.step = 3
  dtSlow : slow.dtSlow = dtSlowFromPwmFrequency (s.real .pwmFrequency)
  tickPeriod : 0 ≤ slow.tickPeriod

/-- What a cycle hands to the observer, and the state before it, keep the angles within reach. -/
structure Within (s : NvmSettings) (view : CycleView ℝ) (slow : SlowUpdate ℝ) : Prop where
  flux : view.released = true → 0 < slow.fluxSetpoint.d →
    slow.flux.fluxSize view.output.uDq view.output.iDqMean slow.dtSlow ≤ 8 * twoPi * slow.fluxSetpoint.d
  events : slow.hall.enabled = true →
    HallFusion.EventsWithin s view.events (view.timestamp - slow.referenceOffsetTicks) slow.tickPeriod 5
      slow.hall slow.predicted.obs
  injection : view.hfiActive = true →
    Hfi.errorSize (slow.hfi.recorded (view.output.iAbSamples.get 0) (view.sc.get 0)) * |slow.hfi.errorGain| ≤
      8 * twoPi

section Steps

variable (accepted : Accepted Binary32 s) (reach : KeepsReach s)
include accepted reach

omit reach in
theorem fluxNoise_nonneg (tracked : Tracked s slow.obs) : 0 ≤ slow.fluxNoise := by
  have noise : 0 ≤ slow.obs.r := by
    rw [tracked.r]
    exact (accepted.real_positive (by decide)).le
  unfold fluxNoise
  split
  · exact noise
  · rename_i weighted
    have speed : 0 < slow.fluxRSpeed := by norm_num [Scalar.zero] at weighted; exact weighted
    have floor : 0 ≤ Scalar.max (slow.obs.omega * slow.obs.omega) (1.0 * 1.0 : ℝ) := by
      unfold Scalar.max
      split_ifs
      · norm_num
      · exact mul_self_nonneg _
    exact add_nonneg noise (div_nonneg speed.le floor)

omit reach in
theorem fuseFlux_yields (slow : SlowUpdate ℝ) {view : CycleView ℝ} {changes : List UInt32}
    {reference : UInt32} {halves : Nat} (tracked : Tracked s slow.obs) (forward : 0 ≤ slow.dtSlow)
    (within : view.released = true → 0 < slow.fluxSetpoint.d →
      slow.flux.fluxSize view.output.uDq view.output.iDqMean slow.dtSlow ≤ 8 * twoPi * slow.fluxSetpoint.d)
    (turns : ∀ change ∈ changes, HallFusion.SpeedWithin s reference slow.tickPeriod halves slow.obs change) :
    Yields (fun next => ∃ flux obs, next = { slow with flux := flux, obs := obs } ∧ Tracked s obs ∧
        ∀ change ∈ changes, HallFusion.SpeedWithin s reference slow.tickPeriod (halves + 1) obs change)
      (slow.fuseFlux wrapWithin view) := by
  have more (change : UInt32) (listed : change ∈ changes) :
      HallFusion.SpeedWithin s reference slow.tickPeriod (halves + 1) slow.obs change :=
    HallFusion.speedWithin_mono accepted tracked (Nat.le_succ halves) (turns change listed)
  unfold fuseFlux
  refine Yields.ite (fun released => ?_) fun _ => Yields.pure ⟨_, slow.obs, rfl, tracked, more⟩
  have error := PmsmFluxObserver.calculate_error tracked.circle view.output.uDq view.output.iDqMean
    slow.fluxSetpoint slow.dtSlow slow.flux
  generalize slow.flux.calculate _ _ _ _ _ = answer at error ⊢
  obtain ⟨found, flux⟩ := answer
  by_cases positive : 0 < slow.fluxSetpoint.d
  · rw [if_pos positive] at error
    cases error
    refine (HallFusion.updateAngle_yields accepted tracked (fluxNoise_nonneg accepted tracked) ?_ turns).bind
      fun obs moved => Yields.pure ⟨flux, obs, rfl, moved⟩
    rw [abs_div, abs_of_pos positive]
    refine (div_le_iff₀ positive).mpr (le_trans ?_ (within released positive))
    exact slow.flux.quadrature_le tracked.circle forward _ _
  · rw [if_neg positive] at error
    cases error
    exact Yields.pure ⟨flux, slow.obs, rfl, tracked, more⟩

theorem fuseHall_yields (slow : SlowUpdate ℝ) (view : CycleView ℝ)
    (steady : HallFusion.Steady s slow.hall slow.obs) (forward : 0 ≤ slow.tickPeriod)
    (within : slow.hall.enabled = true →
      HallFusion.EventsWithin s view.events (view.timestamp - slow.referenceOffsetTicks)
        slow.tickPeriod 6 slow.hall slow.obs) :
    Yields (fun next => ∃ hall obs, next = { slow with hall := hall, obs := obs } ∧
        HallFusion.Steady s hall obs)
      (slow.fuseHall wrapWithin view) := by
  unfold fuseHall
  refine Yields.ite (fun _ => Yields.pure ⟨slow.hall, slow.obs, rfl, steady⟩) fun on => ?_
  have enabled : slow.hall.enabled = true := by simpa using on
  have setting : s.natural8 .hallEnable ≠ 0 := by
    simpa [steady.mounted.enabled] using enabled
  exact (HallFusion.update_yields accepted reach setting forward steady (within enabled)).bind
    fun fused held => Yields.pure ⟨fused.1, fused.2, rfl, held⟩

def Injected (s : NvmSettings) (slow : SlowUpdate ℝ) (step : Nat) (next : SlowUpdate ℝ) : Prop :=
  ∃ hfi obs, next = { slow with hfi := hfi, obs := obs } ∧ hfi.step = step ∧ Tracked s obs

omit accepted reach in
theorem record_yields {hfi : Hfi ℝ} {obs : MechanicalObserver ℝ} {step : Nat} (here : hfi.step = step)
    (recording : step < 3) (kept : Tracked s obs) (k : Fin numSubSteps) :
    Yields (Injected s slow (step + 1)) (do
      let (hfi, obs) ←
        hfi.update wrapWithin (view.output.iAbSamples.get k) (view.sc.get k) slow.dtSlow obs
      pure { slow with hfi := hfi, obs := obs }) := by
  subst here
  exact (Hfi.update_records kept recording _ _ _).bind fun next recorded =>
    Yields.pure ⟨next.1, next.2, rfl, recorded⟩

theorem fuseInjection_yields (slow : SlowUpdate ℝ) (view : CycleView ℝ) (tracked : Tracked s slow.obs)
    (complete : slow.hfi.step = 3)
    (within : view.hfiActive = true →
      Hfi.errorSize (slow.hfi.recorded (view.output.iAbSamples.get 0) (view.sc.get 0)) *
        |slow.hfi.errorGain| ≤ 8 * twoPi) :
    Yields (Injected s slow 3) (slow.fuseInjection wrapWithin view) := by
  unfold fuseInjection
  refine Yields.ite (fun _ => Yields.pure ⟨slow.hfi, slow.obs, rfl, complete, tracked⟩) fun on => ?_
  have active : view.hfiActive = true := by simpa using on
  have order : List.finRange numSubSteps = [0, 1, 2, 3] := by decide
  rw [order]
  simp only [List.foldlM_cons, List.foldlM_nil]
  refine Yields.bind (p := Injected s slow 0) ?_ ?_
  · exact (Hfi.update_completes accepted reach.noise tracked complete (within active) slow.dtSlow).bind
      fun next recorded => Yields.pure ⟨next.1, next.2, rfl, recorded⟩
  rintro _ ⟨hfi, obs, rfl, first, kept⟩
  refine (record_yields first (by decide) kept 1).bind ?_
  rintro _ ⟨hfi, obs, rfl, second, kept⟩
  refine (record_yields second (by decide) kept 2).bind ?_
  rintro _ ⟨hfi, obs, rfl, third, kept⟩
  refine (record_yields third (by decide) kept 3).bind ?_
  rintro _ ⟨hfi, obs, rfl, fourth, kept⟩
  exact Yields.pure ⟨hfi, obs, rfl, fourth, kept⟩

omit reach in
theorem dtSlow_nonneg : 0 ≤ (dtSlowFromPwmFrequency (s.real .pwmFrequency) : ℝ) := by
  have frequency := accepted.frequency_exact.1
  unfold dtSlowFromPwmFrequency dtFastFromPwmFrequency
  refine mul_nonneg (div_nonneg ?_ ?_) (Nat.cast_nonneg _)
  · norm_num
  · norm_num
    linarith

theorem estimate_yields (sound : Sound s slow) (within : Within s view slow) :
    Yields (Sound s) (slow.estimate wrapWithin view) := by
  obtain ⟨⟨mounted, tracked⟩, complete, dtSlow, forward⟩ := sound
  have predicted := tracked.predictCovariance reach.noise slow.dtSlow
  have cycle : 0 ≤ slow.dtSlow := dtSlow ▸ dtSlow_nonneg accepted
  let changes := if slow.hall.enabled then slow.hall.lastChange :: view.events.map HallEvent.timestamp else []
  have turns : ∀ change ∈ changes, HallFusion.SpeedWithin s (view.timestamp - slow.referenceOffsetTicks)
      slow.tickPeriod 5 slow.predicted.obs change := by
    intro change listed
    by_cases enabled : slow.hall.enabled = true
    · exact (within.events enabled).speed change (by simpa [changes, enabled] using listed)
    · simp [changes, enabled] at listed
  unfold estimate
  refine (fuseFlux_yields accepted slow.predicted predicted cycle within.flux turns).bind ?_
  rintro _ ⟨flux, obs, rfl, moved, turns⟩
  have events (enabled : slow.hall.enabled = true) :
      HallFusion.EventsWithin s view.events (view.timestamp - slow.referenceOffsetTicks) slow.tickPeriod 6
        slow.hall obs :=
    { within.events enabled with
      speed := fun change listed => turns change (by simpa [changes, enabled] using listed) }
  refine (fuseHall_yields accepted reach { slow with flux := flux, obs := obs } view ⟨mounted, moved⟩
    forward events).bind ?_
  rintro _ ⟨hall, obs, rfl, mounted, tracked⟩
  refine (tracked.predict accepted view.output.iDqMean cycle (dtSlow ▸ reach.speed)).bind
    fun ahead kept => ?_
  refine (fuseInjection_yields accepted reach { slow with flux := flux, hall := hall, obs := ahead } view
    kept complete within.injection).mono ?_
  rintro _ ⟨hfi, obs, rfl, complete, kept⟩
  exact ⟨⟨mounted, kept⟩, complete, dtSlow, forward⟩

/-- Every cycle of a run of the observer keeps the angles within reach. -/
def RunWithin (s : NvmSettings) : SlowUpdate ℝ → List (CycleView ℝ) → Prop
  | _, [] => True
  | slow, view :: views =>
    Within s view slow ∧ ∀ next, slow.estimate wrapWithin view = some next → RunWithin s next views

theorem run_yields {views : List (CycleView ℝ)} (sound : Sound s slow) (within : RunWithin s slow views) :
    Yields (Sound s) (views.foldlM (fun slow view => slow.estimate wrapWithin view) slow) := by
  induction views generalizing slow with
  | nil => exact Yields.pure sound
  | cons view views ih =>
    obtain ⟨next, found, held⟩ := estimate_yields accepted reach sound within.1
    rw [List.foldlM_cons, found]
    exact ih held (within.2 next found)

omit reach in
theorem init_sound (frequency : UInt32) (slow : SlowUpdate ℝ) : Sound s (slow.init s frequency) := by
  have running := pwmHertz_exact accepted
  unfold init
  simp only [running, ↓reduceIte]
  refine ⟨⟨⟨rfl, rfl, rfl, rfl⟩, tracked_init accepted slow.obs⟩, rfl, rfl, ?_⟩
  exact div_nonneg (by norm_num) (Nat.cast_nonneg _)

end Steps

/-- No angle that a run of the observer wraps is more than eight revolutions from zero, when
the settings and what each cycle brings keep it within reach. -/
theorem wrapping_bounded {limits : HardwareCapabilities Binary32}
    (validated : validate s limits = .success) (reach : KeepsReach s) (frequency : UInt32)
    (slow : SlowUpdate ℝ) {views : List (CycleView ℝ)}
    (within : RunWithin s (slow.init s frequency) views) :
    Yields (Sound s)
      (views.foldlM (fun slow view => slow.estimate wrapWithin view) (slow.init s frequency)) :=
  run_yields (validate_accepted validated) reach (init_sound (validate_accepted validated) frequency slow)
    within

section Bench

def restingObserver : MechanicalObserver ℝ :=
  ⟨0, 0, 0, 0, 0, 0, 0, 0, 0, 0, 0, 0, 0, 0, 0, 0⟩

noncomputable def atRest : SlowUpdate ℝ where
  obs := restingObserver
  flux := ⟨0, 0, 0, 0, 0, 0, 0, 0, 0, 0, 0⟩
  hall := ⟨0, 0, 0, false, false, false, 0, 0, 0, 0, 0⟩
  hfi := ⟨0, 0, Vector.replicate 4 .zero⟩
  fluxSetpoint := ⟨0, 0⟩
  fluxRSpeed := 0
  referenceOffsetTicks := 0
  tickPeriod := 0
  dtFast := 0
  dtSlow := 0
  outputDelayHalfPeriods := 0

noncomputable def firstVolt : CycleView ℝ where
  output := ⟨Vector.replicate numSubSteps ⟨0, 0⟩, ⟨0, 0⟩, ⟨0, 1⟩, Vector.replicate numSubSteps ⟨0, 0, 0⟩⟩
  sc := Vector.replicate numSubSteps ⟨0, 1⟩
  timestamp := 0
  released := true
  events := []
  hfiActive := false

theorem default_values :
    (NvmSettings.default.real .fluxPm : Binary32) = .finite 12348031 (-29) ∧
      (NvmSettings.default.real .mechObsQ : Binary32) = .finite 10995116 (-40) ∧
      (NvmSettings.default.real .motorOmegaMax : Binary32) = .finite 12288000 (-13) ∧
      (NvmSettings.default.real .motorOmegaMin : Binary32) = .finite (-12288000) (-13) ∧
      (NvmSettings.default.real .pwmFrequency : Binary32) = .finite 10240000 (-9) := by
  decide

theorem default_cycle : (dtSlowFromPwmFrequency (NvmSettings.default.real .pwmFrequency) : ℝ) = 1 / 10000 := by
  have frequency : (NvmSettings.default.real .pwmFrequency : ℝ) = 20000 := by
    rw [real_value, default_values.2.2.2.2]
    norm_num [Binary.value]
  have steps : (Scalar.ofUInt64 (UInt64.ofNat numSubSteps) : ℝ) = 4 := by
    show ((UInt64.ofNat numSubSteps).toNat : ℝ) = 4
    norm_num [numSubSteps]
  unfold dtSlowFromPwmFrequency dtFastFromPwmFrequency
  rw [frequency, steps]
  norm_num

theorem default_reach : KeepsReach .default := by
  obtain ⟨-, noise, fastest, slowest, -⟩ := default_values
  refine ⟨?_, fun enabled => absurd rfl enabled, ?_⟩
  · rw [real_value, noise]
    norm_num [Binary.value]
  · rw [default_cycle]
    unfold speedGuard
    rw [real_value, real_value, fastest, slowest, twoPi_eq]
    norm_num [Binary.value, pi_value]

theorem wrapping_bounded_default :
    Yields (Sound .default)
      ([firstVolt].foldlM (fun slow view => slow.estimate wrapWithin view)
        (atRest.init .default 1000000)) := by
  have accepted : validate NvmSettings.default simCapabilities = .success := by decide
  have running := pwmHertz_exact (validate_accepted accepted)
  refine wrapping_bounded accepted default_reach 1000000 atRest ⟨⟨fun _ _ => ?_, ?_, ?_⟩, fun _ _ => trivial⟩
  · have cycle : (atRest.init .default 1000000).dtSlow = 1 / 10000 := by
      rw [← default_cycle]
      simp only [init, running, ↓reduceIte]
    have flux : (atRest.init .default 1000000).fluxSetpoint.d = 12348031 / 536870912 := by
      show (NvmSettings.default.real .fluxPm : ℝ) = _
      rw [real_value, default_values.1]
      norm_num [Binary.value]
    have rising : (atRest.init .default 1000000).flux.fluxSize firstVolt.output.uDq
        firstVolt.output.iDqMean (1 / 10000) = 1 / 10000 := by
      norm_num [PmsmFluxObserver.fluxSize, init, PmsmFluxObserver.init, PmsmFluxObserver.reset,
        firstVolt, Scalar.zero]
    rw [cycle, flux, rising, twoPi_eq, pi_value]
    norm_num
  · intro on
    change decide (NvmSettings.default.natural8 .hallEnable ≠ 0) = true at on
    exact absurd on (by decide)
  · exact fun active => by cases active

/-- Hall sensors, mounted 1000 rad from where they are expected. -/
def turnedSensors : NvmSettings :=
  (NvmSettings.default.set .hallEnable (1 : UInt8)).set .hallOffset (0x447A0000 : UInt32)

noncomputable def firstCode (slow : SlowUpdate ℝ) : CycleView ℝ :=
  { firstVolt with released := false, events := [⟨5, 0 - slow.referenceOffsetTicks⟩] }

theorem turned_start {hall : HallFusion ℝ} (turned : hall.offset = turnedSensors.real .hallOffset) :
    hall.sectorStart wrapWithin 0 = none := by
  have offset : (turnedSensors.real .hallOffset : Binary32) = .finite 16384000 (-14) := by decide
  have value : (turnedSensors.real .hallOffset : ℝ) = 1000 := by
    rw [real_value, offset]
    norm_num [Binary.value]
  have first : (Scalar.ofUInt64 (UInt64.ofNat (0 : Fin 6).val) : ℝ) = 0 := by
    show ((UInt64.ofNat 0).toNat : ℝ) = 0
    norm_num
  refine wrapWithin_refuses ?_
  rw [turned, value, first, twoPi_eq, pi_value]
  norm_num

theorem fuseSector_stuck {sector : Fin 6} {hall : HallFusion ℝ}
    (start : hall.sectorStart wrapWithin sector = none) (obs : MechanicalObserver ℝ) :
    HallFusion.fuseSector wrapWithin sector hall obs = none := by
  unfold HallFusion.fuseSector HallFusion.sectorInnovation
  rw [start]
  rfl

theorem fuseEvent_first {hall : HallFusion ℝ} (fresh : hall.code = 0) (obs : MechanicalObserver ℝ)
    (reference : UInt32) (tickPeriod : ℝ) :
    HallFusion.fuseEvent wrapWithin reference tickPeriod ⟨hall, obs, hall.code⟩ ⟨5, reference⟩ =
      some ⟨{ hall with code := 5, lastChange := reference }, obs, 5⟩ := by
  have now : HallFusion.ticksSince reference reference = 0 := by
    unfold HallFusion.ticksSince
    rw [UInt32.sub_self]
    rfl
  have unknown : (HallFusion.sector 0).isSome = false := rfl
  have known : (HallFusion.sector 5).isNone = false := rfl
  have edge : hall.edgeAngle wrapWithin 0 5 = some none := rfl
  simp [HallFusion.fuseEvent, fresh, now, unknown, known, edge]

theorem turned_fuseHall (slow : SlowUpdate ℝ) (enabled : slow.hall.enabled = true)
    (fresh : slow.hall.code = 0) (turned : slow.hall.offset = turnedSensors.real .hallOffset) :
    slow.fuseHall wrapWithin (firstCode slow) = none := by
  have codes : HallFusion.fuseCodes wrapWithin (firstCode slow).events
      ((firstCode slow).timestamp - slow.referenceOffsetTicks) slow.tickPeriod slow.hall slow.obs = none := by
    have inside : HallFusion.sector 5 = some 0 := rfl
    unfold HallFusion.fuseCodes
    simp [firstCode, firstVolt, fuseEvent_first fresh, inside, fuseSector_stuck (turned_start _), turned]
  unfold fuseHall HallFusion.update
  rw [codes, enabled]
  rfl

/-- The validation takes an offset of 1000 rad, and the first valid code then stops the observer. -/
theorem far_offset_accepted :
    validate turnedSensors simCapabilities = .success ∧
      (atRest.init turnedSensors 1000000).estimate wrapWithin
        (firstCode (atRest.init turnedSensors 1000000)) = none := by
  have accepted : validate turnedSensors simCapabilities = .success := by decide
  refine ⟨accepted, ?_⟩
  generalize started : atRest.init turnedSensors 1000000 = slow
  have enabled : slow.hall.enabled = true := by
    rw [← started]
    show decide (turnedSensors.natural8 .hallEnable ≠ 0) = true
    decide
  have fresh : slow.hall.code = 0 := by rw [← started]; rfl
  have turned : slow.hall.offset = turnedSensors.real .hallOffset := by rw [← started]; rfl
  have locked : slow.predicted.fuseFlux wrapWithin (firstCode slow) =
      some { slow.predicted with flux := slow.flux.reset } := rfl
  unfold estimate
  rw [locked]
  have refused := turned_fuseHall { slow.predicted with flux := slow.flux.reset } enabled fresh turned
  have same : firstCode { slow.predicted with flux := slow.flux.reset } = firstCode slow := rfl
  rw [same] at refused
  exact congrArg (Option.bind · _) refused

end Bench

end SlowUpdate

end Unimoc.CurrentControl
