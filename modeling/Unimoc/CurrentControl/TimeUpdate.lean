import Unimoc.CurrentControl.BoundedWrapping
import Unimoc.CurrentControl.HallFused
import Unimoc.Lib.KalmanCycle

/-! The covariance over one run of the observer, against one cycle of the textbook filter. -/
namespace Unimoc.CurrentControl

open Kalman Matrix Settings

abbrev Measured := List (Measurement (Fin 3))

local instance threeStates : NeZero 3 := ⟨by decide⟩

namespace MechanicalObserver

/-- Measurements have changed the covariance, the parameters are the same. -/
structure Fused (measured : Measured) (obs after : MechanicalObserver ℝ) : Prop where
  matrix : after.matrix = measured.foldl measure obs.matrix
  q : after.q = obs.q
  r : after.r = obs.r
  j : after.j = obs.j

variable {wrap : ℝ → Id ℝ} {obs : MechanicalObserver ℝ}

theorem Fused.refl (obs : MechanicalObserver ℝ) : Fused [] obs obs := ⟨rfl, rfl, rfl, rfl⟩

theorem Fused.trans {first second : Measured} {between after : MechanicalObserver ℝ}
    (early : Fused first obs between) (late : Fused second between after) : Fused (first ++ second) obs after where
  matrix := by rw [late.matrix, early.matrix, List.foldl_append]
  q := late.q.trans early.q
  r := late.r.trans early.r
  j := late.j.trans early.j

theorem correct_fused (state : Fin 3) (innovation noise : ℝ) :
    Fused [⟨state, noise⟩] obs (obs.correct wrap state innovation noise).run where
  matrix := by
    rw [correct_matrix, List.foldl_cons, List.foldl_nil, measure_eq]
  q := obs.correct_q wrap state innovation noise
  r := by
    by_cases usable : 0 < obs.matrix state state + noise
    · rw [correct_usable wrap obs usable]
      rfl
    · rw [correct_unusable wrap obs innovation usable]
  j := by
    by_cases usable : 0 < obs.matrix state state + noise
    · rw [correct_usable wrap obs usable]
      rfl
    · rw [correct_unusable wrap obs innovation usable]

theorem updateAngle_fused (innovation noise : ℝ) :
    Fused [⟨1, noise⟩] obs (obs.updateAngle wrap innovation noise).run :=
  correct_fused 1 (wrap innovation) noise

theorem predict_fused (iDq : Rotor ℝ) (dt : ℝ) : Fused [] obs (obs.predict wrap iDq dt).run := ⟨rfl, rfl, rfl, rfl⟩

theorem predictCovariance_posSemidef (psd : obs.matrix.PosSemidef) (steady : 0 ≤ obs.q) (dt : ℝ) :
    (obs.predictCovariance dt).matrix.PosSemidef := by
  rw [predictCovariance_matrix]
  exact predict_posSemidef psd _ steady

/-- A covariance, a process noise that is not negative, positive noise and inertia. -/
structure Weighted (obs : MechanicalObserver ℝ) : Prop where
  covariance : obs.matrix.PosSemidef
  q : 0 ≤ obs.q
  r : 0 < obs.r
  j : 0 < obs.j

theorem Weighted.predictCovariance (weighted : Weighted obs) (dt : ℝ) : Weighted (obs.predictCovariance dt) where
  covariance := predictCovariance_posSemidef weighted.covariance weighted.q dt
  q := weighted.q
  r := weighted.r
  j := weighted.j

theorem Weighted.fused {measured : Measured} {after : MechanicalObserver ℝ} (weighted : Weighted obs)
    (positive : ∀ m ∈ measured, 0 < m.noise) (fused : Fused measured obs after) : Weighted after where
  covariance := by
    rw [fused.matrix]
    exact measured_posSemidef weighted.covariance positive
  q := fused.q ▸ weighted.q
  r := fused.r ▸ weighted.r
  j := fused.j ▸ weighted.j

theorem Weighted.reset (weighted : Weighted obs) (theta omega : ℝ) : Weighted (obs.reset theta omega) where
  covariance := by
    rw [reset_matrix]
    exact PosSemidef.zero
  q := weighted.q
  r := weighted.r
  j := weighted.j

theorem covariance_zero (psd : obs.matrix.PosSemidef) {certain : Fin 3} (none : obs.p certain certain = 0)
    (other : Fin 3) : obs.p certain other = 0 ∧ obs.p other certain = 0 := by
  have bound := covariance_le psd certain other
  simp only [matrix_apply, none, zero_mul] at bound
  have zero : obs.p certain other = 0 := pow_eq_zero_iff (two_ne_zero) |>.mp (le_antisymm bound (sq_nonneg _))
  have symm := symmetric psd other certain
  exact ⟨zero, symm.trans zero⟩

theorem only_angle (psd : obs.matrix.PosSemidef) : Only 1 obs.matrix ↔ obs.p 0 0 = 0 ∧ obs.p 2 2 = 0 := by
  constructor
  · intro only
    exact ⟨only 0 0 (by decide), only 2 2 (by decide)⟩
  · rintro ⟨speed, torque⟩ i j elsewhere
    rw [matrix_apply]
    by_cases row : i = 1
    · subst row
      have column : j ≠ 1 := fun column => elsewhere ⟨rfl, column⟩
      obtain rfl | rfl : j = 0 ∨ j = 2 := by omega
      · exact (covariance_zero psd speed 1).2
      · exact (covariance_zero psd torque 1).2
    · obtain rfl | rfl : i = 0 ∨ i = 2 := by omega
      · exact (covariance_zero psd speed j).1
      · exact (covariance_zero psd torque j).1

section

variable {dt : ℝ} (psd : obs.matrix.PosSemidef) (steady : 0 ≤ obs.q) (forward : 0 < dt) (inertia : 0 < obs.j)
include psd steady forward inertia

/-- A step that changes nothing: without process noise, and with only the angle uncertain. -/
theorem predictCovariance_fixed :
    (obs.predictCovariance dt).matrix = obs.matrix ↔ obs.q = 0 ∧ Only 1 obs.matrix := by
  rw [only_angle psd]
  have step : dt / obs.j ≠ 0 := (div_pos forward inertia).ne'
  constructor
  · intro same
    have entry (i j : Fin 3) := congrFun (congrFun same i) j
    have noise : obs.p 2 2 + obs.q = obs.p 2 2 := entry 2 2
    have torque : obs.p 0 2 - obs.p 2 2 * (dt / obs.j) = obs.p 0 2 := entry 0 2
    have certain : obs.p 2 2 = 0 := by
      have product : obs.p 2 2 * (dt / obs.j) = 0 := by linarith
      exact (mul_eq_zero.mp product).resolve_right step
    have angle : obs.p 0 1 + dt * (obs.p 0 0 - dt / obs.j * obs.p 2 0) - dt / obs.j * obs.p 2 1 = obs.p 0 1 :=
      entry 0 1
    rw [(covariance_zero psd certain 0).1, (covariance_zero psd certain 1).1] at angle
    have product : dt * obs.p 0 0 = 0 := by linarith
    exact ⟨by linarith, (mul_eq_zero.mp product).resolve_left forward.ne', certain⟩
  · rintro ⟨noise, speed, torque⟩
    have row := covariance_zero psd speed
    have column := covariance_zero psd torque
    ext i j
    fin_cases i <;> fin_cases j <;> simp [predictCovariance, noise, row, column]

omit forward inertia in
theorem predictCovariance_only (noise : obs.q = 0) :
    Only 1 (obs.predictCovariance dt).matrix ↔ Only 1 obs.matrix := by
  rw [only_angle (predictCovariance_posSemidef psd steady dt), only_angle psd]
  have torque : (obs.predictCovariance dt).p 2 2 = obs.p 2 2 + obs.q := rfl
  have speed : (obs.predictCovariance dt).p 0 0 = obs.p 0 0 + obs.q - obs.p 2 0 * (dt / obs.j) -
      (obs.p 0 2 - obs.p 2 2 * (dt / obs.j)) * (dt / obs.j) := rfl
  rw [torque, speed, noise, add_zero, add_zero]
  refine and_congr_left fun certain => ?_
  rw [(covariance_zero psd certain 0).1, (covariance_zero psd certain 0).2, certain]
  simp

end

end MechanicalObserver

namespace HallFusion

open MechanicalObserver (Fused)

variable (wrap : ℝ → Id ℝ) (reference : UInt32) (tickPeriod : ℝ)

/-- An edge between two sectors is an angle. -/
noncomputable def eventMeasured (now : Progress ℝ) (event : HallEvent) : Measured :=
  if event.code ≠ now.hall.code ∧ (now.hall.edgeAngle wrap now.hall.code event.code).run.isSome then
    [⟨1, now.hall.rEdge⟩]
  else []

noncomputable def eventsMeasured : List HallEvent → Progress ℝ → Measured
  | [], _ => []
  | event :: events, now =>
    eventMeasured wrap now event ++ eventsMeasured events (fuseEvent wrap reference tickPeriod now event).run

open Classical in
/-- An estimate outside the sector is pulled to it. -/
noncomputable def sectorMeasured (inside : Fin 6) (hall : HallFusion ℝ) (obs : MechanicalObserver ℝ) : Measured :=
  if (hall.sectorInnovation wrap inside obs.theta).run ≠ 0 then [⟨1, hall.rSector⟩] else []

open Classical in
/-- A speed beyond what the time since the last change allows is pulled back. -/
noncomputable def speedMeasured (hall : HallFusion ℝ) (obs : MechanicalObserver ℝ) : Measured :=
  let hall := hall.agedChange reference
  let ticks := ticksSince hall.lastChange reference
  let sinceChange := tickPeriod * ofInt32 ticks
  let limit := sectorWidth / sinceChange * 2.0
  if 0 < ticks ∧ (limit < obs.omega ∨ obs.omega < -limit) then
    [⟨0, hall.rSector / (sinceChange * sinceChange)⟩]
  else []

noncomputable def measured (events : List HallEvent) (hall : HallFusion ℝ) (obs : MechanicalObserver ℝ) : Measured :=
  let now := fusedEvents events reference hall obs wrap tickPeriod
  eventsMeasured wrap reference tickPeriod events ⟨hall, obs, hall.code⟩ ++
    match sector now.codeAtReference with
    | none => []
    | some inside =>
      let fused := (fuseSector wrap inside now.hall now.obs).run
      sectorMeasured wrap inside now.hall now.obs ++ speedMeasured reference tickPeriod fused.1 fused.2

/-- The estimate starts again in the middle of the sector. -/
def Restarts (events : List HallEvent) (hall : HallFusion ℝ) (obs : MechanicalObserver ℝ) : Prop :=
  let now := fusedEvents events reference hall obs wrap tickPeriod
  ∃ inside, sector now.codeAtReference = some inside ∧
    (now.hall.started = false ∨
      now.hall.valid = false ∧ (now.hall.sectorInnovation wrap inside now.obs.theta).run ≠ 0)

structure SameNoise (hall after : HallFusion ℝ) : Prop where
  rEdge : after.rEdge = hall.rEdge
  rSector : after.rSector = hall.rSector

variable {wrap reference tickPeriod}

theorem edgeAngle_invalid {code : UInt8} (invalid : sector code = none) (previous : UInt8) (hall : HallFusion ℝ) :
    (hall.edgeAngle wrap previous code).run = none := by
  unfold edgeAngle
  rw [invalid]
  split
  · rename_i known
    cases known
  · rfl

theorem fuseEvent_fused (now : Progress ℝ) (event : HallEvent) :
    Fused (eventMeasured wrap now event) now.obs (fuseEvent wrap reference tickPeriod now event).run.obs ∧
      SameNoise now.hall (fuseEvent wrap reference tickPeriod now event).run.hall := by
  unfold eventMeasured fuseEvent
  by_cases same : event.code = now.hall.code
  · rw [if_pos same, if_neg fun other => other.1 same]
    exact ⟨.refl _, rfl, rfl⟩
  rw [if_neg same]
  by_cases invalid : (sector event.code).isNone = true
  · have edge := @edgeAngle_invalid wrap _ (Option.isNone_iff_eq_none.mp invalid) now.hall.code now.hall
    simp only [if_pos invalid]
    rw [edge, if_neg fun found => Bool.false_ne_true found.2]
    exact ⟨.refl _, rfl, rfl⟩
  simp only [if_neg invalid]
  generalize now.hall.edgeAngle wrap now.hall.code event.code = edge
  change Option ℝ at edge
  cases edge with
  | some edge =>
    rw [if_pos ⟨same, rfl⟩]
    exact ⟨MechanicalObserver.updateAngle_fused _ now.hall.rEdge, rfl, rfl⟩
  | none =>
    rw [if_neg fun found => Bool.false_ne_true found.2]
    by_cases known : (sector now.hall.code).isSome = true
    · simp only [if_pos known]
      exact ⟨.refl _, rfl, rfl⟩
    · simp only [if_neg known]
      exact ⟨.refl _, rfl, rfl⟩

theorem events_fused (events : List HallEvent) (now : Progress ℝ) :
    Fused (eventsMeasured wrap reference tickPeriod events now) now.obs
        (events.foldlM (fuseEvent wrap reference tickPeriod) now).run.obs ∧
      SameNoise now.hall (events.foldlM (fuseEvent wrap reference tickPeriod) now).run.hall := by
  induction events generalizing now with
  | nil => exact ⟨.refl _, rfl, rfl⟩
  | cons event events ih =>
    obtain ⟨first, kept⟩ := @fuseEvent_fused wrap reference tickPeriod now event
    obtain ⟨rest, held⟩ := ih (fuseEvent wrap reference tickPeriod now event).run
    rw [List.foldlM_cons]
    exact ⟨first.trans rest, held.rEdge.trans kept.rEdge, held.rSector.trans kept.rSector⟩

theorem eq_zero_iff {value : ℝ} : Scalar.eq value Scalar.zero = true ↔ value = 0 := by
  rw [Scalar.zero_exact]
  unfold Scalar.eq
  rw [Bool.and_eq_true, decide_eq_true_iff, decide_eq_true_iff]
  exact le_antisymm_iff.symm

theorem fuseSector_fused (inside : Fin 6) {hall : HallFusion ℝ} {obs : MechanicalObserver ℝ}
    (stays : ¬(hall.started = false ∨ hall.valid = false ∧ (hall.sectorInnovation wrap inside obs.theta).run ≠ 0)) :
    Fused (sectorMeasured wrap inside hall obs) obs (fuseSector wrap inside hall obs).run.2 := by
  unfold sectorMeasured fuseSector
  generalize hall.sectorInnovation wrap inside obs.theta = innovation at stays ⊢
  change ℝ at innovation
  change ¬(hall.started = false ∨ hall.valid = false ∧ innovation ≠ 0) at stays
  change Fused (if innovation ≠ 0 then _ else _) obs
    (if (!hall.started || (!hall.valid && !Scalar.eq innovation Scalar.zero)) = true then _
      else if (!Scalar.eq innovation Scalar.zero) = true then _ else obs)
  have zero := @eq_zero_iff innovation
  by_cases outside : innovation = 0
  · have started : hall.started = true := by simpa [outside] using stays
    rw [if_neg (not_not.mpr outside), if_neg (by simp [started, zero.mpr outside]), if_neg (by simp [zero.mpr outside])]
    exact .refl obs
  · obtain ⟨started, valid⟩ : hall.started = true ∧ hall.valid = true := by simpa [outside] using stays
    have far : Scalar.eq innovation Scalar.zero = false := Bool.eq_false_iff.mpr fun same => outside (zero.mp same)
    rw [if_pos outside, if_neg (by simp [started, valid]), if_pos (by simp [far])]
    exact MechanicalObserver.updateAngle_fused _ hall.rSector

theorem fuseSpeed_fused (hall : HallFusion ℝ) (obs : MechanicalObserver ℝ) :
    Fused (speedMeasured reference tickPeriod hall obs) obs (fuseSpeed wrap reference tickPeriod hall obs).run.2 := by
  unfold speedMeasured fuseSpeed
  generalize hall.agedChange reference = hall
  dsimp only
  generalize ticksSince hall.lastChange reference = ticks
  by_cases past : ticks ≤ 0
  · rw [if_pos past, if_neg fun later => absurd past (Int32.not_le.mpr later.1)]
    exact .refl obs
  rw [if_neg past]
  generalize tickPeriod * ofInt32 ticks = since
  generalize sectorWidth / since * 2.0 = limit
  have still (after : MechanicalObserver ℝ) (long : Prop) [Decidable long] :
      Fused [] after (if long then after.holdStill else after) := by
    split
    · exact ⟨rfl, rfl, rfl, rfl⟩
    · exact .refl after
  by_cases fast : limit < obs.omega ∨ obs.omega < -limit
  · have guard : (decide (limit < obs.omega) || decide (obs.omega < -limit)) = true := by simpa using fast
    rw [if_pos ⟨Int32.not_le.mp past, fast⟩]
    simp only [if_pos guard]
    exact (MechanicalObserver.correct_fused 0 _ _).trans (still _ _)
  · have guard : ¬(decide (limit < obs.omega) || decide (obs.omega < -limit)) = true := by simpa using fast
    rw [if_neg fun both => fast both.2]
    simp only [if_neg guard]
    exact still obs _

theorem update_observer (events : List HallEvent) (hall : HallFusion ℝ) (obs : MechanicalObserver ℝ) :
    (hall.update wrap events reference tickPeriod obs).run.2 =
      match sector (fusedEvents events reference hall obs wrap tickPeriod).codeAtReference with
      | none => (fusedEvents events reference hall obs wrap tickPeriod).obs
      | some inside =>
        let now := fusedEvents events reference hall obs wrap tickPeriod
        let fused := (fuseSector wrap inside now.hall now.obs).run
        (fuseSpeed wrap reference tickPeriod fused.1 fused.2).run.2 := by
  unfold update fuseCodes fusedEvents
  generalize events.foldlM (fuseEvent wrap reference tickPeriod) ⟨hall, obs, hall.code⟩ = now
  change Progress ℝ at now
  have code : (Id.run now).codeAtReference = now.codeAtReference := rfl
  simp only [Id.run_bind, code]
  cases found : sector now.codeAtReference with
  | none => rfl
  | some inside => rfl

theorem update_measured {events : List HallEvent} {hall : HallFusion ℝ} {obs : MechanicalObserver ℝ}
    (stays : ¬Restarts wrap reference tickPeriod events hall obs) :
    Fused (measured wrap reference tickPeriod events hall obs) obs
      (hall.update wrap events reference tickPeriod obs).run.2 := by
  have edges := (@events_fused wrap reference tickPeriod events ⟨hall, obs, hall.code⟩).1
  rw [update_observer]
  unfold measured
  unfold Restarts at stays
  change Fused _ obs (fusedEvents events reference hall obs wrap tickPeriod).obs at edges
  generalize fusedEvents events reference hall obs wrap tickPeriod = now at edges stays ⊢
  dsimp only at stays ⊢
  cases found : sector now.codeAtReference with
  | none =>
    simpa using edges
  | some inside =>
    have pulled := fuseSector_fused inside fun restarts => stays ⟨inside, found, restarts⟩
    exact edges.trans (pulled.trans (fuseSpeed_fused _ _))

theorem update_noise (events : List HallEvent) (hall : HallFusion ℝ) (obs : MechanicalObserver ℝ) :
    SameNoise hall (hall.update wrap events reference tickPeriod obs).run.1 := by
  have kept := (@events_fused wrap reference tickPeriod events ⟨hall, obs, hall.code⟩).2
  change SameNoise hall (fusedEvents events reference hall obs wrap tickPeriod).hall at kept
  rw [update_fused]
  split
  · exact ⟨kept.rEdge, kept.rSector⟩
  · unfold agedChange
    split <;> exact ⟨kept.rEdge, kept.rSector⟩

section Noise

variable {hall : HallFusion ℝ}

theorem eventsMeasured_positive (edge : 0 < hall.rEdge) (events : List HallEvent) (now : Progress ℝ)
    (same : SameNoise hall now.hall) : ∀ m ∈ eventsMeasured wrap reference tickPeriod events now, 0 < m.noise := by
  induction events generalizing now with
  | nil => simp [eventsMeasured]
  | cons event events ih =>
    have kept := (@fuseEvent_fused wrap reference tickPeriod now event).2
    have rest := ih _ ⟨kept.rEdge.trans same.rEdge, kept.rSector.trans same.rSector⟩
    rw [eventsMeasured, List.forall_mem_append]
    refine ⟨?_, rest⟩
    unfold eventMeasured
    split
    · simpa [same.rEdge] using edge
    · simp

theorem ofInt32_pos {ticks : Int32} (later : 0 < ticks) : (0 : ℝ) < ofInt32 ticks := by
  have after : ¬ticks < 0 := Int32.lt_asymm later
  have positive : 0 < ticks.toInt := Int32.lt_iff_toInt_lt.mp later
  have bound := ticks.toInt_lt
  have converted : (UInt64.ofNat ticks.toInt.natAbs).toNat = ticks.toInt.natAbs :=
    UInt64.toNat_ofNat_of_lt' (by change _ < 2 ^ 64; omega)
  unfold ofInt32
  rw [if_neg after]
  show (0 : ℝ) < ((UInt64.ofNat ticks.toInt.natAbs).toNat : ℝ)
  rw [converted, Nat.cast_pos]
  omega

section Sector

variable (sector : 0 < hall.rSector)
include sector

theorem sectorMeasured_positive (inside : Fin 6) (obs : MechanicalObserver ℝ) :
    ∀ m ∈ sectorMeasured wrap inside hall obs, 0 < m.noise := by
  unfold sectorMeasured
  split
  · simpa using sector
  · simp

theorem speedMeasured_positive (clock : 0 < tickPeriod) (obs : MechanicalObserver ℝ) :
    ∀ m ∈ speedMeasured reference tickPeriod hall obs, 0 < m.noise := by
  have aged : (hall.agedChange reference).rSector = hall.rSector := by
    unfold agedChange
    split <;> rfl
  unfold speedMeasured
  dsimp only
  split
  · rename_i fast
    have since := mul_pos clock (ofInt32_pos fast.1)
    rw [aged]
    simpa using div_pos sector (mul_pos since since)
  · simp

theorem fuseSector_weighted (inside : Fin 6) {obs : MechanicalObserver ℝ} (weighted : obs.Weighted) :
    (fuseSector wrap inside hall obs).run.2.Weighted := by
  by_cases restarts : hall.started = false ∨ hall.valid = false ∧ (hall.sectorInnovation wrap inside obs.theta).run ≠ 0
  · unfold fuseSector
    generalize hall.sectorInnovation wrap inside obs.theta = innovation at restarts ⊢
    change ℝ at innovation
    change hall.started = false ∨ hall.valid = false ∧ innovation ≠ 0 at restarts
    have guard : (!hall.started || (!hall.valid && !Scalar.eq innovation Scalar.zero)) = true := by
      have zero := @eq_zero_iff innovation
      obtain started | ⟨valid, outside⟩ := restarts
      · simp [started]
      · simp [valid, Bool.eq_false_iff.mpr fun same => outside (zero.mp same)]
    change MechanicalObserver.Weighted (if (!hall.started || (!hall.valid && !Scalar.eq innovation Scalar.zero)) = true
      then _ else _)
    rw [if_pos guard]
    exact weighted.reset _ _
  · exact weighted.fused (sectorMeasured_positive sector inside obs) (fuseSector_fused inside restarts)

end Sector

section Update

variable (edge : 0 < hall.rEdge) (sector : 0 < hall.rSector) (clock : 0 < tickPeriod)
include edge sector clock

theorem measured_positive (events : List HallEvent) (obs : MechanicalObserver ℝ) :
    ∀ m ∈ measured wrap reference tickPeriod events hall obs, 0 < m.noise := by
  have kept := (@events_fused wrap reference tickPeriod events ⟨hall, obs, hall.code⟩).2.rSector
  unfold measured
  rw [List.forall_mem_append]
  refine ⟨eventsMeasured_positive edge events _ ⟨rfl, rfl⟩, ?_⟩
  change (fusedEvents events reference hall obs wrap tickPeriod).hall.rSector = hall.rSector at kept
  generalize fusedEvents events reference hall obs wrap tickPeriod = now at kept ⊢
  rw [← kept] at sector
  split
  · simp
  · rename_i inside found
    have pulled : 0 < (fuseSector wrap inside now.hall now.obs).run.1.rSector := by
      rw [fuseSector_kept]
      exact sector
    rw [List.forall_mem_append]
    exact ⟨sectorMeasured_positive sector inside _, speedMeasured_positive pulled clock _⟩

theorem update_weighted (events : List HallEvent) {obs : MechanicalObserver ℝ} (weighted : obs.Weighted) :
    (hall.update wrap events reference tickPeriod obs).run.2.Weighted := by
  have edges := @events_fused wrap reference tickPeriod events ⟨hall, obs, hall.code⟩
  have positive := @eventsMeasured_positive wrap reference tickPeriod hall edge events ⟨hall, obs, hall.code⟩ ⟨rfl, rfl⟩
  have moved := weighted.fused positive edges.1
  have kept := edges.2.rSector
  rw [update_observer]
  change (fusedEvents events reference hall obs wrap tickPeriod).hall.rSector = hall.rSector at kept
  change (fusedEvents events reference hall obs wrap tickPeriod).obs.Weighted at moved
  generalize fusedEvents events reference hall obs wrap tickPeriod = now at kept moved ⊢
  rw [← kept] at sector
  split
  · exact moved
  · rename_i inside found
    have kept : 0 < (fuseSector wrap inside now.hall now.obs).run.1.rSector := by
      rw [fuseSector_kept]
      exact sector
    have pulled := @fuseSector_weighted wrap now.hall sector inside now.obs moved
    exact pulled.fused (speedMeasured_positive kept clock _) (fuseSpeed_fused _ _)

end Update

end Noise

end HallFusion

namespace SlowUpdate

open MechanicalObserver (Fused)

variable (wrap : ℝ → Id ℝ) (view : CycleView ℝ) (slow : SlowUpdate ℝ)

open Classical in
noncomputable def fluxMeasured : Measured :=
  if view.released = true ∧ 0 < slow.fluxSetpoint.d then [⟨1, slow.fluxNoise⟩] else []

noncomputable def hallMeasured : Measured :=
  if slow.hall.enabled = true then
    HallFusion.measured wrap (view.timestamp - slow.referenceOffsetTicks) slow.tickPeriod view.events slow.hall
      slow.obs
  else []

noncomputable def injectionMeasured : Measured := if view.hfiActive = true then [⟨1, slow.obs.r⟩] else []

noncomputable def fluxed : SlowUpdate ℝ := (slow.predicted.fuseFlux wrap view).run

/-- The measurements of a run, in their order. -/
noncomputable def measured : Measured :=
  slow.predicted.fluxMeasured view ++ (slow.fluxed wrap view).hallMeasured wrap view ++ slow.injectionMeasured view

def HallRestarts : Prop :=
  slow.hall.enabled = true ∧
    HallFusion.Restarts wrap (view.timestamp - slow.referenceOffsetTicks) slow.tickPeriod view.events slow.hall
      slow.obs

def Restarts : Prop := (slow.fluxed wrap view).HallRestarts wrap view

/-- The covariance is that of the textbook filter after one step and the measurements of the run. -/
def OneCycle : Prop :=
  (slow.estimate wrap view).run.obs.matrix =
    cycle (slow.obs.transition slow.dtSlow) slow.obs.q slow.obs.matrix (slow.measured wrap view)

variable {wrap view slow}

/-- A part of a run that fuses measurements. -/
structure Stage (measured : Measured) (slow after : SlowUpdate ℝ) : Prop where
  fused : Fused measured slow.obs after.obs
  dtSlow : after.dtSlow = slow.dtSlow
  hfi : after.hfi = slow.hfi

theorem Stage.trans {first second : Measured} {between after : SlowUpdate ℝ} (early : Stage first slow between)
    (late : Stage second between after) : Stage (first ++ second) slow after :=
  ⟨early.fused.trans late.fused, late.dtSlow.trans early.dtSlow, late.hfi.trans early.hfi⟩

theorem fuseFlux_stage (slow : SlowUpdate ℝ) : Stage (slow.fluxMeasured view) slow (slow.fuseFlux wrap view).run := by
  unfold fuseFlux fluxMeasured PmsmFluxObserver.calculate
  by_cases released : view.released = true
  · by_cases set : 0 < slow.fluxSetpoint.d
    · have valid : ¬(!decide ((Scalar.zero : ℝ) < slow.fluxSetpoint.d)) = true := by
        rw [Scalar.zero_exact]
        simpa using set
      rw [if_pos released, if_pos ⟨released, set⟩]
      simp only [if_neg valid]
      exact ⟨MechanicalObserver.updateAngle_fused _ _, rfl, rfl⟩
    · have invalid : (!decide ((Scalar.zero : ℝ) < slow.fluxSetpoint.d)) = true := by
        rw [Scalar.zero_exact]
        simpa using set
      rw [if_pos released, if_neg fun both => set both.2]
      simp only [if_pos invalid]
      exact ⟨.refl _, rfl, rfl⟩
  · rw [if_neg released, if_neg fun both => released both.1]
    exact ⟨.refl _, rfl, rfl⟩

theorem fuseHall_stage {slow : SlowUpdate ℝ} (stays : ¬slow.HallRestarts wrap view) :
    Stage (slow.hallMeasured wrap view) slow (slow.fuseHall wrap view).run := by
  unfold fuseHall hallMeasured
  by_cases enabled : slow.hall.enabled = true
  · have on : ¬(!slow.hall.enabled) = true := by simp [enabled]
    rw [if_neg on, if_pos enabled]
    exact ⟨HallFusion.update_measured fun restarts => stays ⟨enabled, restarts⟩, rfl, rfl⟩
  · have off : (!slow.hall.enabled) = true := by simpa using enabled
    rw [if_pos off, if_neg enabled]
    exact ⟨.refl _, rfl, rfl⟩

section Injection

variable (wrap view)

noncomputable def sampled (slow : SlowUpdate ℝ) (k : Fin numSubSteps) : SlowUpdate ℝ :=
  let fused := (slow.hfi.update wrap (view.output.iAbSamples.get k) (view.sc.get k) slow.dtSlow slow.obs).run
  { slow with hfi := fused.1, obs := fused.2 }

/-- Until a sample completes the injection, and after that. -/
def Injecting (slow : SlowUpdate ℝ) (samples : Nat) (after : SlowUpdate ℝ) : Prop :=
  after.dtSlow = slow.dtSlow ∧
  (after.hfi.step = slow.hfi.step + samples ∧ after.hfi.step < 4 ∧ after.obs = slow.obs ∨
    after.hfi.step + 4 = slow.hfi.step + samples ∧
      Fused [⟨1, slow.obs.r⟩] (slow.obs.predictCovariance slow.dtSlow) after.obs)

variable {wrap view}

theorem Injecting.next {slow after : SlowUpdate ℝ} {samples : Nat} (injecting : Injecting slow samples after)
    (inside : slow.hfi.step < 4) (few : samples < 4) (k : Fin numSubSteps) :
    Injecting slow (samples + 1) (after.sampled wrap view k) := by
  obtain ⟨cycle, ⟨step, below, same⟩ | ⟨step, fused⟩⟩ := injecting
  · by_cases last : after.hfi.step = 3
    · refine ⟨cycle, .inr ⟨?_, ?_⟩⟩
      · show (after.hfi.step + 1) % 4 + 4 = _
        omega
      · simp only [sampled, Hfi.update, if_pos last, same, cycle]
        exact MechanicalObserver.updateAngle_fused _ _
    · have later : (after.hfi.step + 1) % 4 = after.hfi.step + 1 := Nat.mod_eq_of_lt (by omega)
      refine ⟨cycle, .inl ⟨?_, ?_, ?_⟩⟩
      · show (after.hfi.step + 1) % 4 = _
        omega
      · show (after.hfi.step + 1) % 4 < 4
        omega
      · simp only [sampled, Hfi.update, if_neg last]
        exact same
  · have early : after.hfi.step ≠ 3 := by omega
    refine ⟨cycle, .inr ⟨?_, ?_⟩⟩
    · show (after.hfi.step + 1) % 4 + 4 = _
      omega
    · simp only [sampled, Hfi.update, if_neg early]
      exact fused

theorem Injecting.all {slow after : SlowUpdate ℝ} {samples : Nat} (injecting : Injecting slow samples after)
    (inside : slow.hfi.step < 4) (ks : List (Fin numSubSteps)) (few : samples + ks.length ≤ 4) :
    Injecting slow (samples + ks.length) (ks.foldl (sampled wrap view) after) := by
  induction ks generalizing after samples with
  | nil => exact injecting
  | cons k ks ih =>
    rw [List.length_cons] at few
    have rest := ih (@Injecting.next wrap view _ _ _ injecting inside (by omega) k) (by omega)
    rwa [Nat.add_right_comm, Nat.add_assoc] at rest

theorem fuseInjection_idle (idle : view.hfiActive = false) : (slow.fuseInjection wrap view).run = slow := by
  unfold fuseInjection
  rw [idle]
  rfl

/-- Four samples complete the injection once, and its error comes with a time update of its own. -/
theorem fuseInjection_active (active : view.hfiActive = true) (inside : slow.hfi.step < 4) :
    Fused [⟨1, slow.obs.r⟩] (slow.obs.predictCovariance slow.dtSlow) (slow.fuseInjection wrap view).run.obs := by
  have on : ¬(!view.hfiActive) = true := by simp [active]
  have start : Injecting slow 0 slow := ⟨rfl, .inl ⟨rfl, inside, rfl⟩⟩
  have all := @Injecting.all wrap view slow slow 0 start inside (List.finRange numSubSteps) (by decide)
  obtain ⟨-, ⟨step, below, -⟩ | ⟨-, fused⟩⟩ := all
  · have four : (List.finRange numSubSteps).length = 4 := by decide
    omega
  · unfold fuseInjection
    rw [if_neg on]
    exact fused

end Injection

noncomputable def earlier (wrap : ℝ → Id ℝ) (view : CycleView ℝ) (slow : SlowUpdate ℝ) : Measured :=
  slow.predicted.fluxMeasured view ++ (slow.fluxed wrap view).hallMeasured wrap view

noncomputable def advanced (wrap : ℝ → Id ℝ) (view : CycleView ℝ) (slow : SlowUpdate ℝ) : SlowUpdate ℝ :=
  { slow with obs := (slow.obs.predict wrap view.output.iDqMean slow.dtSlow).run }

theorem advanced_stage (slow : SlowUpdate ℝ) : Stage [] slow (slow.advanced wrap view) :=
  ⟨MechanicalObserver.predict_fused _ _, rfl, rfl⟩

noncomputable def ahead (wrap : ℝ → Id ℝ) (view : CycleView ℝ) (slow : SlowUpdate ℝ) : SlowUpdate ℝ :=
  ((slow.fluxed wrap view).fuseHall wrap view).run.advanced wrap view

theorem estimate_run : (slow.estimate wrap view).run = ((slow.ahead wrap view).fuseInjection wrap view).run := by
  simp only [estimate, ahead, advanced, fluxed, Id.run_bind]

theorem ahead_stage (stays : ¬slow.Restarts wrap view) :
    Stage (slow.earlier wrap view) slow.predicted (slow.ahead wrap view) := by
  have flux := @fuseFlux_stage wrap view slow.predicted
  have hall := fuseHall_stage stays
  have all := (flux.trans hall).trans (@advanced_stage wrap view _)
  rwa [List.append_nil] at all

theorem ahead_matrix (stays : ¬slow.Restarts wrap view) :
    (slow.ahead wrap view).obs.matrix =
      cycle (slow.obs.transition slow.dtSlow) slow.obs.q slow.obs.matrix (slow.earlier wrap view) := by
  have predicted := slow.obs.predictCovariance_matrix slow.dtSlow
  rw [conjTranspose_eq_transpose_of_trivial] at predicted
  rw [(ahead_stage stays).fused.matrix]
  exact congrArg (List.foldl measure · (slow.earlier wrap view)) predicted

theorem oneCycle_idle (stays : ¬slow.Restarts wrap view) (idle : view.hfiActive = false) : slow.OneCycle wrap view := by
  unfold OneCycle
  rw [estimate_run, fuseInjection_idle idle, ahead_matrix stays]
  simp [measured, earlier, injectionMeasured, idle]

/-- With the injection the step of the cycle is taken twice. -/
theorem oneCycle_active (stays : ¬slow.Restarts wrap view) (active : view.hfiActive = true)
    (inside : slow.hfi.step < 4) :
    slow.OneCycle wrap view ↔
      measure (((slow.ahead wrap view).obs.predictCovariance slow.dtSlow).matrix) ⟨1, slow.obs.r⟩ =
        measure (slow.ahead wrap view).obs.matrix ⟨1, slow.obs.r⟩ := by
  have stage := ahead_stage stays
  have step : (slow.ahead wrap view).hfi.step < 4 := by rwa [stage.hfi]
  have injected := (@fuseInjection_active wrap view _ active step).matrix
  rw [stage.fused.r, stage.dtSlow] at injected
  have all : slow.measured wrap view = slow.earlier wrap view ++ [⟨1, slow.obs.r⟩] := by
    simp [measured, earlier, injectionMeasured, active]
  unfold OneCycle
  rw [estimate_run, injected, all]
  unfold cycle
  rw [List.foldl_append]
  have before := ahead_matrix stays
  unfold cycle at before
  rw [← before]
  rfl

/-- All noises, the clock and the cycle are positive; the injection is at one of its steps. -/
structure Weighted (slow : SlowUpdate ℝ) : Prop where
  obs : slow.obs.Weighted
  step : slow.hfi.step < 4
  rEdge : 0 < slow.hall.rEdge
  rSector : 0 < slow.hall.rSector
  tickPeriod : 0 < slow.tickPeriod
  dtSlow : 0 < slow.dtSlow

theorem fluxNoise_pos {slow : SlowUpdate ℝ} (noise : 0 < slow.obs.r) : 0 < slow.fluxNoise := by
  unfold fluxNoise
  split
  · exact noise
  · rename_i some
    have speed : 0 < slow.fluxRSpeed := by norm_num [Scalar.zero] at some; exact some
    rw [Scalar.max_exact]
    have floor : (0 : ℝ) < max (slow.obs.omega * slow.obs.omega) (1.0 * 1.0) :=
      lt_of_lt_of_le (by norm_num) (le_max_right _ _)
    exact add_pos noise (div_pos speed floor)

theorem fluxMeasured_positive {slow : SlowUpdate ℝ} (noise : 0 < slow.obs.r) :
    ∀ m ∈ slow.fluxMeasured view, 0 < m.noise := by
  have weight := fluxNoise_pos noise
  unfold fluxMeasured
  split
  · simpa using weight
  · simp

theorem Weighted.predicted (weighted : Weighted slow) : Weighted slow.predicted :=
  { weighted with obs := weighted.obs.predictCovariance slow.dtSlow }

theorem fuseFlux_kept (slow : SlowUpdate ℝ) : (slow.fuseFlux wrap view).run.hall = slow.hall ∧
    (slow.fuseFlux wrap view).run.tickPeriod = slow.tickPeriod := by
  unfold fuseFlux
  split
  · dsimp only
    split <;> exact ⟨rfl, rfl⟩
  · exact ⟨rfl, rfl⟩

theorem Weighted.fuseFlux (weighted : Weighted slow) : Weighted (slow.fuseFlux wrap view).run := by
  have kept := @fuseFlux_kept wrap view slow
  have stage := @fuseFlux_stage wrap view slow
  refine ⟨weighted.obs.fused (fluxMeasured_positive weighted.obs.r) stage.fused, ?_, ?_, ?_, ?_, ?_⟩
  · exact stage.hfi ▸ weighted.step
  · exact kept.1 ▸ weighted.rEdge
  · exact kept.1 ▸ weighted.rSector
  · exact kept.2 ▸ weighted.tickPeriod
  · exact stage.dtSlow ▸ weighted.dtSlow

theorem hallMeasured_positive (weighted : Weighted slow) : ∀ m ∈ slow.hallMeasured wrap view, 0 < m.noise := by
  unfold hallMeasured
  split
  · exact HallFusion.measured_positive weighted.rEdge weighted.rSector weighted.tickPeriod _ _
  · simp

theorem Weighted.fuseHall (weighted : Weighted slow) : Weighted (slow.fuseHall wrap view).run := by
  unfold SlowUpdate.fuseHall
  split
  · exact weighted
  · have noise := @HallFusion.update_noise wrap (view.timestamp - slow.referenceOffsetTicks) slow.tickPeriod
      view.events slow.hall slow.obs
    exact ⟨HallFusion.update_weighted weighted.rEdge weighted.rSector weighted.tickPeriod _ weighted.obs,
      weighted.step, noise.rEdge ▸ weighted.rEdge, noise.rSector ▸ weighted.rSector, weighted.tickPeriod, weighted.dtSlow⟩

theorem Weighted.sampled (weighted : Weighted slow) (k : Fin numSubSteps) : Weighted (slow.sampled wrap view k) := by
  refine { weighted with obs := ?_, step := Nat.mod_lt _ (by decide) }
  by_cases last : slow.hfi.step = 3
  · simp only [SlowUpdate.sampled, Hfi.update, if_pos last]
    refine (weighted.obs.predictCovariance slow.dtSlow).fused ?_ (MechanicalObserver.updateAngle_fused _ _)
    simpa using weighted.obs.r
  · simp only [SlowUpdate.sampled, Hfi.update, if_neg last]
    exact weighted.obs

theorem Weighted.fuseInjection (weighted : Weighted slow) : Weighted (slow.fuseInjection wrap view).run := by
  unfold SlowUpdate.fuseInjection
  split
  · exact weighted
  · change Weighted ((List.finRange numSubSteps).foldl (SlowUpdate.sampled wrap view) slow)
    generalize List.finRange numSubSteps = ks
    induction ks generalizing slow with
    | nil => exact weighted
    | cons k ks ih => exact ih (weighted.sampled k)

theorem Weighted.advanced (weighted : Weighted slow) : Weighted (slow.advanced wrap view) :=
  { weighted with obs := weighted.obs.fused (by simp) (MechanicalObserver.predict_fused _ _) }

theorem Weighted.ahead (weighted : Weighted slow) : Weighted (slow.ahead wrap view) :=
  weighted.predicted.fuseFlux.fuseHall.advanced

/-- Every run of the observer keeps the weights, also one that restarts the estimate. -/
theorem Weighted.estimate (weighted : Weighted slow) : Weighted (slow.estimate wrap view).run := by
  rw [estimate_run]
  exact weighted.ahead.fuseInjection

theorem Weighted.active_iff (weighted : Weighted slow) (stays : ¬slow.Restarts wrap view)
    (active : view.hfiActive = true) :
    slow.OneCycle wrap view ↔ slow.obs.q = 0 ∧ Only 1 slow.obs.matrix := by
  have stage := ahead_stage stays
  have after := (@Weighted.ahead wrap view slow weighted).obs
  have predicted := weighted.predicted
  have positive : ∀ m ∈ slow.earlier wrap view, 0 < m.noise := by
    unfold earlier
    rw [List.forall_mem_append]
    exact ⟨fluxMeasured_positive predicted.obs.r, hallMeasured_positive predicted.fuseFlux⟩
  calc
    slow.OneCycle wrap view ↔
        measure ((slow.ahead wrap view).obs.predictCovariance slow.dtSlow).matrix ⟨1, slow.obs.r⟩ =
          measure (slow.ahead wrap view).obs.matrix ⟨1, slow.obs.r⟩ :=
      oneCycle_active stays active weighted.step
    _ ↔ ((slow.ahead wrap view).obs.predictCovariance slow.dtSlow).matrix = (slow.ahead wrap view).obs.matrix :=
      ⟨measure_injective (after.predictCovariance slow.dtSlow).covariance weighted.obs.r after.covariance,
        fun same => by rw [same]⟩
    _ ↔ (slow.ahead wrap view).obs.q = 0 ∧ Only 1 (slow.ahead wrap view).obs.matrix :=
      MechanicalObserver.predictCovariance_fixed after.covariance after.q weighted.dtSlow after.j
    _ ↔ slow.obs.q = 0 ∧ Only 1 (slow.obs.predictCovariance slow.dtSlow).matrix := by
      rw [stage.fused.q, stage.fused.matrix]
      exact and_congr_right fun _ => measured_only predicted.obs.covariance positive 1
    _ ↔ slow.obs.q = 0 ∧ Only 1 slow.obs.matrix :=
      and_congr_right fun noise =>
        MechanicalObserver.predictCovariance_only weighted.obs.covariance weighted.obs.q noise

theorem init_observer {s : NvmSettings} (accepted : Accepted Binary32 s) (frequency : UInt32) (slow : SlowUpdate ℝ) :
    (slow.init s frequency).obs = slow.obs.init s := by
  have running := pwmHertz_exact accepted
  unfold init
  simp only [running, ↓reduceIte]

theorem weighted_init {s : NvmSettings} (accepted : Accepted Binary32 s)
    (steady : 0 ≤ (s.real .mechObsQ : ℝ)) {frequency : UInt32} (ticking : 0 < frequency.toNat)
    (slow : SlowUpdate ℝ) : Weighted (slow.init s frequency) := by
  have running := pwmHertz_exact accepted
  have positive := accepted.frequency_exact.1
  unfold init
  simp only [running, ↓reduceIte]
  refine ⟨⟨?_, steady, accepted.real_positive (by decide), accepted.real_positive (by decide)⟩, Nat.lt_succ_self 3,
    accepted.real_positive (by decide), accepted.real_positive (by decide), ?_, ?_⟩
  · show (slow.obs.init s).matrix.PosSemidef
    rw [MechanicalObserver.init, MechanicalObserver.reset_matrix]
    exact PosSemidef.zero
  · have clock : (0 : ℝ) < Scalar.ofUInt64 frequency.toUInt64 := by
      show (0 : ℝ) < (frequency.toUInt64.toNat : ℝ)
      rwa [Nat.cast_pos, UInt32.toNat_toUInt64]
    exact div_pos (by norm_num) clock
  · have steps : (0 : ℝ) < Scalar.ofUInt64 (UInt64.ofNat numSubSteps) := by
      show (0 : ℝ) < ((UInt64.ofNat numSubSteps).toNat : ℝ)
      norm_num [numSubSteps]
    have pwm : 0 < (s.real .pwmFrequency : ℝ) := by linarith
    exact mul_pos (div_pos (by norm_num) (mul_pos (by norm_num) pwm)) steps

end SlowUpdate

theorem one_time_update (wrap : ℝ → Id ℝ) (view : CycleView ℝ) (slow : SlowUpdate ℝ)
    (stays : ¬slow.Restarts wrap view) :
    (view.hfiActive = false → slow.OneCycle wrap view) ∧
    (slow.Weighted →
      (slow.OneCycle wrap view ↔ view.hfiActive = false ∨ slow.obs.q = 0 ∧ Only 1 slow.obs.matrix)) := by
  refine ⟨SlowUpdate.oneCycle_idle stays, ?_⟩
  intro weighted
  cases active : view.hfiActive with
  | false => exact ⟨fun _ => .inl rfl, fun _ => SlowUpdate.oneCycle_idle stays active⟩
  | true =>
    rw [weighted.active_iff stays active]
    simp

section Bench

open SlowUpdate

noncomputable def firstInjection : CycleView ℝ := { firstVolt with released := false, hfiActive := true }

noncomputable def started : SlowUpdate ℝ := atRest.init .default 1000000

theorem defaults_accepted : validate NvmSettings.default simCapabilities = .success := by decide

theorem started_weighted : started.Weighted ∧ 0 < started.obs.q := by
  have noise : 0 < (NvmSettings.default.real .mechObsQ : ℝ) := by
    rw [real_value, default_values.2.1]
    norm_num [Binary.value]
  have accepted := validate_accepted defaults_accepted
  refine ⟨weighted_init accepted noise.le (by decide) atRest, ?_⟩
  rw [started, init_observer accepted]
  exact noise

theorem started_stays : ¬started.Restarts wrapNear firstInjection := by
  rintro ⟨enabled, -⟩
  rw [fluxed, (fuseFlux_kept started.predicted).1] at enabled
  change decide (NvmSettings.default.natural8 .hallEnable ≠ 0) = true at enabled
  exact absurd enabled (by decide)

theorem one_time_update_started :
    ¬started.Restarts wrapNear firstInjection ∧
      (started.OneCycle wrapNear firstInjection ↔
        firstInjection.hfiActive = false ∨ started.obs.q = 0 ∧ Only 1 started.obs.matrix) :=
  ⟨started_stays, (one_time_update wrapNear firstInjection started started_stays).2 started_weighted.1⟩

/-- The first cycle after a start steps the covariance twice. -/
theorem time_update_doubled :
    validate NvmSettings.default simCapabilities = .success ∧ firstInjection.hfiActive = true ∧
      ¬started.Restarts wrapNear firstInjection ∧ ¬started.OneCycle wrapNear firstInjection := by
  refine ⟨defaults_accepted, rfl, started_stays, ?_⟩
  intro one
  have still := (started_weighted.1.active_iff started_stays rfl).mp one
  exact started_weighted.2.ne' still.1

end Bench

end Unimoc.CurrentControl
