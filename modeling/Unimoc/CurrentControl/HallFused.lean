import Unimoc.CurrentControl.ObserverCovariance
import Unimoc.CurrentControl.SlowUpdate

/-! What the Hall fusion keeps of the events of a cycle: their last code, and the time of the last
change. -/
namespace Unimoc.CurrentControl

namespace HallFusion

variable {F : Type} [Arithmetic F] {wrap : F → Id F} {tickPeriod : F}

theorem fuseEvent_same {reference : UInt32} {now : Progress F} {event : HallEvent} (same : event.code = now.hall.code) :
    fuseEvent wrap reference tickPeriod now event = pure now := if_pos same

section Other

variable {reference : UInt32} {now : Progress F} {event : HallEvent} (other : event.code ≠ now.hall.code)
include other

theorem fuseEvent_code : (fuseEvent wrap reference tickPeriod now event).run.hall.code = event.code := by
  unfold fuseEvent
  rw [if_neg other]
  rfl

theorem fuseEvent_lastChange :
    (fuseEvent wrap reference tickPeriod now event).run.hall.lastChange = event.timestamp := by
  unfold fuseEvent
  rw [if_neg other]
  rfl

theorem fuseEvent_atReference : (fuseEvent wrap reference tickPeriod now event).run.codeAtReference =
    if 0 ≤ ticksSince event.timestamp reference then event.code else now.codeAtReference := by
  unfold fuseEvent
  rw [if_neg other]
  rfl

theorem fuseEvent_enabled :
    (fuseEvent wrap reference tickPeriod now event).run.hall.enabled = now.hall.enabled := by
  unfold fuseEvent
  rw [if_neg other]
  by_cases invalid : (sector event.code).isNone = true
  · simp only [if_pos invalid]
    rfl
  simp only [if_neg invalid]
  generalize now.hall.edgeAngle wrap now.hall.code event.code = edge
  change Option F at edge
  cases edge with
  | some edge => rfl
  | none =>
    by_cases known : (sector now.hall.code).isSome = true
    · simp only [if_pos known]
      rfl
    · simp only [if_neg known]
      rfl

end Other

def codeAfter (code : UInt8) (events : List HallEvent) : UInt8 := events.foldl (fun _ event => event.code) code

theorem codeAfter_append (code : UInt8) (events : List HallEvent) (event : HallEvent) :
    codeAfter code (events ++ [event]) = event.code := by
  simp [codeAfter]

theorem fuseSector_kept (inside : Fin 6) (hall : HallFusion F) (obs : MechanicalObserver F) :
    (fuseSector wrap inside hall obs).run.1 = { hall with valid := true, started := true } := rfl

omit [Arithmetic F] in
theorem agedChange_code (reference : UInt32) (hall : HallFusion F) :
    (hall.agedChange reference).code = hall.code ∧ (hall.agedChange reference).enabled = hall.enabled := by
  unfold agedChange
  split_ifs <;> exact ⟨rfl, rfl⟩

theorem fuseSpeed_kept (reference : UInt32) (hall : HallFusion F) (obs : MechanicalObserver F) :
    (fuseSpeed wrap reference tickPeriod hall obs).run.1 = hall.agedChange reference := by
  unfold fuseSpeed
  dsimp only
  by_cases early : ticksSince (hall.agedChange reference).lastChange reference ≤ 0
  · rw [if_pos early]
    rfl
  · rw [if_neg early]
    rfl

theorem events_kept (reference : UInt32) (events : List HallEvent) (now : Progress F) :
    (events.foldlM (fuseEvent wrap reference tickPeriod) now).run.hall.code = codeAfter now.hall.code events ∧
      (events.foldlM (fuseEvent wrap reference tickPeriod) now).run.hall.enabled = now.hall.enabled := by
  induction events generalizing now with
  | nil => exact ⟨rfl, rfl⟩
  | cons event events ih =>
    obtain ⟨code, enabled⟩ := ih (fuseEvent wrap reference tickPeriod now event).run
    rw [List.foldlM_cons]
    by_cases same : event.code = now.hall.code
    · rw [fuseEvent_same same] at code enabled
      rw [fuseEvent_same same]
      refine ⟨code.trans ?_, enabled⟩
      rw [codeAfter, codeAfter, List.foldl_cons, same]
      rfl
    · rw [fuseEvent_code same] at code
      rw [fuseEvent_enabled same] at enabled
      exact ⟨code, enabled⟩

variable (events : List HallEvent) (reference : UInt32) (hall : HallFusion F) (obs : MechanicalObserver F)

def fusedEvents (wrap : F → Id F) (tickPeriod : F) : Progress F :=
  (events.foldlM (fuseEvent wrap reference tickPeriod) ⟨hall, obs, hall.code⟩).run

theorem update_fused : (hall.update wrap events reference tickPeriod obs).run.1 =
    match sector (fusedEvents events reference hall obs wrap tickPeriod).codeAtReference with
    | none => { (fusedEvents events reference hall obs wrap tickPeriod).hall with valid := false }
    | some _ =>
      { (fusedEvents events reference hall obs wrap tickPeriod).hall with
        valid := true, started := true }.agedChange reference := by
  unfold update fuseCodes fusedEvents
  generalize events.foldlM (fuseEvent wrap reference tickPeriod) ⟨hall, obs, hall.code⟩ = now
  change Progress F at now
  have code : (Id.run now).codeAtReference = now.codeAtReference := rfl
  simp only [Id.run_bind, code]
  cases found : sector now.codeAtReference with
  | none => rfl
  | some inside =>
    exact @fuseSpeed_kept F _ wrap tickPeriod reference { (Id.run now).hall with valid := true, started := true }
      (fuseSector wrap inside now.hall now.obs).run.2

theorem update_kept :
    (hall.update wrap events reference tickPeriod obs).run.1.code = codeAfter hall.code events ∧
      (hall.update wrap events reference tickPeriod obs).run.1.enabled = hall.enabled := by
  obtain ⟨code, enabled⟩ := @events_kept F _ wrap tickPeriod reference events ⟨hall, obs, hall.code⟩
  rw [update_fused]
  split
  · exact ⟨code, enabled⟩
  · rw [(agedChange_code ..).1, (agedChange_code ..).2]
    exact ⟨code, enabled⟩

end HallFusion

noncomputable def blankHall : HallFusion ℝ := ⟨0, 0, 0, false, false, false, 0, 0, 0, 0, 0⟩

end Unimoc.CurrentControl
