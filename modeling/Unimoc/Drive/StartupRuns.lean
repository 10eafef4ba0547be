import Unimoc.Drive.History

/-! The drive and the runs of its startup aid: whether the duties a run has forced are
released again, and whether the controller restarts under a run. -/
namespace Unimoc.Drive

open CurrentControl Cyphal Firmware Runs Settings Startup Trace

variable {F E : Type} [Arithmetic F]

/-! ### The forced duties -/

section ForcedDuties

/-- No run is aborted before the drive has recorded it. -/
def abortRecorded : Event F → List (Event F) → Bool
  | .runEnded .aborted, past => recordedRun past
  | _, _ => true

/-- The control cycle of an engaged drive forces no duties. -/
def ForcedReleased (s : System F E) : Prop :=
  s.engaged = true → s.board.isr.forceDutyActive = false

/-- Duties are forced by a run, or the drive will release them, or has stopped for good. -/
def ForcedByRun (c : Arming F) : Prop :=
  c.forced = true → c.running = true ∨ c.starting = true ∨ c.startupActive = true ∨ c.emergencyStop = true

theorem forcedByRun_runEnded {boot : System.Boot F E} {past : List (Event F)} {reason : StartupFault}
    (admitted : (after boot past).admits (.runEnded reason))
    (met : abortRecorded (.runEnded reason) past = true) :
    ForcedByRun ((after boot past).next (.runEnded reason)) := by
  intro _
  obtain ⟨_, _, _, aborted | recorded | stopped⟩ := admitted
  · subst aborted
    exact .inr (.inr (.inl ((after_startupActive boot past).trans met)))
  · exact .inr (.inr (.inl recorded))
  · exact .inr (.inr (.inr stopped))

theorem forcedByRun_step {boot : System.Boot F E} (e : Event F) (past : List (Event F))
    (held : ForcedByRun (after boot past)) (admitted : (after boot past).admits e)
    (met : abortRecorded e past = true) : ForcedByRun ((after boot past).next e) := by
  intro forced
  cases e with
  | forced => exact admitted.elim (fun starting => .inr (.inl starting)) .inl
  | released => cases forced
  | startRefused => exact absurd forced (by simp [Arming.next, admitted.2])
  | runStarted => exact .inl rfl
  | runEnded reason => exact forcedByRun_runEnded admitted met forced
  | runEndRecorded => exact absurd forced (by simp [Arming.next, admitted.2.2])
  | runRecorded => exact .inr (.inr (.inl rfl))
  | startAttempted => exact .inr (.inl rfl)
  | emergencyStop => exact .inr (.inr (.inr rfl))
  | startRuntime settings accepted dropsFault =>
    simp only [Arming.next, Arming.restart] at forced
    split at forced
    · exact held forced
    · cases forced
  | _ => exact held forced

theorem forced_released [EbikeControl E F] (boot : System.Boot F E) (inputs : List (System.Input F))
    (met : Throughout (fun e past => abortRecorded e past) (System.run boot inputs).board.trace) :
    ForcedReleased (System.run boot inputs) := by
  intro engaged
  obtain ⟨m, ended⟩ := ended boot inputs
  have held := after_invariant boot _ (fun c _ => ForcedByRun c) nofun
    (fun e past _ held admitted met => forcedByRun_step e past held admitted met) ended.legal met
  rw [ended.state] at held
  cases forced : (System.run boot inputs).board.isr.forceDutyActive with
  | false => rfl
  | true =>
    obtain running | starting | recorded | stopped := held forced
    · exact absurd running (by simp [System.view, ended.exclusive engaged])
    · exact absurd starting (by simp [System.view, ended.spun.follows.calm.starting])
    · exact absurd recorded (by simp [System.view, ended.spun.recorded engaged])
    · exact absurd engaged (by simp [(ended.idle_of_stopped stopped).1])

/-- A run aborted in the spin after its start, then ENGAGED. -/
theorem forced_released_aborted :
    ForcedReleased
      (System.run simBoot [simInput 2000 [commandRequest Command.startStartupAid] [],
        simInput 3000 [commandRequest Command.abort] [],
        simInput 4000 [readinessMessage readinessEngaged] []]) :=
  forced_released simBoot _ (by decide +kernel)

/-- A run aborted in the spin of its start, then ENGAGED. -/
theorem forced_engaged :
    ¬ForcedReleased
      (System.run simBoot
        [simInput 2000 [commandRequest Command.startStartupAid, commandRequest Command.abort] [],
          simInput 3000 [readinessMessage readinessEngaged] []]) := by
  intro released
  exact absurd (released (by decide +kernel)) (by decide +kernel)

end ForcedDuties

/-! ### The controller under a run -/

section Controller

/-- When changed settings are to be applied during a run, it does not wait for the motor, and no trip,
break or loss of the external enable has come since it was given the outputs. -/
def runKeepsOutputs : Event F → List (Event F) → Bool
  | .applyChecked _, past => !activeRun past || !(awaitsMotor past || outputsLost past)
  | _, _ => true

/-- The controller is not restarted under a run. -/
def runUndisturbed : Event F → List (Event F) → Bool
  | .startRuntime _ _ _, past => !activeRun past
  | _, _ => true

/-- An active run has the outputs on but for its own end, the wait for the motor and a trip or break. -/
structure HoldsOutputs (c : Arming F) (past : List (Event F)) : Prop where
  enabled : c.running = true →
    c.enabled = true ∨ c.closing = true ∨ awaitsMotor past = true ∨ outputsLost past = true

theorem holdsOutputs_step (e : Event F) (past : List (Event F)) {c : Arming F} (owned : Owned c)
    (held : HoldsOutputs c past) (admitted : c.admits e) : HoldsOutputs (c.next e) (e :: past) := by
  refine ⟨fun running => ?_⟩
  cases e with
  | controlTrip | hardwareBreak => exact .inr (.inr (.inr rfl))
  | externalEnable present =>
    cases present with
    | false => exact .inr (.inr (.inr rfl))
    | true =>
      refine (held.enabled running).imp_left fun on => ?_
      simp [Arming.next, on]
  | disabled =>
    have disengaged : c.engaged = false := by
      cases engaged : c.engaged with
      | false => rfl
      | true => exact absurd running (by simp [Arming.next, owned.exclusive engaged])
    have running : c.running = true := running
    exact .inr (.inl (by simp [Arming.next, running, disengaged]))
  | engaged | runStarted | motorReleased => exact .inl rfl
  | motorAwaited => exact .inr (.inr (.inl rfl))
  | runEnded reason => cases running
  | _ => exact held.enabled running

/-- Settings are applied between the runs. -/
structure BetweenRuns (c : Arming F) : Prop where
  starting : c.starting = false
  running : c.running = false

theorem betweenRuns_step {boot : System.Boot F E} (e : Event F) (past : List (Event F))
    (outputs : HoldsOutputs (after boot past) past)
    (held : (after boot past).applying = true → BetweenRuns (after boot past))
    (admitted : (after boot past).admits e) (met : runKeepsOutputs e past = true)
    (applying : ((after boot past).next e).applying = true) : BetweenRuns ((after boot past).next e) := by
  cases e with
  | applyChecked dropsFault =>
    obtain ⟨_, unstarted, unclosed, _⟩ := admitted
    refine ⟨unstarted, ?_⟩
    have off : (after boot past).enabled = false := by simpa [Arming.next] using applying
    change (after boot past).running = false
    cases running : (after boot past).running with
    | false => rfl
    | true =>
      have lost : awaitsMotor past = true ∨ outputsLost past = true := by
        obtain on | closing | lost := outputs.enabled running
        · exact absurd on (by simp [off])
        · exact absurd closing (by simp [unclosed])
        · exact lost
      rw [after_running] at running
      simp only [runKeepsOutputs, running, Bool.not_true, Bool.false_or, Bool.not_eq_true', Bool.or_eq_false_iff] at met
      obtain awaits | lost := lost
      · exact absurd awaits (by simp [met.1])
      · exact absurd lost (by simp [met.2])
  | startRuntime settings accepted dropsFault => cases applying
  | startAttempted =>
    obtain ⟨_, _, _, calm⟩ := admitted
    exact absurd applying (by simp [Arming.next, calm.applying])
  | startRefused => exact ⟨rfl, (held applying).running⟩
  | runStarted => exact absurd admitted.1 (by simp [(held applying).starting])
  | runEnded reason => exact ⟨(held applying).starting, rfl⟩
  | _ => exact ⟨(held applying).starting, (held applying).running⟩

theorem run_undisturbed [EbikeControl E F] (boot : System.Boot F E) (inputs : List (System.Input F))
    (met : Throughout (fun e past => runKeepsOutputs e past) (System.run boot inputs).board.trace) :
    Throughout (fun e past => runUndisturbed e past) (System.run boot inputs).board.trace := by
  obtain ⟨m, ended⟩ := ended boot inputs
  refine throughout_of_invariant boot _
    (fun c past => HoldsOutputs c past ∧ (c.applying = true → BetweenRuns c)) _
    (fun legal met => ?_) (fun e past _ held admitted _ => ?_) ended.legal met
  · refine after_invariant boot _ (fun c past => HoldsOutputs c past ∧ (c.applying = true → BetweenRuns c))
      ⟨⟨nofun⟩, fun _ => ⟨rfl, rfl⟩⟩ (fun e past owned held admitted met => ?_) legal met
    exact ⟨holdsOutputs_step e past owned held.1 admitted, betweenRuns_step e past held.1 held.2 admitted met⟩
  · cases e with
    | startRuntime settings accepted dropsFault =>
      have idle := (held.2 admitted.1).running
      rw [after_running] at idle
      simp [runUndisturbed, idle]
    | _ => rfl

/-- A write during a run waits for its end. -/
theorem run_undisturbed_write :
    Throughout (fun e past => runUndisturbed e past)
      (System.run simBoot [simInput 2000 [commandRequest Command.startStartupAid] [],
        simInput 3000 [speedGainWrite 0x3F000000] []]).board.trace :=
  run_undisturbed simBoot _ (by decide +kernel)

/-- A write during a run, and a hardware break before the run sees it. -/
theorem run_disturbed :
    ¬Throughout (fun e past => runUndisturbed e past)
      (System.run simBoot [simInput 2000 [commandRequest Command.startStartupAid] [],
        simInput 3000 [speedGainWrite 0x3F000000] [[.hardwareBreak]]]).board.trace := by
  decide +kernel

end Controller

end Unimoc.Drive
