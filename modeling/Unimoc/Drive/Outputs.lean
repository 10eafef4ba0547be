import Unimoc.Drive.History

/-! Who has the outputs on: the drive or a run of the startup aid, nobody after an emergency
stop, and nobody at a restart that no request has overtaken. -/
namespace Unimoc.Drive

open CurrentControl Cyphal Firmware Hardware Runs Settings Startup Trace

variable {F E : Type} [Arithmetic F]

/-! ### The two owners -/

section Owners

/-- The stage is on for one of its owners, and the two do not overlap. -/
def ownedAfter (e : Event F) (past : List (Event F)) : Bool :=
  (!stageOn (e :: past) || engagedNow (e :: past) || activeRun (e :: past)) &&
    !(engagedNow (e :: past) && activeRun (e :: past))

/-- An enabled stage belongs to exactly one of the engaged drive and an active run, at the end
of the spin and after every step of it. -/
structure OutputsOwned (s : System F E) : Prop where
  held : s.board.stage.getState = .enabled →
    s.engaged = true ∧ s.startup.isActive = false ∨ s.engaged = false ∧ s.startup.isActive = true
  exclusive : ¬(s.engaged = true ∧ s.startup.isActive = true)
  throughout : Throughout (fun e past => ownedAfter e past) s.board.trace

theorem ownedAfter_of_owned {boot : System.Boot F E} {e : Event F} {past : List (Event F)}
    (owned : Owned (after boot (e :: past))) : ownedAfter e past = true := by
  unfold ownedAfter
  rw [← after_enabled boot, ← after_engaged boot, ← after_running boot]
  cases enabled : (after boot (e :: past)).enabled with
  | false =>
    cases engaged : (after boot (e :: past)).engaged with
    | false => rfl
    | true => simp [owned.exclusive engaged]
  | true =>
    obtain engaged | running := owned.held enabled
    · simp [engaged, owned.exclusive engaged]
    · cases engaged : (after boot (e :: past)).engaged with
      | false => simp [running]
      | true => exact absurd running (by simp [owned.exclusive engaged])

theorem outputs_owned [EbikeControl E F] (boot : System.Boot F E) (inputs : List (System.Input F)) :
    OutputsOwned (System.run boot inputs) := by
  obtain ⟨m, ended⟩ := ended boot inputs
  refine ⟨fun released => ?_, ?_, ?_⟩
  · obtain engaged | running := ended.owners.held ((PowerStage.getState_enabled _).mp released)
    · exact .inl ⟨engaged, ended.exclusive engaged⟩
    · cases engaged : (System.run boot inputs).engaged with
      | false => exact .inr ⟨rfl, running⟩
      | true => exact .inl ⟨rfl, ended.exclusive engaged⟩
  · rintro ⟨engaged, running⟩
    exact absurd running (by simp [ended.exclusive engaged])
  · exact throughout_of_owned boot _
      (fun e past owned admitted => ownedAfter_of_owned (owned.step admitted)) ended.legal

end Owners

/-! ### The emergency stop -/

section EmergencyStop

/-- Nothing releases the outputs after an emergency stop: no engage, no start of a run, no
step of a run that releases them again. -/
def stoppedForGood : Event F → List (Event F) → Bool
  | .engaged, past | .runStarted, past | .motorReleased, past => !emergencyStopped past
  | _, _ => true

structure EmergencyStopKept (s : System F E) : Prop where
  off : emergencyStopped s.board.trace = true →
    s.board.stage.getState ≠ .enabled ∧ s.engaged = false ∧ s.startup.isActive = false
  throughout : Throughout (fun e past => stoppedForGood e past) s.board.trace

theorem stoppedForGood_of_owned {boot : System.Boot F E} (e : Event F) (past : List (Event F))
    (owned : Owned (after boot past)) (admitted : (after boot past).admits e) :
    stoppedForGood e past = true := by
  have latched : emergencyStopped past = (after boot past).emergencyStop :=
    (after_emergencyStop boot past).symm
  cases e with
  | engaged => simp [stoppedForGood, latched, admitted.2.2.1]
  | runStarted => simp [stoppedForGood, latched, admitted.2.2]
  | motorReleased =>
    obtain ⟨running, unstopped⟩ := admitted
    cases stopped : (after boot past).emergencyStop with
    | false => simp [stoppedForGood, latched, stopped]
    | true =>
      obtain stopping | ⟨_, idle⟩ := owned.stopped stopped
      · exact absurd stopping (by simp [unstopped])
      · exact absurd running (by simp [idle])
  | _ => rfl

theorem emergency_stop_kept [EbikeControl E F] (boot : System.Boot F E) (inputs : List (System.Input F)) :
    EmergencyStopKept (System.run boot inputs) := by
  obtain ⟨m, ended⟩ := ended boot inputs
  refine ⟨fun stopped => ?_, ?_⟩
  · have idle := ended.idle_of_stopped (ended.emergencyStop.trans stopped)
    refine ⟨fun released => ?_, idle⟩
    obtain engaged | running := ended.owners.held ((PowerStage.getState_enabled _).mp released)
    · exact absurd engaged (by simp [System.view, idle.1])
    · exact absurd running (by simp [System.view, idle.2])
  · exact throughout_of_owned boot _ stoppedForGood_of_owned ended.legal

end EmergencyStop

/-! ### The restart -/

section Restart

/-- While a restart is due no engage request is taken up and no run is started, unless an
emergency stop turns it down. -/
def restartAwaited : Event F → List (Event F) → Bool
  | .engageStep, past | .startAttempted, past => !restartPending past || emergencyStopped past
  | _, _ => true

/-- The drive restarts with the outputs off. -/
def restartsIdle : Event F → List (Event F) → Bool
  | .restarted, past => !engagedNow past && !stageOn past
  | _, _ => true

/-- Neither the drive nor the startup aid has the outputs or is about to get them. -/
structure Idle (c : Arming F) : Prop where
  engaged : c.engaged = false
  engaging : c.engaging = false
  starting : c.starting = false
  running : c.running = false

theorem idle_step {boot : System.Boot F E} (e : Event F) (past : List (Event F))
    (held : (after boot past).restartRequested = true →
      (after boot past).emergencyStop = true ∨ Idle (after boot past))
    (admitted : (after boot past).admits e) (met : restartAwaited e past = true)
    (due : ((after boot past).next e).restartRequested = true) :
    ((after boot past).next e).emergencyStop = true ∨ Idle ((after boot past).next e) := by
  have overtaken (due : (after boot past).restartRequested = true)
      (met : (!restartPending past || emergencyStopped past) = true) :
      (after boot past).emergencyStop = true := by
    rw [after_restartRequested] at due
    rw [after_emergencyStop]
    simpa [due] using met
  cases e with
  | restartAccepted =>
    obtain ⟨running, engaged, calm⟩ := admitted
    exact .inr ⟨engaged, calm.engaging, calm.starting, running⟩
  | restarted => cases due
  | engageStep | startAttempted => exact .inl (overtaken due met)
  | emergencyStop => exact .inl rfl
  | engageIgnored | engageRefused =>
    exact (held due).imp_right fun idle => ⟨idle.engaged, rfl, idle.starting, idle.running⟩
  | engaged =>
    obtain stopped | idle := held due
    · exact .inl stopped
    · exact absurd admitted.1 (by simp [idle.engaging])
  | disengaged reason =>
    exact (held due).imp_right fun idle => ⟨rfl, idle.engaging, idle.starting, idle.running⟩
  | startRefused => exact (held due).imp_right fun idle => ⟨idle.engaged, idle.engaging, rfl, idle.running⟩
  | runStarted =>
    obtain stopped | idle := held due
    · exact .inl stopped
    · exact absurd admitted.1 (by simp [idle.starting])
  | runEnded reason =>
    exact (held due).imp_right fun idle => ⟨idle.engaged, idle.engaging, idle.starting, rfl⟩
  | _ => exact (held due).imp_right fun idle => ⟨idle.engaged, idle.engaging, idle.starting, idle.running⟩

theorem idle_while_due {boot : System.Boot F E} {trace : List (Event F)}
    (legal : (bootMachine boot).Legal trace)
    (met : Throughout (fun e past => restartAwaited e past) trace)
    (due : (after boot trace).restartRequested = true) :
    (after boot trace).emergencyStop = true ∨ Idle (after boot trace) :=
  after_invariant boot _ (fun c _ => c.restartRequested = true → c.emergencyStop = true ∨ Idle c) nofun
    (fun e past _ held admitted met => idle_step e past held admitted met) legal met due

theorem restartsIdle_of_idle {boot : System.Boot F E} (e : Event F) (past : List (Event F))
    (owned : Owned (after boot past))
    (held : (after boot past).restartRequested = true →
      (after boot past).emergencyStop = true ∨ Idle (after boot past))
    (admitted : (after boot past).admits e) : restartsIdle e past = true := by
  cases e with
  | restarted =>
    obtain ⟨due, calm⟩ := admitted
    have idle : (after boot past).engaged = false ∧ (after boot past).running = false := by
      obtain stopped | idle := held due
      · exact (owned.stopped stopped).resolve_left (by simp [calm.stopping])
      · exact ⟨idle.engaged, idle.running⟩
    have off : (after boot past).enabled = false := by
      cases on : (after boot past).enabled with
      | false => rfl
      | true => exact absurd (owned.held on) (by simp [idle.1, idle.2])
    rw [after_enabled] at off
    rw [after_engaged] at idle
    simp [restartsIdle, idle.1, off]
  | _ => rfl

theorem restarts_idle [EbikeControl E F] (boot : System.Boot F E) (inputs : List (System.Input F))
    (met : Throughout (fun e past => restartAwaited e past) (System.run boot inputs).board.trace) :
    Throughout (fun e past => restartsIdle e past) (System.run boot inputs).board.trace := by
  obtain ⟨m, ended⟩ := ended boot inputs
  exact throughout_of_invariant boot _
    (fun c _ => c.restartRequested = true → c.emergencyStop = true ∨ Idle c) _ idle_while_due
    (fun e past owned held admitted _ => restartsIdle_of_idle e past owned held admitted) ended.legal met

/-- RESTART disengages the drive and restarts it when its answer is out. -/
theorem restarts_idle_engaged :
    Throughout (fun e past => restartsIdle e past)
      (System.run simBoot [simInput 2000 [readinessMessage readinessEngaged] [],
        simInput 3000 [commandRequest Command.restart] [], simInput 203000 [] []]).board.trace :=
  restarts_idle simBoot _ (by decide +kernel)

/-- An ENGAGED between RESTART and the restart. -/
theorem restarts_engaged :
    ¬Throughout (fun e past => restartsIdle e past)
      (System.run simBoot [simInput 2000 [commandRequest Command.restart] [],
        simInput 3000 [readinessMessage readinessEngaged] [], simInput 202000 [] []]).board.trace := by
  decide +kernel

end Restart

end Unimoc.Drive
