import Unimoc.Drive.History

/-! What the readiness of the bus asks of the drive, and where the drive misses it: a
request an earlier readiness of the spin has left, and a trip that a disengage for another
reason hides. -/
namespace Unimoc.Drive

open CurrentControl Cyphal Firmware Runs Settings Startup Trace

section Invariants

variable {F E : Type} [Arithmetic F] (boot : System.Boot F E)

theorem after_localControl (trace : List (Event F)) :
    (after boot trace).localControl = boot.ebike.isSome := by
  induction trace with
  | nil => rfl
  | cons e past ih => cases e <;> exact ih

/-- An engage request is taken up on an ENGAGED readiness, unless an emergency stop or a
run of the startup aid turns it down. -/
def takenUpReady : Event F → List (Event F) → Bool
  | .engageStep, past =>
    emergencyStopped past || activeRun past || lastReadiness past = some readinessEngaged
  | _, _ => true

/-- After a readiness other than ENGAGED the drive leaves the outputs, and no engage that is
under way gets them. -/
structure Answered (c : Arming F) (past : List (Event F)) : Prop where
  leaving : c.engaged = true → c.leaving = true
  turnedDown : c.engaging = true → c.emergencyStop = true ∨ c.running = true
  unengaged : engagedSinceReadiness past = false

variable {boot}

theorem answered_step (remote : boot.ebike = none) (e : Event F) (past : List (Event F))
    (held : lastReadiness past ≠ some readinessEngaged → Answered (after boot past) past)
    (admitted : (after boot past).admits e) (met : takenUpReady e past = true)
    (other : lastReadiness (e :: past) ≠ some readinessEngaged) :
    Answered ((after boot past).next e) (e :: past) := by
  have free : (after boot past).localControl = false := by
    rw [after_localControl, remote]
    rfl
  cases e with
  | readiness value =>
    have other : value ≠ readinessEngaged := fun same => other (congrArg some same)
    refine ⟨fun engaged => ?_, fun engaging => ?_, rfl⟩
    · simp only [Arming.next, other, ↓reduceIte]
      exact engaged
    · have idle : (after boot past).engaging = false := admitted.engaging
      exact absurd engaging (by simp [Arming.next, idle])
  | localRequest engage => exact absurd admitted.1 (by simp [free])
  | engageStep =>
    refine ⟨(held other).leaving, fun _ => ?_, (held other).unengaged⟩
    simp only [takenUpReady, Bool.or_eq_true, decide_eq_true_eq] at met
    obtain (stopped | active) | asked := met
    · exact .inl ((after_emergencyStop boot past).trans stopped)
    · exact .inr ((after_running boot past).trans active)
    · exact absurd asked other
  | engageIgnored | engageRefused => exact ⟨(held other).leaving, lowered, (held other).unengaged⟩
  | engaged =>
    obtain ⟨engaging, _, unstopped, idle, _⟩ := admitted
    obtain stopped | active := (held other).turnedDown engaging
    · exact absurd stopped (by simp [unstopped])
    · exact absurd active (by simp [idle])
  | disengaged reason => exact ⟨lowered, (held other).turnedDown, (held other).unengaged⟩
  | emergencyStop => exact ⟨(held other).leaving, fun _ => .inl rfl, (held other).unengaged⟩
  | runStarted => exact ⟨(held other).leaving, fun _ => .inr rfl, (held other).unengaged⟩
  | runEnded reason =>
    have idle : (after boot past).engaging = false := admitted.2.2.1
    refine ⟨(held other).leaving, fun engaging => ?_, (held other).unengaged⟩
    exact absurd engaging (by simp [Arming.next, idle])
  | _ => exact ⟨(held other).leaving, (held other).turnedDown, (held other).unengaged⟩

theorem answered (remote : boot.ebike = none) {trace : List (Event F)}
    (legal : (bootMachine boot).Legal trace) (met : Throughout (fun e past => takenUpReady e past) trace)
    (other : lastReadiness trace ≠ some readinessEngaged) : Answered (after boot trace) trace :=
  after_invariant boot _
    (fun c past => lastReadiness past ≠ some readinessEngaged → Answered c past)
    (fun _ => ⟨nofun, nofun, rfl⟩)
    (fun e past _ held admitted met => answered_step remote e past held admitted met) legal met other

/-- While a trip or fault waits for the re-arm, a disengage is one that has seen it, or the drive
has stopped for good; no run of the startup aid is started, and no settings are applied to hardware
that drops its fault then. -/
def tripHeeded : Event F → List (Event F) → Bool
  | .disengaged reason, past => !awaitsRearm past || reason.isTrip || emergencyStopped past
  | .startAttempted, past => !awaitsRearm past
  | .applyChecked dropsFault, past => !(awaitsRearm past && dropsFault)
  | _, _ => true

/-- While a trip or fault waits for the re-arm the drive is engaged, waits as well or has
stopped for good, and acknowledges nothing; no run is active, and no restart drops the fault. -/
structure Waiting (c : Arming F) : Prop where
  held : c.engaged = true ∨
    c.rearmRequired = true ∧ c.engageRequested = false ∧ c.engaging = false ∨ c.emergencyStop = true
  unacknowledged : c.acknowledging = true → c.engaged = true
  idle : c.starting = false ∧ c.running = false
  kept : c.applying = true → c.dropping = false

omit [Arithmetic F] in
theorem Waiting.of_engaged {c : Arming F} (owned : Owned c) (engaged : c.engaged = true) : Waiting c where
  held := .inl engaged
  unacknowledged _ := engaged
  idle := ⟨(owned.quiet engaged).1, owned.exclusive engaged⟩
  kept applying := absurd applying (by simp [(owned.quiet engaged).2])

omit [Arithmetic F] in
theorem Waiting.asked {c : Arming F} (w : Waiting c) (owned : Owned c) (asked : c.engageRequested = true) :
    c.emergencyStop = true := by
  obtain engaged | ⟨_, unasked, _⟩ | stopped := w.held
  · exact absurd engaged (by simp [(owned.asked asked).1])
  · exact absurd asked (by simp [unasked])
  · exact stopped

omit [Arithmetic F] in
theorem Waiting.engaging {c : Arming F} (w : Waiting c) (owned : Owned c) (engaging : c.engaging = true) :
    c.emergencyStop = true := by
  obtain engaged | ⟨_, _, idle⟩ | stopped := w.held
  · exact absurd engaged (by simp [owned.engaging engaging])
  · exact absurd engaging (by simp [idle])
  · exact stopped

theorem waiting_readiness {c : Arming F} (w : Waiting c) :
    Waiting (c.next (.readiness readinessEngaged)) := by
  refine ⟨?_, by simp [Arming.next], w.idle, w.kept⟩
  obtain engaged | ⟨required, unasked, idle⟩ | stopped := w.held
  · exact .inl engaged
  · exact .inr (.inl ⟨by simp [Arming.next, required], by simp [Arming.next, required, unasked], idle⟩)
  · exact .inr (.inr stopped)

theorem waiting_disengaged {c : Arming F} {reason : DisengageReason} (owned : Owned c)
    (admitted : c.admits (.disengaged reason))
    (noticed : reason.isTrip = true ∨ c.emergencyStop = true) :
    Waiting (c.next (.disengaged reason)) := by
  obtain ⟨engaged, _, required⟩ := admitted
  have engagement := Waiting.of_engaged owned engaged
  refine ⟨.inr ?_, nofun, engagement.idle, engagement.kept⟩
  obtain seen | stopped := noticed
  · have unasked : c.engageRequested = false := by
      cases asked : c.engageRequested with
      | false => rfl
      | true => exact absurd engaged (by simp [(owned.asked asked).1])
    have idle : c.engaging = false := by
      cases engaging : c.engaging with
      | false => rfl
      | true => exact absurd engaged (by simp [owned.engaging engaging])
    exact .inl ⟨required seen, unasked, idle⟩
  · exact .inr stopped

theorem waiting_step (remote : boot.ebike = none) (e : Event F) (past : List (Event F))
    (owned : Owned (after boot past)) (held : awaitsRearm past = true → Waiting (after boot past))
    (admitted : (after boot past).admits e) (met : tripHeeded e past = true)
    (awaits : awaitsRearm (e :: past) = true) : Waiting ((after boot past).next e) := by
  have tripped (reported : (if engagedNow past then some true else none).getD (awaitsRearm past) = true) :
      Waiting (after boot past) := by
    split at reported
    · rename_i engaged
      exact .of_engaged owned ((after_engaged boot past).trans engaged)
    · exact held reported
  cases e with
  | controlTrip | hardwareBreak =>
    have w := tripped awaits
    exact ⟨w.held, w.unacknowledged, w.idle, w.kept⟩
  | externalEnable present =>
    cases present with
    | false =>
      have w := tripped awaits
      exact ⟨w.held, w.unacknowledged, w.idle, w.kept⟩
    | true =>
      have w := held awaits
      exact ⟨w.held, w.unacknowledged, w.idle, w.kept⟩
  | readiness value =>
    by_cases asks : value = readinessEngaged
    · subst asks
      exact waiting_readiness (held awaits)
    · exact absurd awaits (by simp [awaitsRearm, asks])
  | localRequest engage =>
    exact absurd admitted.1 (by simp [after_localControl, remote])
  | engageStep =>
    have w := held awaits
    exact ⟨.inr (.inr (w.asked owned admitted.1)), w.unacknowledged, w.idle, w.kept⟩
  | engageIgnored | engageRefused =>
    have w := held awaits
    exact ⟨.inr (.inr (w.engaging owned admitted)), w.unacknowledged, w.idle, w.kept⟩
  | engaged => exact .of_engaged (owned.step admitted) rfl
  | tripSeen =>
    have w := held awaits
    exact ⟨.inl admitted, w.unacknowledged, w.idle, w.kept⟩
  | disengaged reason =>
    have awaits : awaitsRearm past = true := awaits
    simp only [tripHeeded, awaits, Bool.not_true, Bool.false_or, Bool.or_eq_true] at met
    refine waiting_disengaged owned admitted (met.imp_right fun stopped => ?_)
    exact (after_emergencyStop boot past).trans stopped
  | emergencyStop =>
    have w := held awaits
    exact ⟨.inr (.inr rfl), w.unacknowledged, w.idle, w.kept⟩
  | startAttempted =>
    have awaits : awaitsRearm past = true := awaits
    exact absurd met (by simp [tripHeeded, awaits])
  | runStarted => exact absurd admitted.1 (by simp [(held awaits).idle.1])
  | startRefused =>
    have w := held awaits
    exact ⟨w.held, w.unacknowledged, ⟨rfl, w.idle.2⟩, w.kept⟩
  | runEnded reason =>
    have w := held awaits
    exact ⟨w.held, w.unacknowledged, ⟨w.idle.1, rfl⟩, w.kept⟩
  | applyChecked dropsFault =>
    have awaits : awaitsRearm past = true := awaits
    have keeps : dropsFault = false := by simpa [tripHeeded, awaits] using met
    have w := held awaits
    exact ⟨w.held, w.unacknowledged, w.idle, fun _ => by simp [Arming.next, keeps]⟩
  | startRuntime settings accepted dropsFault =>
    have w := held awaits
    exact ⟨w.held, w.unacknowledged, w.idle, fun applying => lowered applying⟩
  | _ => exact ⟨(held awaits).held, (held awaits).unacknowledged, (held awaits).idle, (held awaits).kept⟩

theorem waiting (remote : boot.ebike = none) {trace : List (Event F)}
    (legal : (bootMachine boot).Legal trace) (met : Throughout (fun e past => tripHeeded e past) trace)
    (awaits : awaitsRearm trace = true) : Waiting (after boot trace) :=
  after_invariant boot _ (fun c past => awaitsRearm past = true → Waiting c) nofun
    (waiting_step remote) legal met awaits

omit [Arithmetic F] in
/-- Nothing is acknowledged while a trip or fault waits for the re-arm. -/
theorem Waiting.unacknowledgeable {c : Arming F} (w : Waiting c) (owned : Owned c) (owner : Owner) :
    ¬c.mayAcknowledge owner := by
  cases owner with
  | drive =>
    rintro ⟨disengaged, ⟨engaging, unstopped⟩ | ⟨acknowledging, _⟩⟩
    · exact absurd (w.engaging owned engaging) (by simp [unstopped])
    · exact absurd (w.unacknowledged acknowledging) (by simp [disengaged])
  | startup =>
    rintro (starting | running)
    · exact absurd starting (by simp [w.idle.1])
    · exact absurd running (by simp [w.idle.2])

end Invariants

/-! ### The order of the readiness -/

section ReadinessOrder

variable {F E : Type} [Arithmetic F]

/-- After a readiness other than ENGAGED the drive is not engaged and has not been since. -/
def ReadinessObeyed (s : System F E) : Prop :=
  ∀ value, lastReadiness s.board.trace = some value → value ≠ readinessEngaged →
    s.engaged = false ∧ engagedSinceReadiness s.board.trace = false

theorem readiness_obeyed [EbikeControl E F] (boot : System.Boot F E) (inputs : List (System.Input F))
    (remote : boot.ebike = none)
    (met : Throughout (fun e past => takenUpReady e past) (System.run boot inputs).board.trace) :
    ReadinessObeyed (System.run boot inputs) := by
  intro value last other
  obtain ⟨m, ended⟩ := ended boot inputs
  have answered := answered remote ended.legal met (by simp [last, other])
  refine ⟨?_, answered.unengaged⟩
  cases engaged : (System.run boot inputs).engaged with
  | false => rfl
  | true =>
    have leaving := answered.leaving
    rw [ended.state] at leaving
    exact absurd (leaving engaged) (by simp [System.view, ended.spun.follows.calm.leaving])

/-- SLEEP in the spin after the ENGAGED one. -/
theorem readiness_obeyed_sleep :
    ReadinessObeyed
      (System.run simBoot [simInput 2000 [readinessMessage readinessEngaged] [],
        simInput 3000 [readinessMessage 0] []]) :=
  readiness_obeyed simBoot _ rfl (by decide +kernel)

/-- ENGAGED, then SLEEP in the same spin: the request of the first is still taken up. -/
theorem readiness_overtaken :
    ¬ReadinessObeyed
      (System.run simBoot [simInput 2000 [readinessMessage readinessEngaged, readinessMessage 0] []]) := by
  intro obeyed
  have idle := (obeyed 0 (by decide) (by decide)).1
  exact absurd idle (by decide)

end ReadinessOrder

/-! ### The re-arm after a trip -/

section Rearm

variable {F E : Type} [Arithmetic F]

/-- While a trip or fault waits for the re-arm the drive does not engage, and nothing clears it. -/
def latchKept : Event F → List (Event F) → Bool
  | .engaged, past | .clearedTrips _, past | .clearedFault _, past => !awaitsRearm past
  | .startRuntime _ _ dropsFault, past => !(awaitsRearm past && dropsFault)
  | _, _ => true

theorem latchKept_of_waiting {boot : System.Boot F E} (e : Event F) (past : List (Event F))
    (owned : Owned (after boot past)) (held : awaitsRearm past = true → Waiting (after boot past))
    (admitted : (after boot past).admits e) (met : tripHeeded e past = true) :
    latchKept e past = true := by
  cases awaits : awaitsRearm past with
  | false =>
    unfold latchKept
    split <;> simp [awaits]
  | true =>
    have waiting := held awaits
    cases e with
    | engaged =>
      obtain ⟨engaging, _, unstopped, _⟩ := admitted
      exact absurd (waiting.engaging owned engaging) (by simp [unstopped])
    | clearedTrips owner => exact absurd admitted (waiting.unacknowledgeable owned owner)
    | clearedFault owner => exact absurd admitted (waiting.unacknowledgeable owned owner)
    | startRuntime settings accepted dropsFault =>
      obtain ⟨applying, _, drops⟩ := admitted
      simp [latchKept, drops, waiting.kept applying]
    | _ => rfl

theorem latch_kept [EbikeControl E F] (boot : System.Boot F E) (inputs : List (System.Input F))
    (remote : boot.ebike = none)
    (met : Throughout (fun e past => tripHeeded e past) (System.run boot inputs).board.trace) :
    Throughout (fun e past => latchKept e past) (System.run boot inputs).board.trace := by
  obtain ⟨m, ended⟩ := ended boot inputs
  exact throughout_of_invariant boot _ (fun c past => awaitsRearm past = true → Waiting c) _
    (waiting remote) latchKept_of_waiting ended.legal met

/-- A hardware break while the readiness is fresh, and ENGAGED again and again. -/
theorem latch_kept_break :
    Throughout (fun e past => latchKept e past)
      (System.run simBoot [simInput 2000 [readinessMessage readinessEngaged] [],
        simInput 3000 [readinessMessage readinessEngaged] [[.hardwareBreak]],
        simInput 4000 [readinessMessage readinessEngaged] []]).board.trace :=
  latch_kept simBoot _ rfl (by decide +kernel)

/-- A hardware break in the spin of a readiness timeout: the next ENGAGED releases the outputs and
clears the fault. After a break that was seen, the start of the startup aid clears it. -/
theorem latch_lost :
    ¬Throughout (fun e past => latchKept e past)
        (System.run simBoot [simInput 2000 [readinessMessage readinessEngaged] [],
          simInput 602000 [] [[.hardwareBreak]],
          simInput 603000 [readinessMessage readinessEngaged] []]).board.trace ∧
      ¬Throughout (fun e past => latchKept e past)
        (System.run simBoot [simInput 2000 [readinessMessage readinessEngaged] [],
          simInput 3000 [readinessMessage readinessEngaged] [[.hardwareBreak]],
          simInput 4000 [commandRequest Command.startStartupAid] []]).board.trace := by
  decide +kernel

end Rearm

end Unimoc.Drive
