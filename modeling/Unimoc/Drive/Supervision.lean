import Unimoc.Drive.History

/-! The supervision of the engaged drive: how old its readiness and its setpoint may be, and
what the outer loop gets. -/
namespace Unimoc.Drive

open CurrentControl Cyphal Firmware Runs Settings Startup Trace

variable {F E : Type} [Arithmetic F]

section Invariants

variable {boot : System.Boot F E}

/-- A passed check: the stage was on, nothing had tripped, and the readiness is fresh or the
cart holds the engagement. -/
structure Passed (c : Arming F) (k : Check) : Prop where
  stageOn : k.stageOn = true
  untripped : k.tripLatched = false
  fresh : c.now - c.lastReadiness ≤ k.timeout ∨ k.holdsEngagement = true

omit [Arithmetic F] in
theorem Passed.refreshed {c : Arming F} {k : Check} (p : Passed c k) {d : Arming F}
    (refreshed : d.lastReadiness = d.now) : Passed d k := by
  refine ⟨p.stageOn, p.untripped, .inl ?_⟩
  rw [refreshed, UInt64.sub_self]
  exact UInt64.zero_le

theorem passed_step (e : Event F) (past : List (Event F))
    (held : ∀ k, checkNow past = some k → Passed (after boot past) k)
    (admitted : (after boot past).admits e) (k : Check) (checked : checkNow (e :: past) = some k) :
    Passed ((after boot past).next e) k := by
  cases e with
  | spin now => cases checked
  | readiness value => exact (held k checked).refreshed rfl
  | localRequest engage =>
    cases engage with
    | false => exact ⟨(held k checked).stageOn, (held k checked).untripped, (held k checked).fresh⟩
    | true => exact (held k checked).refreshed rfl
  | supervised timeout holds =>
    obtain ⟨_, seen, untripped, fresh⟩ := admitted
    rw [after_stageSeen] at seen
    rw [after_tripped] at untripped
    cases Option.some.inj checked
    exact ⟨seen, untripped, fresh⟩
  | _ => exact ⟨(held k checked).stageOn, (held k checked).untripped, (held k checked).fresh⟩

/-- The drive has no request, and no engagement, without a readiness. -/
structure Refreshed (boot : System.Boot F E) (c : Arming F) (past : List (Event F)) : Prop where
  asked : c.engageRequested = true → (refreshedAt boot.nowUs past).isSome = true
  engaging : c.engaging = true → (refreshedAt boot.nowUs past).isSome = true
  engaged : c.engaged = true → (refreshedAt boot.nowUs past).isSome = true

theorem refreshed_step (e : Event F) (past : List (Event F))
    (held : Refreshed boot (after boot past) past) (admitted : (after boot past).admits e) :
    Refreshed boot ((after boot past).next e) (e :: past) := by
  cases e with
  | readiness value => exact ⟨fun _ => rfl, fun _ => rfl, fun _ => rfl⟩
  | localRequest engage =>
    cases engage with
    | false =>
      refine ⟨fun asked => held.asked ?_, held.engaging, held.engaged⟩
      simpa [Arming.next] using asked
    | true => exact ⟨fun _ => rfl, fun _ => rfl, fun _ => rfl⟩
  | engageStep => exact ⟨lowered, fun _ => held.asked admitted.1, held.engaged⟩
  | engageIgnored | engageRefused => exact ⟨held.asked, lowered, held.engaged⟩
  | engaged => exact ⟨held.asked, lowered, fun _ => held.engaging admitted.1⟩
  | disengaged reason => exact ⟨held.asked, held.engaging, lowered⟩
  | _ => exact ⟨held.asked, held.engaging, held.engaged⟩

/-- The active setpoint is the one given last, any other the default. -/
structure Directs (boot : System.Boot F E) (c : Arming F) (past : List (Event F)) : Prop where
  active : c.setpointActive = true →
    given boot.nowUs past = some ⟨c.source, c.setpoint, c.lastSetpoint⟩
  cleared : c.setpointActive = false → c.setpoint = .default

theorem directs_step (e : Event F) (past : List (Event F))
    (held : Directs boot (after boot past) past) (admitted : (after boot past).admits e) :
    Directs boot ((after boot past).next e) (e :: past) := by
  cases e with
  | setpoint source value =>
    refine ⟨fun _ => ?_, nofun⟩
    exact congrArg (fun time => some (Given.mk source value time)) (after_now boot past).symm
  | setpointCleared => exact ⟨nofun, fun _ => rfl⟩
  | engaged =>
    obtain ⟨_, _, _, _, inactive, _⟩ := admitted
    exact ⟨fun active => absurd active (by simp [Arming.next, inactive]), held.cleared⟩
  | _ => exact ⟨held.active, held.cleared⟩

/-- What the outer loop may be handed: the default setpoint, or one given in this engagement,
at most one timeout ago, by a message or in this spin, unless the earlier one is kept. -/
def Directed (h : Handover F) (now timeout : UInt64) (kept : Prop) : Prop :=
  h.value = { OuterSetpoint.default with active := true } ∨
    ∃ g, h.given = some g ∧ h.value = { g.value with active := true } ∧ now - g.time ≤ timeout ∧
      (g.source = .message ∨ h.givenNow = true ∨ kept)

/-- Everything the supervision of a spin has found out holds on. -/
structure Overseen (boot : System.Boot F E) (c : Arming F) (past : List (Event F)) : Prop where
  passed : ∀ k, checkNow past = some k → Passed c k
  refreshed : Refreshed boot c past
  directs : Directs boot c past
  handed : ∀ h, handedNow boot.nowUs past = some h → h.value.active = true →
    Directed h c.now h.timeout (h.droppedNow = true)

theorem directed_of_admitted {value : OuterSetpoint F} {timeout : UInt64} {past : List (Event F)}
    (directs : Directs boot (after boot past) past)
    (admitted : (after boot past).admits (.handed value timeout)) (active : value.active = true) :
    Directed ⟨value, timeout, given boot.nowUs past, givenNow past, Trace.droppedNow past⟩
      (after boot past).now timeout (Trace.droppedNow past = true) := by
  obtain ⟨same, fresh⟩ := admitted
  have engaged : (after boot past).engaged = true := by rw [same] at active; exact active
  rw [engaged] at same
  cases directed : (after boot past).setpointActive with
  | false => exact .inl (by rw [same, directs.cleared directed])
  | true =>
    obtain ⟨_, current⟩ := fresh engaged
    obtain ⟨young, source⟩ := current directed
    rw [after_setpointNow, after_droppedNow] at source
    exact .inr ⟨_, directs.active directed, same, young, source⟩

theorem handed_step (e : Event F) (past : List (Event F)) (o : Overseen boot (after boot past) past)
    (admitted : (after boot past).admits e) (h : Handover F)
    (handed : handedNow boot.nowUs (e :: past) = some h) (active : h.value.active = true) :
    Directed h ((after boot past).next e).now h.timeout (h.droppedNow = true) := by
  cases e with
  | spin now => cases handed
  | handed value timeout =>
    cases Option.some.inj handed
    exact directed_of_admitted o.directs admitted active
  | _ => exact o.handed h handed active

theorem overseen {trace : List (Event F)} (legal : (bootMachine boot).Legal trace) :
    Overseen boot (after boot trace) trace :=
  after_invariant boot (fun _ _ => True) (Overseen boot)
    ⟨nofun, ⟨nofun, nofun, nofun⟩, ⟨nofun, fun _ => rfl⟩, nofun⟩
    (fun e past _ o admitted _ =>
      ⟨passed_step e past o.passed admitted, refreshed_step e past o.refreshed admitted,
        directs_step e past o.directs admitted, handed_step e past o admitted⟩)
    legal (Throughout.of_forall fun _ _ => trivial)

end Invariants

/-! ### The engaged drive -/

section Supervised

/-- No setpoint is handed over as active but the default and those of this engagement. -/
def OfEngagement (boot : System.Boot F E) : Event F → List (Event F) → Prop
  | .handed value _, past =>
    value.active = true →
      engagedNow past = true ∧
        (value = { OuterSetpoint.default with active := true } ∨
          ∃ g, given boot.nowUs past = some g ∧ value = { g.value with active := true })
  | _, _ => True

/-- The check and the handover of the spin that is over, judged by timeouts. -/
structure Judged (boot : System.Boot F E) (s : System F E) (k : Check) (h : Handover F)
    (check handover : UInt64) (kept : Prop) : Prop where
  checked : checkNow s.board.trace = some k
  handed : handedNow boot.nowUs s.board.trace = some h
  fresh : ∃ refreshed, refreshedAt boot.nowUs s.board.trace = some refreshed ∧
    (s.nowUs - refreshed ≤ check ∨ k.holdsEngagement = true)
  stageOn : k.stageOn = true
  untripped : k.tripLatched = false
  directed : Directed h s.nowUs handover kept

/-- The engaged drive at the end of a spin, by the timeouts in force at its check and its
handover; a torque without a finite current leaves the earlier setpoint. -/
structure Supervised (boot : System.Boot F E) (s : System F E) : Prop where
  engaged : s.engaged = true → ∃ k h, Judged boot s k h k.timeout h.timeout (h.droppedNow = true)
  throughout : Throughout (OfEngagement boot) s.board.trace

/-- The engaged drive at the end of a spin, by the timeout in force then, with the torque of
the cart or the e-bike always followed. -/
def SupervisedAtEnd (boot : System.Boot F E) (s : System F E) : Prop :=
  s.engaged = true → ∃ k h, Judged boot s k h s.commandTimeoutUs s.commandTimeoutUs False

theorem ofEngagement_of_overseen {boot : System.Boot F E} (e : Event F) (past : List (Event F))
    (o : Overseen boot (after boot past) past) (admitted : (after boot past).admits e) :
    OfEngagement boot e past := by
  cases e with
  | handed value timeout =>
    intro active
    have engaged : (after boot past).engaged = true := by
      rw [admitted.1] at active
      exact active
    refine ⟨(after_engaged boot past).symm.trans engaged, ?_⟩
    obtain default | ⟨g, given, same, _⟩ := directed_of_admitted o.directs admitted active
    · exact .inl default
    · exact .inr ⟨g, given, same⟩
  | _ => trivial

theorem supervised [EbikeControl E F] (boot : System.Boot F E) (inputs : List (System.Input F)) :
    Supervised boot (System.run boot inputs) := by
  obtain ⟨m, ended⟩ := ended boot inputs
  refine ⟨fun engaged => ?_, ?_⟩
  · have o := overseen ended.legal
    have read := after_lastReadiness boot (System.run boot inputs).board.trace
    have checks := after_check boot (System.run boot inputs).board.trace
    have hands := after_handed boot (System.run boot inputs).board.trace
    rw [ended.state] at o read checks hands
    obtain ⟨timeout, holds, passed⟩ := ended.spun.supervised engaged
    obtain ⟨k, checked, _⟩ := Option.map_eq_some_iff.mp (checks.symm.trans passed)
    obtain ⟨h, handed, value⟩ := Option.map_eq_some_iff.mp (hands.symm.trans (ended.spun.handed engaged))
    obtain ⟨refreshed, last⟩ := Option.isSome_iff_exists.mp (o.refreshed.engaged engaged)
    have fresh := (o.passed k checked).fresh
    rw [read, last] at fresh
    exact ⟨k, h, checked, handed, ⟨refreshed, last, fresh⟩, (o.passed k checked).stageOn,
      (o.passed k checked).untripped, o.handed h handed (by rw [value])⟩
  · exact throughout_of_invariant boot (fun _ _ => True) (Overseen boot) _
      (fun legal _ => overseen legal)
      (fun e past _ o admitted _ => ofEngagement_of_overseen e past o admitted) ended.legal
      (Throughout.of_forall fun _ _ => trivial)

def commandTimeoutWrite (pattern : UInt32) : Transfer Binary32 where
  kind := .serviceRequest
  portId := portRegisterAccess
  sourceNodeId := 7
  payload :=
    { Payload.malformed with
      registerAccess := some
        { name := Register.commandTimeout.name
          value := some fun
            | .commandTimeout => .ok pattern
            | _ => .error .typeMismatch } }

/-- A drive whose limp-home torque no current of the format can give. -/
def limpSettings : NvmSettings :=
  ((simStore.settings.set .fluxPm (NvmSettings.pattern 1e-3)).set .cartLimpHomeTorque
    (NvmSettings.pattern 3e38)).set .cartTorqueRamp (NvmSettings.pattern 3e38)

example : validate limpSettings simCapabilities = .success := by decide

def limpBoot : System.Boot Binary32 Empty :=
  { simBoot with store := { simStore with settings := limpSettings, stored := limpSettings } }

def wheelMessage (torque : Binary32) : Transfer Binary32 :=
  ⟨.message, 110, 7, { Payload.malformed with wheelCommand := some #v[torque, torque, torque, torque] }⟩

def pedalMessage : Transfer Binary32 :=
  ⟨.message, 111, 7, { Payload.malformed with pedalState := some ⟨(1.0, 1.0), (0.0, 0.0), true, true⟩ }⟩

/-- The timeout shrinks after the check of the spin. -/
def shrunkTimeout : List (System.Input Binary32) :=
  [simInput 2000 [readinessMessage readinessEngaged] [], simInput 302000 [commandTimeoutWrite 0x3E4CCCCD] []]

/-- A wheel command, then limp-home with a torque that gives no finite current. -/
def limpHome : List (System.Input Binary32) :=
  [simInput 2000 [readinessMessage readinessEngaged, wheelMessage 1.0] [],
    simInput 302000 [pedalMessage] []]

/-- A readiness older than the timeout at the end of the spin, and a setpoint of the cart that
is not of the spin. -/
theorem supervision_outlived :
    ¬SupervisedAtEnd simBoot (System.run simBoot shrunkTimeout) ∧
      ¬SupervisedAtEnd limpBoot (System.run limpBoot limpHome) := by
  constructor
  · intro supervised
    have ran : (System.run simBoot shrunkTimeout).engaged = true ∧
        refreshedAt simBoot.nowUs (System.run simBoot shrunkTimeout).board.trace = some 2000 ∧
        (checkNow (System.run simBoot shrunkTimeout).board.trace).map (·.holdsEngagement) = some false ∧
        ¬(System.run simBoot shrunkTimeout).nowUs - 2000 ≤ (System.run simBoot shrunkTimeout).commandTimeoutUs := by
      decide +kernel
    obtain ⟨engaged, since, free, old⟩ := ran
    obtain ⟨k, h, judged⟩ := supervised engaged
    obtain ⟨refreshed, last, fresh⟩ := judged.fresh
    rw [judged.checked] at free
    cases Option.some.inj (since.symm.trans last)
    obtain young | held := fresh
    · exact absurd young old
    · exact absurd held (by simpa using free)
  · intro supervised
    have ran : (System.run limpBoot limpHome).engaged = true ∧
        (handedNow limpBoot.nowUs (System.run limpBoot limpHome).board.trace).map
          (fun h => (h.value.current.q, h.given.map (·.source), h.givenNow)) =
            some (15.0, some .cart, false) := by
      decide +kernel
    obtain ⟨engaged, handed⟩ := ran
    obtain ⟨k, h, judged⟩ := supervised engaged
    rw [judged.handed] at handed
    obtain ⟨current, source, old⟩ : h.value.current.q = 15.0 ∧ h.given.map (·.source) = some .cart ∧
        h.givenNow = false := by
      simpa using handed
    obtain default | ⟨g, given, _, _, message | new | kept⟩ := judged.directed
    · exact absurd current (by rw [default]; decide)
    · rw [given] at source
      exact absurd message (by simp [Option.some.inj source])
    · exact absurd new (by simp [old])
    · exact kept

end Supervised

end Unimoc.Drive
