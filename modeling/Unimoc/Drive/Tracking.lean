import Unimoc.Drive.Ownership
import Unimoc.Drive.DriveNode

/-! The board's trace is a run of the arming machine: every operation on shared state
records what it does to the machine's state, and no interrupt does more. -/
namespace Unimoc.Firmware.Board

open CurrentControl Hardware Settings

variable {F : Type} [Arithmetic F]

/-- What the arming machine sees of a board. -/
def outputs (b : Board F) : Drive.Outputs F where
  enabled := b.stage.enabled
  fault := b.stage.fault
  externalEnable := b.stage.externalEnable
  tripped := b.isr.tripped
  forced := b.isr.forceDutyActive
  live := b.store.settings
  cycleGains := b.isr.nextGains
  stepGains := b.outer.gains

/-- What interrupts leave alone. -/
structure Interrupted (before after : Board F) : Prop where
  enabled : after.stage.enabled = true → before.stage.enabled = true
  forced : after.isr.forceDutyActive = before.isr.forceDutyActive
  cycleGains : after.isr.nextGains = before.isr.nextGains
  stepGains : after.outer.gains = before.outer.gains
  store : after.store = before.store
  initializations : after.initializations = before.initializations

omit [Arithmetic F] in
theorem Interrupted.refl (b : Board F) : Interrupted b b := ⟨id, rfl, rfl, rfl, rfl, rfl⟩

omit [Arithmetic F] in
theorem Interrupted.trans {a b c : Board F} (first : Interrupted a b) (second : Interrupted b c) :
    Interrupted a c where
  enabled on := first.enabled (second.enabled on)
  forced := second.forced.trans first.forced
  cycleGains := second.cycleGains.trans first.cycleGains
  stepGains := second.stepGains.trans first.stepGains
  store := second.store.trans first.store
  initializations := second.initializations.trans first.initializations

theorem interrupt_interrupted (b : Board F) (i : Interrupt F) : Interrupted b (b.interrupt i) := by
  cases i with
  | controlCycle samples duties =>
    simp only [interrupt]
    split
    · exact ⟨by simp [record, PowerStage.trip], by simp [record], by simp [record], rfl, rfl, rfl⟩
    · exact ⟨id, by simp, by simp, rfl, rfl, rfl⟩
  | hardwareBreak => exact ⟨by simp [interrupt, record, PowerStage.trip], rfl, rfl, rfl, rfl, rfl⟩
  | externalEnable present =>
    refine ⟨?_, rfl, rfl, rfl, rfl, rfl⟩
    cases present <;> simp [interrupt, record, PowerStage.setExternalEnable, PowerStage.trip]
  | observer theta => exact ⟨id, rfl, rfl, rfl, rfl, rfl⟩
  | outerStep status reference => exact ⟨id, rfl, rfl, b.outer.step_handed status, rfl, rfl⟩

theorem interruptAll_interrupted (batch : List (Interrupt F)) (b : Board F) :
    Interrupted b (b.interruptAll batch) := by
  induction batch generalizing b with
  | nil => exact .refl b
  | cons i rest ih => exact (interrupt_interrupted b i).trans (ih _)

theorem preempt_interrupted (b : Board F) : Interrupted b b.preempt := by
  have popped : Interrupted b { b with interrupts := b.interrupts.tail } := ⟨id, rfl, rfl, rfl, rfl, rfl⟩
  exact popped.trans (interruptAll_interrupted _ _)

theorem preempt_initialization (b : Board F) : b.preempt.initialization = b.initialization := by
  unfold initialization
  rw [(preempt_interrupted b).initializations]

theorem preempt_off {b : Board F} (off : b.stage.enabled = false) : b.preempt.stage.enabled = false := by
  cases released : b.preempt.stage.enabled with
  | false => rfl
  | true => exact absurd ((preempt_interrupted b).enabled released) (by simp [off])

omit [Arithmetic F] in
@[simp] theorem change_status (cause : SettingsChange) (answer : SettingsStatus × SettingsStore F)
    (b : Board F) : (b.change cause answer).1 = answer.1 := by
  obtain ⟨status, store⟩ := answer
  cases status <;> rfl

omit [Arithmetic F] in
@[simp] theorem change_stage (cause : SettingsChange) (answer : SettingsStatus × SettingsStore F)
    (b : Board F) : (b.change cause answer).2.stage = b.stage := by
  obtain ⟨status, store⟩ := answer
  cases status <;> rfl

end Unimoc.Firmware.Board

namespace Unimoc.Drive

open CurrentControl Cyphal Firmware Hardware Settings Startup

variable {F : Type} [Arithmetic F]

/-- The machine, run over the trace, is in the state of the thread and of the board. -/
structure Tracks (start : Arming F) (p : Private F) (b : Board F) : Prop where
  state : (arming start).replay b.trace = (.mk p b.outputs)
  legal : (arming start).Legal b.trace
  counted : b.outer.Counted

namespace Tracks

variable {start : Arming F} {p q : Private F} {b c : Board F}

theorem event {e : Event F} (t : Tracks start p b)
    (admitted : Arming.admits (.mk p b.outputs) e)
    (step : Arming.next (.mk p b.outputs) e =
      (.mk q c.outputs))
    (recorded : c.trace = e :: b.trace) (counted : b.outer.Counted → c.outer.Counted) : Tracks start q c := by
  refine ⟨?_, ?_, counted t.counted⟩
  · rw [recorded, Runs.Machine.replay_cons, t.state]
    exact step
  · rw [recorded, Runs.Machine.legal_cons, t.state]
    exact ⟨admitted, t.legal⟩

theorem owned (t : Tracks start p b) (initial : Owned start) : Owned (.mk p b.outputs) :=
  t.state ▸ Owned.of_legal initial b.trace t.legal

theorem seen (t : Tracks start p b) (same : q = p) : Tracks start q b := same ▸ t

theorem still (t : Tracks start p b) (outputs : c.outputs = b.outputs) (trace : c.trace = b.trace)
    (counted : b.outer.Counted → c.outer.Counted) : Tracks start p c := by
  refine ⟨?_, ?_, counted t.counted⟩
  · rw [trace, outputs]
    exact t.state
  · rw [trace]
    exact t.legal

theorem note {e : Event F} (t : Tracks start p b)
    (admitted : Arming.admits (.mk p b.outputs) e)
    (step : Arming.next (.mk p b.outputs) e =
      (.mk q b.outputs)) : Tracks start q (b.record e) :=
  t.event admitted step rfl id

theorem interrupt (t : Tracks start p b) (i : Interrupt F) : Tracks start p (b.interrupt i) := by
  cases i with
  | controlCycle samples duties =>
    simp only [Board.interrupt]
    split
    · rename_i trips
      refine t.event (e := .controlTrip) trivial ?_ rfl id
      simp [Arming.next, Board.outputs, Board.record, PowerStage.trip, trips]
    · rename_i calm
      refine t.still ?_ rfl id
      simp [Board.outputs, calm]
  | hardwareBreak => exact t.event (e := .hardwareBreak) trivial rfl rfl id
  | externalEnable present =>
    refine t.event (e := .externalEnable present) trivial ?_ rfl id
    cases present <;>
      simp [Arming.next, Board.outputs, Board.interrupt, Board.record, PowerStage.setExternalEnable,
        PowerStage.trip]
  | observer theta => exact t.still rfl rfl id
  | outerStep status reference =>
    refine t.still ?_ rfl fun counted => counted.step status
    simp only [Board.outputs, Board.interrupt, OuterLoop.step_handed]
    rfl

theorem interruptAll (batch : List (Interrupt F)) (t : Tracks start p b) :
    Tracks start p (b.interruptAll batch) := by
  induction batch generalizing b with
  | nil => exact t
  | cons i rest ih => exact ih (t.interrupt i)

theorem preempt (t : Tracks start p b) : Tracks start p b.preempt :=
  interruptAll _ (t.still rfl rfl id : Tracks start p { b with interrupts := b.interrupts.tail })

theorem getState (t : Tracks start p b) : Tracks start p b.getState.2 := t.preempt

theorem tripped (t : Tracks start p b) : Tracks start p b.tripped.2 := t.preempt

theorem tripName (t : Tracks start p b) : Tracks start p b.tripName.2 := t.preempt

theorem readIsr (t : Tracks start p b) : Tracks start p b.readIsr.2 := t.preempt

theorem status (t : Tracks start p b) : Tracks start p b.status.2 := t.preempt

theorem setSetpoint (setpoint : OuterSetpoint F) (t : Tracks start p b) :
    Tracks start p (b.setSetpoint setpoint) :=
  t.preempt.still rfl rfl fun counted => counted.aside _ _ _

theorem setBatteryLimits (limits : BatteryLimits F) (t : Tracks start p b) :
    Tracks start p (b.setBatteryLimits limits) :=
  t.preempt.still rfl rfl fun counted => counted.aside _ _ _

theorem startHoming (t : Tracks start p b) : Tracks start p b.startHoming :=
  t.preempt.still rfl rfl fun counted => counted.aside _ _ _

theorem setAdcTriggerOffset (offset : UInt32) (t : Tracks start p b) :
    Tracks start p (b.setAdcTriggerOffset offset) := t.preempt.still rfl rfl id

theorem takeSamplesReady (t : Tracks start p b) : Tracks start p b.takeSamplesReady.2 := by
  unfold Board.takeSamplesReady
  simp only []
  split
  · exact t.preempt.preempt.still rfl rfl id
  · exact t.preempt

theorem saveToFlash (t : Tracks start p b) : Tracks start p b.saveToFlash.2 := by
  refine t.preempt.still ?_ ?_ ?_
  · simp [Board.outputs, Board.saveToFlash]
  · simp only [Board.saveToFlash]
  · intro counted
    simp only [Board.saveToFlash]
    exact counted

theorem disable (t : Tracks start p b) :
    Tracks start { p with closing := p.closing || (p.running && !p.engaged) } b.disable :=
  t.preempt.event (e := .disabled) trivial rfl rfl id

/-- Without a run to end, the thread is where it was. -/
theorem disable_idle (t : Tracks start p b) (idle : p.running = false ∨ p.engaged = true) :
    Tracks start p b.disable := by
  refine t.disable.seen ?_
  have same : (p.closing || (p.running && !p.engaged)) = p.closing := by
    obtain idle | engaged := idle
    · simp [idle]
    · simp [engaged]
  rw [same]

theorem releaseForceDuty (t : Tracks start p b) : Tracks start p b.releaseForceDuty :=
  t.preempt.event (e := .released) trivial rfl rfl id

theorem forceDuty (da db dc : F) (t : Tracks start p b) (held : p.starting = true ∨ p.running = true) :
    Tracks start p (b.forceDuty da db dc) := t.preempt.event (e := .forced) held rfl rfl id

theorem clearTrips (owner : Owner) (t : Tracks start p b) (may : p.mayAcknowledge owner) :
    Tracks start p (b.clearTrips owner) :=
  t.preempt.event (e := .clearedTrips owner) may rfl rfl id

theorem clearFault (owner : Owner) (t : Tracks start p b) (may : p.mayAcknowledge owner) :
    Tracks start p (b.clearFault owner) :=
  t.preempt.event (e := .clearedFault owner) may rfl rfl id

theorem enable_cases (t : Tracks start p b) :
    Tracks start p b.preempt ∧
      (b.enable = (true, { b.preempt with stage := { b.preempt.stage with enabled := true } }) ∨
        b.enable = (false, b.preempt)) := by
  refine ⟨t.preempt, ?_⟩
  obtain released | refused := PowerStage.enable_cases b.preempt.stage
  · left
    simp only [Board.enable, released]
  · right
    simp only [Board.enable, refused]

theorem release {e : Event F} (t : Tracks start p b)
    (admitted : Arming.admits (.mk p b.outputs) e)
    (step : Arming.next (.mk p b.outputs) e = .mk q { b.outputs with enabled := true }) :
    Tracks start q ({ b with stage := { b.stage with enabled := true } }.record e) :=
  t.event admitted step rfl id

theorem startRuntime (settings : NvmSettings) (limit : F) (t : Tracks start p b)
    (applying : p.applying = true) (live : settings = b.store.settings)
    (dropping : b.initialization.dropsFault = p.dropping) :
    Tracks start (p.restarted settings) (b.startRuntime settings limit).2 := by
  have kept := (Board.preempt_interrupted b).store
  have same : settings = b.preempt.store.settings := by rw [live, kept]
  have answer := (congrArg Initialization.dropsFault (Board.preempt_initialization b)).trans dropping
  refine t.preempt.event (e := .startRuntime settings _ _) ⟨applying, same, answer⟩ ?_ rfl
    fun counted => counted.init settings
  have cycleGains := b.preempt.isr.init_nextGains settings b.preempt.timerClock
  have forced := b.preempt.isr.init_forced settings b.preempt.timerClock
  have tripped := b.preempt.isr.init_tripped settings b.preempt.timerClock
  simp only [Arming.next, Arming.restart, Board.startRuntime, Board.record, Board.outputs,
    OuterLoop.init_gains, Arming.mk.injEq, Outputs.mk.injEq, true_and]
  refine ⟨?_, ?_, ?_, tripped.symm, forced.symm, cycleGains.symm, trivial⟩
  all_goals split <;> rfl

theorem setCurrentGains (gains : CurrentGains F) (t : Tracks start p b) (tuning : p.tuning = true)
    (tunable : firstUntunableChange p.appliedSettings b.store.settings = none) :
    Tracks start p (b.setCurrentGains gains) := by
  have kept := congrArg SettingsStore.settings (Board.preempt_interrupted b).store
  have tunable := (congrArg (firstUntunableChange p.appliedSettings) kept).trans tunable
  exact t.preempt.event (e := .currentGains gains) ⟨tuning, tunable⟩ rfl rfl id

theorem setGains (gains : LoopGains F) (t : Tracks start p b) (tuning : p.tuning = true)
    (tunable : firstUntunableChange p.appliedSettings b.store.settings = none) :
    Tracks start p (b.setGains gains) := by
  have kept := congrArg SettingsStore.settings (Board.preempt_interrupted b).store
  have tunable := (congrArg (firstUntunableChange p.appliedSettings) kept).trans tunable
  exact t.preempt.event (e := .loopGains gains) ⟨tuning, tunable⟩ rfl rfl fun counted => counted.setGains gains

/-- A tuning hands both loops the gains of the live settings. -/
theorem handGains (live : NvmSettings) (t : Tracks start p b) (engaged : p.engaged = true)
    (tuning : p.tuning = true) (same : live = b.store.settings)
    (tunable : firstUntunableChange p.appliedSettings live = none) :
    Tracks start { p with appliedSettings := live, applied := p.written, tuning := false }
      (((b.setCurrentGains (currentGains live)).setGains (OuterLoop.gainsFrom live)).record
        (.tuned live)) := by
  have before := congrArg SettingsStore.settings (Board.preempt_interrupted b).store
  have current := t.setCurrentGains (currentGains live) tuning (same ▸ tunable)
  have handed : live = (b.setCurrentGains (currentGains live)).store.settings :=
    same.trans before.symm
  have gains := current.setGains (OuterLoop.gainsFrom live) tuning (handed ▸ tunable)
  have between := Board.preempt_interrupted (b.setCurrentGains (currentGains live))
  have unchanged := handed.trans (congrArg SettingsStore.settings between.store).symm
  refine gains.note ⟨engaged, tuning, unchanged, ?_, between.cycleGains, rfl⟩ rfl
  exact (congrArg (firstUntunableChange p.appliedSettings) unchanged).symm.trans tunable

theorem change (cause : SettingsChange) (answer : SettingsStatus × SettingsStore F) (t : Tracks start p b)
    (admitted : answer.1 = .success →
      Arming.admits (.mk p b.outputs)
        (.settingsChanged cause answer.2.settings)) :
    Tracks start (if answer.1 = .success then p.changed cause else p) (b.change cause answer).2 := by
  obtain ⟨status, store⟩ := answer
  by_cases taken : status = .success
  · subst taken
    exact t.event (admitted rfl) rfl rfl id
  · rw [if_neg taken]
    cases status <;> first | exact absurd rfl taken | exact t

end Tracks

end Unimoc.Drive
