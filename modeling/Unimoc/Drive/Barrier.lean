import Unimoc.Drive.History
import Unimoc.Drive.StartupFrame
import Unimoc.Startup.Requests

/-! The barrier at which the motor is connected: the outputs are off behind it, whatever the
drive does meanwhile, and only the confirmation leads past it. -/
namespace Unimoc.Startup.HwStartup

open CurrentControl Firmware Drive

variable {F : Type} [Arithmetic F] {fsm : HwStartup F} {b : Board F}

/-! ### The sample at the barrier -/

/-- A sample of another step leads to a fresh barrier at most. -/
theorem runOnce_elsewhere (asked : fsm.Asked) (elsewhere : fsm.state ≠ .connectMotor) (b : Board F)
    (arrived : (fsm.runOnce b).1.state = .connectMotor) :
    (fsm.runOnce b).1.stepDone = false ∧ (fsm.runOnce b).1.nextStepRequested = false := by
  have sampled := runOnce_sampled asked b
  generalize (fsm.runOnce b).1 = after at sampled arrived ⊢
  obtain ⟨-, stopped⟩ | sampled := sampled
  · cases arrived.symm.trans stopped.state
  · cases sampled with
    | same => exact absurd arrived elsewhere
    | working _ _ within => exact absurd (within.state.symm.trans arrived) elsewhere
    | measured _ _ within => exact absurd (within.state.symm.trans arrived) elsewhere
    | barred state => exact absurd state elsewhere
    | advanced left _ _ fresh => exact ⟨fresh, left.unasked⟩
    | ended _ _ state =>
      rcases state with state | state
      · cases arrived.symm.trans state
      · cases arrived.symm.trans state

/-- Behind a measured barrier the outputs are off. -/
def Barred (fsm : HwStartup F) (b : Board F) : Prop :=
  fsm.state = .connectMotor → fsm.stepDone = true → b.stage.enabled = false

theorem Barred.onto {c : Board F} (barred : fsm.Barred b)
    (kept : c.stage.enabled = true → b.stage.enabled = true) : fsm.Barred c := by
  intro state measured
  cases on : c.stage.enabled with
  | false => rfl
  | true => exact absurd (kept on) (by simp [barred state measured])

/-- At the barrier a sample measures it with the outputs off, or leaves it. -/
theorem runConnectMotorWait_barred (asked : fsm.Asked) (state : fsm.state = .connectMotor)
    (barred : fsm.Barred b) (stays : (fsm.runConnectMotorWait b).1.state = .connectMotor) :
    (fsm.runConnectMotorWait b).1.stepDone = true ∧
      (fsm.runConnectMotorWait b).1.nextStepRequested = false ∧
      (fsm.runConnectMotorWait b).2.stage.enabled = false := by
  revert stays
  unfold runConnectMotorWait enterBarrier
  cases measured : fsm.stepDone with
  | false =>
    have unasked := asked.unasked measured
    simp only [Bool.not_false, ↓reduceIte, unasked, Bool.and_false, Bool.false_and, Bool.false_eq_true]
    exact fun _ => ⟨trivial, trivial, rfl⟩
  | true =>
    simp only [measured, Bool.not_true, Bool.false_eq_true, ↓reduceIte, Bool.true_and]
    have valid : fsm.validateCurrentState = true :=
      validateCurrentState_iff.mpr ⟨fun here => by simp [state] at here, fun here => by simp [state] at here⟩
    rw [valid, Bool.and_true]
    split
    · intro stays
      have left : LeavesStep fsm (fsm.releaseMotor (neutral b)).1 := releaseMotor_leaves _
      rcases left with next | fault
      · rw [state] at next
        cases stays.symm.trans next
      · cases stays.symm.trans fault
    · rename_i unasked
      have off := barred.onto (c := neutral b) System.preempt_on state measured
      exact fun _ => ⟨measured, Bool.eq_false_iff.mpr unasked, off⟩

theorem runOnce_barred (asked : fsm.Asked) (state : fsm.state = .connectMotor) (barred : fsm.Barred b)
    (stays : (fsm.runOnce b).1.state = .connectMotor) :
    (b.takeSamplesReady.1 = false → (fsm.runOnce b).1 = fsm) ∧
      (b.takeSamplesReady.1 = true → (fsm.runOnce b).1.stepDone = true ∧
        (fsm.runOnce b).1.nextStepRequested = false) ∧
      (fsm.runOnce b).1.Barred (fsm.runOnce b).2 := by
  have active : fsm.isActive = true := by simp [isActive, FsmState.active, state]
  have taken := barred.onto (c := b.takeSamplesReady.2) System.takeSamplesReady_on
  have released (c : Board F) : fsm.stageLost c = (none, c) := by
    unfold stageLost
    rw [if_neg (by simp [state])]
  revert stays
  unfold runOnce
  dsimp only
  generalize b.takeSamplesReady = samples at taken ⊢
  obtain ⟨ready, c⟩ := samples
  cases ready with
  | false =>
    intro stays
    refine ⟨fun _ => rfl, fun samples => ?_, taken⟩
    exact absurd samples Bool.false_ne_true
  | true =>
    simp only [Bool.not_true, Bool.false_eq_true, ↓reduceIte, released, active]
    split
    · exact fun stays => by cases stays
    · have works : fsm.runStep c.readIsr.2 = fsm.runConnectMotorWait c.readIsr.2 := by
        unfold runStep
        rw [state]
      rw [works]
      intro stays
      obtain ⟨done, unasked, off⟩ := runConnectMotorWait_barred asked state
        (taken.onto (c := c.readIsr.2) System.preempt_on) stays
      exact ⟨fun missed => (by cases missed), fun _ => ⟨done, unasked⟩, fun _ _ => off⟩

end Unimoc.Startup.HwStartup

namespace Unimoc.Drive

open CurrentControl Cyphal Firmware Runs Settings Startup

/-! ### The drive, one action at a time -/

inductive Action (F : Type)
  | begin (input : System.Input F)
  | dispatch (nowUs : UInt64) (transfer : Transfer F)
  | watchBus
  | localControl (nowUs : UInt64) (motorTemperature : Option F)
  | engageRequest
  | startup
  | engagement (nowUs : UInt64)
  | handOver
  | settings
  | finish (nowUs : UInt64)

section Actions

variable {F E : Type} [Arithmetic F] [EbikeControl E F]

namespace System

def beginSpin (s : System F E) (input : Input F) : System F E :=
  let s := (s.meet input).record (.spin input.nowUs)
  { s with node := { s.node with queue := s.node.queue.drop maxTransfersPerSpin } }

def finishSpin (s : System F E) (nowUs : UInt64) : System F E :=
  let s := s.spinRestart nowUs
  { s with settingsWaiting := s.settingsPending || s.writeCount ≠ s.appliedWrites }

def act (s : System F E) : Action F → System F E
  | .begin input => s.beginSpin input
  | .dispatch nowUs transfer => s.dispatch nowUs transfer
  | .watchBus => s.watchBus
  | .localControl nowUs motorTemperature => s.spinLocalControl nowUs motorTemperature
  | .engageRequest => s.takeEngageRequest
  | .startup => s.spinStartup
  | .engagement nowUs => s.spinEngagement nowUs
  | .handOver => s.handOver
  | .settings => s.spinSettings
  | .finish nowUs => s.finishSpin nowUs

/-- A spin is a sequence of actions. -/
theorem spin_actions (s : System F E) (input : Input F) :
    s.spin input =
      (.begin input ::
        (((s.node.queue ++ input.received).take maxTransfersPerSpin).map (Action.dispatch input.nowUs) ++
          [.watchBus, .localControl input.nowUs input.motorTemperature, .engageRequest, .startup,
            .engagement input.nowUs, .handOver, .settings, .finish input.nowUs])).foldl act s := by
  simp only [List.foldl_cons, List.foldl_append, List.foldl_map, List.foldl_nil]
  rfl

end System

structure Deed (F E : Type) [Arithmetic F] where
  before : System F E
  action : Action F
  after : System F E

/-- `past` holds the newest deed first. -/
structure Course (F E : Type) [Arithmetic F] where
  system : System F E
  past : List (Deed F E)

namespace Course

def next (c : Course F E) (action : Action F) : Course F E :=
  ⟨c.system.act action, ⟨c.system, action, c.system.act action⟩ :: c.past⟩

def run (c : Course F E) (actions : List (Action F)) : Course F E := actions.foldl next c

def boot (boot : System.Boot F E) : Course F E := ⟨.boot boot, []⟩

end Course

end Actions

section Deeds

variable {F E : Type} [Arithmetic F]

namespace Deed

variable (d : Deed F E)

/-- A run of the startup aid that finds a sample at the barrier. -/
def samplesBarrier : Bool :=
  match d.action with
  | .startup =>
    d.before.startup.state = .connectMotor && (d.before.board.record .runRecorded).takeSamplesReady.1
  | _ => false

/-- A CONTINUE with the confirmation, accepted at the barrier. -/
def confirms : Bool :=
  match d.action with
  | .dispatch _ transfer =>
    d.before.startup.state = .connectMotor && transfer.kind = .serviceRequest &&
      transfer.portId = portExecuteCommand && d.before.node.nodeId ≠ nodeIdUnset &&
      transfer.payload.executeCommand = some (Command.continueStep, Commissioning.motorConnected) &&
      (Commissioning.continueStep Commissioning.motorConnected d.before.startup).1 = Command.success
  | _ => false

def starts : Bool := !d.before.startup.isActive && d.after.startup.isActive

end Deed

/-- From the first sample at the barrier up to the accepted confirmation. -/
def atBarrier : List (Deed F E) → Bool :=
  latest
    (fun d _ =>
      if d.after.startup.state ≠ .connectMotor || d.confirms then some false
      else if d.samplesBarrier then some true
      else none)
    false

/-- The deeds of the present run, or of the last one. -/
def thisRun (past : List (Deed F E)) : List (Deed F E) := past.takeWhile fun d => !d.starts

/-- A step behind the barrier, or the end of a run that has passed it. -/
def beyondBarrier (state : FsmState) : Bool :=
  state = .phaseAdcAlignment || state = .currentSenseCalibration || state = .done

/-- The outputs are off behind the barrier, and nothing passes it without the confirmation. -/
structure Guarded (c : Course F E) : Prop where
  asked : c.system.startup.Asked
  barred : c.system.startup.Barred c.system.board
  waiting : atBarrier c.past = true →
    c.system.startup.state = .connectMotor ∧ c.system.startup.stepDone = true
  confirmed : c.system.startup.state = .connectMotor ∧ c.system.startup.nextStepRequested = true ∨
    beyondBarrier c.system.startup.state = true → ∃ d ∈ thisRun c.past, d.confirms = true

/-- What an action other than a sample does to the aid. -/
inductive Moves (s t : System F E) (confirms : Bool) : Prop
  | still (state : t.startup.state = s.startup.state) (measured : t.startup.stepDone = s.startup.stepDone)
      (requested : t.startup.nextStepRequested = s.startup.nextStepRequested)
      (stage : t.board.stage.enabled = true → s.board.stage.enabled = true ∨ s.startup.isActive = false)
  | asked (active : s.startup.isActive = true) (measured : s.startup.stepDone = true)
      (requests : t.startup = { s.startup with nextStepRequested := true })
      (confirmed : s.startup.state = .connectMotor → confirms = true) (board : t.board = s.board)
  | elsewhere (state : t.startup.state ≠ .connectMotor) (before : beyondBarrier t.startup.state = false)
      (asked : t.startup.Asked)

theorem System.Unmoved.moves {s t : System F E} {confirms : Bool} (unmoved : s.Unmoved t) :
    Moves s t confirms :=
  .still (by rw [unmoved.startup]) (by rw [unmoved.startup]) (by rw [unmoved.startup]) unmoved.stage

section Steps

variable {s : System F E} {past : List (Deed F E)} {d : Deed F E}

theorem thisRun_kept (goesOn : d.starts = false) (confirmed : ∃ e ∈ thisRun past, e.confirms = true) :
    ∃ e ∈ thisRun (d :: past), e.confirms = true := by
  obtain ⟨e, listed, confirms⟩ := confirmed
  refine ⟨e, ?_, confirms⟩
  unfold thisRun
  rw [List.takeWhile_cons_of_pos (by simp [goesOn])]
  exact List.mem_cons_of_mem d listed

theorem atBarrier_unsampled (unsampled : d.samplesBarrier = false) (waits : atBarrier (d :: past) = true) :
    d.after.startup.state = .connectMotor ∧ atBarrier past = true := by
  unfold atBarrier at waits ⊢
  rw [latest_cons] at waits
  split at waits
  · cases waits
  · rename_i stays
    rw [unsampled] at waits
    simp only [Bool.or_eq_true, decide_eq_true_eq, not_or, not_not] at stays
    exact ⟨stays.1, waits⟩

theorem Guarded.moves (guarded : Guarded ⟨s, past⟩) (before : d.before = s) (unsampled : d.samplesBarrier = false)
    (moves : Moves s d.after d.confirms) : Guarded ⟨d.after, d :: past⟩ := by
  subst before
  obtain ⟨asked, barred, waiting, confirmed⟩ := guarded
  dsimp only at asked barred waiting confirmed
  cases moves with
  | still state measured requested stage =>
    have goesOn : d.starts = false := by
      simp [Deed.starts, HwStartup.isActive, state]
    refine ⟨fun request => ?_, fun here done => ?_, fun waits => ?_, fun passes => ?_⟩
    · exact measured.trans (asked (requested ▸ request))
    · have off := barred (state ▸ here) (measured ▸ done)
      have active : d.before.startup.isActive = true := by
        have here : d.after.startup.state = .connectMotor := here
        simp [HwStartup.isActive, ← state, here, FsmState.active]
      cases on : d.after.board.stage.enabled with
      | false => rfl
      | true =>
        rcases stage on with on | idle
        · exact absurd on (by simp [off])
        · exact absurd active (by simp [idle])
    · obtain ⟨here, waited⟩ := atBarrier_unsampled unsampled waits
      exact ⟨here, measured.trans (waiting waited).2⟩
    · rw [state, requested] at passes
      exact thisRun_kept goesOn (confirmed passes)
  | asked active measured requests confirms board =>
    have goesOn : d.starts = false := by
      simp [Deed.starts, active]
    have state : d.after.startup.state = d.before.startup.state := by rw [requests]
    have done : d.after.startup.stepDone = true := by rw [requests]; exact measured
    refine ⟨fun _ => done, fun here _ => ?_, fun waits => ?_, fun passes => ?_⟩
    · rw [board]
      exact barred (state ▸ here) measured
    · exact ⟨(atBarrier_unsampled unsampled waits).1, done⟩
    · by_cases here : d.before.startup.state = .connectMotor
      · refine ⟨d, ?_, confirms here⟩
        unfold thisRun
        rw [List.takeWhile_cons_of_pos (by simp [goesOn])]
        exact List.mem_cons_self
      · rw [state] at passes
        exact thisRun_kept goesOn (confirmed (.inr (passes.resolve_left fun barrier => here barrier.1)))
  | elsewhere state before requests =>
    refine ⟨requests, fun here => absurd here state, fun waits => ?_, fun passes => ?_⟩
    · exact absurd (atBarrier_unsampled unsampled waits).1 state
    · rcases passes with barrier | beyond
      · exact absurd barrier.1 state
      · exact absurd beyond (by simp [before])

end Steps

/-! ### What each action does -/

section Requests

variable {s : System F E}

/-- An aborted run is over; without one the abort changes nothing. -/
theorem abortStartup_moves (reason : StartupFault) (asked : s.startup.Asked) {b : Board F} {t u : System F E}
    (stage : b.stage = s.board.stage) (aborted : u.startup = (s.startup.requestAbort reason b).1 ∧
      u.board = (s.startup.requestAbort reason b).2) (after : u.Unmoved t) (confirms : Bool) :
    Moves s t confirms := by
  obtain ⟨startup, kept⟩ := after
  rw [aborted.1] at startup kept
  rw [aborted.2] at kept
  unfold HwStartup.requestAbort at startup kept
  cases active : s.startup.isActive with
  | false =>
    rw [if_pos (by simp [active])] at startup kept
    rw [stage] at kept
    exact .still (by rw [startup]) (by rw [startup]) (by rw [startup]) kept
  | true =>
    rw [if_neg (by simp [active])] at startup
    refine .elsewhere ?_ ?_ ?_
    · rw [startup]
      exact nofun
    · rw [startup]
      rfl
    · rw [startup]
      exact asked

theorem requestRun_moves (confirms : Bool) :
    Moves s { s with startup := (s.startup.requestRun s.board).2.1, board := (s.startup.requestRun s.board).2.2 }
      confirms := by
  unfold HwStartup.requestRun
  cases active : s.startup.isActive with
  | true => exact .still rfl rfl rfl .inl
  | false =>
    dsimp only
    rw [if_neg Bool.false_ne_true]
    split
    · exact .elsewhere nofun rfl nofun
    · exact .elsewhere nofun rfl nofun

theorem continueStep_moves (parameter : List UInt8) (confirms : Bool)
    (confirmed : s.startup.state = .connectMotor → parameter = Commissioning.motorConnected →
      (Commissioning.continueStep parameter s.startup).1 = Command.success → confirms = true) :
    Moves s { s with startup := (Commissioning.continueStep parameter s.startup).2 } confirms := by
  revert confirmed
  unfold Commissioning.continueStep
  dsimp only
  split
  · exact fun _ => .still rfl rfl rfl .inl
  · obtain ⟨active, measured, barrier, accepted⟩ | ⟨answer, refused, answered⟩ :=
      s.startup.requestNextStep_cases (decide (parameter = Commissioning.motorConnected))
    · rw [accepted]
      refine fun confirmed => .asked active measured rfl (fun here => ?_) rfl
      exact confirmed here (of_decide_eq_true (barrier.mpr here)) rfl
    · rw [answered]
      exact fun _ => .still rfl rfl rfl .inl

theorem setReading_moves (parameter : List UInt8) (confirms : Bool) :
    Moves s { s with startup := (Commissioning.setReading parameter s.startup).2 } confirms := by
  unfold Commissioning.setReading
  split
  · exact .still rfl rfl rfl .inl
  · split
    · exact .still rfl rfl rfl .inl
    · dsimp only
      split
      · exact .still rfl rfl rfl .inl
      · split
        · exact .still rfl rfl rfl .inl
        · split
          · exact .still rfl rfl rfl .inl
          · exact .still rfl rfl rfl .inl

theorem onCommissioning_moves (command : UInt16) (parameter : List UInt8) (asked : s.startup.Asked)
    (confirms : Bool)
    (confirmed : command = Command.continueStep → s.startup.state = .connectMotor →
      parameter = Commissioning.motorConnected →
      (Commissioning.continueStep parameter s.startup).1 = Command.success → confirms = true) :
    Moves s (s.onCommissioning command parameter).2 confirms := by
  unfold System.onCommissioning Commissioning.onCommand
  split_ifs with _ continues
  · unfold Commissioning.start
    split_ifs
    · exact .still rfl rfl rfl .inl
    · exact .still rfl rfl rfl .inl
    · have moves := requestRun_moves (s := s) confirms
      generalize s.startup.requestRun s.board = answer at moves ⊢
      obtain ⟨answer, fsm, b⟩ := answer
      cases answer <;> exact moves
  · exact continueStep_moves parameter confirms (confirmed continues)
  · exact setReading_moves parameter confirms
  · exact abortStartup_moves .aborted asked rfl ⟨rfl, rfl⟩ .refl confirms
  · exact .still rfl rfl rfl .inl

theorem onCommand_moves (command : UInt16) (parameter : List UInt8) (asked : s.startup.Asked)
    (confirms : Bool)
    (confirmed : command = Command.continueStep → s.startup.state = .connectMotor →
      parameter = Commissioning.motorConnected →
      (Commissioning.continueStep parameter s.startup).1 = Command.success → confirms = true) :
    Moves s (s.onCommand command parameter).2 confirms := by
  unfold System.onCommand
  split_ifs
  · exact onCommissioning_moves command parameter asked confirms confirmed
  · have left := System.disengage_unmoved (s := s.abortStartup .aborted) .restart
    exact abortStartup_moves (t := s.onRestart.2) .aborted asked rfl ⟨rfl, rfl⟩
      ⟨left.startup, left.stage⟩ confirms
  · have left := System.disengage_unmoved .emergencyStop
      (s := ({ s with emergencyStop := true }.record .emergencyStop).abortStartup .emergencyStop)
    exact abortStartup_moves (t := s.onEmergencyStop.2) (b := s.board.record .emergencyStop)
      .emergencyStop asked rfl ⟨rfl, rfl⟩ ⟨left.startup, left.stage⟩ confirms
  · exact .still rfl rfl rfl .inl
  · exact System.startHoming_unmoved.moves
  · exact (System.saveToFlash_unmoved (s := s)).moves
  · exact System.onFactoryReset_unmoved.moves
  · exact .still rfl rfl rfl .inl

theorem onExecuteCommand_moves (payload : Payload F) (asked : s.startup.Asked) (confirms : Bool)
    (confirmed : s.startup.state = .connectMotor →
      payload.executeCommand = some (Command.continueStep, Commissioning.motorConnected) →
      (Commissioning.continueStep Commissioning.motorConnected s.startup).1 = Command.success →
      confirms = true) : Moves s (s.onExecuteCommand payload) confirms := by
  unfold System.onExecuteCommand
  split
  · exact .still rfl rfl rfl .inl
  · rename_i command parameter asks
    have moves := onCommand_moves command parameter asked confirms fun continues here confirmation accepted => by
      subst continues
      subst confirmation
      exact confirmed here asks accepted
    generalize s.onCommand command parameter = answer at moves ⊢
    obtain ⟨answer, t⟩ := answer
    cases moves with
    | still state measured requested stage => exact .still state measured requested stage
    | asked active measured requests confirmed board => exact .asked active measured requests confirmed board
    | elsewhere state before asked => exact .elsewhere state before asked

theorem onMessages_unmoved [EbikeControl E F] (transfer : Transfer F) (nowUs : UInt64)
    (listeners : List UInt16) (s : System F E) :
    s.Unmoved (listeners.foldl (fun s _ => s.onMessage transfer nowUs) s) := by
  induction listeners generalizing s with
  | nil => exact .refl
  | cons port rest ih => exact (System.onMessage_unmoved transfer nowUs).trans (ih _)

theorem dispatch_moves [EbikeControl E F] (nowUs : UInt64) (transfer : Transfer F) (asked : s.startup.Asked)
    (t : System F E) :
    Moves s (s.dispatch nowUs transfer) (Deed.confirms ⟨s, .dispatch nowUs transfer, t⟩) := by
  unfold System.dispatch
  cases kind : transfer.kind with
  | serviceResponse => exact .still rfl rfl rfl .inl
  | message =>
    dsimp only
    split
    · exact (System.onAllocation_unmoved transfer).moves
    · exact (onMessages_unmoved transfer nowUs _ s).moves
  | serviceRequest =>
    dsimp only
    unfold System.onRequest
    split
    · exact .still rfl rfl rfl .inl
    · rename_i named
      split
      · split
        · exact .still rfl rfl rfl .inl
        · exact (System.onRegisterAccess_unmoved _).moves
      · split
        · rename_i executes
          refine onExecuteCommand_moves transfer.payload asked _ fun here asks accepted => ?_
          simp [Deed.confirms, here, kind, executes, named, asks, accepted]
        · exact .still rfl rfl rfl .inl

end Requests

section Sampling

variable {fsm : HwStartup F}

theorem runOnce_beyond (asked : fsm.Asked) (b : Board F)
    (beyond : beyondBarrier (fsm.runOnce b).1.state = true) :
    beyondBarrier fsm.state = true ∨ fsm.state = .connectMotor ∧ fsm.nextStepRequested = true := by
  have sampled := HwStartup.runOnce_sampled asked b
  generalize (fsm.runOnce b).1 = after at sampled beyond
  obtain ⟨-, stopped⟩ | sampled := sampled
  · rw [stopped.state] at beyond
    cases beyond
  · cases sampled with
    | same => exact .inl beyond
    | working _ _ within => exact .inl (within.state ▸ beyond)
    | measured _ _ within => exact .inl (within.state ▸ beyond)
    | barred _ stopped =>
      rw [stopped.state] at beyond
      cases beyond
    | advanced left goesOn state =>
      rw [state] at beyond
      cases here : fsm.state <;> rw [here] at beyond <;>
        first | exact .inr ⟨rfl, left.asked⟩ | exact .inl rfl | cases beyond
    | ended left last =>
      cases here : fsm.state <;> rw [here] at last <;> first | exact .inl rfl | cases last

theorem runOnce_asks (asked : fsm.Asked) (b : Board F) : (fsm.runOnce b).1.Asked := by
  intro requested
  have moved := HwStartup.runOnce_moved asked b
  generalize (fsm.runOnce b).1 = after at moved requested ⊢
  cases moved with
  | stays _ _ _ same measured => exact measured (asked (same ▸ requested))
  | stopped _ _ _ kept => exact kept requested
  | advanced _ _ _ _ unasked => exact absurd requested (by simp [unasked])

end Sampling

section Course

variable [EbikeControl E F]

omit [EbikeControl E F] in
theorem Guarded.startup {s : System F E} {past : List (Deed F E)} (guarded : Guarded ⟨s, past⟩) :
    Guarded ⟨s.spinStartup, ⟨s, .startup, s.spinStartup⟩ :: past⟩ := by
  cases active : s.startup.isActive with
  | false =>
    have elsewhere : s.startup.state ≠ .connectMotor := by
      intro here
      simp [HwStartup.isActive, here, FsmState.active] at active
    have unmoved : s.Unmoved s.spinStartup := by
      unfold System.spinStartup
      rw [if_neg (by simp [active])]
      split
      · exact .off rfl System.preempt_on
      · exact .refl
    exact guarded.moves (d := ⟨s, .startup, s.spinStartup⟩) rfl (by simp [Deed.samplesBarrier, elsewhere])
      unmoved.moves
  | true =>
    obtain ⟨asked, barred, waiting, confirmed⟩ := guarded
    dsimp only at asked barred waiting confirmed
    have ran : s.spinStartup.startup = (s.startup.runOnce (s.board.record .runRecorded)).1 ∧
        s.spinStartup.board = (s.startup.runOnce (s.board.record .runRecorded)).2 := by
      unfold System.spinStartup
      rw [if_pos active]
      exact ⟨rfl, rfl⟩
    obtain ⟨startup, board⟩ := ran
    have goesOn : (⟨s, .startup, s.spinStartup⟩ : Deed F E).starts = false := by simp [Deed.starts, active]
    have asks := runOnce_asks asked (s.board.record .runRecorded)
    have beyond := runOnce_beyond asked (s.board.record .runRecorded)
    rw [← startup] at asks beyond
    by_cases arrived : s.spinStartup.startup.state = .connectMotor
    · by_cases here : s.startup.state = .connectMotor
      · -- the sample finds the barrier, and stays there
        have sampled := HwStartup.runOnce_barred asked here (b := s.board.record .runRecorded) barred
        rw [← startup, ← board] at sampled
        obtain ⟨missing, taken, off⟩ := sampled arrived
        cases ready : (s.board.record .runRecorded).takeSamplesReady.1 with
        | false =>
          have same := missing ready
          have unsampled : (⟨s, .startup, s.spinStartup⟩ : Deed F E).samplesBarrier = false := by
            simp [Deed.samplesBarrier, ready]
          refine ⟨asks, off, fun waits => ?_, fun passes => ?_⟩
          · rw [same]
            exact waiting (atBarrier_unsampled unsampled waits).2
          · rw [same] at passes
            exact thisRun_kept goesOn (confirmed passes)
        | true =>
          obtain ⟨measured, unasked⟩ := taken ready
          refine ⟨asks, off, fun _ => ⟨arrived, measured⟩, fun passes => ?_⟩
          rcases passes with barrier | passed
          · exact absurd barrier.2 (by simp [unasked])
          · exact absurd passed (by simp [arrived, beyondBarrier])
      · -- the barrier is reached
        have fresh := HwStartup.runOnce_elsewhere asked here (s.board.record .runRecorded)
        rw [← startup] at fresh
        obtain ⟨unmeasured, unasked⟩ := fresh arrived
        refine ⟨asks, fun _ measured => ?_, fun waits => ?_, fun passes => ?_⟩
        · exact absurd measured (by simp [unmeasured])
        · have unsampled : (⟨s, .startup, s.spinStartup⟩ : Deed F E).samplesBarrier = false := by
            simp [Deed.samplesBarrier, here]
          exact absurd (waiting (atBarrier_unsampled unsampled waits).2).1 here
        · rcases passes with barrier | passed
          · exact absurd barrier.2 (by simp [unasked])
          · exact absurd passed (by simp [arrived, beyondBarrier])
    · refine ⟨asks, fun here => absurd here arrived, fun waits => ?_, fun passes => ?_⟩
      · unfold atBarrier at waits
        simp [arrived] at waits
      · rcases passes with barrier | passed
        · exact absurd barrier.1 arrived
        · exact thisRun_kept goesOn (confirmed (beyond passed).symm)

theorem Guarded.next {c : Course F E} (guarded : Guarded c) (action : Action F) : Guarded (c.next action) := by
  obtain ⟨s, past⟩ := c
  cases action with
  | begin input => exact guarded.moves (d := ⟨s, .begin input, _⟩) rfl rfl (.still rfl rfl rfl .inl)
  | dispatch nowUs transfer =>
    exact guarded.moves (d := ⟨s, .dispatch nowUs transfer, _⟩) rfl rfl
      (dispatch_moves nowUs transfer guarded.asked _)
  | watchBus => exact guarded.moves (d := ⟨s, .watchBus, _⟩) rfl rfl System.watchBus_unmoved.moves
  | localControl nowUs motorTemperature =>
    exact guarded.moves (d := ⟨s, .localControl nowUs motorTemperature, _⟩) rfl rfl
      (System.spinLocalControl_unmoved nowUs motorTemperature).moves
  | engageRequest =>
    exact guarded.moves (d := ⟨s, .engageRequest, _⟩) rfl rfl System.takeEngageRequest_unmoved.moves
  | startup => exact guarded.startup
  | engagement nowUs =>
    exact guarded.moves (d := ⟨s, .engagement nowUs, _⟩) rfl rfl (System.spinEngagement_unmoved nowUs).moves
  | handOver => exact guarded.moves (d := ⟨s, .handOver, _⟩) rfl rfl System.handOver_unmoved.moves
  | settings => exact guarded.moves (d := ⟨s, .settings, _⟩) rfl rfl System.spinSettings_unmoved.moves
  | finish nowUs =>
    have restarted := System.spinRestart_unmoved (s := s) nowUs
    have finished : s.Unmoved (s.finishSpin nowUs) := ⟨restarted.startup, restarted.stage⟩
    exact guarded.moves (d := ⟨s, .finish nowUs, _⟩) rfl rfl finished.moves

theorem Guarded.run {c : Course F E} (guarded : Guarded c) (actions : List (Action F)) :
    Guarded (c.run actions) := by
  induction actions generalizing c with
  | nil => exact guarded
  | cons action rest ih => exact ih (guarded.next action)

theorem Guarded.boot (boot : System.Boot F E) : Guarded (.boot boot) where
  asked := nofun
  barred := nofun
  waiting := nofun
  confirmed passes := by
    rcases passes with barrier | passed
    · cases barrier.1
    · cases passed

/-- From the first sample at the barrier the outputs are off until the confirmation is accepted,
and without it no run gets past the barrier. -/
theorem motor_barrier (boot : System.Boot F E) (actions : List (Action F)) :
    let c := (Course.boot boot).run actions
    (atBarrier c.past = true → c.system.board.stage.enabled = false) ∧
      (beyondBarrier c.system.startup.state = true → ∃ d ∈ thisRun c.past, d.confirms = true) := by
  have guarded := (Guarded.boot boot).run actions
  refine ⟨fun waits => ?_, fun beyond => guarded.confirmed (.inr beyond)⟩
  obtain ⟨here, measured⟩ := guarded.waiting waits
  exact guarded.barred here measured

end Course

end Deeds

end Unimoc.Drive
