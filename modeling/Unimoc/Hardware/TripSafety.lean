import Unimoc.Hardware.PowerStage
import Unimoc.Lib.Resumption
import Unimoc.Lib.Runs

/-! The accesses of a platform to its power stage, and a trip that falls between any two of
them. -/
namespace Unimoc.Hardware

/-- What the callbacks of a platform do to its registers or flags `S`, a trip, an acknowledge
and a change of the external enable in one step. -/
structure Platform (S : Type) where
  enable : Resumption S Bool
  disable : Resumption S Unit
  trip : S → S
  clearFault : S → S
  setExternalEnable : Bool → S → S
  outputs : S → Bool
  fault : S → Bool
  externalEnable : S → Bool

/-! ### The platforms -/

open Resumption in
/-- The release as both platforms guard it; the fault is read again after the release. -/
def guardedEnable {S : Type} (outputs externalEnable fault : S → Bool) (release disable : Resumption S Unit)
    (answer : Resumption S Bool) : Resumption S Bool := do
  if ← read outputs then pure true
  else if !(← read externalEnable) then pure false
  else if ← read fault then pure false
  else
    release
    if ← read fault then
      disable
      pure false
    else answer

/-- The timer of the board: the break and dead-time register, the status register and the level
of the break input. -/
structure TimerRegisters where
  bdtr : UInt32
  sr : UInt32
  released : Bool

namespace TimerRegisters

def moe : UInt32 := 0x8000

/-- `TIM_SR_BIF`. -/
def breakFlag : UInt32 := 0x80

/-- The main output enable stays off while the break input is active. -/
def writeBdtr (value : UInt32) (r : TimerRegisters) : TimerRegisters :=
  { r with bdtr := if r.released then value else value &&& ~~~moe }

def outputs (r : TimerRegisters) : Bool := r.bdtr &&& moe ≠ 0

def fault (r : TimerRegisters) : Bool := r.sr &&& breakFlag ≠ 0

/-- A break clears the main output enable and latches. -/
def trip (r : TimerRegisters) : TimerRegisters :=
  { r with bdtr := r.bdtr &&& ~~~moe, sr := r.sr ||| breakFlag }

/-- An active break input latches again. -/
def clearFault (r : TimerRegisters) : TimerRegisters :=
  { r with sr := if r.released then r.sr &&& ~~~breakFlag else r.sr ||| breakFlag }

def setExternalEnable (present : Bool) (r : TimerRegisters) : TimerRegisters :=
  let r := { r with released := present }
  if present then r else r.trip

open Resumption

/-- `kTim->BDTR &= ~TIM_BDTR_MOE`, a read and a write. -/
def disable : Resumption TimerRegisters Unit := do
  let bdtr ← read (·.bdtr)
  modify (writeBdtr (bdtr &&& ~~~moe))

/-- `kTim->BDTR |= TIM_BDTR_MOE`. -/
def release : Resumption TimerRegisters Unit := do
  let bdtr ← read (·.bdtr)
  modify (writeBdtr (bdtr ||| moe))

def enable : Resumption TimerRegisters Bool :=
  guardedEnable outputs (·.released) fault release disable (read outputs)

end TimerRegisters

def bcc : Platform TimerRegisters where
  enable := TimerRegisters.enable
  disable := TimerRegisters.disable
  trip := TimerRegisters.trip
  clearFault := TimerRegisters.clearFault
  setExternalEnable := TimerRegisters.setExternalEnable
  outputs := TimerRegisters.outputs
  fault := TimerRegisters.fault
  externalEnable := TimerRegisters.released

namespace PowerStage

open Resumption

def simDisable : Resumption PowerStage Unit := modify disable

/-- The flags of the simulation, read and written one by one. -/
def simEnable : Resumption PowerStage Bool :=
  guardedEnable (·.enabled) (·.externalEnable) (·.fault) (modify fun stage => { stage with enabled := true })
    simDisable (pure true)

theorem simEnable_run (stage : PowerStage) : simEnable.run stage = stage.enable := by
  obtain ⟨external, on, broken⟩ := stage
  cases on <;> cases external <;> cases broken <;> rfl

end PowerStage

def sim : Platform PowerStage where
  enable := PowerStage.simEnable
  disable := PowerStage.simDisable
  trip := PowerStage.trip
  clearFault := PowerStage.clearFault
  setExternalEnable := PowerStage.setExternalEnable
  outputs := PowerStage.enabled
  fault := PowerStage.fault
  externalEnable := PowerStage.externalEnable

/-! ### The thread and the interrupts -/

inductive StageCall
  | enable
  | disable
deriving DecidableEq, Repr

/-- What may happen at any time, also between two accesses of the thread: a trip or a disable of
an interrupt, an acknowledge, a change of the external enable. -/
inductive Interruption
  | trip
  | disable
  | clearFault
  | externalEnable (present : Bool)
deriving DecidableEq, Repr

/-- The thread calls one function after the other, an access at a time. -/
inductive StageEvent
  | call (function : StageCall)
  | access
  | interrupt (i : Interruption)
deriving DecidableEq, Repr

/-- The registers and the call under way. -/
structure Stage (S : Type) where
  registers : S
  under : Option (StageCall × Resumption S Unit)

namespace Stage

variable {S : Type}

/-- A call returns with its last access. -/
def pending (function : StageCall) : Resumption S Unit → Option (StageCall × Resumption S Unit)
  | .done _ => none
  | rest => some (function, rest)

/-- The next access of the call. -/
def step (s : Stage S) : Stage S :=
  match s.under with
  | some (function, .access write next) => ⟨write s.registers, pending function (next s.registers)⟩
  | _ => s

def enabling (s : Stage S) : Bool := s.under.any fun call => call.1 = .enable

end Stage

namespace Platform

variable {S : Type} (p : Platform S)

def routine : StageCall → Resumption S Unit
  | .enable => p.enable >>= fun _ => pure ()
  | .disable => p.disable

def interrupted : Interruption → S → S
  | .trip => p.trip
  | .disable => fun s => (p.disable.run s).2
  | .clearFault => p.clearFault
  | .externalEnable present => p.setExternalEnable present

def next (s : Stage S) : StageEvent → Stage S
  | .call function => { s with under := Stage.pending function (p.routine function) }
  | .access => s.step
  | .interrupt i => { s with registers := p.interrupted i s.registers }

def admits (s : Stage S) : StageEvent → Prop
  | .call _ => s.under = none
  | .access => s.under ≠ none
  | .interrupt _ => True

def machine (powerOn : S) : Runs.Machine (Stage S) StageEvent where
  start := ⟨powerOn, none⟩
  next := p.next
  admits := admits

instance (powerOn : S) (s : Stage S) : ∀ e, Decidable ((p.machine powerOn).admits s e)
  | .call _ => inferInstanceAs (Decidable (s.under = none))
  | .access => inferInstanceAs (Decidable (s.under ≠ none))
  | .interrupt _ => inferInstanceAs (Decidable True)

/-- How far the last trip is acknowledged: `during` until the enable it fell into returns,
`free` again with an enable called after the acknowledge. -/
inductive TripStatus
  | free
  | during
  | latched
  | acknowledged
deriving DecidableEq, Repr

/-- An enable that the acknowledge falls into may succeed. -/
def nextStatus (status : TripStatus) (s : Stage S) : StageEvent → TripStatus
  | .call .enable => if status = .acknowledged then .free else status
  | .access => if status = .during ∧ s.step.enabling = false then .latched else status
  | .interrupt .clearFault =>
    match status with
    | .latched => if s.enabling then .free else .acknowledged
    | .during => .free
    | settled => settled
  | .interrupt .trip => if status ≠ .latched ∧ s.enabling then .during else .latched
  | _ => status

def tripStatus (powerOn : S) : List StageEvent → TripStatus
  | [] => .free
  | e :: past => nextStatus (tripStatus powerOn past) ((p.machine powerOn).replay past) e

/-- After a trip the outputs are off, at the latest when the enable it fell into returns, until
an enable that is called after the acknowledge. -/
def TripKept (powerOn : S) (trace : List StageEvent) : Prop :=
  p.tripStatus powerOn trace = .latched ∨ p.tripStatus powerOn trace = .acknowledged →
    p.outputs ((p.machine powerOn).replay trace).registers = false

open Resumption

/-! ### What may happen between two accesses -/

/-- A latched fault keeps the outputs off, and so does a missing external enable. -/
def Sane (s : S) : Prop :=
  (p.fault s = true → p.outputs s = false) ∧ (p.outputs s = true → p.externalEnable s = true)

/-- A missing external enable has latched a fault. -/
def Covered (s : S) : Prop := p.fault s = true ∨ p.externalEnable s = true

/-- Nothing but the thread switches the outputs on; a fault that comes up takes them off. -/
structure Between (s t : S) : Prop where
  dark : p.outputs t = true → p.outputs s = true ∧ (p.externalEnable s = true → p.externalEnable t = true)
  broke : p.fault t = true → p.fault s = true ∨ p.outputs t = false ∨ p.externalEnable s = false
  covered : p.Covered s → p.Covered t

variable {p}

theorem between_refl (s : S) : p.Between s s := ⟨fun on => ⟨on, id⟩, .inl, id⟩

theorem Between.trans {a b c : S} (first : p.Between a b) (second : p.Between b c) : p.Between a c := by
  constructor
  · intro on
    obtain ⟨earlier, later⟩ := second.dark on
    obtain ⟨earliest, early⟩ := first.dark earlier
    exact ⟨earliest, later ∘ early⟩
  · intro broken
    cases on : p.outputs c with
    | false => exact .inr (.inl rfl)
    | true =>
      obtain ⟨earlier, -⟩ := second.dark on
      have early := (first.dark earlier).2
      rcases second.broke broken with broken | off | missing
      · rcases first.broke broken with broken | off | missing
        · exact .inl broken
        · simp [earlier] at off
        · exact .inr (.inr missing)
      · simp [on] at off
      · apply Or.inr (Or.inr _)
        cases present : p.externalEnable a with
        | false => rfl
        | true => simp [early present] at missing
  · exact second.covered ∘ first.covered

theorem Sane.later {s t : S} (sane : p.Sane s) (between : p.Between s t) : p.Sane t := by
  constructor
  · intro broken
    cases on : p.outputs t with
    | false => rfl
    | true =>
      obtain ⟨earlier, -⟩ := between.dark on
      rcases between.broke broken with broken | off | missing
      · simp [sane.1 broken] at earlier
      · simp [on] at off
      · simp [sane.2 earlier] at missing
  · intro on
    obtain ⟨earlier, kept⟩ := between.dark on
    exact kept (sane.2 earlier)

theorem Between.stays_off {s t : S} (between : p.Between s t) (off : p.outputs s = false) :
    p.outputs t = false := by
  cases on : p.outputs t with
  | false => rfl
  | true => exact (between.dark on).1.symm.trans off

theorem sane_of_off {s : S} (off : p.outputs s = false) : p.Sane s :=
  ⟨fun _ => off, fun on => by simp [off] at on⟩

theorem between_of_off {s t : S} (off : p.outputs t = false) (covered : p.Covered s → p.Covered t) :
    p.Between s t :=
  ⟨fun on => by simp [off] at on, fun _ => .inr (.inl off), covered⟩

variable {release : Resumption S Unit} {answer : Resumption S Bool}

/-- What the interrupts and the callbacks of a platform have to keep to. -/
structure Rules (p : Platform S) (release : Resumption S Unit) (answer : Resumption S Bool) :
    Prop where
  enable : p.enable = guardedEnable p.outputs p.externalEnable p.fault release p.disable answer
  trip_off : ∀ s, p.outputs (p.trip s) = false
  trip_fault : ∀ s, p.fault (p.trip s) = true
  clearFault_outputs : ∀ s, p.outputs (p.clearFault s) = p.outputs s
  clearFault_between : ∀ s, p.Between s (p.clearFault s)
  setExternalEnable_between : ∀ present s, p.Between s (p.setExternalEnable present s)
  setExternalEnable_fault : ∀ present s, p.fault s = true → p.fault (p.setExternalEnable present s) = true
  disable_off : p.disable.Preserves fun s => p.outputs s = false
  disable_fault : p.disable.Preserves fun s => p.fault s = true
  disable_covered : p.disable.Preserves p.Covered
  disables : ∀ s, p.disable.Ensures p.Between (fun _ s => p.outputs s = false) s
  release_fault : release.Preserves fun s => p.fault s = true
  release_covered : release.Preserves p.Covered
  answer_fault : answer.Preserves fun s => p.fault s = true
  answer_sane : answer.Preserves p.Sane

namespace Rules

variable (rules : p.Rules release answer)

include rules

theorem disable_safe (s : S) : p.disable.Ensures p.Between (fun _ => p.Sane) s :=
  (rules.disables s).mono fun _ _ => sane_of_off

/-- The write of the release may undo a trip; the fault read after it does not. -/
theorem enable_safe {s : S} (sane : p.Sane s) : p.enable.Ensures p.Between (fun _ => p.Sane) s := by
  rw [rules.enable]
  apply ensures_read
  intro s between
  have sane := sane.later between
  cases on : p.outputs s with
  | true => exact ensures_pure fun _ => sane.later
  | false =>
    apply ensures_read
    intro s between
    have sane := sane.later between
    cases present : p.externalEnable s with
    | false => exact ensures_pure fun _ => sane.later
    | true =>
      have covered : p.Covered s := .inr present
      apply ensures_read
      intro s between
      have sane := sane.later between
      have covered := between.covered covered
      cases broken : p.fault s with
      | true => exact ensures_pure fun _ => sane.later
      | false =>
        apply Ensures.bind between_refl
        apply (rules.release_covered.ensures (fun holds later => later.covered holds) covered).mono
        intro _ s covered
        apply ensures_read
        intro s between
        have covered := between.covered covered
        cases broken : p.fault s with
        | true =>
          apply Ensures.bind between_refl
          exact (rules.disable_safe s).mono fun _ _ sane => ensures_pure fun _ => sane.later
        | false =>
          have present : p.externalEnable s = true := covered.resolve_left (by simp [broken])
          have sane : p.Sane s := ⟨fun latched => by simp [broken] at latched, fun _ => present⟩
          exact rules.answer_sane.ensures Sane.later sane

theorem enable_fault : p.enable.Preserves fun s => p.fault s = true := by
  rw [rules.enable]
  apply (preserves_read _).bind
  intro on
  cases on with
  | true => exact preserves_pure _
  | false =>
    apply (preserves_read _).bind
    intro present
    cases present with
    | false => exact preserves_pure _
    | true =>
      apply (preserves_read _).bind
      intro broken
      cases broken with
      | true => exact preserves_pure _
      | false =>
        apply rules.release_fault.bind
        intro _
        apply (preserves_read _).bind
        intro broken
        cases broken with
        | true => exact rules.disable_fault.bind fun _ => preserves_pure _
        | false => exact rules.answer_fault

theorem enable_latched : p.enable.Keeps fun s => p.fault s = true ∧ p.outputs s = false := by
  rw [rules.enable]
  apply keeps_read
  rintro s ⟨-, off⟩
  rw [off]
  apply keeps_read
  rintro s ⟨-, -⟩
  cases p.externalEnable s with
  | false => exact (preserves_pure _).keeps
  | true =>
    apply keeps_read
    rintro s ⟨broken, -⟩
    rw [broken]
    exact (preserves_pure _).keeps

theorem disabled_off (s : S) : p.outputs (p.disable.run s).2 = false := (rules.disables s).run between_refl

theorem interrupt_between (i : Interruption) (s : S) : p.Between s (p.interrupted i s) := by
  cases i with
  | trip => exact between_of_off (rules.trip_off s) fun _ => .inl (rules.trip_fault s)
  | disable => exact between_of_off (rules.disabled_off s) rules.disable_covered.run
  | clearFault => exact rules.clearFault_between s
  | externalEnable present => exact rules.setExternalEnable_between present s

theorem interrupt_fault {i : Interruption} (other : i ≠ .clearFault) {s : S} (broken : p.fault s = true) :
    p.fault (p.interrupted i s) = true := by
  cases i with
  | trip => exact rules.trip_fault s
  | disable => exact rules.disable_fault.run broken
  | clearFault => exact absurd rfl other
  | externalEnable present => exact rules.setExternalEnable_fault present s broken

end Rules

/-! ### Runs -/

/-- What a call returns to, and what the rest of it leaves alone. -/
def Safe (s : Stage S) : Prop :=
  match s.under with
  | none => p.Sane s.registers
  | some (function, r) =>
    r.Ensures p.Between (fun _ => p.Sane) s.registers ∧
    (r.Preserves fun s => p.fault s = true) ∧
    (function = .disable → r.Preserves fun s => p.outputs s = false)

/-- The fault is latched and the outputs stay off. -/
def Latched (s : Stage S) : Prop :=
  (p.fault s.registers = true ∧ p.outputs s.registers = false) ∧
  ∀ function r, s.under = some (function, r) → r.Keeps fun s => p.fault s = true ∧ p.outputs s = false

def Guarded (s : Stage S) : TripStatus → Prop
  | .free => True
  | .during => p.fault s.registers = true ∧ s.enabling = true
  | .latched => p.Latched s
  | .acknowledged => p.outputs s.registers = false ∧ s.enabling = false

theorem Safe.between {s : Stage S} (safe : p.Safe s) {registers : S}
    (between : p.Between s.registers registers) : p.Safe { s with registers := registers } := by
  unfold Safe at *
  cases call : s.under with
  | none =>
    rw [call] at safe
    exact safe.later between
  | some call =>
    rw [call] at safe
    exact ⟨safe.1.later Between.trans between, safe.2⟩

theorem safe_pending {function : StageCall} {r : Resumption S Unit} {s : S}
    (ensures : r.Ensures p.Between (fun _ => p.Sane) s) (broken : r.Preserves fun s => p.fault s = true)
    (off : function = .disable → r.Preserves fun s => p.outputs s = false) :
    p.Safe ⟨s, Stage.pending function r⟩ := by
  cases r with
  | done answer => exact ensures s (between_refl s)
  | access write next => exact ⟨ensures, broken, off⟩

theorem Safe.step {s : Stage S} (safe : p.Safe s) : p.Safe s.step := by
  obtain ⟨registers, under⟩ := s
  rcases under with _ | ⟨function, answer | ⟨write, next⟩⟩
  · exact safe
  · exact safe
  · obtain ⟨ensures, broken, off⟩ := safe
    exact safe_pending (ensures registers (between_refl registers)) (broken.2 registers)
      fun disabling => (off disabling).2 registers

theorem Safe.step_fault {s : Stage S} (safe : p.Safe s) (broken : p.fault s.registers = true) :
    p.fault s.step.registers = true := by
  obtain ⟨registers, under⟩ := s
  rcases under with _ | ⟨function, answer | ⟨write, next⟩⟩
  · exact broken
  · exact broken
  · exact safe.2.1.1 registers broken

theorem latched_pending {function : StageCall} {r : Resumption S Unit} {s : S}
    (holds : p.fault s = true ∧ p.outputs s = false)
    (keeps : r.Keeps fun s => p.fault s = true ∧ p.outputs s = false) :
    p.Latched ⟨s, Stage.pending function r⟩ := by
  refine ⟨holds, ?_⟩
  intro f rest pending
  cases r with
  | done answer => exact nomatch pending
  | access write next =>
    obtain ⟨rfl, rfl⟩ := Prod.mk.inj (Option.some.inj pending)
    exact keeps

theorem Latched.step {s : Stage S} (latched : p.Latched s) : p.Latched s.step := by
  obtain ⟨registers, under⟩ := s
  obtain ⟨holds, keeps⟩ := latched
  rcases under with _ | ⟨function, answer | ⟨write, next⟩⟩
  · exact ⟨holds, keeps⟩
  · exact ⟨holds, keeps⟩
  · obtain ⟨still, later⟩ := keeps function _ rfl registers holds
    exact latched_pending still later

theorem Latched.interrupted (rules : p.Rules release answer) {s : Stage S} (latched : p.Latched s)
    {i : Interruption} (other : i ≠ .clearFault) :
    p.Latched { s with registers := p.interrupted i s.registers } := by
  obtain ⟨⟨broken, off⟩, keeps⟩ := latched
  have between := rules.interrupt_between i s.registers
  exact ⟨⟨rules.interrupt_fault other broken, between.stays_off off⟩, keeps⟩

theorem Safe.disabling {s : Stage S} (safe : p.Safe s) (idle : s.enabling = false)
    {function : StageCall} {r : Resumption S Unit} (under : s.under = some (function, r)) :
    (r.Preserves fun s => p.fault s = true) ∧ r.Preserves fun s => p.outputs s = false := by
  unfold Safe at safe
  rw [under] at safe
  cases function with
  | enable => simp [Stage.enabling, under] at idle
  | disable => exact ⟨safe.2.1, safe.2.2 rfl⟩

theorem step_enabling {s : Stage S} (idle : s.enabling = false) : s.step.enabling = false := by
  obtain ⟨registers, under⟩ := s
  rcases under with _ | ⟨function, answer | ⟨write, next⟩⟩
  · exact idle
  · exact idle
  · change (Stage.pending function (next registers)).any (fun call => call.1 = .enable) = false
    cases next registers with
    | done answer => rfl
    | access write' next' => exact idle

theorem step_returned {s : Stage S} (before : s.enabling = true) (after : s.step.enabling = false) :
    s.step.under = none := by
  obtain ⟨registers, under⟩ := s
  rcases under with _ | ⟨function, answer | ⟨write, next⟩⟩
  · rfl
  · exact absurd (before.symm.trans after) (by decide)
  · change (Stage.pending function (next registers)).any (fun call => call.1 = .enable) = false at after
    change Stage.pending function (next registers) = none
    cases rest : next registers with
    | done answer => rfl
    | access write' next' =>
      rw [rest] at after
      exact absurd (before.symm.trans after) (by decide)

/-- The enable that a trip fell into returns with the outputs off. -/
theorem Safe.returned {s : Stage S} (safe : p.Safe s) (broken : p.fault s.registers = true)
    (before : s.enabling = true) (after : s.step.enabling = false) : p.Latched s.step := by
  have returned := step_returned before after
  have sane := safe.step
  unfold Safe at sane
  rw [returned] at sane
  have broken := safe.step_fault broken
  exact ⟨⟨broken, sane.1 broken⟩, fun function r under => by simp [returned] at under⟩

theorem Safe.step_off {s : Stage S} (safe : p.Safe s) (idle : s.enabling = false)
    (off : p.outputs s.registers = false) : p.outputs s.step.registers = false := by
  obtain ⟨registers, under⟩ := s
  rcases under with _ | ⟨function, answer | ⟨write, next⟩⟩
  · exact off
  · exact off
  · exact (safe.disabling idle rfl).2.1 registers off

section Runs

variable (rules : p.Rules release answer)

include rules

theorem safe_call {s : S} (sane : p.Sane s) :
    ∀ function, p.Safe ⟨s, Stage.pending function (p.routine function)⟩
  | .enable => by
    apply safe_pending
    · apply Ensures.bind between_refl
      exact (rules.enable_safe sane).mono fun _ _ sane => ensures_pure fun _ => sane.later
    · exact rules.enable_fault.bind fun _ => preserves_pure ()
    · exact fun disabling => nomatch disabling
  | .disable => safe_pending (rules.disable_safe s) rules.disable_fault fun _ => rules.disable_off

theorem latched_call {s : S} (holds : p.fault s = true ∧ p.outputs s = false) (function : StageCall) :
    p.Latched ⟨s, Stage.pending function (p.routine function)⟩ := by
  have keeps : (p.routine function).Keeps fun s => p.fault s = true ∧ p.outputs s = false := by
    cases function with
    | enable => exact rules.enable_latched.bind fun _ => (preserves_pure ()).keeps
    | disable => exact (rules.disable_fault.and rules.disable_off).keeps
  exact latched_pending holds keeps

theorem safe_next {s : Stage S} (safe : p.Safe s) (e : StageEvent) (admitted : admits s e) :
    p.Safe (p.next s e) := by
  cases e with
  | call function =>
    have idle : s.under = none := admitted
    unfold Safe at safe
    rw [idle] at safe
    exact safe_call rules safe function
  | access => exact safe.step
  | interrupt i => exact safe.between (rules.interrupt_between i s.registers)

theorem guarded_call {s : Stage S} {status : TripStatus} (guarded : p.Guarded s status)
    (idle : s.under = none) (function : StageCall) :
    p.Guarded (p.next s (.call function)) (nextStatus status s (.call function)) := by
  cases status with
  | free => cases function <;> trivial
  | during => simp [Guarded, Stage.enabling, idle] at guarded
  | latched => cases function <;> exact latched_call rules guarded.1 _
  | acknowledged =>
    cases function with
    | enable => trivial
    | disable =>
      refine ⟨guarded.1, ?_⟩
      change (Stage.pending .disable p.disable).any (fun call => call.1 = .enable) = false
      cases p.disable <;> rfl

omit rules in
theorem guarded_access {s : Stage S} {status : TripStatus} (safe : p.Safe s)
    (guarded : p.Guarded s status) : p.Guarded s.step (nextStatus status s .access) := by
  cases status with
  | free => trivial
  | during =>
    cases after : s.step.enabling with
    | false =>
      rw [nextStatus, if_pos ⟨rfl, after⟩]
      exact safe.returned guarded.1 guarded.2 after
    | true =>
      rw [nextStatus, if_neg (by simp [after])]
      exact ⟨safe.step_fault guarded.1, after⟩
  | latched => exact guarded.step
  | acknowledged => exact ⟨safe.step_off guarded.2 guarded.1, step_enabling guarded.2⟩

theorem guarded_trip {s : Stage S} {status : TripStatus} (safe : p.Safe s)
    (guarded : p.Guarded s status) :
    p.Guarded (p.next s (.interrupt .trip)) (nextStatus status s (.interrupt .trip)) := by
  have tripped := And.intro (rules.trip_fault s.registers) (rules.trip_off s.registers)
  by_cases during : status ≠ .latched ∧ s.enabling = true
  · rw [nextStatus, if_pos during]
    exact ⟨tripped.1, during.2⟩
  · rw [nextStatus, if_neg during]
    refine ⟨tripped, ?_⟩
    intro function r under
    by_cases latched : status = .latched
    · subst latched
      exact guarded.2 function r under
    · have idle : s.enabling = false := by simpa [latched] using during
      obtain ⟨broken, off⟩ := safe.disabling idle under
      exact (broken.and off).keeps

theorem guarded_clearFault {s : Stage S} {status : TripStatus} (guarded : p.Guarded s status) :
    p.Guarded (p.next s (.interrupt .clearFault)) (nextStatus status s (.interrupt .clearFault)) := by
  have same := rules.clearFault_outputs s.registers
  cases status with
  | free => trivial
  | during => trivial
  | latched =>
    cases enabling : s.enabling with
    | true =>
      simp only [nextStatus, enabling]
      trivial
    | false =>
      simp only [nextStatus, enabling]
      exact ⟨same.trans guarded.1.2, enabling⟩
  | acknowledged => exact ⟨same.trans guarded.1, guarded.2⟩

theorem guarded_interrupt {s : Stage S} {status : TripStatus} (guarded : p.Guarded s status)
    {i : Interruption} (other : i ≠ .clearFault) :
    p.Guarded { s with registers := p.interrupted i s.registers } status := by
  cases status with
  | free => trivial
  | during => exact ⟨rules.interrupt_fault other guarded.1, guarded.2⟩
  | latched => exact Latched.interrupted rules guarded other
  | acknowledged => exact ⟨(rules.interrupt_between i s.registers).stays_off guarded.1, guarded.2⟩

theorem guarded_next {s : Stage S} {status : TripStatus} (safe : p.Safe s)
    (guarded : p.Guarded s status) (e : StageEvent) (admitted : admits s e) :
    p.Guarded (p.next s e) (nextStatus status s e) := by
  cases e with
  | call function => exact guarded_call rules guarded admitted function
  | access => exact guarded_access safe guarded
  | interrupt i =>
    cases i with
    | trip => exact guarded_trip rules safe guarded
    | disable => exact guarded_interrupt rules guarded (by decide)
    | clearFault => exact guarded_clearFault rules guarded
    | externalEnable present => exact guarded_interrupt rules guarded nofun

theorem guarded {powerOn : S} (off : p.outputs powerOn = false) (trace : List StageEvent)
    (legal : (p.machine powerOn).Legal trace) :
    p.Safe ((p.machine powerOn).replay trace) ∧
    p.Guarded ((p.machine powerOn).replay trace) (p.tripStatus powerOn trace) := by
  refine Runs.Machine.invariant
    (fun s trace => p.Safe s ∧ p.Guarded s (p.tripStatus powerOn trace)) ?_ ?_ trace legal
  · exact ⟨sane_of_off off, trivial⟩
  · rintro e past ⟨safe, guarded⟩ admitted
    exact ⟨safe_next rules safe e admitted, guarded_next rules safe guarded e admitted⟩

theorem trip_kept {powerOn : S} (off : p.outputs powerOn = false) (trace : List StageEvent)
    (legal : (p.machine powerOn).Legal trace) : p.TripKept powerOn trace := by
  obtain ⟨-, guarded⟩ := guarded rules off trace legal
  intro status
  rcases status with status | status
  · rw [status] at guarded
    exact guarded.1.2
  · rw [status] at guarded
    exact guarded.1

end Runs

end Platform

/-! ### The board -/

namespace TimerRegisters

open Resumption Platform

theorem cleared (v m : UInt32) : (v &&& ~~~m) &&& m = 0 := by
  rw [UInt32.and_assoc, UInt32.not_and_self, UInt32.and_zero]

theorem raised (v m : UInt32) : (v ||| m) &&& m = m := by
  apply UInt32.toBitVec_inj.mp
  ext i
  simpa using Or.inr

@[simp] theorem trip_outputs (r : TimerRegisters) : r.trip.outputs = false := by
  simp [outputs, trip, cleared]

@[simp] theorem trip_fault (r : TimerRegisters) : r.trip.fault = true := by
  simp [fault, trip, raised, breakFlag]

theorem writeBdtr_off (value : UInt32) (r : TimerRegisters) :
    (writeBdtr (value &&& ~~~moe) r).outputs = false := by
  cases present : r.released <;> simp [outputs, writeBdtr, present, cleared]

theorem between_clearFault (r : TimerRegisters) : bcc.Between r r.clearFault := by
  constructor
  · exact fun on => ⟨on, id⟩
  · intro broken
    cases present : r.released with
    | false => exact .inr (.inr present)
    | true => simp [bcc, fault, clearFault, present, cleared] at broken
  · intro _
    cases present : r.released with
    | false => exact .inl (by simp [bcc, fault, clearFault, present, raised, breakFlag])
    | true => exact .inr present

theorem between_setExternalEnable (present : Bool) (r : TimerRegisters) :
    bcc.Between r (r.setExternalEnable present) := by
  cases present with
  | false => exact between_of_off (trip_outputs _) fun _ => .inl (trip_fault _)
  | true => exact ⟨fun on => ⟨on, fun _ => rfl⟩, .inl, fun _ => .inr rfl⟩

theorem setExternalEnable_fault (present : Bool) (r : TimerRegisters) (broken : r.fault = true) :
    (r.setExternalEnable present).fault = true := by
  cases present with
  | false => exact trip_fault _
  | true => exact broken

theorem preserves_writeBdtr {I : TimerRegisters → Prop} (change : UInt32 → UInt32)
    (kept : ∀ bdtr r, I r → I (writeBdtr (change bdtr) r)) :
    (read (·.bdtr) >>= fun bdtr => modify (writeBdtr (change bdtr))).Preserves I :=
  (preserves_read _).bind fun bdtr => preserves_modify (kept bdtr)

theorem disables (r : TimerRegisters) :
    disable.Ensures bcc.Between (fun _ r => r.outputs = false) r := by
  apply ensures_read
  intro s _ t _ u after
  exact after.stays_off (writeBdtr_off _ _)

end TimerRegisters

theorem bcc_rules : bcc.Rules TimerRegisters.release (Resumption.read TimerRegisters.outputs) where
  enable := rfl
  trip_off := TimerRegisters.trip_outputs
  trip_fault := TimerRegisters.trip_fault
  clearFault_outputs _ := rfl
  clearFault_between := TimerRegisters.between_clearFault
  setExternalEnable_between := TimerRegisters.between_setExternalEnable
  setExternalEnable_fault := TimerRegisters.setExternalEnable_fault
  disable_off := TimerRegisters.preserves_writeBdtr _ fun _ _ _ => TimerRegisters.writeBdtr_off _ _
  disable_fault := TimerRegisters.preserves_writeBdtr _ fun _ _ broken => broken
  disable_covered := TimerRegisters.preserves_writeBdtr _ fun _ _ covered => covered
  disables := TimerRegisters.disables
  release_fault := TimerRegisters.preserves_writeBdtr _ fun _ _ broken => broken
  release_covered := TimerRegisters.preserves_writeBdtr _ fun _ _ covered => covered
  answer_fault := Resumption.preserves_read _
  answer_sane := Resumption.preserves_read _

/-! ### The simulation -/

namespace PowerStage

open Platform

theorem between_clearFault (stage : PowerStage) : sim.Between stage stage.clearFault := by
  constructor
  · exact fun on => ⟨on, id⟩
  · intro broken
    exact .inr (.inr (by simpa [sim, clearFault] using broken))
  · intro _
    cases present : stage.externalEnable with
    | false => exact .inl (by simp [sim, clearFault, present])
    | true => exact .inr present

theorem between_setExternalEnable (present : Bool) (stage : PowerStage) :
    sim.Between stage (stage.setExternalEnable present) := by
  cases present with
  | false => exact between_of_off rfl fun _ => .inl rfl
  | true => exact ⟨fun on => ⟨on, fun _ => rfl⟩, .inl, fun _ => .inr rfl⟩

theorem setExternalEnable_fault (present : Bool) (stage : PowerStage) (broken : stage.fault = true) :
    (stage.setExternalEnable present).fault = true := by
  cases present with
  | false => rfl
  | true => exact broken

theorem disables (stage : PowerStage) :
    simDisable.Ensures sim.Between (fun _ stage => stage.enabled = false) stage := by
  intro s _ t after
  exact after.stays_off rfl

end PowerStage

theorem sim_rules :
    sim.Rules (.modify fun stage => { stage with enabled := true }) (pure true) where
  enable := rfl
  trip_off _ := rfl
  trip_fault _ := rfl
  clearFault_outputs _ := rfl
  clearFault_between := PowerStage.between_clearFault
  setExternalEnable_between := PowerStage.between_setExternalEnable
  setExternalEnable_fault := PowerStage.setExternalEnable_fault
  disable_off := Resumption.preserves_modify fun _ _ => rfl
  disable_fault := Resumption.preserves_modify fun _ broken => broken
  disable_covered := Resumption.preserves_modify fun _ covered => covered
  disables := PowerStage.disables
  release_fault := Resumption.preserves_modify fun _ broken => broken
  release_covered := Resumption.preserves_modify fun _ covered => covered
  answer_fault := Resumption.preserves_pure _
  answer_sane := Resumption.preserves_pure _

/-! ### A trip beats an enable -/

theorem trip_beats_enable (registers : TimerRegisters) (stage : PowerStage)
    (board : registers.outputs = false) (simulation : stage.enabled = false) (trace : List StageEvent) :
    ((bcc.machine registers).Legal trace → bcc.TripKept registers trace) ∧
    ((sim.machine stage).Legal trace → sim.TripKept stage trace) :=
  ⟨Platform.trip_kept bcc_rules board trace, Platform.trip_kept sim_rules simulation trace⟩

/-- A trip between two accesses of an enable, the newest event first. -/
def interruptedEnable (before after : Nat) : List StageEvent :=
  List.replicate after .access ++ .interrupt .trip :: List.replicate before .access ++ [.call .enable]

/-- Right before the write of the release, on the board after the read that belongs to it. -/
theorem trip_beats_enable_release :
    bcc.outputs ((bcc.machine ⟨0, 0, true⟩).replay (interruptedEnable 4 4)).registers = false ∧
    sim.outputs ((sim.machine (.powerOn true)).replay (interruptedEnable 3 3)).registers = false :=
  ⟨(trip_beats_enable ⟨0, 0, true⟩ (.powerOn true) (by decide) rfl (interruptedEnable 4 4)).1 (by decide)
      (by decide),
    (trip_beats_enable ⟨0, 0, true⟩ (.powerOn true) (by decide) rfl (interruptedEnable 3 3)).2 (by decide)
      (by decide)⟩

end Unimoc.Hardware
