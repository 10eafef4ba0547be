import Unimoc.CurrentControl.HfiSamples

/-! Which plan the samples of an angle error answer: one and the same where the observer keeps up
with the control cycle, two where a cycle has come in between. -/
namespace Unimoc.CurrentControl

open Settings Runs

/-- The cycle finds the observer done and, once a cycle has run the loop, runs it too. -/
def InTime {F : Type} [Arithmetic F] (before : HandOver F) (e : HfiEvent F) (past : List (HfiEvent F)) : Prop :=
  let s := ((hfiRun before).replay past).handOver
  match e with
  | .cycle isr _ raw _ => s.observerPending = false ∧ (before.cycles < s.cycles → isr.runsLoop raw = true)
  | .observer _ => True

namespace HfiRun

section KeepsUp

variable {F : Type} {first : Nat} {s : HfiRun F}

/-- How many cycles had run the loop when the samples in the slots were read. -/
def readThrough (s : HandOver F) : Nat :=
  match s.phase with
  | .writing _ _ _ | .flipped _ => s.cycles
  | _ => if s.observerPending then s.cycles - 1 else s.cycles

def Current (cycles : Nat) : Phase F → Prop
  | .reading _ _ taken => ∀ read ∈ taken, read.after = cycles
  | _ => True

structure InStep (first : Nat) (s : HfiRun F) : Prop where
  idle : s.handOver.observerPending = false → s.handOver.phase = .idle
  adjacent : ∀ n, first < n → n < s.handOver.cycles → s.ranAt (n + 1) = s.ranAt n + 1
  last : first < s.handOver.cycles → s.ranAt s.handOver.cycles = s.boundaries
  current : Current s.handOver.cycles s.handOver.phase
  slots : s.errors = [] ∨ ∃ taken, Whole first s.handOver.cycles taken ∧ s.slots = slotsOf taken ∧
    ∀ read ∈ taken, read.after = readThrough s.handOver
  errors : ∀ error ∈ s.errors.dropLast, ∃ m, first < m ∧ m < s.handOver.cycles ∧ ReadIn m error

theorem InStep.ran (inStep : InStep first s) (done : s.handOver.observerPending = false)
    {buf : Fin 2 → SubStepBuffer F} {overruns : UInt32} {injects : Nat → Bool} :
    InStep first
      { s with
        handOver :=
          { s.handOver with
            buf := buf, observerBuffer := s.handOver.active, observerPending := true, observerOverruns := overruns
            cycles := s.handOver.cycles + 1 }
        boundaries := s.boundaries + 1
        ranAt := Function.update s.ranAt (s.handOver.cycles + 1) (s.boundaries + 1)
        injects := injects } := by
  obtain ⟨idle, adjacent, last, -, slots, errors⟩ := inStep
  have rest := idle done
  refine ⟨fun pending => (by cases pending), ?_, fun _ => Function.update_self .., ?_, ?_, ?_⟩
  · intro n after below
    simp only at below ⊢
    have old : Function.update s.ranAt (s.handOver.cycles + 1) (s.boundaries + 1) n = s.ranAt n :=
      Function.update_of_ne (by omega) ..
    rw [old]
    obtain rfl | earlier := Nat.eq_or_lt_of_le (Nat.le_of_lt_succ below)
    · rw [Function.update_self, last after]
    · rw [Function.update_of_ne (by omega), adjacent n after earlier]
  · show Current _ s.handOver.phase
    rw [rest]
    trivial
  · refine slots.imp_right fun ⟨taken, whole, same, after⟩ => ⟨taken, whole.mono (Nat.le_succ _), same, ?_⟩
    simpa [readThrough, rest, done] using after
  · intro error listed
    obtain ⟨m, after, below, readIn⟩ := errors error listed
    exact ⟨m, after, below.trans (Nat.lt_succ_self _), readIn⟩

theorem InStep.still (inStep : InStep first s) (none : ¬first < s.handOver.cycles) {injects : Nat → Bool} :
    InStep first { s with boundaries := s.boundaries + 1, injects := injects } :=
  ⟨inStep.idle, inStep.adjacent, fun some => absurd some none, inStep.current, inStep.slots, inStep.errors⟩

theorem runOnce_idle (meets : Surroundings F) {s : HandOver F} (idle : s.observerPending = false → s.phase = .idle)
    (done : (s.runOnce meets).observerPending = false) : (s.runOnce meets).phase = .idle := by
  cases pending : s.observerPending with
  | false => simp [HandOver.runOnce, idle pending, pending]
  | true =>
    revert done
    unfold HandOver.runOnce
    split <;> simp [pending]

theorem runOnce_current (meets : Surroundings F) {s : HandOver F} (current : Current s.cycles s.phase) :
    Current s.cycles (s.runOnce meets).phase := by
  unfold HandOver.runOnce
  split <;> rename_i found <;> rw [found] at current
  · split
    · trivial
    · rw [found]
      trivial
  · exact fun read among => (by cases among)
  · rename_i access todo taken
    cases access with
    | angle place => exact current
    | field field =>
      intro read among
      obtain rfl | old := List.mem_cons.mp among
      · rfl
      · exact current read old
  all_goals trivial

theorem runOnce_readThrough (meets : Surroundings F) {s : HandOver F}
    (more : ∀ finished taken, s.phase ≠ .reading finished [] taken) :
    readThrough (s.runOnce meets) = readThrough s := by
  unfold HandOver.runOnce
  split <;> rename_i found
  · split
    · simp [readThrough, found]
    · rfl
  · simp [readThrough, found]
  · simp [readThrough, found]
  · exact absurd found (more _ _)
  all_goals simp [readThrough, found]

theorem InStep.fed (inStep : InStep first s) (stored : Stored first s.handOver.cycles s.slots s.errors)
    {finished : Fin 2} {taken : List Taken} (last : s.handOver.phase = .reading finished [] taken) :
    (s.fed taken).slots = slotsOf taken ∧ ∀ error ∈ (s.fed taken).errors.dropLast,
      ∃ m, first < m ∧ m < s.handOver.cycles ∧ ReadIn m error := by
  have pending : s.handOver.observerPending = true := by
    by_contra done
    exact absurd (last.symm.trans (inStep.idle (by simpa using done))) (by simp)
  have current : ∀ read ∈ taken, read.after = s.handOver.cycles := by
    have held := inStep.current
    rw [last] at held
    exact held
  refine ⟨by rw [fed_slots taken stored.step], fun error listed => ?_⟩
  obtain none | ⟨earlier, before, slots, after⟩ := inStep.slots
  · simp [fed_slots taken stored.step, none] at listed
  · simp only [fed_again earlier taken slots] at listed
    obtain ⟨rfl, -⟩ | old := mem_dropLast_cons listed
    · simp only [readThrough, last, pending, if_true] at after
      obtain ⟨read, among, -⟩ := before.all 0
      obtain ⟨later, same, -⟩ := before.good read among
      have date := after read among
      refine ⟨s.handOver.cycles - 1, by omega, by omega, (errorOf_readIn _).mpr fun step read among => ?_⟩
      by_cases complete : step = 3
      · simp only [if_pos complete] at among ⊢
        rw [current read (List.mem_filter.mp among).1]
        omega
      · simp only [if_neg complete] at among ⊢
        exact after read (List.mem_filter.mp among).1
    · exact inStep.errors error old

theorem InStep.runOnce (inStep : InStep first s) (sound : Sound first s) (meets : Surroundings F) :
    InStep first (s.runOnce meets) := by
  have idle := runOnce_idle meets inStep.idle
  have current := runOnce_current meets inStep.current
  have cycles := runOnce_cycles meets s.handOver
  obtain ⟨-, adjacent, newest, -, slots, errors⟩ := id inStep
  by_cases last : ∃ finished taken, s.handOver.phase = .reading finished [] taken
  · obtain ⟨finished, taken, last⟩ := last
    have taking := sound.taking
    have current' := inStep.current
    rw [last] at taking current'
    have whole : Whole first s.handOver.cycles taken :=
      ⟨taking.1, fun k => (taking.2 k).resolve_left List.not_mem_nil⟩
    obtain ⟨slots, errors⟩ := inStep.fed sound.stored last
    rw [runOnce_fed last]
    rw [← cycles] at adjacent newest current whole errors
    refine ⟨idle, adjacent, newest, current, .inr ⟨taken, whole, slots, fun read among => ?_⟩, errors⟩
    have through : readThrough (s.handOver.runOnce meets) = s.handOver.cycles := by
      simp [HandOver.runOnce, last, readThrough]
    rw [through]
    exact current' read among
  · have still : ∀ finished taken, s.handOver.phase ≠ .reading finished [] taken :=
      fun finished taken found => last ⟨finished, taken, found⟩
    rw [runOnce_still still]
    rw [← runOnce_readThrough meets still] at slots
    rw [← cycles] at adjacent newest current slots errors
    exact ⟨idle, adjacent, newest, current, slots, errors⟩

end KeepsUp

end HfiRun

theorem hfiRun_inStep {F : Type} [Arithmetic F] {before : HandOver F} {trace : List (HfiEvent F)}
    (legal : (hfiRun before).Legal trace) (inTime : Throughout (InTime before) trace) :
    ((hfiRun before).replay trace).InStep before.cycles := by
  have both : ((hfiRun before).replay trace).Sound before.cycles ∧
      ((hfiRun before).replay trace).InStep before.cycles := by
    refine Machine.invariant_under (InTime before) (fun s _ => s.Sound before.cycles ∧ s.InStep before.cycles) ?_ ?_
      trace legal inTime
    · have start : ((hfiRun before).replay []).Sound before.cycles := hfiRun_sound trivial
      refine ⟨start, fun _ => rfl, fun n after below => ?_, fun some => ?_, trivial, .inl rfl,
        fun error listed => (by cases listed)⟩
      · exact absurd (after.trans below) (Nat.lt_irrefl _)
      · exact absurd some (Nat.lt_irrefl _)
    · rintro e past ⟨sound, inStep⟩ admitted intime
      cases e with
      | observer meets => exact ⟨HfiRun.runOnce_sound admitted sound, inStep.runOnce sound meets⟩
      | cycle isr loop raw timestamp =>
        refine ⟨HfiRun.onControlCycle_sound isr admitted.2 raw timestamp sound, ?_⟩
        obtain ⟨done, runsOn⟩ := intime
        show ((((hfiRun before).replay past).onControlCycle isr loop raw timestamp)).InStep before.cycles
        cases runs : isr.runsLoop raw with
        | false =>
          rw [HfiRun.onControlCycle_still runs]
          exact inStep.still fun some => absurd ((runsOn some).symm.trans runs) (by decide)
        | true =>
          obtain ⟨buf, overruns, ran⟩ := HfiRun.onControlCycle_ran runs loop timestamp ((hfiRun before).replay past)
          rw [ran]
          exact inStep.ran done
  exact both.2

/-- An error after the first combines the answers to one plan exactly when the observer has run
after each of two adjacent control cycles; where it keeps up with every cycle all do, and only the
plan of the first cycle carries no injection. -/
theorem hfi_pairing {F : Type} [Arithmetic F] (before : HandOver F) {trace : List (HfiEvent F)}
    (legal : (hfiRun before).Legal trace) :
    let s := (hfiRun before).replay trace
    (∀ error ∈ s.errors.dropLast, ∀ plan,
      s.Pairs plan error ↔ ∃ m, s.Undisturbed m error ∧ s.ranAt m = plan) ∧
    (Throughout (InTime before) trace → ∀ error ∈ s.errors.dropLast,
      ∃ plan, s.Pairs plan error ∧ (s.injects plan = true ∨ plan = s.ranAt (before.cycles + 1))) := by
  intro s
  have sound : s.Sound before.cycles := hfiRun_sound legal
  have exactly : ∀ error ∈ s.errors.dropLast, ∀ plan,
      s.Pairs plan error ↔ ∃ m, s.Undisturbed m error ∧ s.ranAt m = plan := by
    intro error listed plan
    obtain ⟨earlier, latest, first, second, rfl⟩ := sound.stored.errors error listed
    exact HfiRun.pairs_iff sound.numbered first second plan
  refine ⟨exactly, fun inTime error listed => ?_⟩
  have inStep : s.InStep before.cycles := hfiRun_inStep legal inTime
  obtain ⟨m, after, below, readIn⟩ := inStep.errors error listed
  refine ⟨s.ranAt m, (exactly error listed _).mpr ⟨m, ⟨inStep.adjacent m after below, readIn⟩, rfl⟩, ?_⟩
  obtain initial | later := Nat.eq_or_lt_of_le (Nat.succ_le_of_lt after)
  · exact .inr (congrArg s.ranAt initial.symm)
  · left
    have set := sound.numbered.injected (m - 1) (by omega) (by omega)
    rwa [← inStep.adjacent (m - 1) (by omega) (by omega), Nat.sub_add_cancel (by omega)] at set

section Bench

def injectingDrive : Surroundings Binary32 := { plainDrive with hfiActive := true }

def injectingCycle (forced : Bool) : HfiEvent Binary32 :=
  .cycle { deadBus with forceDutyActive := forced } { deadLoop with hfiActive := true }
    ⟨Vector.replicate numSubSteps .zero, .zero, false⟩ 0

def wholeRun : List (HfiEvent Binary32) := List.replicate 49 (.observer injectingDrive)

def keptUp : List (HfiEvent Binary32) := wholeRun ++ injectingCycle false :: wholeRun ++ [injectingCycle false]

theorem legal_cycle (forced : Bool) {past : List (HfiEvent Binary32)} (legal : (hfiRun emptyBuffers).Legal past) :
    (hfiRun emptyBuffers).Legal (injectingCycle forced :: past) :=
  (Machine.legal_cons ..).mpr ⟨⟨rfl, rfl⟩, legal⟩

theorem legal_wholeRun {past : List (HfiEvent Binary32)} (legal : (hfiRun emptyBuffers).Legal past) :
    (hfiRun emptyBuffers).Legal (wholeRun ++ past) := by
  unfold wholeRun
  induction 49 with
  | zero => exact legal
  | succ n ih => exact (Machine.legal_cons ..).mpr ⟨rfl, ih⟩

theorem legal_first : (hfiRun emptyBuffers).Legal (wholeRun ++ [injectingCycle false]) :=
  legal_wholeRun (legal_cycle false (Machine.legal_nil _))

theorem keptUp_legal : (hfiRun emptyBuffers).Legal keptUp :=
  legal_wholeRun (legal_cycle false legal_first)

theorem inTime_wholeRun {past : List (HfiEvent Binary32)} (inTime : Throughout (InTime emptyBuffers) past) :
    Throughout (InTime emptyBuffers) (wholeRun ++ past) := by
  unfold wholeRun
  induction 49 with
  | zero => exact inTime
  | succ n ih => exact (throughout_cons ..).mpr ⟨trivial, ih⟩

theorem keptUp_inTime : Throughout (InTime emptyBuffers) keptUp := by
  have runsOn : CurrentControlIsr.runsLoop deadBus ⟨Vector.replicate numSubSteps .zero, .zero, false⟩ = true := by
    decide +kernel
  have done : ((hfiRun emptyBuffers).replay (wholeRun ++ [injectingCycle false])).handOver.observerPending = false := by
    decide +kernel
  have start : Throughout (InTime emptyBuffers) [injectingCycle false] :=
    (throughout_cons ..).mpr ⟨⟨rfl, fun _ => runsOn⟩, throughout_nil _⟩
  exact inTime_wholeRun ((throughout_cons ..).mpr ⟨⟨done, fun _ => runsOn⟩, inTime_wholeRun start⟩)

/-- What a run of the observer reads of the samples of a cycle. -/
def samplesRead (cycle : Nat) : List Taken :=
  (List.finRange numSubSteps).flatMap fun k =>
    [⟨.beta k, cycle, cycle⟩, ⟨.alpha k, cycle, cycle⟩, ⟨.beta k, cycle, cycle⟩, ⟨.alpha k, cycle, cycle⟩]

def secondError (cycle : Nat) : Sources := errorOf (samplesRead 1) (samplesRead cycle)

theorem secondError_not_pairs {F : Type} {s : HfiRun F} {cycle : Nat} (one : s.ranAt 1 = 1)
    (other : s.ranAt cycle = 3) (plan : Nat) : ¬s.Pairs plan (secondError cycle) := by
  intro pairs
  obtain ⟨_, ⟨⟩, -, start⟩ := pairs 0
  obtain ⟨_, ⟨⟩, -, rest⟩ := pairs 3
  have first := start ⟨.alpha 1, 1, 1⟩ (by decide)
  have second := rest ⟨.alpha 0, cycle, cycle⟩ (by simp [sampleOf, samplesRead])
  rw [one] at first
  rw [other] at second
  cases first
  cases second

/-- A late observer: two cycles come before its second run. -/
def lateObserver : List (HfiEvent Binary32) :=
  wholeRun ++ injectingCycle false :: injectingCycle false :: wholeRun ++ [injectingCycle false]

/-- A cycle with forced duties comes between the two runs. -/
def forcedPause : List (HfiEvent Binary32) :=
  wholeRun ++ injectingCycle false :: injectingCycle true :: wholeRun ++ [injectingCycle false]

theorem keptUp_errors : ((hfiRun emptyBuffers).replay keptUp).errors.dropLast = [secondError 2] := by
  decide +kernel

theorem hfi_pairing_keptUp : ∃ error ∈ ((hfiRun emptyBuffers).replay keptUp).errors.dropLast,
    ∃ plan, ((hfiRun emptyBuffers).replay keptUp).Pairs plan error := by
  have listed : secondError 2 ∈ ((hfiRun emptyBuffers).replay keptUp).errors.dropLast := by
    simp [keptUp_errors]
  obtain ⟨plan, pairs, -⟩ := (hfi_pairing emptyBuffers keptUp_legal).2 keptUp_inTime (secondError 2) listed
  exact ⟨secondError 2, listed, plan, pairs⟩

theorem lateObserver_errors : ((hfiRun emptyBuffers).replay lateObserver).errors.dropLast = [secondError 3] := by
  decide +kernel

theorem forcedPause_errors : ((hfiRun emptyBuffers).replay forcedPause).errors.dropLast = [secondError 2] := by
  decide +kernel

/-- The second error combines the answers to two plans. -/
theorem pairing_lost :
    ((hfiRun emptyBuffers).Legal lateObserver ∧ ∃ error ∈ ((hfiRun emptyBuffers).replay lateObserver).errors.dropLast,
      ∀ plan, ¬((hfiRun emptyBuffers).replay lateObserver).Pairs plan error) ∧
    ((hfiRun emptyBuffers).Legal forcedPause ∧ ∃ error ∈ ((hfiRun emptyBuffers).replay forcedPause).errors.dropLast,
      ∀ plan, ¬((hfiRun emptyBuffers).replay forcedPause).Pairs plan error) := by
  refine ⟨⟨?_, secondError 3, ?_, secondError_not_pairs ?_ ?_⟩, ?_, secondError 2, ?_, secondError_not_pairs ?_ ?_⟩
  · exact legal_wholeRun (legal_cycle false (legal_cycle false legal_first))
  · simp [lateObserver_errors]
  · decide +kernel
  · decide +kernel
  · exact legal_wholeRun (legal_cycle false (legal_cycle true legal_first))
  · simp [forcedPause_errors]
  · decide +kernel
  · decide +kernel

end Bench

end Unimoc.CurrentControl
