import Unimoc.CurrentControl.HandOver
import Unimoc.CurrentControl.SlowUpdate

/-! The plans and steps that the samples of the injection observer answer, over runs of control
cycles and of the observer, access by access. -/
namespace Unimoc.CurrentControl

open Settings Runs

local instance fourSubSteps : NeZero numSubSteps := ⟨by decide⟩

/-- Plan `n` is in effect while control cycle `n` samples: the cycle before it has set it. -/
structure PlanEntry where
  plan : Nat
  entry : Fin numSubSteps
deriving DecidableEq

/-- A sample answers the entry before it. -/
def answered (cycle : Nat) (k : Fin numSubSteps) : PlanEntry := ⟨if k = 0 then cycle - 1 else cycle, k - 1⟩

/-- A sample of the injection observer, with the accesses that have read it. -/
structure InjectionSample where
  k : Fin numSubSteps
  reads : List Taken
deriving DecidableEq

/-- Where the samples of the injection observer come from, by their step. -/
abbrev Sources := Vector (Option InjectionSample) 4

/-- `Hfi` with the sources in place of the currents. -/
structure InjectionSlots where
  step : Nat
  samples : Sources
deriving DecidableEq

namespace InjectionSlots

def initial : InjectionSlots := ⟨3, Vector.replicate 4 none⟩

/-- The samples an angle error combines, when the step completes one. -/
def update (sample : InjectionSample) (slots : InjectionSlots) : Option Sources × InjectionSlots :=
  let samples := slots.samples.setIfInBounds slots.step (some sample)
  (if slots.step = 3 then some samples else none, ⟨(slots.step + 1) % 4, samples⟩)

end InjectionSlots

def sampleOf (taken : List Taken) (k : Fin numSubSteps) : InjectionSample :=
  ⟨k, taken.filter fun read => read.field = .alpha k ∨ read.field = .beta k⟩

/-- `boundaries` counts all control cycles since the start; `ranAt` tells which of them a cycle
that ran the loop was, `injects` which plans carry the injection. The newest error comes first. -/
structure HfiRun (F : Type) where
  handOver : HandOver F
  boundaries : Nat
  ranAt : Nat → Nat
  injects : Nat → Bool
  slots : InjectionSlots
  errors : List Sources

inductive HfiEvent (F : Type) where
  | cycle (isr : CurrentControlIsr F) (loop : ControlLoop F) (raw : ControlCycleSamples F)
      (timestamp : UInt32)
  | observer (meets : Surroundings F)

namespace HfiRun

variable {F : Type} [Arithmetic F]

def fedSample (taken : List Taken) (s : HfiRun F) (k : Fin numSubSteps) : HfiRun F :=
  let (error, slots) := s.slots.update (sampleOf taken k)
  { s with slots := slots, errors := error.toList ++ s.errors }

def fed (taken : List Taken) (s : HfiRun F) : HfiRun F := (List.finRange numSubSteps).foldl (fedSample taken) s

def onControlCycle (isr : CurrentControlIsr F) (loop : ControlLoop F) (raw : ControlCycleSamples F)
    (timestamp : UInt32) (s : HfiRun F) : HfiRun F :=
  let ran := isr.runsLoop raw
  { s with
    handOver := s.handOver.onControlCycle isr loop raw timestamp
    boundaries := s.boundaries + 1
    ranAt := if ran then Function.update s.ranAt (s.handOver.cycles + 1) (s.boundaries + 1) else s.ranAt
    injects := Function.update s.injects (s.boundaries + 2) (ran && loop.hfiActive) }

/-- The samples go to the injection observer after the last of them has been read. -/
def runOnce (meets : Surroundings F) (s : HfiRun F) : HfiRun F :=
  let s :=
    match s.handOver.phase with
    | .reading _ [] taken => s.fed taken
    | _ => s
  { s with handOver := s.handOver.runOnce meets }

end HfiRun

namespace HfiRun

variable {F : Type}

/-- The samples of an error answer the four entries of one plan. -/
def Pairs (s : HfiRun F) (plan : Nat) (error : Sources) : Prop :=
  ∀ step : Fin numSubSteps, ∃ sample, error.get step = some sample ∧ sample.reads ≠ [] ∧
    ∀ read ∈ sample.reads, answered (s.ranAt read.cycle) sample.k = ⟨plan, step⟩

/-- The first three samples were read when `m` cycles had run the loop and the last one when one
more had. -/
def ReadIn (m : Nat) (error : Sources) : Prop :=
  ∀ step : Fin numSubSteps, ∃ sample, error.get step = some sample ∧
    ∀ read ∈ sample.reads, read.after = if step = 3 then m + 1 else m

/-- The one more is the very next control cycle. -/
def Undisturbed (s : HfiRun F) (m : Nat) (error : Sources) : Prop :=
  s.ranAt (m + 1) = s.ranAt m + 1 ∧ ReadIn m error

end HfiRun

/-- Runs after a start that has filled the buffers; the injection is active. -/
def hfiRun {F : Type} [Arithmetic F] (before : HandOver F) : Machine (HfiRun F) (HfiEvent F) where
  start := ⟨{ before with phase := .idle }.prefilled, 0, fun _ => 0, fun _ => false, .initial, []⟩
  next s
    | .cycle isr loop raw timestamp => s.onControlCycle isr loop raw timestamp
    | .observer meets => s.runOnce meets
  admits _
    | .cycle isr loop _ _ => isr.hardware = true ∧ loop.hfiActive = true
    | .observer meets => meets.hfiActive = true

section Model

variable {F : Type} [Arithmetic F]

/-! ### The injection observer and the sources of its samples -/

/-- The currents at the places are those of the samples there, zero before the first one. -/
def InjectionSlots.Stands (value : InjectionSample → Rotor F) (slots : InjectionSlots) (hfi : Hfi F) : Prop :=
  hfi.step = slots.step ∧ hfi.samples = slots.samples.map fun source => source.elim .zero value

/-- A sample moves both in the same way, and an error combines the currents of its sources. -/
theorem InjectionSlots.Stands.update {value : InjectionSample → Rotor F} {slots : InjectionSlots} {hfi : Hfi F}
    (stands : slots.Stands value hfi) (sample : InjectionSample) {wrap : F → Id F} {iAb : Stator F} {angle : SinCos F}
    (current : value sample =
      ⟨iAb.alpha * angle.cos + iAb.beta * angle.sin, -iAb.alpha * angle.sin + iAb.beta * angle.cos⟩)
    (dt : F) (obs : MechanicalObserver F) :
    (slots.update sample).2.Stands value (hfi.update wrap iAb angle dt obs).run.1 ∧
      (hfi.update wrap iAb angle dt obs).run.2 =
        match (slots.update sample).1 with
        | none => obs
        | some error =>
          (obs.injectAngleError wrap (Hfi.rawError (error.map fun source => source.elim .zero value) * hfi.errorGain)
            dt).run := by
  obtain ⟨step, samples⟩ := stands
  have recorded : hfi.recorded iAb angle = (slots.update sample).2.samples.map fun source => source.elim .zero value := by
    unfold Hfi.recorded InjectionSlots.update
    rw [samples, step, ← current]
    simp
  refine ⟨⟨?_, recorded⟩, ?_⟩
  · show (hfi.step + 1) % 4 = (slots.step + 1) % 4
    rw [step]
  · unfold Hfi.update
    rw [recorded]
    by_cases last : slots.step = 3
    · have complete : (slots.update sample).1 = some (slots.update sample).2.samples := if_pos last
      rw [complete]
      simp only [if_pos (step.trans last)]
      rfl
    · have partly : (slots.update sample).1 = none := if_neg last
      rw [partly]
      simp only [if_neg fun same => last (step.symm.trans same)]
      rfl

def slotsOf (taken : List Taken) : InjectionSlots :=
  ⟨3, #v[some (sampleOf taken 1), some (sampleOf taken 2), some (sampleOf taken 3), some (sampleOf taken 0)]⟩

theorem set_four (samples : Sources) (first second third fourth : Option InjectionSample) :
    (((samples.setIfInBounds 3 fourth).setIfInBounds 0 first).setIfInBounds 1 second).setIfInBounds 2 third =
      #v[first, second, third, fourth] := by
  ext i inside : 1
  obtain rfl | rfl | rfl | rfl : i = 0 ∨ i = 1 ∨ i = 2 ∨ i = 3 := by omega
  all_goals simp

omit [Arithmetic F] in
theorem fed_slots (taken : List Taken) {s : HfiRun F} (step : s.slots.step = 3) :
    s.fed taken =
      { s with
        slots := slotsOf taken
        errors := s.slots.samples.setIfInBounds 3 (some (sampleOf taken 0)) :: s.errors } := by
  have order : List.finRange numSubSteps = [0, 1, 2, 3] := by decide
  unfold HfiRun.fed
  rw [order, slotsOf, ← set_four s.slots.samples]
  simp [HfiRun.fedSample, InjectionSlots.update, step]

/-- The samples of two runs of the observer, one after the other. -/
def errorOf (earlier latest : List Taken) : Sources :=
  #v[some (sampleOf earlier 1), some (sampleOf earlier 2), some (sampleOf earlier 3), some (sampleOf latest 0)]

omit [Arithmetic F] in
theorem fed_again (earlier latest : List Taken) {s : HfiRun F} (slots : s.slots = slotsOf earlier) :
    s.fed latest = { s with slots := slotsOf latest, errors := errorOf earlier latest :: s.errors } := by
  rw [fed_slots latest (slots ▸ rfl), slots]
  rfl

/-! ### Control cycles -/

theorem controlCycle_output (isr : CurrentControlIsr F) (raw : ControlCycleSamples F) (angles : AngleSet F)
    (loop : ControlLoop F) :
    (isr.controlCycle plainDivision raw angles loop : Id _).run.output.isSome = isr.runsLoop raw := by
  have still : (isr.latched raw).forceDutyActive = isr.forceDutyActive := rfl
  unfold CurrentControlIsr.controlCycle CurrentControlIsr.runsLoop
  rw [← still]
  cases hardware : isr.hardware with
  | false => rfl
  | true =>
    cases tripped : (isr.latched raw).tripped with
    | true => simp [tripped]
    | false =>
      cases forced : (isr.latched raw).forceDutyActive with
      | true => simp [tripped, forced]
      | false => simp [tripped, forced]

theorem onControlCycle_skips {isr : CurrentControlIsr F} {raw : ControlCycleSamples F} (skips : isr.runsLoop raw = false)
    (loop : ControlLoop F) (timestamp : UInt32) (s : HandOver F) :
    s.onControlCycle isr loop raw timestamp = s := by
  have output := controlCycle_output isr raw (s.buf s.active).angleSet loop
  rw [skips, Option.isSome_eq_false_iff, Option.isNone_iff_eq_none] at output
  unfold HandOver.onControlCycle
  change (isr.controlCycle plainDivision raw (s.buf s.active).angleSet loop : Id _).output = none at output
  dsimp only
  rw [output]

theorem onControlCycle_runs {isr : CurrentControlIsr F} {raw : ControlCycleSamples F} (runs : isr.runsLoop raw = true)
    (loop : ControlLoop F) (timestamp : UInt32) (s : HandOver F) :
    ∃ buf overruns, s.onControlCycle isr loop raw timestamp =
      { s with
        buf := buf, observerBuffer := s.active, observerPending := true, observerOverruns := overruns
        cycles := s.cycles + 1 } := by
  have output := controlCycle_output isr raw (s.buf s.active).angleSet loop
  rw [runs, Option.isSome_iff_exists] at output
  obtain ⟨output, found⟩ := output
  change (isr.controlCycle plainDivision raw (s.buf s.active).angleSet loop : Id _).output =
    some output at found
  unfold HandOver.onControlCycle
  dsimp only
  rw [found]
  exact ⟨_, _, rfl⟩

end Model

namespace HfiRun

section Plain

variable {F : Type}

/-- The cycles that ran the loop, by their numbers among all control cycles, and the plans they set. -/
structure Numbered (first : Nat) (s : HfiRun F) : Prop where
  later : first ≤ s.handOver.cycles
  ordered : ∀ n m, first < n → n < m → m ≤ s.handOver.cycles → s.ranAt n < s.ranAt m
  bounded : ∀ n, first < n → n ≤ s.handOver.cycles → 0 < s.ranAt n ∧ s.ranAt n ≤ s.boundaries
  injected : ∀ n, first < n → n ≤ s.handOver.cycles → s.injects (s.ranAt n + 1) = true

/-- A value of the last cycle before its access. -/
def Good (first cycles : Nat) (read : Taken) : Prop :=
  first < read.cycle ∧ read.cycle = read.after ∧ read.after ≤ cycles

/-- What a run of the observer has taken, with every sample. -/
structure Whole (first cycles : Nat) (taken : List Taken) : Prop where
  good : ∀ read ∈ taken, Good first cycles read
  all : ∀ k, ∃ read ∈ taken, read.field = .alpha k

variable {first : Nat} {s : HfiRun F}

theorem errorOf_get (earlier latest : List Taken) (step : Fin numSubSteps) :
    (errorOf earlier latest).get step = some (sampleOf (if step = 3 then latest else earlier) (step + 1)) := by
  fin_cases step <;> rfl

theorem answered_iff (cycle plan : Nat) (step : Fin numSubSteps) :
    answered cycle (step + 1) = ⟨plan, step⟩ ↔ (if step = 3 then cycle - 1 else cycle) = plan := by
  have back : ∀ step : Fin numSubSteps, step + 1 - 1 = step := by decide
  have wraps : ∀ step : Fin numSubSteps, step + 1 = 0 ↔ step = 3 := by decide
  simp [answered, back, wraps]

theorem Numbered.injective (numbered : Numbered first s) {n m : Nat} (after : first < n) (ran : n ≤ s.handOver.cycles)
    (later : first < m) (done : m ≤ s.handOver.cycles) (same : s.ranAt n = s.ranAt m) : n = m := by
  obtain below | equal | above := Nat.lt_trichotomy n m
  · have := numbered.ordered n m after below done
    omega
  · exact equal
  · have := numbered.ordered m n later above ran
    omega

theorem Numbered.next (numbered : Numbered first s) {n m : Nat} (after : first < n) (ran : n ≤ s.handOver.cycles)
    (later : first < m) (done : m ≤ s.handOver.cycles) (same : s.ranAt m = s.ranAt n + 1) : m = n + 1 := by
  have above : n < m := by
    by_contra below
    obtain less | equal := Nat.lt_or_eq_of_le (Nat.le_of_not_lt below)
    · have := numbered.ordered m n later less ran
      omega
    · rw [equal] at same
      omega
  by_contra apart
  have first := numbered.ordered n (n + 1) after (by omega) (by omega)
  have second := numbered.ordered (n + 1) m (by omega) (by omega) done
  omega

section Error

variable {earlier latest : List Taken}

theorem Whole.sample {cycles : Nat} {taken : List Taken} (whole : Whole first cycles taken) (k : Fin numSubSteps) :
    ∃ read, read ∈ (sampleOf taken k).reads := by
  obtain ⟨read, among, field⟩ := whole.all k
  exact ⟨read, List.mem_filter.mpr ⟨among, by simp [field]⟩⟩

theorem Whole.reads {cycles : Nat} {taken : List Taken} (whole : Whole first cycles taken) {k : Fin numSubSteps}
    {read : Taken} (among : read ∈ (sampleOf taken k).reads) : Good first cycles read :=
  whole.good read (List.mem_filter.mp among).1

theorem errorOf_pairs {cycles : Nat} (before : Whole first cycles earlier) (after : Whole first cycles latest)
    (plan : Nat) :
    s.Pairs plan (errorOf earlier latest) ↔
      ∀ step : Fin numSubSteps, ∀ read ∈ (sampleOf (if step = 3 then latest else earlier) (step + 1)).reads,
        (if step = 3 then s.ranAt read.cycle - 1 else s.ranAt read.cycle) = plan := by
  refine forall_congr' fun step => ?_
  rw [errorOf_get]
  constructor
  · rintro ⟨_, ⟨⟩, -, all⟩ read among
    exact (answered_iff _ _ _).mp (all read among)
  · intro all
    refine ⟨_, rfl, ?_, fun read among => (answered_iff _ _ _).mpr (all read among)⟩
    have some : ∃ read, read ∈ (sampleOf (if step = 3 then latest else earlier) (step + 1)).reads := by
      split
      · exact after.sample _
      · exact before.sample _
    obtain ⟨read, among⟩ := some
    exact List.ne_nil_of_mem among

theorem errorOf_readIn (m : Nat) :
    ReadIn m (errorOf earlier latest) ↔
      ∀ step : Fin numSubSteps, ∀ read ∈ (sampleOf (if step = 3 then latest else earlier) (step + 1)).reads,
        read.after = if step = 3 then m + 1 else m := by
  refine forall_congr' fun step => ?_
  rw [errorOf_get]
  constructor
  · rintro ⟨_, ⟨⟩, all⟩
    exact all
  · intro all
    exact ⟨_, rfl, all⟩

/-- An error combines the answers to one plan exactly when nothing has come in between. -/
theorem pairs_iff (numbered : Numbered first s) (before : Whole first s.handOver.cycles earlier)
    (after : Whole first s.handOver.cycles latest) (plan : Nat) :
    s.Pairs plan (errorOf earlier latest) ↔ ∃ m, s.Undisturbed m (errorOf earlier latest) ∧ s.ranAt m = plan := by
  rw [errorOf_pairs before after]
  constructor
  · intro same
    obtain ⟨one, oneAmong⟩ := before.sample 1
    obtain ⟨zero, zeroAmong⟩ := after.sample 0
    obtain ⟨oneLater, oneFresh, oneDone⟩ := before.reads oneAmong
    obtain ⟨zeroLater, zeroFresh, zeroDone⟩ := after.reads zeroAmong
    have onePlan : s.ranAt one.cycle = plan := same 0 one oneAmong
    have zeroPlan : s.ranAt zero.cycle - 1 = plan := same 3 zero zeroAmong
    have ran := (numbered.bounded zero.cycle zeroLater (by omega)).1
    have next := numbered.next oneLater (by omega) zeroLater (by omega) (by omega)
    refine ⟨one.cycle, ⟨by rw [← next]; omega, (errorOf_readIn _).mpr ?_⟩, onePlan⟩
    intro step read among
    have plan := same step read among
    by_cases last : step = 3
    · simp only [if_pos last] at among plan ⊢
      obtain ⟨later, fresh, done⟩ := after.reads among
      have positive := (numbered.bounded read.cycle later (by omega)).1
      have equal := numbered.injective later (by omega) zeroLater (by omega) (by omega)
      omega
    · simp only [if_neg last] at among plan ⊢
      obtain ⟨later, fresh, done⟩ := before.reads among
      have equal := numbered.injective later (by omega) oneLater (by omega) (by omega)
      omega
  · rintro ⟨m, ⟨next, readIn⟩, rfl⟩ step read among
    have time := (errorOf_readIn m).mp readIn step read among
    by_cases last : step = 3
    · simp only [if_pos last] at among time ⊢
      rw [(after.reads among).2.1, time]
      omega
    · simp only [if_neg last] at among time ⊢
      rw [(before.reads among).2.1, time]

end Error

/-! ### What every run keeps -/

section Kept

variable {cycles more : Nat}

theorem Good.mono (below : cycles ≤ more) {read : Taken} (good : Good first cycles read) : Good first more read :=
  ⟨good.1, good.2.1, good.2.2.trans below⟩

theorem Whole.mono (below : cycles ≤ more) {taken : List Taken} (whole : Whole first cycles taken) :
    Whole first more taken :=
  ⟨fun read among => (whole.good read among).mono below, whole.all⟩

/-- What a run of the observer has taken so far, and what it still reads. -/
def Taking (first cycles : Nat) : Phase F → Prop
  | .reading _ todo taken =>
    (∀ read ∈ taken, Good first cycles read) ∧
      ∀ k, .field (.alpha k) ∈ todo ∨ ∃ read ∈ taken, read.field = .alpha k
  | _ => True

theorem Taking.mono (below : cycles ≤ more) {phase : Phase F} (taking : Taking first cycles phase) :
    Taking first more phase := by
  cases phase with
  | reading finished todo taken => exact ⟨fun read among => (taking.1 read among).mono below, taking.2⟩
  | _ => trivial

/-- The samples of the last run that has read them all. -/
structure Stored (first cycles : Nat) (slots : InjectionSlots) (errors : List Sources) : Prop where
  slots : slots.step = 3 ∧ errors = [] ∨ ∃ taken, Whole first cycles taken ∧ slots = slotsOf taken
  errors : ∀ error ∈ errors.dropLast, ∃ earlier latest,
    Whole first cycles earlier ∧ Whole first cycles latest ∧ error = errorOf earlier latest

theorem Stored.step {slots : InjectionSlots} {errors : List Sources} (stored : Stored first cycles slots errors) :
    slots.step = 3 := by
  obtain ⟨step, -⟩ | ⟨taken, -, same⟩ := stored.slots
  · exact step
  · rw [same]
    rfl

theorem Stored.mono (below : cycles ≤ more) {slots : InjectionSlots} {errors : List Sources}
    (stored : Stored first cycles slots errors) : Stored first more slots errors := by
  constructor
  · exact stored.slots.imp_right fun ⟨taken, whole, same⟩ => ⟨taken, whole.mono below, same⟩
  · intro error listed
    obtain ⟨earlier, latest, before, after, same⟩ := stored.errors error listed
    exact ⟨earlier, latest, before.mono below, after.mono below, same⟩

theorem mem_dropLast_cons {error newest : Sources} {older : List Sources} (listed : error ∈ (newest :: older).dropLast) :
    error = newest ∧ older ≠ [] ∨ error ∈ older.dropLast := by
  cases older with
  | nil => cases listed
  | cons next older => simpa using listed

theorem Stored.fed (stored : Stored first cycles s.slots s.errors) {taken : List Taken}
    (whole : Whole first cycles taken) : Stored first cycles (s.fed taken).slots (s.fed taken).errors := by
  obtain ⟨slots, errors⟩ := stored
  rcases slots with ⟨step, none⟩ | ⟨earlier, before, slots⟩
  · rw [fed_slots taken step]
    refine ⟨.inr ⟨taken, whole, rfl⟩, fun error listed => ?_⟩
    simp [none] at listed
  · rw [fed_again earlier taken slots]
    refine ⟨.inr ⟨taken, whole, rfl⟩, fun error listed => ?_⟩
    obtain ⟨rfl, -⟩ | old := mem_dropLast_cons listed
    · exact ⟨earlier, taken, before, whole, rfl⟩
    · exact errors error old

structure Sound (first : Nat) (s : HfiRun F) : Prop where
  shared : s.handOver.Sound
  numbered : Numbered first s
  begun : s.handOver.observerPending = true ∨ s.handOver.phase ≠ .idle → first < s.handOver.cycles
  taking : Taking first s.handOver.cycles s.handOver.phase
  stored : Stored first s.handOver.cycles s.slots s.errors

end Kept

end Plain

section Steps

variable {F : Type} [Arithmetic F] {first : Nat} {s : HfiRun F}

theorem onControlCycle_still {isr : CurrentControlIsr F} {raw : ControlCycleSamples F}
    (skips : isr.runsLoop raw = false) (loop : ControlLoop F) (timestamp : UInt32) (s : HfiRun F) :
    s.onControlCycle isr loop raw timestamp =
      { s with
        boundaries := s.boundaries + 1
        injects := Function.update s.injects (s.boundaries + 2) false } := by
  simp [onControlCycle, skips, onControlCycle_skips]

theorem onControlCycle_ran {isr : CurrentControlIsr F} {raw : ControlCycleSamples F}
    (runs : isr.runsLoop raw = true) (loop : ControlLoop F) (timestamp : UInt32) (s : HfiRun F) :
    ∃ buf overruns, s.onControlCycle isr loop raw timestamp =
      { s with
        handOver :=
          { s.handOver with
            buf := buf, observerBuffer := s.handOver.active, observerPending := true, observerOverruns := overruns
            cycles := s.handOver.cycles + 1 }
        boundaries := s.boundaries + 1
        ranAt := Function.update s.ranAt (s.handOver.cycles + 1) (s.boundaries + 1)
        injects := Function.update s.injects (s.boundaries + 2) loop.hfiActive } := by
  obtain ⟨buf, overruns, written⟩ := CurrentControl.onControlCycle_runs runs loop timestamp s.handOver
  exact ⟨buf, overruns, by simp [onControlCycle, runs, written]⟩

omit [Arithmetic F] in
theorem Numbered.ran (numbered : Numbered first s) {handOver : HandOver F}
    (more : handOver.cycles = s.handOver.cycles + 1) :
    Numbered first
      { s with
        handOver := handOver, boundaries := s.boundaries + 1
        ranAt := Function.update s.ranAt (s.handOver.cycles + 1) (s.boundaries + 1)
        injects := Function.update s.injects (s.boundaries + 2) true } := by
  obtain ⟨later, ordered, bounded, injected⟩ := numbered
  have old : ∀ n, n ≤ s.handOver.cycles →
      Function.update s.ranAt (s.handOver.cycles + 1) (s.boundaries + 1) n = s.ranAt n :=
    fun n before => Function.update_of_ne (by omega) ..
  refine ⟨by simp only [more]; omega, ?_, ?_, ?_⟩
  · intro n m after below done
    simp only [more] at done ⊢
    rw [old n (by omega)]
    obtain last | earlier := Nat.eq_or_lt_of_le done
    · have := bounded n after (by omega)
      rw [last, Function.update_self]
      omega
    · rw [old m (by omega)]
      exact ordered n m after below (by omega)
  · intro n after done
    simp only [more] at done ⊢
    obtain rfl | earlier := Nat.eq_or_lt_of_le done
    · simp
    · have := bounded n after (by omega)
      rw [old n (by omega)]
      omega
  · intro n after done
    simp only [more] at done ⊢
    obtain rfl | earlier := Nat.eq_or_lt_of_le done
    · simp
    · have := bounded n after (by omega)
      rw [old n (by omega), Function.update_of_ne (by omega)]
      exact injected n after (by omega)

omit [Arithmetic F] in
theorem Numbered.still (numbered : Numbered first s) :
    Numbered first
      { s with
        boundaries := s.boundaries + 1, injects := Function.update s.injects (s.boundaries + 2) false } := by
  obtain ⟨later, ordered, bounded, injected⟩ := numbered
  refine ⟨later, ordered, ?_, ?_⟩
  · intro n after ran
    have := bounded n after ran
    exact ⟨this.1, this.2.trans (Nat.le_succ _)⟩
  · intro n after ran
    have := bounded n after ran
    show Function.update s.injects (s.boundaries + 2) false (s.ranAt n + 1) = true
    rw [Function.update_of_ne (by omega)]
    exact injected n after ran

theorem onControlCycle_sound (isr : CurrentControlIsr F) {loop : ControlLoop F} (active : loop.hfiActive = true)
    (raw : ControlCycleSamples F) (timestamp : UInt32) (sound : Sound first s) : Sound first (s.onControlCycle isr loop raw timestamp) := by
  have shared := HandOver.onControlCycle_sound isr loop raw timestamp sound.shared
  obtain ⟨before, numbered, begun, taking, stored⟩ := sound
  cases runs : isr.runsLoop raw with
  | false =>
    rw [onControlCycle_still runs]
    exact ⟨before, numbered.still, begun, taking, stored⟩
  | true =>
    obtain ⟨buf, overruns, ran⟩ := onControlCycle_ran runs loop timestamp s
    have shared : (s.onControlCycle isr loop raw timestamp).handOver.Sound := shared
    rw [ran, active] at shared ⊢
    exact ⟨shared, numbered.ran rfl, fun _ => Nat.lt_succ_of_le numbered.later, taking.mono (Nat.le_succ _),
      stored.mono (Nat.le_succ _)⟩

omit [Arithmetic F] in
theorem runOnce_fed {finished : Fin 2} {taken : List Taken} (last : s.handOver.phase = .reading finished [] taken)
    (meets : Surroundings F) :
    s.runOnce meets =
      { s with
        handOver := s.handOver.runOnce meets, slots := (s.fed taken).slots, errors := (s.fed taken).errors } := by
  unfold runOnce
  rw [last]
  rfl

omit [Arithmetic F] in
theorem runOnce_still (more : ∀ finished taken, s.handOver.phase ≠ .reading finished [] taken) (meets : Surroundings F) :
    s.runOnce meets = { s with handOver := s.handOver.runOnce meets } := by
  unfold runOnce
  split
  · exact absurd ‹_› (more _ _)
  · rfl

omit [Arithmetic F] in
theorem runOnce_cycles (meets : Surroundings F) (s : HandOver F) : (s.runOnce meets).cycles = s.cycles := by
  unfold HandOver.runOnce
  split
  · split <;> rfl
  all_goals rfl

omit [Arithmetic F] in
theorem runOnce_begun (meets : Surroundings F) (s : HandOver F) (under : (s.runOnce meets).observerPending = true ∨
    (s.runOnce meets).phase ≠ .idle) : s.observerPending = true ∨ s.phase ≠ .idle := by
  by_contra done
  obtain ⟨pending, idle⟩ : ¬s.observerPending = true ∧ s.phase = .idle := by simpa using done
  simp [HandOver.runOnce, idle, pending] at under

omit [Arithmetic F] in
theorem mem_accesses {meets : Surroundings F} (active : meets.hfiActive = true) (k : Fin numSubSteps) :
    .field (.alpha k) ∈ accesses meets := by
  simp [accesses, active, sampleAccesses]

omit [Arithmetic F] in
theorem take_taking {finished : Fin 2} {access : Access} {todo : List Access} {taken : List Taken} {s : HandOver F}
    (latest : s.Latest finished) (begun : first < s.cycles)
    (taking : Taking first s.cycles (.reading finished (access :: todo) taken : Phase F)) :
    Taking first s.cycles (.reading finished todo (s.take finished taken access) : Phase F) := by
  obtain ⟨good, all⟩ := taking
  cases access with
  | angle place =>
    refine ⟨good, fun k => (all k).imp_left fun listed => ?_⟩
    simpa using listed
  | field field =>
    constructor
    · intro read among
      obtain rfl | old := List.mem_cons.mp among
      · exact ⟨by rw [latest.2]; exact begun, latest.2, le_rfl⟩
      · exact good read old
    · intro k
      obtain listed | ⟨read, among, same⟩ := all k
      · obtain now | later := List.mem_cons.mp listed
        · cases now
          exact .inr ⟨_, List.mem_cons_self, rfl⟩
        · exact .inl later
      · exact .inr ⟨read, List.mem_cons_of_mem _ among, same⟩

omit [Arithmetic F] in
theorem runOnce_taking {meets : Surroundings F} (active : meets.hfiActive = true) (sound : Sound first s) :
    Taking first s.handOver.cycles (s.handOver.runOnce meets).phase := by
  obtain ⟨⟨-, consistent⟩, -, begun, taking, -⟩ := sound
  unfold HandOver.runOnce
  split <;> rename_i found <;> rw [found] at consistent taking
  · split
    · trivial
    · rw [found]
      trivial
  · exact ⟨fun read among => (by cases among), fun k => .inl (mem_accesses active k)⟩
  · exact take_taking consistent.1 (begun (.inr (by simp [found]))) taking
  all_goals trivial

omit [Arithmetic F] in
theorem runOnce_sound {meets : Surroundings F} (active : meets.hfiActive = true) (sound : Sound first s) :
    Sound first (s.runOnce meets) := by
  have shared := HandOver.runOnce_sound meets sound.shared
  have taking := runOnce_taking active sound
  have begun := fun under => sound.begun (runOnce_begun meets s.handOver under)
  have cycles := runOnce_cycles meets s.handOver
  obtain ⟨-, numbered, -, before, stored⟩ := sound
  rw [← cycles] at taking begun stored
  have numbered : Numbered first { s with handOver := s.handOver.runOnce meets } := by
    constructor
    all_goals simp only [cycles]
    · exact numbered.later
    · exact numbered.ordered
    · exact numbered.bounded
    · exact numbered.injected
  by_cases last : ∃ finished taken, s.handOver.phase = .reading finished [] taken
  · obtain ⟨finished, taken, last⟩ := last
    rw [last, ← cycles] at before
    have whole : Whole first (s.handOver.runOnce meets).cycles taken :=
      ⟨before.1, fun k => (before.2 k).resolve_left List.not_mem_nil⟩
    rw [runOnce_fed last]
    exact ⟨shared, ⟨numbered.later, numbered.ordered, numbered.bounded, numbered.injected⟩, begun, taking, stored.fed whole⟩
  · rw [runOnce_still fun finished taken found => last ⟨finished, taken, found⟩]
    exact ⟨shared, numbered, begun, taking, stored⟩

end Steps

end HfiRun

theorem hfiRun_sound {F : Type} [Arithmetic F] {before : HandOver F} {trace : List (HfiEvent F)}
    (legal : (hfiRun before).Legal trace) : ((hfiRun before).replay trace).Sound before.cycles := by
  refine Machine.invariant (fun s _ => s.Sound before.cycles) ?_ ?_ trace legal
  · have none : ∀ n, before.cycles < n → ¬n ≤ before.cycles := fun n after done => by omega
    refine ⟨HandOver.prefilled_sound rfl, ⟨le_rfl, ?_, ?_, ?_⟩, ?_, trivial, .inl ⟨rfl, rfl⟩, fun error listed => ?_⟩
    · exact fun n m after below done => absurd done (none m (after.trans below))
    · exact fun n after done => absurd done (none n after)
    · exact fun n after done => absurd done (none n after)
    · rintro (pending | under)
      · cases pending
      · exact absurd rfl under
    · cases listed
  · intro e past sound admitted
    cases e with
    | cycle isr loop raw timestamp => exact HfiRun.onControlCycle_sound isr admitted.2 raw timestamp sound
    | observer meets => exact HfiRun.runOnce_sound admitted sound

end Unimoc.CurrentControl
