import Mathlib.Data.List.Induction
import Mathlib.Logic.Function.Basic
import Unimoc.Lib.Runs

/-! The duty plans of the board. TIM8 loads the preloaded compare values at each peak and
valley, then a circular DMA burst fills the preload again; the sample interrupt of a control
boundary writes the next plan into the slots of the bursts and into the preload. -/
namespace Unimoc.Hardware

def halfPeriodsPerCycle : Nat := 4

def burstLength : Nat := 3

def dmaTransfers : Nat := burstLength * halfPeriodsPerCycle

/-- Compare values of CCR1..3 for one half period. -/
structure PhaseTicks where
  ccr1 : UInt32
  ccr2 : UInt32
  ccr3 : UInt32
deriving DecidableEq, Repr

/-- An array of `halfPeriodsPerCycle` entries. -/
abbrev Plan (Entry : Type) := Nat → Entry

abbrev TickPlan := Plan PhaseTicks

/-- `compare` is what the preload held at the last update event, `remaining` the CNDTR of the
duty DMA. -/
structure Foc where
  compare : PhaseTicks
  preload : PhaseTicks
  countingDown : Bool
  remaining : Nat
  slots : Plan PhaseTicks
  sampleIndex : Nat
  applied : Plan PhaseTicks
  lastEntry : PhaseTicks
  controlAtPeak : Bool
  dutyOverruns : Nat

namespace Foc

/-- The counter starts upwards; the first sample is the last one of a cycle. -/
def initDma (neutral : PhaseTicks) (controlAtPeak : Bool) (dutyOverruns : Nat) : Foc where
  compare := neutral
  preload := neutral
  countingDown := false
  remaining := dmaTransfers
  slots _ := neutral
  sampleIndex := halfPeriodsPerCycle - 1
  applied _ := neutral
  lastEntry := neutral
  controlAtPeak
  dutyOverruns

/-! ### The timer and the DMA -/

/-- The slots one after the other; after the last one CNDTR is loaded again. -/
def burst (f : Foc) : Foc :=
  { f with
    preload := f.slots ((dmaTransfers - f.remaining) / burstLength)
    remaining := if f.remaining = burstLength then dmaTransfers else f.remaining - burstLength }

/-- A peak or a valley. -/
def updateEvent (f : Foc) : Foc :=
  { f with compare := f.preload, countingDown := !f.countingDown }.burst

/-! ### The driver -/

def setDutyTicks (ticks : TickPlan) (f : Foc) : Foc :=
  let remaining := f.remaining
  let countingDown := f.countingDown
  let f := { f with
    slots := fun k => if 1 ≤ k ∧ k < halfPeriodsPerCycle then ticks k else f.slots k }
  let f :=
    if remaining = dmaTransfers - burstLength then
      let f := { f with
        preload := ticks 0
        slots := Function.update f.slots 0 (ticks (halfPeriodsPerCycle - 1)) }
      let f := if f.remaining ≠ remaining then { f with dutyOverruns := f.dutyOverruns + 1 } else f
      { f with controlAtPeak := countingDown }
    else if remaining = dmaTransfers then
      { f with slots := Function.update f.slots 0 (ticks 0), controlAtPeak := !countingDown }
    else { f with dutyOverruns := f.dutyOverruns + 1 }
  { f with
    applied := fun k =>
      if k = 0 then f.lastEntry else if k < halfPeriodsPerCycle then ticks (k - 1) else f.applied k
    lastEntry := ticks (halfPeriodsPerCycle - 1) }

def appliedTicks (f : Foc) (sample : Nat) : PhaseTicks := f.applied sample

def sampleAtPeak (f : Foc) (sample : Nat) : Bool :=
  decide ((halfPeriodsPerCycle - 1 - sample) % 2 = 0) == f.controlAtPeak

/-- What a control cycle is told of the samples it gets. -/
structure Told where
  appliedTicks : Plan PhaseTicks
  sampleAtPeak : Plan Bool

/-- A control cycle first looks at its samples. -/
def told (f : Foc) : Told := ⟨f.appliedTicks, f.sampleAtPeak⟩

def endsCycle (f : Foc) : Bool := !decide (f.sampleIndex + 1 < halfPeriodsPerCycle)

/-- `ticks` is what the control cycle makes of the samples. -/
def sampleIsr (ticks : TickPlan) (f : Foc) : Foc :=
  if !f.endsCycle then { f with sampleIndex := f.sampleIndex + 1 }
  else { f with sampleIndex := 0 }.setDutyTicks ticks

end Foc

/-! ### Runs -/

/-- What an observer of the board notes, oldest first. The compare values of the half period
that starts at a boundary and whether the boundary is a peak, the compare values at the sample
that belongs to a boundary, the control boundaries, their plans, and what their control cycles
were told before. -/
structure FocRun where
  foc : Foc
  actives : List PhaseTicks
  peaks : List Bool
  sampled : List PhaseTicks
  handled : Nat
  controls : List Nat
  plans : List TickPlan
  tellings : List Foc.Told

/-- The trigger ahead of a boundary, the interrupt at the end of its conversions, and the
boundary. -/
inductive FocEvent
  | trigger
  | sampleIsr (ticks : TickPlan)
  | updateEvent

namespace FocRun

def next (r : FocRun) : FocEvent → FocRun
  | .trigger => { r with sampled := r.sampled ++ [r.foc.compare] }
  | .sampleIsr ticks =>
    let handled := { r with foc := r.foc.sampleIsr ticks, handled := r.handled + 1 }
    if r.foc.endsCycle then
      { handled with
        controls := r.controls ++ [r.handled]
        plans := r.plans ++ [ticks]
        tellings := r.tellings ++ [r.foc.told] }
    else handled
  | .updateEvent =>
    { r with
      foc := r.foc.updateEvent
      actives := r.actives ++ [r.foc.updateEvent.compare]
      peaks := r.peaks ++ [!r.foc.countingDown] }

variable (neutral : PhaseTicks) (controlAtPeak : Bool) (dutyOverruns : Nat)

/-- One trigger ahead of each boundary. The interrupt of a sample comes before the boundary
(the early window) or after it, but before the next one (the normal window). -/
def machine : Runs.Machine FocRun FocEvent where
  start := ⟨.initDma neutral controlAtPeak dutyOverruns, [], [], [], 0, [], [], []⟩
  next := next
  admits r
    | .trigger => r.sampled.length = r.actives.length
    | .sampleIsr _ => r.handled < r.sampled.length
    | .updateEvent => r.sampled.length = r.actives.length + 1 ∧ r.actives.length ≤ r.handled

instance (r : FocRun) : ∀ e, Decidable ((machine neutral controlAtPeak dutyOverruns).admits r e)
  | .trigger => inferInstanceAs (Decidable (_ = _))
  | .sampleIsr _ => inferInstanceAs (Decidable (_ < _))
  | .updateEvent => inferInstanceAs (Decidable (_ ∧ _))

end FocRun

/-! ### The plant of the simulation -/

/-- `applied` holds the duties of all half periods so far, oldest first. -/
structure SimPlant (Duties : Type) where
  carry : Duties
  applied : List Duties

namespace SimPlant

variable {Duties : Type}

def resetCycleState (neutral : Duties) : SimPlant Duties := ⟨neutral, []⟩

/-- `plan` is what the control cycle at the start has set. -/
def runCycle (plan : Plan Duties) (s : SimPlant Duties) : SimPlant Duties where
  carry := plan (halfPeriodsPerCycle - 1)
  applied := s.applied ++
    (List.range halfPeriodsPerCycle).map fun k => if k = 0 then s.carry else plan (k - 1)

def run (neutral : Duties) (plans : List (Plan Duties)) : SimPlant Duties :=
  plans.foldl (fun s plan => s.runCycle plan) (resetCycleState neutral)

end SimPlant

/-! ### What is active when -/

/-- The entry of the plans that is meant for the half period starting at a boundary. Entry `k`
of a plan is meant for `k + 1` boundaries after its control boundary. -/
def planned {Entry : Type} (neutral : Entry) (plans : List (Plan Entry)) (boundary : Nat) : Entry :=
  if boundary = 0 then neutral
  else plans.getD ((boundary - 1) / halfPeriodsPerCycle) (fun _ => neutral)
    ((boundary - 1) % halfPeriodsPerCycle)

section Planned

variable {Entry : Type} {neutral : Entry} {plans : List (Plan Entry)}

theorem planned_older (plan : Plan Entry) {boundary : Nat} (known : boundary ≤ 4 * plans.length) :
    planned neutral (plans ++ [plan]) boundary = planned neutral plans boundary := by
  unfold planned
  split
  · rfl
  · have inside : (boundary - 1) / halfPeriodsPerCycle < plans.length := by
      unfold halfPeriodsPerCycle
      omega
    rw [List.getD_eq_getElem?_getD, List.getElem?_append_left inside, ← List.getD_eq_getElem?_getD]

theorem planned_newest (plan : Plan Entry) {k boundary : Nat} (entry : k < 4)
    (place : boundary = 4 * plans.length + k + 1) :
    planned neutral (plans ++ [plan]) boundary = plan k := by
  unfold planned halfPeriodsPerCycle
  have quotient : (boundary - 1) / 4 = plans.length := by omega
  have remainder : (boundary - 1) % 4 = k := by omega
  rw [if_neg (by omega), quotient, remainder]
  simp

end Planned

theorem of_snoc {A : Type} {l : List A} {x y : A} {n : Nat} (found : (l ++ [x])[n]? = some y) :
    l[n]? = some y ∨ n = l.length ∧ y = x := by
  rw [List.getElem?_append] at found
  split at found
  · exact .inl found
  · right
    obtain ⟨inside, same⟩ := List.getElem?_eq_some_iff.mp found
    rw [List.length_singleton] at inside
    refine ⟨by omega, ?_⟩
    simpa using same.symm

/-- In every run between two interrupts: `u` boundaries, `w` handled samples. -/
structure OnTime (neutral : PhaseTicks) (r : FocRun) : Prop where
  ahead : r.sampled.length = r.actives.length ∨ r.sampled.length = r.actives.length + 1
  handled : r.handled ≤ r.sampled.length
  inWindow : r.actives.length ≤ r.handled + 1
  index : r.foc.sampleIndex = (3 + r.handled) % 4
  cycles : r.plans.length = (r.handled + 3) / 4
  boundaries : r.peaks.length = r.actives.length
  remaining : r.foc.remaining = 12 - 3 * (r.actives.length % 4)
  countingDown : r.foc.countingDown = decide (r.actives.length % 2 = 1)
  compare : r.foc.compare = planned neutral r.plans (r.actives.length - 1)
  /-- Between a control boundary and its interrupt the preload is the fallback. -/
  preload : r.actives.length ≤ 4 * r.plans.length →
    r.foc.preload = planned neutral r.plans r.actives.length
  slots : ∀ boundary, r.actives.length ≤ boundary → boundary < 4 * r.plans.length →
    r.foc.slots (boundary % 4) = planned neutral r.plans (boundary + 1)
  lastEntry : r.foc.lastEntry = planned neutral r.plans (4 * r.plans.length)
  applied : ∀ cycle k, r.plans.length = cycle + 1 → k < 4 →
    r.foc.applied k = planned neutral r.plans (4 * cycle + k)
  controlAtPeak : r.plans ≠ [] → r.foc.controlAtPeak = true
  actives : ∀ n ticks, r.actives[n]? = some ticks → ticks = planned neutral r.plans n
  peaks : ∀ n peak, r.peaks[n]? = some peak → peak = decide (n % 2 = 0)
  sampled : ∀ n ticks, r.sampled[n]? = some ticks → ticks = planned neutral r.plans (n - 1)
  counted : r.controls.length = r.plans.length
  controls : ∀ cycle boundary, r.controls[cycle]? = some boundary → boundary = 4 * cycle
  told : r.tellings.length = r.plans.length
  tellings : ∀ cycle told, r.tellings[cycle + 1]? = some told → ∀ k < 4,
    told.appliedTicks k = planned neutral r.plans (4 * cycle + k) ∧
    told.sampleAtPeak k = decide (k % 2 = 1)

variable {neutral : PhaseTicks} {r : FocRun}

theorem OnTime.trigger (onTime : OnTime neutral r) (free : r.sampled.length = r.actives.length) :
    OnTime neutral (r.next .trigger) := by
  have handled := onTime.handled
  refine { onTime with ahead := ?_, handled := ?_, sampled := ?_ }
  · right
    simp [FocRun.next, free]
  · simp only [FocRun.next, List.length_append, List.length_singleton]
    omega
  · intro n ticks found
    rcases of_snoc found with older | ⟨rfl, rfl⟩
    · exact onTime.sampled n ticks older
    · rw [free]
      exact onTime.compare

/-- At a boundary the preload is what is meant for the next half period, and the burst brings
what is meant for the one after it. -/
theorem OnTime.updateEvent (onTime : OnTime neutral r)
    (taken : r.sampled.length = r.actives.length + 1) (inTime : r.actives.length ≤ r.handled) :
    OnTime neutral (r.next .updateEvent) := by
  have cycles := onTime.cycles
  have active : r.foc.updateEvent.compare = planned neutral r.plans r.actives.length :=
    onTime.preload (by omega)
  have slot : (dmaTransfers - r.foc.remaining) / burstLength = r.actives.length % 4 := by
    rw [onTime.remaining]
    unfold dmaTransfers burstLength halfPeriodsPerCycle
    omega
  have longer : (r.actives ++ [r.foc.updateEvent.compare]).length = r.actives.length + 1 := by simp
  constructor
  · exact .inl (by simp [FocRun.next, taken])
  · exact onTime.handled
  · change (r.actives ++ _).length ≤ _
    rw [longer]
    exact Nat.succ_le_succ inTime
  · exact onTime.index
  · exact onTime.cycles
  · simp [FocRun.next, onTime.boundaries]
  · change (if r.foc.remaining = burstLength then dmaTransfers else r.foc.remaining - burstLength) =
      12 - 3 * ((r.actives ++ _).length % 4)
    rw [longer, onTime.remaining]
    unfold dmaTransfers burstLength halfPeriodsPerCycle
    split <;> omega
  · change (!r.foc.countingDown) = decide ((r.actives ++ _).length % 2 = 1)
    rw [longer, onTime.countingDown, ← decide_not]
    congr 1
    simp only [eq_iff_iff]
    omega
  · change _ = planned neutral r.plans ((r.actives ++ _).length - 1)
    rw [longer, Nat.add_sub_cancel]
    exact active
  · intro more
    change (r.actives ++ _).length ≤ 4 * r.plans.length at more
    change r.foc.slots _ = planned neutral r.plans (r.actives ++ _).length
    rw [longer] at more ⊢
    rw [slot]
    exact onTime.slots _ (Nat.le_refl _) (by omega)
  · intro boundary reached inside
    change (r.actives ++ _).length ≤ boundary at reached
    rw [longer] at reached
    exact onTime.slots boundary (by omega) inside
  · exact onTime.lastEntry
  · exact onTime.applied
  · exact onTime.controlAtPeak
  · intro n ticks found
    rcases of_snoc found with older | ⟨rfl, rfl⟩
    · exact onTime.actives n ticks older
    · exact active
  · intro n peak found
    rcases of_snoc found with older | ⟨rfl, rfl⟩
    · exact onTime.peaks n peak older
    · rw [onTime.countingDown, onTime.boundaries, ← decide_not]
      congr 1
      simp only [eq_iff_iff]
      omega
  · exact onTime.sampled
  · exact onTime.counted
  · exact onTime.controls
  · exact onTime.told
  · exact onTime.tellings

/-! ### The interrupt of a control boundary -/

namespace Foc

variable (ticks : TickPlan) (f : Foc)

theorem setDutyTicks_frame :
    (f.setDutyTicks ticks).compare = f.compare ∧ (f.setDutyTicks ticks).countingDown = f.countingDown ∧
    (f.setDutyTicks ticks).remaining = f.remaining ∧ (f.setDutyTicks ticks).sampleIndex = f.sampleIndex := by
  unfold setDutyTicks
  simp only [ne_eq, not_true_eq_false, if_false]
  split
  · exact ⟨rfl, rfl, rfl, rfl⟩
  · split <;> exact ⟨rfl, rfl, rfl, rfl⟩

theorem setDutyTicks_lastEntry : (f.setDutyTicks ticks).lastEntry = ticks 3 := rfl

theorem setDutyTicks_applied {k : Nat} (sample : k < 4) :
    (f.setDutyTicks ticks).applied k = if k = 0 then f.lastEntry else ticks (k - 1) := by
  unfold setDutyTicks halfPeriodsPerCycle
  simp only [ne_eq, not_true_eq_false, if_false, sample, if_true]
  split
  · split
    · rfl
    · split <;> rfl
  · rfl

theorem setDutyTicks_slots {k : Nat} (later : k ≠ 0) (slot : k < 4) :
    (f.setDutyTicks ticks).slots k = ticks k := by
  have written : 1 ≤ k ∧ k < halfPeriodsPerCycle := ⟨Nat.one_le_iff_ne_zero.mpr later, slot⟩
  unfold setDutyTicks
  simp only [ne_eq, not_true_eq_false, if_false]
  split
  · simp [later, written]
  · split <;> simp [later, written]

variable {f}

theorem setDutyTicks_normal (normal : f.remaining = 9) :
    (f.setDutyTicks ticks).preload = ticks 0 ∧ (f.setDutyTicks ticks).controlAtPeak = f.countingDown := by
  unfold setDutyTicks dmaTransfers burstLength halfPeriodsPerCycle
  simp [normal]

theorem setDutyTicks_early (early : f.remaining = 12) :
    (f.setDutyTicks ticks).preload = f.preload ∧ (f.setDutyTicks ticks).slots 0 = ticks 0 ∧
    (f.setDutyTicks ticks).controlAtPeak = !f.countingDown := by
  unfold setDutyTicks dmaTransfers burstLength halfPeriodsPerCycle
  simp [early]

end Foc

theorem OnTime.middle (onTime : OnTime neutral r) (ticks : TickPlan)
    (pending : r.handled < r.sampled.length) (inside : r.foc.sampleIndex + 1 < 4) :
    OnTime neutral (r.next (.sampleIsr ticks)) := by
  have goesOn : r.foc.endsCycle = false := by
    unfold Foc.endsCycle halfPeriodsPerCycle
    simp [inside]
  have handled : r.next (.sampleIsr ticks) =
      { r with foc := { r.foc with sampleIndex := r.foc.sampleIndex + 1 }, handled := r.handled + 1 } := by
    simp [FocRun.next, Foc.sampleIsr, goesOn]
  have index := onTime.index
  have cycles := onTime.cycles
  have inWindow := onTime.inWindow
  rw [handled]
  refine { onTime with handled := pending, inWindow := ?_, index := ?_, cycles := ?_ }
  · exact Nat.le_succ_of_le inWindow
  · change r.foc.sampleIndex + 1 = (3 + (r.handled + 1)) % 4
    omega
  · change r.plans.length = (r.handled + 1 + 3) / 4
    omega

theorem OnTime.control (onTime : OnTime neutral r) (ticks : TickPlan)
    (pending : r.handled < r.sampled.length) (last : ¬ r.foc.sampleIndex + 1 < 4) :
    OnTime neutral (r.next (.sampleIsr ticks)) := by
  have ends : r.foc.endsCycle = true := by
    unfold Foc.endsCycle halfPeriodsPerCycle
    simp [last]
  have next : r.next (.sampleIsr ticks) =
      { r with
        foc := { r.foc with sampleIndex := 0 }.setDutyTicks ticks
        handled := r.handled + 1
        controls := r.controls ++ [r.handled]
        plans := r.plans ++ [ticks]
        tellings := r.tellings ++ [r.foc.told] } := by
    simp [FocRun.next, Foc.sampleIsr, ends]
  have index := onTime.index
  have cycles := onTime.cycles
  have inWindow := onTime.inWindow
  have ahead := onTime.ahead
  have remaining := onTime.remaining
  have atBoundary : r.handled = 4 * r.plans.length := by omega
  have window : r.actives.length = 4 * r.plans.length ∨ r.actives.length = 4 * r.plans.length + 1 := by
    omega
  obtain ⟨compare, countingDown, left, sampleIndex⟩ :=
    Foc.setDutyTicks_frame ticks { r.foc with sampleIndex := 0 }
  have longer : (r.plans ++ [ticks]).length = r.plans.length + 1 := by simp
  have older {boundary : Nat} (known : boundary ≤ 4 * r.plans.length) :
      planned neutral r.plans boundary = planned neutral (r.plans ++ [ticks]) boundary :=
    (planned_older ticks known).symm
  have newest {k boundary : Nat} (entry : k < 4) (place : boundary = 4 * r.plans.length + k + 1) :
      ticks k = planned neutral (r.plans ++ [ticks]) boundary := (planned_newest ticks entry place).symm
  rw [next]
  constructor
  · exact ahead
  · exact pending
  · exact Nat.le_succ_of_le inWindow
  · rw [sampleIndex]
    change 0 = (3 + (r.handled + 1)) % 4
    omega
  · change (r.plans ++ [ticks]).length = (r.handled + 1 + 3) / 4
    omega
  · exact onTime.boundaries
  · exact left.trans remaining
  · exact countingDown.trans onTime.countingDown
  · exact compare.trans (onTime.compare.trans (older (by omega)))
  · intro known
    rcases window with early | normal
    · rw [(Foc.setDutyTicks_early ticks (by rw [remaining]; omega)).1]
      exact (onTime.preload (by omega)).trans (older (by omega))
    · rw [(Foc.setDutyTicks_normal ticks (by rw [remaining]; omega)).1]
      exact newest (by decide) normal
  · intro boundary reached before
    change r.actives.length ≤ boundary at reached
    rw [longer] at before
    by_cases first : boundary % 4 = 0
    · -- only an early interrupt still has the burst of its own boundary ahead
      have early : r.actives.length = 4 * r.plans.length := by omega
      rw [first, (Foc.setDutyTicks_early ticks (by rw [remaining]; omega)).2.1]
      exact newest (by decide) (by omega)
    · rw [Foc.setDutyTicks_slots ticks _ first (by omega)]
      exact newest (by omega) (by omega)
  · rw [Foc.setDutyTicks_lastEntry, longer]
    exact newest (by decide) (by omega)
  · intro cycle k count sample
    change (r.plans ++ [ticks]).length = cycle + 1 at count
    have present : cycle = r.plans.length := by omega
    rw [Foc.setDutyTicks_applied ticks _ sample, present]
    split
    · rename_i zero
      rw [zero]
      exact onTime.lastEntry.trans (older (by omega))
    · exact newest (by omega) (by omega)
  · intro _
    rcases window with early | normal
    · rw [(Foc.setDutyTicks_early ticks (by rw [remaining]; omega)).2.2, onTime.countingDown]
      simp only [early, Bool.not_eq_true', decide_eq_false_iff_not]
      omega
    · rw [(Foc.setDutyTicks_normal ticks (by rw [remaining]; omega)).2, onTime.countingDown]
      simp only [normal, decide_eq_true_eq]
      omega
  · intro n active found
    have bound := (List.getElem?_eq_some_iff.mp found).1
    exact (onTime.actives n active found).trans (older (by change n < r.actives.length at bound; omega))
  · exact onTime.peaks
  · intro n active found
    have bound := (List.getElem?_eq_some_iff.mp found).1
    exact (onTime.sampled n active found).trans (older (by change n < r.sampled.length at bound; omega))
  · simp [onTime.counted]
  · intro cycle boundary found
    rcases of_snoc found with earlier | ⟨rfl, rfl⟩
    · exact onTime.controls cycle boundary earlier
    · rw [onTime.counted]
      exact atBoundary
  · simp [onTime.told]
  · intro cycle told found k sample
    rcases of_snoc found with earlier | ⟨place, rfl⟩
    · have bound := (List.getElem?_eq_some_iff.mp earlier).1
      rw [onTime.told] at bound
      obtain ⟨appliedTicks, atPeak⟩ := onTime.tellings cycle told earlier k sample
      exact ⟨appliedTicks.trans (older (by omega)), atPeak⟩
    · rw [onTime.told] at place
      refine ⟨(onTime.applied cycle k place.symm sample).trans (older (by omega)), ?_⟩
      have submitted : r.plans ≠ [] := by
        intro unplanned
        rw [unplanned] at place
        cases place
      change (decide (_ = 0) == r.foc.controlAtPeak) = _
      rw [onTime.controlAtPeak submitted, beq_true]
      congr 1
      simp only [halfPeriodsPerCycle, eq_iff_iff]
      omega

theorem OnTime.sampleIsr (onTime : OnTime neutral r) (ticks : TickPlan)
    (pending : r.handled < r.sampled.length) : OnTime neutral (r.next (.sampleIsr ticks)) := by
  by_cases inside : r.foc.sampleIndex + 1 < 4
  · exact onTime.middle ticks pending inside
  · exact onTime.control ticks pending inside

/-- Entry `k` of the plan holds `first + k` in all three phases. -/
def counting (first : UInt32) : TickPlan := fun k => ⟨first + k.toUInt32, first + k.toUInt32, first + k.toUInt32⟩

end Unimoc.Hardware
