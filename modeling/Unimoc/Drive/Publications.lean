import Mathlib.Data.List.Destutter
import Unimoc.CurrentControl.OuterLoop
import Unimoc.Drive.Commissioning
import Unimoc.Lib.Pacing
import Unimoc.Startup.Session
import Unimoc.Units.Exact

/-! What the drive publishes by itself and when: telemetry and drive status at their rates, the
commissioning status and the homing state on each change and now and then. -/
namespace Unimoc.Drive

open CurrentControl Startup

/-! ### The status of the startup aid -/

namespace Commissioning

structure StatusMessage where
  procedure : UInt8
  step : UInt8
  state : UInt8
  needs : UInt8
  progress : UInt8
  passed : UInt32
  failed : UInt32
  fault : UInt8
  counter : UInt32
deriving DecidableEq, Repr

def procedureNone : UInt8 := 0

def procedureStartupAid : UInt8 := 1

def stateIdle : UInt8 := 0

def stateMeasuring : UInt8 := 1

def stateWaiting : UInt8 := 2

def stateNeedsReading : UInt8 := 3

def stateDone : UInt8 := 4

def stateFailed : UInt8 := 5

def stateAborted : UInt8 := 6

def stateOf (status : StartupStatus) : UInt8 :=
  if status.active then
    match status.needs with
    | .dcLinkVoltage | .phaseCurrent => stateNeedsReading
    | _ => if status.measured then stateWaiting else stateMeasuring
  else
    match status.step with
    | .done => stateDone
    | .fault => if status.fault = .aborted ∨ status.fault = .emergencyStop then stateAborted else stateFailed
    | _ => stateIdle

def needsNone : UInt8 := 0

def needsMotorConnected : UInt8 := 3

def needsOf : StartupNeeds → UInt8
  | .dcLinkVoltage => 1
  | .phaseCurrent => 2
  | .motorConnected => needsMotorConnected
  | .none => needsNone

def faultOf : StartupFault → UInt8
  | .none => 0
  | .aborted => 1
  | .emergencyStop => 2
  | .overcurrent => 3
  | .trip => 4
  | .enableLost => 5
  | .applyFailed => 6

variable {F : Type} [Arithmetic F]

def status (fsm : HwStartup F) : StatusMessage :=
  let startup := fsm.status
  { procedure := if startup.started then procedureStartupAid else procedureNone
    step := startup.step.index.val.toUInt8
    state := stateOf startup
    needs := needsOf startup.needs
    progress := startup.progress
    passed := startup.passed
    failed := startup.failed
    fault := faultOf startup.fault
    counter := 0 }

end Commissioning

/-! ### Published on a change -/

/-- What was published last, and when it is due again. -/
structure Announcement (S : Type) where
  published : Bool
  last : S
  nextUs : UInt64

namespace Announcement

variable {S : Type} [DecidableEq S]

def announce (periodUs nowUs : UInt64) (state : S) (a : Announcement S) : Option S × Announcement S :=
  if a.published && state = a.last && nowUs < a.nextUs then (none, a)
  else (some state, ⟨true, state, nowUs + periodUs⟩)

/-- What goes out over polls at some times, each with the period and the state then. -/
def run (a : Announcement S) : List (UInt64 × UInt64 × S) → List S
  | [] => []
  | (nowUs, periodUs, state) :: rest =>
    (a.announce periodUs nowUs state).1.toList ++ (a.announce periodUs nowUs state).2.run rest

end Announcement

namespace Commissioning

def activePeriodUs : UInt64 := 500000

def idlePeriodUs : UInt64 := 2000000

def due {F : Type} [Arithmetic F] (nowUs : UInt64) (fsm : HwStartup F) (a : Announcement StatusMessage) :
    Option StatusMessage × Announcement StatusMessage :=
  a.announce (if fsm.isActive then activePeriodUs else idlePeriodUs) nowUs (status fsm)

end Commissioning

namespace Commissioning

section Status

variable {F : Type} [Arithmetic F] (fsm : HwStartup F)

/-- A share of the samples in percent. -/
theorem percent_le {done total : UInt32} (most : total.toNat ≤ 5376) :
    ((if done < total then done else total) * 100 / total).toUInt8.toNat ≤ 100 := by
  have least : (if done < total then done else total).toNat ≤ total.toNat := by
    split
    · rename_i less
      exact (UInt32.lt_iff_toNat_lt.mp less).le
    · exact Nat.le_refl _
  generalize (if done < total then done else total) = part at least
  have product : (part * 100).toNat = part.toNat * 100 := by
    rw [UInt32.toNat_mul]
    exact Nat.mod_eq_of_lt (Nat.lt_of_le_of_lt (Nat.mul_le_mul_right 100 (Nat.le_trans least most)) (by decide))
  have share : (part * 100 / total).toNat ≤ 100 := by
    rw [UInt32.toNat_div, product]
    exact Nat.div_le_of_le_mul (by omega)
  rw [UInt32.toNat_toUInt8]
  exact (Nat.mod_le _ _).trans share

theorem progress_le : fsm.progress.toNat ≤ 100 := by
  unfold HwStartup.progress
  split
  · split <;> decide
  · split
    · decide
    · dsimp only
      split <;> exact percent_le (of_decide_eq_true rfl)

theorem needs_measured (asks : fsm.needs = .motorConnected) : fsm.stepDone = true := by
  unfold HwStartup.needs at asks
  grind

/-- The state of an aid that does not run. -/
theorem state_inactive (idle : fsm.isActive = false) :
    (status fsm).state ∉ [stateMeasuring, stateWaiting, stateNeedsReading] := by
  simp only [status, stateOf, HwStartup.status, idle, Bool.false_eq_true, if_false]
  split
  · decide
  · split <;> decide
  · decide

/-- The state of one that runs. -/
theorem state_active (runs : fsm.isActive = true) :
    (status fsm).state = if fsm.needs = .dcLinkVoltage ∨ fsm.needs = .phaseCurrent then stateNeedsReading
      else if fsm.stepDone then stateWaiting else stateMeasuring := by
  simp only [status, stateOf, HwStartup.status, runs, if_true, Bool.true_and]
  cases fsm.needs <;> simp

theorem continueAnswer_inj {a b : StartupContinue} : continueAnswer a = continueAnswer b ↔ a = b := by
  constructor
  · cases a <;> cases b <;> simp [continueAnswer, Cyphal.Command.success]
  · rintro rfl
    rfl

theorem continueStep_known {confirmation : List UInt8} (known : confirmation = [] ∨ confirmation = motorConnected) :
    (continueStep confirmation fsm).1 = continueAnswer (fsm.requestNextStep (decide (confirmation = motorConnected))).1 := by
  rcases known with rfl | rfl <;> simp [continueStep]

/-- The status of a startup aid tells how the command to continue is answered. -/
theorem continue_foretold (confirmation : List UInt8) (known : confirmation = [] ∨ confirmation = motorConnected) :
    ((continueStep confirmation fsm).1 = Cyphal.Command.success ↔
        (status fsm).state = stateWaiting ∧
          (status fsm).needs = if confirmation = [] then needsNone else needsMotorConnected) ∧
      ((continueStep confirmation fsm).1 = continueAnswer .needsReading ↔ (status fsm).state = stateNeedsReading) ∧
      ((continueStep [] fsm).1 = continueAnswer .measuring ↔ (status fsm).state = stateMeasuring) ∧
      ((continueStep confirmation fsm).1 = continueAnswer .notRunning ↔
        (status fsm).state ∉ [stateMeasuring, stateWaiting, stateNeedsReading]) ∧
      (status fsm).progress.toNat ≤ 100 := by
  have empty : ([] : List UInt8) ≠ motorConnected := by decide +kernel
  have accepted : Cyphal.Command.success = continueAnswer .accepted := rfl
  rw [continueStep_known fsm known, continueStep_known fsm (.inl rfl), accepted, continueAnswer_inj, continueAnswer_inj,
    continueAnswer_inj, continueAnswer_inj, decide_eq_false empty]
  have needed : (status fsm).needs = needsOf fsm.needs := rfl
  have bounded : (status fsm).progress.toNat ≤ 100 := progress_le fsm
  rw [needed]
  cases runs : fsm.isActive with
  | false =>
    have outside := state_inactive fsm runs
    have refused (confirmed : Bool) : (fsm.requestNextStep confirmed).1 = .notRunning := by
      simp [HwStartup.requestNextStep, runs]
    simp only [List.mem_cons, List.not_mem_nil, or_false, not_or] at outside
    simp [refused, outside, bounded]
  | true =>
    have measured := needs_measured fsm
    rw [state_active fsm runs]
    have idle : decide (confirmation = motorConnected) = !decide (confirmation = []) := by
      rcases known with rfl | rfl
      · simp [empty]
      · simp [empty.symm]
    rw [idle]
    simp only [HwStartup.requestNextStep, runs]
    cases asks : fsm.needs <;> cases step : fsm.stepDone <;> by_cases none : confirmation = [] <;>
      simp_all [needsOf, needsNone, needsMotorConnected, stateMeasuring, stateWaiting, stateNeedsReading]

end Status

/-- Before a start the command to continue finds nothing that runs. -/
theorem continue_foretold_unstarted :
    (continueStep [] (@HwStartup.initial ℝ _)).1 = continueAnswer .notRunning ∧
      (status (@HwStartup.initial ℝ _)).state ∉ [stateMeasuring, stateWaiting, stateNeedsReading] := by
  have refused : (status (@HwStartup.initial ℝ _)).state ∉ [stateMeasuring, stateWaiting, stateNeedsReading] :=
    state_inactive _ rfl
  exact ⟨(continue_foretold (@HwStartup.initial ℝ _) [] (.inl rfl)).2.2.2.1.mpr refused, refused⟩

end Commissioning

/-! ### Published at a rate -/

section Rates

variable {F : Type} [Scalar F]

/-- Publication period of a rate; 0 is not published. -/
def periodMicroseconds (rate : F) : UInt64 :=
  if Scalar.zero < rate then Scalar.toUInt64 ((1.0e6 : F) / rate) else 0

/-- Advances a publication deadline; true when it was due. -/
def due (periodUs nowUs nextUs : UInt64) : Bool × UInt64 :=
  if periodUs = 0 ∨ nowUs < nextUs then (false, nextUs)
  else
    let next := nextUs + periodUs
    (true, if next ≤ nowUs then nowUs + periodUs else next)

/-- Period and deadline of a publisher. -/
structure Channel where
  periodUs : UInt64
  nextUs : UInt64

structure Rates where
  telemetry : Channel
  driveStatus : Channel

namespace Rates

def loadParameters (telemetryRate cartStatusRate : F) (r : Rates) : Rates where
  telemetry := { r.telemetry with periodUs := periodMicroseconds telemetryRate }
  driveStatus := { r.driveStatus with periodUs := periodMicroseconds cartStatusRate }

def start (telemetryRate cartStatusRate : F) (nowUs : UInt64) : Rates where
  telemetry := ⟨periodMicroseconds telemetryRate, nowUs⟩
  driveStatus := ⟨periodMicroseconds cartStatusRate, nowUs⟩

/-- Whether the telemetry and the drive status go out. -/
def spin (nowUs : UInt64) (r : Rates) : (Bool × Bool) × Rates :=
  let telemetry := due r.telemetry.periodUs nowUs r.telemetry.nextUs
  let driveStatus := due r.driveStatus.periodUs nowUs r.driveStatus.nextUs
  ((telemetry.1, driveStatus.1),
    ⟨{ r.telemetry with nextUs := telemetry.2 }, { r.driveStatus with nextUs := driveStatus.2 }⟩)

end Rates

end Rates

/-! ### How often at a rate -/

inductive RateEvent (F : Type)
  | spin (nowUs : UInt64)
  | loadParameters (telemetryRate cartStatusRate : F)

/-- The times at which the telemetry and the drive status go out, oldest first. -/
def Rates.times {F : Type} [Scalar F] : Rates → List (RateEvent F) → List UInt64 × List UInt64
  | _, [] => ([], [])
  | r, .spin nowUs :: rest =>
    let (sent, r) := r.spin nowUs
    let later := r.times rest
    (if sent.1 then nowUs :: later.1 else later.1, if sent.2 then nowUs :: later.2 else later.2)
  | r, .loadParameters telemetryRate cartStatusRate :: rest =>
    (r.loadParameters telemetryRate cartStatusRate).times rest

/-- One of the two by itself; `rate` picks its setting. -/
def Channel.times {F : Type} [Scalar F] (rate : F → F → F) : Channel → List (RateEvent F) → List UInt64
  | _, [] => []
  | c, .spin nowUs :: rest =>
    let (sent, nextUs) := due c.periodUs nowUs c.nextUs
    let later := times rate { c with nextUs := nextUs } rest
    if sent then nowUs :: later else later
  | c, .loadParameters telemetryRate cartStatusRate :: rest =>
    times rate { c with periodUs := periodMicroseconds (rate telemetryRate cartStatusRate) } rest

theorem times_channels {F : Type} [Scalar F] (events : List (RateEvent F)) (r : Rates) :
    r.times events = (r.telemetry.times (fun telemetryRate _ => telemetryRate) events,
      r.driveStatus.times (fun _ cartStatusRate => cartStatusRate) events) := by
  induction events generalizing r with
  | nil => rfl
  | cons event rest ih =>
    cases event with
    | spin nowUs =>
      simp only [Rates.times, ih]
      rfl
    | loadParameters telemetryRate cartStatusRate =>
      simp only [Rates.times, ih]
      rfl

section Exact

/-- The looks of a channel at the clock. -/
noncomputable def looks (rate : ℝ → ℝ → ℝ) : UInt64 → List (RateEvent ℝ) → List Pacing.Look
  | _, [] => []
  | periodUs, .spin nowUs :: rest => ⟨nowUs.toNat, periodUs.toNat⟩ :: looks rate periodUs rest
  | _, .loadParameters telemetryRate cartStatusRate :: rest =>
    looks rate (periodMicroseconds (rate telemetryRate cartStatusRate)) rest

/-- A rate that is off or has a period the clock can hold. -/
def Fits (rate : ℝ) : Prop := rate ≤ 0 ∨ 1.0e6 / rate < (2 ^ 63 : ℕ)

/-- Times that leave room for a period, and what holds of the rates loaded. -/
def RateEvent.Within (P : ℝ → Prop) : RateEvent ℝ → Prop
  | .spin nowUs => nowUs.toNat < 2 ^ 63
  | .loadParameters telemetryRate cartStatusRate => P telemetryRate ∧ P cartStatusRate

theorem RateEvent.Within.mono {P Q : ℝ → Prop} (weaker : ∀ rate, P rate → Q rate) {event : RateEvent ℝ}
    (within : event.Within P) : event.Within Q := by
  cases event with
  | spin nowUs => exact within
  | loadParameters telemetryRate cartStatusRate => exact ⟨weaker _ within.1, weaker _ within.2⟩

/-- A rate of a channel that is no faster than some rate. -/
def AtMost (fastest rate : ℝ) : Prop := Fits rate ∧ rate ≤ fastest

theorem periodMicroseconds_off {rate : ℝ} (off : rate ≤ 0) : periodMicroseconds rate = 0 := by
  unfold periodMicroseconds
  rw [Scalar.zero_exact]
  exact if_neg (not_lt.mpr off)

theorem fits_floor {rate : ℝ} (on : 0 < rate) (fits : Fits rate) : ⌊1000000 / rate⌋₊ < 2 ^ 63 := by
  have below : 1000000 / rate < ((2 ^ 63 : ℕ) : ℝ) := by
    rcases fits with off | short
    · exact absurd on (not_lt.mpr off)
    · norm_num at short ⊢
      exact short
  exact (Nat.floor_lt (by positivity)).mpr below

theorem periodMicroseconds_exact {rate : ℝ} (on : 0 < rate) (fits : Fits rate) :
    (periodMicroseconds rate).toNat = ⌊1000000 / rate⌋₊ := by
  have whole := fits_floor on fits
  unfold periodMicroseconds
  rw [Scalar.zero_exact, if_pos on]
  have same : ((1.0e6 : ℝ) / rate) = 1000000 / rate := by norm_num
  simp only [Scalar.toUInt64, same, UInt64.toNat_ofNat']
  exact Nat.mod_eq_of_lt (by omega)

theorem periodMicroseconds_room {rate : ℝ} (fits : Fits rate) : (periodMicroseconds rate).toNat ≤ 2 ^ 63 := by
  rcases le_or_gt rate 0 with off | on
  · rw [periodMicroseconds_off off]
    decide
  · rw [periodMicroseconds_exact on fits]
    exact (fits_floor on fits).le

/-- Slower rates have longer periods. -/
theorem periodMicroseconds_slow {rate fastest : ℝ} (fits : Fits rate) (slow : rate ≤ fastest)
    (on : (periodMicroseconds rate).toNat ≠ 0) : ⌊1000000 / fastest⌋₊ ≤ (periodMicroseconds rate).toNat := by
  rcases le_or_gt rate 0 with off | positive
  · rw [periodMicroseconds_off off] at on
    exact absurd rfl on
  · rw [periodMicroseconds_exact positive fits]
    exact Nat.floor_le_floor (div_le_div_of_nonneg_left (by norm_num) positive slow)

theorem period_twenty : periodMicroseconds (20 : ℝ) = 50000 := by
  apply UInt64.toNat.inj
  rw [periodMicroseconds_exact (by norm_num) (.inr (by norm_num))]
  norm_num
  rfl

theorem period_ten : periodMicroseconds (10 : ℝ) = 100000 := by
  apply UInt64.toNat.inj
  rw [periodMicroseconds_exact (by norm_num) (.inr (by norm_num))]
  norm_num
  rfl

/-- A rate of a channel that is on and no slower than some rate. -/
structure AtLeast (slowest rate : ℝ) : Prop where
  fits : Fits rate
  positive : 0 < slowest
  least : slowest ≤ rate
  whole : rate ≤ 1.0e6

theorem AtLeast.period {slowest rate : ℝ} (atLeast : AtLeast slowest rate) :
    (periodMicroseconds rate).toNat ≠ 0 ∧ (periodMicroseconds rate).toNat ≤ ⌊1000000 / slowest⌋₊ := by
  have on : 0 < rate := atLeast.positive.trans_le atLeast.least
  rw [periodMicroseconds_exact on atLeast.fits]
  constructor
  · have whole : rate ≤ 1000000 := by
      have bound := atLeast.whole
      norm_num at bound
      exact bound
    apply Nat.pos_iff_ne_zero.mp
    rw [Nat.floor_pos, le_div_iff₀ on, one_mul]
    exact whole
  · exact Nat.floor_le_floor (div_le_div_of_nonneg_left (by norm_num) atLeast.positive atLeast.least)

theorem due_pacing {periodUs nowUs : UInt64} (room : periodUs.toNat ≤ 2 ^ 63) (early : nowUs.toNat < 2 ^ 63)
    (nextUs : UInt64) :
    ((due periodUs nowUs nextUs).1 = true ↔ Pacing.due nextUs.toNat ⟨nowUs.toNat, periodUs.toNat⟩) ∧
      (due periodUs nowUs nextUs).2.toNat = Pacing.advance nextUs.toNat ⟨nowUs.toNat, periodUs.toNat⟩ := by
  have nothing : periodUs = 0 ↔ periodUs.toNat = 0 := by rw [← UInt64.toNat_inj]; rfl
  unfold due Pacing.advance
  by_cases is : Pacing.due nextUs.toNat ⟨nowUs.toNat, periodUs.toNat⟩
  · have reached : nextUs.toNat ≤ nowUs.toNat := is.2
    have not : ¬(periodUs = 0 ∨ nowUs < nextUs) := by
      rw [nothing, UInt64.lt_iff_toNat_lt, not_or]
      exact ⟨is.1, Nat.not_lt.mpr reached⟩
    have next : (nextUs + periodUs).toNat = nextUs.toNat + periodUs.toNat := by
      rw [UInt64.toNat_add]
      exact Nat.mod_eq_of_lt (by omega)
    have restart : (nowUs + periodUs).toNat = nowUs.toNat + periodUs.toNat := by
      rw [UInt64.toNat_add]
      exact Nat.mod_eq_of_lt (by omega)
    rw [if_neg not, if_pos is]
    refine ⟨by simp [is], ?_⟩
    simp only [apply_ite UInt64.toNat, UInt64.le_iff_toNat_le, next, restart]
  · have not : periodUs = 0 ∨ nowUs < nextUs := by
      rw [nothing, UInt64.lt_iff_toNat_lt]
      simp only [Pacing.due, not_and_or, not_not, not_le] at is
      exact is
    rw [if_pos not, if_neg is]
    exact ⟨by simp [is], rfl⟩

section Channel

variable {rate : ℝ → ℝ → ℝ} (picks : ∀ (P : ℝ → Prop) telemetryRate cartStatusRate, P telemetryRate → P cartStatusRate →
  P (rate telemetryRate cartStatusRate))

include picks

theorem times_met {c : Channel} (room : c.periodUs.toNat ≤ 2 ^ 63) {events : List (RateEvent ℝ)}
    (within : ∀ event ∈ events, event.Within Fits) :
    (c.times rate events).map UInt64.toNat = Pacing.met c.nextUs.toNat (looks rate c.periodUs events) := by
  induction events generalizing c with
  | nil => rfl
  | cons event rest ih =>
    have here := within event (by simp)
    have later : ∀ event ∈ rest, event.Within Fits := fun other mem => within other (by simp [mem])
    cases event with
    | spin nowUs =>
      obtain ⟨met, moved⟩ := due_pacing room here c.nextUs
      have tail := @ih ⟨c.periodUs, (due c.periodUs nowUs c.nextUs).2⟩ room later
      rw [moved] at tail
      simp only [Channel.times, looks, Pacing.met]
      by_cases is : Pacing.due c.nextUs.toNat ⟨nowUs.toNat, c.periodUs.toNat⟩
      · rw [if_pos (met.mpr is), if_pos is, List.map_cons, tail]
      · rw [if_neg (mt met.mp is), if_neg is, tail]
    | loadParameters telemetryRate cartStatusRate =>
      exact @ih ⟨periodMicroseconds (rate telemetryRate cartStatusRate), c.nextUs⟩
        (periodMicroseconds_room (picks Fits _ _ here.1 here.2)) later

theorem looks_periods {P : Nat → Prop} {Q : ℝ → Prop} (each : ∀ r, Q r → P (periodMicroseconds r).toNat)
    {periodUs : UInt64} (first : P periodUs.toNat) {events : List (RateEvent ℝ)}
    (within : ∀ event ∈ events, event.Within Q) :
    ∀ look ∈ looks rate periodUs events, P look.period := by
  induction events generalizing periodUs with
  | nil => nofun
  | cons event rest ih =>
    have here := within event (by simp)
    have later : ∀ event ∈ rest, event.Within Q := fun other mem => within other (by simp [mem])
    cases event with
    | spin nowUs =>
      intro look mem
      rcases List.mem_cons.mp mem with rfl | inside
      · exact first
      · exact ih first later look inside
    | loadParameters telemetryRate cartStatusRate => exact ih (each _ (picks Q _ _ here.1 here.2)) later

/-- One channel keeps its distances. -/
theorem channel_pace {fastest telemetryRate cartStatusRate : ℝ} {startUs : UInt64} {events : List (RateEvent ℝ)}
    (telemetry : AtMost fastest telemetryRate) (driveStatus : AtMost fastest cartStatusRate)
    (within : ∀ event ∈ events, event.Within (AtMost fastest)) {j k : Nat} {first last : UInt64} (ordered : j < k)
    (one : ((⟨periodMicroseconds (rate telemetryRate cartStatusRate), startUs⟩ : Channel).times rate events)[j]? =
      some first)
    (other : ((⟨periodMicroseconds (rate telemetryRate cartStatusRate), startUs⟩ : Channel).times rate events)[k]? =
      some last) :
    first.toNat + (k - j - 1) * ⌊1000000 / fastest⌋₊ < last.toNat := by
  have picked := picks (AtMost fastest) _ _ telemetry driveStatus
  have met := @times_met rate picks ⟨periodMicroseconds (rate telemetryRate cartStatusRate), startUs⟩
    (periodMicroseconds_room picked.1) events fun event mem => (within event mem).mono fun _ both => both.1
  have periods := @looks_periods rate picks (fun period => period ≠ 0 → ⌊1000000 / fastest⌋₊ ≤ period)
    (AtMost fastest) (fun r both on => periodMicroseconds_slow both.1 both.2 on)
    (periodMicroseconds (rate telemetryRate cartStatusRate)) (periodMicroseconds_slow picked.1 picked.2) events within
  refine Pacing.met_spaced _ periods startUs.toNat ordered ?_ ?_
  · rw [← met, List.getElem?_map, one]
    rfl
  · rw [← met, List.getElem?_map, other]
    rfl

end Channel

/-- Over every run of spins and settings, however late the spins are: from one message of a channel
to a later one, those in between take the shortest period each. There is no burst after a stall. -/
theorem publication_pace {fastest telemetryRate cartStatusRate : ℝ} (startUs : UInt64) (events : List (RateEvent ℝ))
    (telemetry : AtMost fastest telemetryRate) (driveStatus : AtMost fastest cartStatusRate)
    (within : ∀ event ∈ events, event.Within (AtMost fastest)) :
    ∀ times, times = ((Rates.start telemetryRate cartStatusRate startUs).times events).1 ∨
        times = ((Rates.start telemetryRate cartStatusRate startUs).times events).2 →
      ∀ j k first last, j < k → times[j]? = some first → times[k]? = some last →
        first.toNat + (k - j - 1) * ⌊1000000 / fastest⌋₊ < last.toNat := by
  rw [times_channels]
  rintro times (rfl | rfl) j k first last ordered one other
  · exact channel_pace (fun P _ _ left _ => left) telemetry driveStatus within ordered one other
  · exact channel_pace (fun P _ _ _ right => right) telemetry driveStatus within ordered one other

/-- A second without spins, and a slower rate after it. -/
theorem publication_pace_stall : (0 : UInt64).toNat + (2 - 0 - 1) * ⌊(1000000 : ℝ) / 20⌋₊ < (1050000 : UInt64).toNat := by
  have twenty : AtMost 20 20 := ⟨.inr (by norm_num), le_refl _⟩
  have ten : AtMost 20 10 := ⟨.inr (by norm_num), by norm_num⟩
  have within : ∀ event ∈ [.spin 0, .spin 1000000, @RateEvent.loadParameters ℝ 10 10, .spin 1000001, .spin 1050000],
      event.Within (AtMost 20) := by
    simp only [List.mem_cons, List.not_mem_nil, or_false]
    rintro event (rfl | rfl | rfl | rfl | rfl)
    · show (_ : Nat) < _
      decide
    · show (_ : Nat) < _
      decide
    · exact ⟨ten, ten⟩
    · show (_ : Nat) < _
      decide
    · show (_ : Nat) < _
      decide
  have later : periodMicroseconds (10 : ℝ) ≠ 0 := by
    rw [period_ten]
    decide
  have sent : ((Rates.start (20 : ℝ) 10 0).times
      [.spin 0, .spin 1000000, @RateEvent.loadParameters ℝ 10 10, .spin 1000001, .spin 1050000]).1 =
        [0, 1000000, 1050000] := by
    simp [Rates.times, Rates.start, Rates.spin, Rates.loadParameters, due, period_twenty, later]
  apply publication_pace 0 _ twenty ten within _ (.inl rfl) 0 2 0 1050000 (by decide)
  · rw [sent]
    rfl
  · rw [sent]
    rfl

end Exact

end Unimoc.Drive
