import Unimoc.Startup.PassingBench

/-! On the bench every step of a run measures what it checks for. -/
namespace Unimoc.Startup

open CurrentControl Firmware

noncomputable section

namespace Passing

open HwStartup

variable {m : Meters} {on off : Bool} {b : Board ℝ} {currents : ThreePhase ℝ} {fsm : HwStartup ℝ} {s : Session ℝ}
  {results : StartupResults ℝ} {index : Nat} {state : FsmState}

/-! ### The samples of a step -/

theorem collectSample_found (finds : Finds m on currents b) (n : UInt32) (fsm : HwStartup ℝ) :
    fsm.collectSample n b = (decide (n ≤ fsm.sampleCount + 1), fsm.addSample currents, b) := by
  unfold collectSample
  rw [readIsr_calm finds.calm]
  dsimp only
  rw [finds.currents]
  rfl

theorem Amid.runs {half : Bool} (amid : Amid m half state fsm) (active : state.active = true) : Runs true fsm := by
  refine ⟨?_, amid.limit, .inr rfl⟩
  rw [isActive, amid.state]
  exact active

/-- One more sample, and nothing else. -/
structure OneMore (work : HwStartup ℝ → HwStartup ℝ) : Prop where
  count : ∀ fsm, (work fsm).sampleCount = fsm.sampleCount + 1
  rest : ∀ fsm, (work fsm).clearSamples = fsm.clearSamples

section OneMore

variable {half : Bool} {work : HwStartup ℝ → HwStartup ℝ} (each : OneMore work)
include each

theorem OneMore.rests (k : Nat) (fsm : HwStartup ℝ) : (work^[k] fsm).clearSamples = fsm.clearSamples := by
  induction k with
  | zero => rfl
  | succ k ih =>
    rw [Function.iterate_succ_apply']
    exact (each.rest _).trans ih

theorem OneMore.amid (amid : Amid m half state fsm) (k : Nat) : Amid m half state (work^[k] fsm) := by
  have kept : Amid m half state fsm.clearSamples :=
    ⟨amid.state, amid.unmeasured, amid.unasked, amid.limit, amid.gate, amid.voltage, amid.sweep, amid.good⟩
  rw [← each.rests k] at kept
  exact ⟨kept.state, kept.unmeasured, kept.unasked, kept.limit, kept.gate, kept.voltage, kept.sweep, kept.good⟩

theorem OneMore.gateMean (k : Nat) (fsm : HwStartup ℝ) : (work^[k] fsm).gateMeanDisabled = fsm.gateMeanDisabled := by
  have kept := congrArg HwStartup.gateMeanDisabled (each.rests k fsm)
  exact kept

theorem OneMore.extCurrent (k : Nat) (fsm : HwStartup ℝ) : (work^[k] fsm).extCurrent = fsm.extCurrent := by
  have kept := congrArg HwStartup.extCurrent (each.rests k fsm)
  exact kept

theorem OneMore.counts (k : Nat) (fsm : HwStartup ℝ) :
    (work^[k] fsm).sampleCount = fsm.sampleCount + UInt32.ofNat k := by
  induction k with
  | zero => exact (UInt32.add_zero _).symm
  | succ k ih =>
    rw [Function.iterate_succ_apply', each.count, ih, UInt32.ofNat_add, UInt32.add_assoc]
    rfl

theorem OneMore.count_toNat {total : UInt32} {k : Nat} (fresh : fsm.sampleCount = 0) (within : k ≤ total.toNat) :
    (work^[k] fsm).sampleCount.toNat = k := by
  have bound : total.toNat < 4294967296 := total.toNat_lt
  rw [each.counts, fresh, UInt32.zero_add]
  exact UInt32.toNat_ofNat_of_lt' (by show k < 4294967296; omega)

theorem OneMore.below {total : UInt32} {k : Nat} (fresh : fsm.sampleCount = 0) (within : k < total.toNat) :
    (work^[k] fsm).sampleCount < total := by
  rw [UInt32.lt_iff_toNat_lt, each.count_toNat fresh (Nat.le_of_lt within)]
  exact within

end OneMore

theorem oneMore_add (currents : ThreePhase ℝ) : OneMore (addSample currents) := ⟨fun _ => rfl, fun _ => rfl⟩

theorem sum_onward (sum each : ℝ) (k : Nat) : sum + k * each + each = sum + (k + 1 : Nat) * each := by
  push_cast
  ring

/-- The sums of the samples. -/
structure Sums (a b c squareA squareB : ℝ) (fsm : HwStartup ℝ) : Prop where
  a : fsm.accumA = a
  b : fsm.accumB = b
  c : fsm.accumC = c
  squareA : fsm.accumSqA = squareA
  squareB : fsm.accumSqB = squareB

theorem Sums.added {a b c squareA squareB : ℝ} (sums : Sums a b c squareA squareB fsm) (currents : ThreePhase ℝ)
    (k : Nat) : Sums (a + k * currents.a) (b + k * currents.b) (c + k * currents.c)
      (squareA + k * (currents.a * currents.a)) (squareB + k * (currents.b * currents.b))
      ((addSample currents)^[k] fsm) := by
  induction k with
  | zero =>
    simp only [Nat.cast_zero, zero_mul, add_zero]
    exact sums
  | succ k ih =>
    rw [Function.iterate_succ_apply']
    obtain ⟨a, b, c, squareA, squareB⟩ := ih
    refine ⟨?_, ?_, ?_, ?_, ?_⟩
    · exact (congrArg (· + currents.a) a).trans (sum_onward _ _ _)
    · exact (congrArg (· + currents.b) b).trans (sum_onward _ _ _)
    · exact (congrArg (· + currents.c) c).trans (sum_onward _ _ _)
    · exact (congrArg (· + currents.a * currents.a) squareA).trans (sum_onward _ _ _)
    · exact (congrArg (· + currents.b * currents.b) squareB).trans (sum_onward _ _ _)

theorem Begins.sums (begins : Begins m state fsm) : Sums 0 0 0 0 0 fsm := by
  rw [← begins.fresh]
  exact ⟨Scalar.zero_exact, Scalar.zero_exact, Scalar.zero_exact, Scalar.zero_exact, Scalar.zero_exact⟩

theorem Begins.count (begins : Begins m state fsm) : fsm.sampleCount = 0 := by
  rw [← begins.fresh]
  rfl

/-- A spin takes its sample, and the last one of `total` finishes. -/
def Collects (m : Meters) (total : UInt32) (finish work : HwStartup ℝ → HwStartup ℝ) (currents : ThreePhase ℝ)
    (fsm : HwStartup ℝ) : Prop :=
  Spins m true true currents fsm (if total ≤ fsm.sampleCount + 1 then finish (work fsm) else work fsm)

section Collecting

variable {finish work : HwStartup ℝ → HwStartup ℝ} {n : Nat}

theorem count_toNat {total : UInt32} {k : Nat} (within : k < total.toNat) : (UInt32.ofNat k + 1).toNat = k + 1 := by
  have bound : total.toNat < 4294967296 := total.toNat_lt
  have small : (UInt32.ofNat k).toNat = k := UInt32.toNat_ofNat_of_lt' (by show k < 4294967296; omega)
  have one : (1 : UInt32).toNat = 1 := rfl
  rw [UInt32.toNat_add, small, one]
  exact Nat.mod_eq_of_lt (by omega)

theorem At.collects (total : UInt32) (before : Nat) (place : At true fsm s) (small : Small currents)
    (each : OneMore work) (count : fsm.sampleCount = UInt32.ofNat before) (within : before + n < total.toNat)
    (collects : ∀ k < n, Collects m total finish work currents (work^[k] fsm)) :
    At true (work^[n] fsm) (s.run (List.replicate n (sampling m currents))) := by
  refine place.repeated small fun k earlier => ?_
  have more : ¬total ≤ (work^[k] fsm).sampleCount + 1 := by
    rw [each.counts, count, ← UInt32.ofNat_add, UInt32.le_iff_toNat_le,
      count_toNat (show before + k < total.toNat by omega)]
    omega
  have adds := collects k earlier
  unfold Collects at adds
  rwa [if_neg more] at adds

theorem At.finishes (total : UInt32) (before : Nat) (place : At true fsm s) (small : Small currents)
    (each : OneMore work) (count : fsm.sampleCount = UInt32.ofNat before) (nonzero : n ≠ 0)
    (whole : before + n = total.toNat) (collects : ∀ k < n, Collects m total finish work currents (work^[k] fsm)) :
    At true (finish (work^[n] fsm)) (s.run (List.replicate n (sampling m currents))) := by
  obtain ⟨n, rfl⟩ := Nat.exists_eq_succ_of_ne_zero nonzero
  have all : total ≤ (work^[n] fsm).sampleCount + 1 := by
    rw [each.counts, count, ← UInt32.ofNat_add, UInt32.le_iff_toNat_le,
      count_toNat (show before + n < total.toNat by omega)]
    omega
  have last := collects n (Nat.lt_succ_self n)
  unfold Collects at last
  rw [if_pos all] at last
  rw [Nat.succ_eq_add_one, List.replicate_succ', Session.run_append, Function.iterate_succ_apply']
  have before := place.collects total before small each count (by omega) fun k earlier =>
    collects k (Nat.lt_succ_of_lt earlier)
  exact before.spin small last

end Collecting

/-! ### The steps without the motor -/

theorem runCalibration_found (finds : Finds m on currents b) (finish : HwStartup ℝ → HwStartup ℝ)
    (keeps : ∀ fsm, (finish fsm).nextStepRequested = fsm.nextStepRequested) (unmeasured : fsm.stepDone = false)
    (unasked : fsm.nextStepRequested = false) : fsm.runCalibration finish b =
      (if nCal ≤ fsm.sampleCount + 1 then finish (fsm.addSample currents) else fsm.addSample currents, neutral b) := by
  have forced : Finds m on currents (neutral b) := finds.forceDuty _ _ _
  unfold runCalibration
  rw [if_neg (by simp [unmeasured]), collectSample_found forced]
  simp only [decide_eq_true_eq]
  rw [continueWhenAsked_later]
  split
  · exact (keeps _).trans unasked
  · exact unasked

/-- One of the two steps that average samples without the motor. -/
def finishOf : FsmState → HwStartup ℝ → HwStartup ℝ
  | .adcOffsetCal => finishAdcOffsetCal
  | _ => finishAdcNoiseFloor

theorem Amid.calibrates (amid : Amid m true state fsm) (which : state = .adcOffsetCal ∨ state = .adcNoiseFloor)
    (currents : ThreePhase ℝ) : Collects m nCal (finishOf state) (addSample currents) currents fsm := by
  refine ⟨amid.runs (by rcases which with rfl | rfl <;> rfl), fun b finds => ?_⟩
  have working : fsm.runStep b = fsm.runCalibration (finishOf state) b := by
    unfold runStep
    rw [amid.state]
    rcases which with rfl | rfl <;> rfl
  have keeps (fsm : HwStartup ℝ) : (finishOf state fsm).nextStepRequested = fsm.nextStepRequested := by
    rcases which with rfl | rfl <;> rfl
  rw [working, runCalibration_found finds _ keeps amid.unmeasured amid.unasked]
  exact ⟨rfl, (finds.forceDuty _ _ _).toBench⟩

def halves (m : Meters) (first second : ThreePhase ℝ) : List (Step ℝ) :=
  List.replicate 512 (sampling m first) ++ List.replicate 512 (sampling m second)

theorem At.averaged (place : At true fsm s) (begins : Begins m state fsm)
    (which : state = .adcOffsetCal ∨ state = .adcNoiseFloor) {first second : ThreePhase ℝ} (smallFirst : Small first)
    (smallSecond : Small second) :
    let collected := (addSample second)^[512] ((addSample first)^[512] fsm)
    Amid m true state collected ∧ At true (finishOf state collected) (s.run (halves m first second)) := by
  have amid := (oneMore_add first).amid begins.toAmid 512
  have halfway : At true ((addSample first)^[512] fsm) (s.run (List.replicate 512 (sampling m first))) :=
    place.collects nCal 0 smallFirst (oneMore_add first) begins.count (by decide) fun k _ =>
      ((oneMore_add first).amid begins.toAmid k).calibrates which first
  have count : ((addSample first)^[512] fsm).sampleCount = UInt32.ofNat 512 := by
    rw [(oneMore_add first).counts, begins.count]
    rfl
  refine ⟨(oneMore_add second).amid amid 512, ?_⟩
  unfold halves
  rw [Session.run_append]
  exact halfway.finishes nCal 512 smallSecond (oneMore_add second) count (by decide) (by decide) fun k _ =>
    ((oneMore_add second).amid amid k).calibrates which second

theorem Amid.offset (amid : Amid m true .adcOffsetCal fsm) {squareA squareB : ℝ}
    (sums : Sums 0 0 0 squareA squareB fsm) : Measured m .adcOffsetCal (finishAdcOffsetCal fsm) := by
  have meanZero (sum : ℝ) (zero : sum = 0) : HwStartup.mean (F := ℝ) sum nCal = 0 := by
    rw [mean_exact, zero, zero_div]
  have below : Scalar.abs (0 : ℝ) < offsetThreshold := by
    have threshold : (offsetThreshold : ℝ) = 0.5 := rfl
    rw [Scalar.abs_exact, abs_zero, threshold]
    norm_num
  have good := amid.good
  refine ⟨amid.state, rfl, amid.limit, amid.gate, amid.voltage, fun _ => amid.sweep (by decide), ?_⟩
  unfold finishAdcOffsetCal
  simp only [meanZero _ sums.a, meanZero _ sums.b, meanZero _ sums.c, below, decide_true, Bool.and_self]
  refine Good.here ⟨rfl, rfl, rfl, good.gainVdc, good.gainA, good.gainB, good.gainC, good.noise, good.passed⟩ ?_
  exact .inl (by decide)

theorem rms_between {sum squares : ℝ} (zero : sum = 0) (total : squares = 2.56) :
    0 < HwStartup.rms (F := ℝ) sum squares nCal ∧ HwStartup.rms (F := ℝ) sum squares nCal < noiseThreshold := by
  have samples : (nCal.toNat : ℝ) = 1024 := by norm_num [show nCal.toNat = 1024 from rfl]
  have variance : squares / nCal.toNat - sum / nCal.toNat * (sum / nCal.toNat) = 0.0025 := by
    rw [samples, zero, total]
    norm_num
  have threshold : (noiseThreshold : ℝ) = 0.1 := rfl
  rw [rms_exact, variance, if_pos (by norm_num), threshold]
  constructor
  · exact Real.sqrt_pos.mpr (by norm_num)
  · exact (Real.sqrt_lt' (by norm_num)).mpr (by norm_num)

theorem Amid.noise (amid : Amid m true .adcNoiseFloor fsm) {c : ℝ} (sums : Sums 0 0 c 2.56 2.56 fsm) :
    Measured m .adcNoiseFloor (finishAdcNoiseFloor fsm) := by
  obtain ⟨positiveA, belowA⟩ := rms_between sums.a sums.squareA
  obtain ⟨positiveB, belowB⟩ := rms_between sums.b sums.squareB
  obtain ⟨offsetA, offsetB, offsetC, gainVdc, gainA, gainB, gainC, -, passed⟩ := amid.good
  refine ⟨amid.state, rfl, amid.limit, amid.gate, amid.voltage, fun _ => amid.sweep (by decide), ?_⟩
  unfold finishAdcNoiseFloor
  simp only [belowA, belowB, decide_true, Bool.and_self]
  have early : ¬3 < FsmState.adcNoiseFloor.index.val := by decide
  refine Good.pass ⟨offsetA, offsetB, offsetC, gainVdc, gainA, gainB, gainC, ?_, passed⟩ fun _ => ⟨positiveA, belowA⟩
  exact fun late => absurd late early

/-- A sample of a forced duty. -/
def hold (fsm : HwStartup ℝ) : HwStartup ℝ := { fsm with sampleCount := fsm.sampleCount + 1 }

def held (fsm : HwStartup ℝ) : HwStartup ℝ := { fsm with results := fsm.results.pass fsm.state true, stepDone := true }

theorem runDutyForce_found (finds : Finds m on currents b) (duty : ℝ) (unmeasured : fsm.stepDone = false)
    (unasked : fsm.nextStepRequested = false) :
    (fsm.runDutyForce duty b).1 = (if fsm.sampleCount < holdSamples then hold fsm else held fsm) ∧
      Bench on (fsm.runDutyForce duty b).2 := by
  have bench : Bench on (b.forceDuty duty duty duty) := (finds.forceDuty _ _ _).toBench
  unfold runDutyForce
  rw [if_neg (by simp [unmeasured])]
  by_cases more : fsm.sampleCount < holdSamples
  · rw [if_pos more, if_pos more]
    exact ⟨rfl, bench⟩
  · rw [if_neg more, if_neg more, continueWhenAsked_later (by exact unasked)]
    exact ⟨rfl, bench⟩

theorem Amid.forces (amid : Amid m true state fsm)
    (which : state = .dutyForceLow ∨ state = .dutyForceMid ∨ state = .dutyForceHigh) (currents : ThreePhase ℝ) :
    Spins m true true currents fsm (if fsm.sampleCount < holdSamples then hold fsm else held fsm) := by
  refine ⟨amid.runs (by rcases which with rfl | rfl | rfl <;> rfl), fun b finds => ?_⟩
  have forced (duty : ℝ) := runDutyForce_found finds duty amid.unmeasured amid.unasked
  unfold runStep
  rw [amid.state]
  rcases which with rfl | rfl | rfl
  · exact forced _
  · exact forced _
  · exact forced _

theorem oneMore_hold : OneMore hold := ⟨fun _ => rfl, fun _ => rfl⟩

theorem At.held {n : Nat} (place : At true fsm s) (begins : Begins m state fsm)
    (which : state = .dutyForceLow ∨ state = .dutyForceMid ∨ state = .dutyForceHigh) (whole : n = holdSamples.toNat) :
    ∃ after, Measured m state after ∧ At true after (s.run (List.replicate (n + 1) (sampling m .zero))) := by
  have holding : At true (hold^[n] fsm) (s.run (List.replicate n (sampling m .zero))) := by
    refine place.repeated small_zero fun k earlier => ?_
    have more : (hold^[k] fsm).sampleCount < holdSamples := oneMore_hold.below begins.count (whole ▸ earlier)
    have forces := (oneMore_hold.amid begins.toAmid k).forces which .zero
    rwa [if_pos more] at forces
  have amid := oneMore_hold.amid begins.toAmid n
  have last := amid.forces which .zero
  have all : ¬(hold^[n] fsm).sampleCount < holdSamples := by
    rw [UInt32.lt_iff_toNat_lt, oneMore_hold.count_toNat begins.count (Nat.le_of_eq whole), whole]
    exact Nat.lt_irrefl _
  rw [if_neg all] at last
  refine ⟨Passing.held (hold^[n] fsm), ?_, ?_⟩
  · refine ⟨amid.state, rfl, amid.limit, amid.gate, amid.voltage, fun early => amid.sweep (by omega), ?_⟩
    unfold Passing.held
    rw [amid.state]
    refine amid.good.here (.inr ?_)
    rcases which with rfl | rfl | rfl <;> decide
  · rw [List.replicate_succ', Session.run_append]
    exact holding.spin small_zero last

/-- A sample of the DC link. -/
def link (m : Meters) (fsm : HwStartup ℝ) : HwStartup ℝ :=
  { fsm with accumA := fsm.accumA + Arithmetic.widen m.voltage, sampleCount := fsm.sampleCount + 1 }

theorem oneMore_link (m : Meters) : OneMore (link m) := ⟨fun _ => rfl, fun _ => rfl⟩

theorem Amid.links (amid : Amid m true .dcLinkVoltageCheck fsm) (more : fsm.sampleCount < nCal) :
    Collects m nCal evaluateDcLink (link m) currents fsm := by
  refine ⟨amid.runs rfl, fun b finds => ?_⟩
  have forced : Finds m true currents (neutral b) := finds.forceDuty _ _ _
  have working : fsm.runStep b = fsm.runDcLinkVoltageCheck b := by
    unfold runStep
    rw [amid.state]
  rw [working]
  unfold runDcLinkVoltageCheck
  rw [if_neg (by simp [amid.unmeasured]), if_pos more, readIsr_calm forced.calm]
  dsimp only
  rw [forced.vdc]
  by_cases next : fsm.sampleCount + 1 < nCal
  · rw [if_pos next, if_neg (UInt32.not_le.mpr next)]
    exact ⟨rfl, forced.toBench⟩
  · rw [if_neg next, if_pos (UInt32.not_lt.mp next)]
    exact ⟨rfl, forced.toBench⟩

theorem link_sums {fsm : HwStartup ℝ} {sum : ℝ} (start : fsm.accumA = sum) (k : Nat) :
    ((link m)^[k] fsm).accumA = (sum + k * m.voltage : ℝ) := by
  induction k with
  | zero =>
    rw [Nat.cast_zero, zero_mul, add_zero]
    exact start
  | succ k ih =>
    rw [Function.iterate_succ_apply']
    exact (congrArg (· + m.voltage) ih).trans (sum_onward _ _ _)

theorem Amid.evaluated (amid : Amid m true .dcLinkVoltageCheck fsm)
    (sum : fsm.accumA = (0 + nCal.toNat * m.voltage : ℝ)) :
    Measured m .dcLinkVoltageCheck fsm.evaluateDcLink := by
  have samples : (nCal.toNat : ℝ) ≠ 0 := by norm_num [show nCal.toNat = 1024 from rfl]
  have nonzero : m.voltage ≠ 0 := by
    have above := m.charged
    rintro zero
    norm_num [zero] at above
  have gain : HwStartup.mean (F := ℝ) fsm.accumA nCal / m.voltage = 1 := by
    rw [mean_exact, sum, zero_add, mul_div_cancel_left₀ _ samples, div_self nonzero]
  have near : Scalar.abs ((1 : ℝ) - 1.0) < vdcGainTolerance := by
    have tolerance : (vdcGainTolerance : ℝ) = 0.02 := rfl
    rw [Scalar.abs_exact, tolerance]
    norm_num
  obtain ⟨offsetA, offsetB, offsetC, -, gainA, gainB, gainC, noise, passed⟩ := amid.good
  unfold evaluateDcLink
  dsimp only
  rw [amid.voltage, if_pos (show vdcMinValid < m.voltage from m.charged)]
  refine ⟨amid.state, rfl, amid.limit, amid.gate, rfl, fun _ => amid.sweep (by decide), ?_⟩
  dsimp only
  rw [show HwStartup.mean fsm.accumA nCal / m.voltage = 1 from gain]
  simp only [near, decide_true]
  exact Good.here ⟨offsetA, offsetB, offsetC, rfl, gainA, gainB, gainC, noise, passed⟩ (.inr (by decide))

theorem At.linked (place : At true fsm s) (begins : Begins m .dcLinkVoltageCheck fsm) :
    ∃ after, Measured m .dcLinkVoltageCheck after ∧
      At true after (s.run (List.replicate nCal.toNat (sampling m .zero))) := by
  refine ⟨_, ((oneMore_link m).amid begins.toAmid _).evaluated (link_sums begins.sums.a _), ?_⟩
  refine place.finishes nCal 0 small_zero (oneMore_link m) begins.count (by decide) (Nat.zero_add _) fun k earlier => ?_
  exact ((oneMore_link m).amid begins.toAmid k).links ((oneMore_link m).below begins.count earlier)

/-- The first half of the gate check is over. -/
def firstHalf (fsm : HwStartup ℝ) : HwStartup ℝ :=
  { fsm.clearSamples with gateMeanDisabled := HwStartup.mean fsm.accumA nGate, gatePhaseDisabled := false }

theorem Amid.gateDisabled (amid : Amid m true .gateDriverEnableCheck fsm) (currents : ThreePhase ℝ) :
    Collects m nGate firstHalf (addSample currents) currents fsm := by
  refine ⟨amid.runs rfl, fun b finds => ?_⟩
  have forced : Finds m true currents (neutral b) := finds.forceDuty _ _ _
  have working : fsm.runStep b = fsm.runGateDriverEnableCheck b := by
    unfold runStep
    rw [amid.state]
  rw [working]
  unfold runGateDriverEnableCheck
  rw [if_neg (by simp [amid.unmeasured]), if_pos amid.gate, collectSample_found forced]
  simp only [decide_eq_true_eq]
  split
  · exact ⟨rfl, forced.toBench⟩
  · exact ⟨rfl, forced.toBench⟩

theorem Amid.gateEnabled (amid : Amid m false .gateDriverEnableCheck fsm) (currents : ThreePhase ℝ) :
    Collects m nGate finishGateDriverEnableCheck (addSample currents) currents fsm := by
  refine ⟨amid.runs rfl, fun b finds => ?_⟩
  have forced : Finds m true currents (b.forceDuty 0.55 0.45 0.45) := finds.forceDuty _ _ _
  have working : fsm.runStep b = fsm.runGateDriverEnableCheck b := by
    unfold runStep
    rw [amid.state]
  rw [working]
  unfold runGateDriverEnableCheck
  rw [if_neg (by simp [amid.unmeasured]), if_neg (by simp [amid.gate]), collectSample_found forced]
  simp only [decide_eq_true_eq]
  exact ⟨trivial, forced.toBench⟩

/-- A current out of phase A, back in B and C. -/
def Meters.driven (m : Meters) : ThreePhase ℝ := ⟨m.current, -m.current * 0.5, -m.current * 0.5⟩

theorem Meters.positive (m : Meters) : 0 < m.current := lt_of_lt_of_le (by norm_num) m.clear

theorem small_driven (m : Meters) : Small m.driven := by
  have whole : |m.current| ≤ 6.0 := by
    rw [abs_of_pos m.positive]
    exact m.within
  have half : |-m.current * 0.5| ≤ 6.0 := by
    have positive := m.positive
    have most := m.within
    rw [abs_mul, abs_neg, abs_of_pos positive]
    norm_num at most ⊢
    linarith
  exact ⟨whole, half, half⟩

theorem mean_same (samples : UInt32) (nonzero : samples ≠ 0) (each : ℝ) :
    HwStartup.mean (F := ℝ) (0 + samples.toNat * each : ℝ) samples = each := by
  have apart : (samples.toNat : ℝ) ≠ 0 :=
    Nat.cast_ne_zero.mpr fun zero => nonzero (UInt32.toNat_inj.mp zero)
  rw [mean_exact, zero_add, mul_div_cancel_left₀ _ apart]

theorem Amid.gateChecked (amid : Amid m false .gateDriverEnableCheck fsm)
    (sum : fsm.accumA = (0 + nGate.toNat * m.driven.a : ℝ)) (disabled : fsm.gateMeanDisabled = 0) :
    Measured m .gateDriverEnableCheck fsm.finishGateDriverEnableCheck := by
  have enabled : HwStartup.mean (F := ℝ) fsm.accumA nGate = m.current := by
    rw [sum]
    exact mean_same nGate (by decide) _
  obtain ⟨-, quiet⟩ := amid.good.noise (by decide)
  have moved : (2.0 : ℝ) * fsm.results.adcNoiseRmsA < Scalar.abs (m.current - 0) := by
    have clear := m.clear
    have threshold : (noiseThreshold : ℝ) = 0.1 := rfl
    rw [threshold] at quiet
    rw [Scalar.abs_exact, sub_zero, abs_of_pos m.positive]
    norm_num at quiet clear ⊢
    linarith
  have verdict : decide ((2.0 : ℝ) * fsm.results.adcNoiseRmsA <
      Scalar.abs (HwStartup.mean fsm.accumA nGate - fsm.gateMeanDisabled)) = true := by
    rw [enabled, disabled]
    exact decide_eq_true moved
  refine ⟨amid.state, rfl, amid.limit, rfl, amid.voltage, fun _ => amid.sweep (by decide), ?_⟩
  unfold finishGateDriverEnableCheck
  dsimp only
  rw [verdict]
  exact amid.good.here (.inr (by decide))

theorem At.gateChecked {n : Nat} (whole : n = nGate.toNat) (place : At true fsm s)
    (begins : Begins m .gateDriverEnableCheck fsm) :
    ∃ after, Measured m .gateDriverEnableCheck after ∧ At true after (s.run
      (List.replicate n (sampling m .zero) ++ List.replicate n (sampling m m.driven))) := by
  have nonzero : n ≠ 0 := by
    rw [whole]
    decide
  have all : 0 + n = nGate.toNat := (Nat.zero_add n).trans whole
  have amid := (oneMore_add .zero).amid begins.toAmid n
  have disabled : At true (firstHalf ((addSample .zero)^[n] fsm)) (s.run (List.replicate n (sampling m .zero))) :=
    place.finishes nGate 0 small_zero (oneMore_add .zero) begins.count nonzero all fun k _ =>
      ((oneMore_add .zero).amid begins.toAmid k).gateDisabled .zero
  have zero : HwStartup.mean (F := ℝ) ((addSample .zero)^[n] fsm).accumA nGate = 0 := by
    rw [(begins.sums.added .zero n).a, whole]
    exact (mean_same nGate (by decide) _).trans Scalar.zero_exact
  generalize (addSample .zero)^[n] fsm = collected at amid disabled zero
  have second : Amid m false .gateDriverEnableCheck (firstHalf collected) :=
    ⟨amid.state, amid.unmeasured, amid.unasked, amid.limit, rfl, amid.voltage, amid.sweep, amid.good⟩
  have sums : Sums 0 0 0 0 0 (firstHalf collected) :=
    ⟨Scalar.zero_exact, Scalar.zero_exact, Scalar.zero_exact, Scalar.zero_exact, Scalar.zero_exact⟩
  have kept : ((addSample m.driven)^[n] (firstHalf collected)).gateMeanDisabled = 0 :=
    ((oneMore_add m.driven).gateMean n (firstHalf collected)).trans zero
  have sum : ((addSample m.driven)^[n] (firstHalf collected)).accumA = (0 + nGate.toNat * m.driven.a : ℝ) := by
    rw [(sums.added m.driven n).a, whole]
  refine ⟨_, ((oneMore_add m.driven).amid second n).gateChecked sum kept, ?_⟩
  rw [Session.run_append]
  exact disabled.finishes nGate 0 (small_driven m) (oneMore_add m.driven) rfl nonzero all fun k _ =>
    ((oneMore_add m.driven).amid second k).gateEnabled m.driven

/-! ### The motor -/

/-- The aid once the outputs are off for the motor. -/
def barred (fsm : HwStartup ℝ) : HwStartup ℝ :=
  { fsm with ocLimit := limit, stepDone := true, results := fsm.results.pass .connectMotor true }

theorem At.barred (place : At true fsm s) (begins : Begins m .connectMotor fsm) :
    Measured m .connectMotor (Passing.barred fsm) ∧ At false (Passing.barred fsm) (s.run [sampling m .zero]) := by
  constructor
  · exact ⟨begins.state, rfl, rfl, begins.gate, begins.voltage, fun _ => begins.sweep (by decide),
      begins.good.here (.inr (by decide))⟩
  · refine place.spin small_zero ⟨begins.runs rfl, fun b finds => ?_⟩
    have forced : Bench true (neutral b) := (finds.forceDuty _ _ _).toBench
    have working : fsm.runStep b = fsm.runConnectMotorWait b := by
      unfold runStep
      rw [begins.state]
    have entered : fsm.enterBarrier (neutral b) =
        (Passing.barred fsm, (neutral b).disable.record .motorAwaited) := by
      unfold enterBarrier Passing.barred
      rw [if_pos (by simp [begins.unmeasured]), forced.store]
      rfl
    have unasked : (Passing.barred fsm).nextStepRequested = false := begins.unasked
    rw [working]
    unfold runConnectMotorWait
    rw [entered]
    simp only [unasked, Bool.and_false, Bool.false_and, Bool.false_eq_true, ↓reduceIte]
    exact ⟨trivial, forced.disable.record .motorAwaited⟩

/-- In the sweep of the trigger offset, with this many samples taken. -/
structure Sweeps (m : Meters) (taken : Nat) (fsm : HwStartup ℝ) : Prop where
  state : fsm.state = .phaseAdcAlignment
  unmeasured : fsm.stepDone = false
  limit : fsm.ocLimit = limit
  gate : fsm.gatePhaseDisabled = true
  voltage : fsm.extVdc = m.voltage
  position : fsm.sweepPos = taken / 256
  count : fsm.sampleCount = UInt32.ofNat (taken % 256)
  sums : Sums 0 0 0 0 0 fsm
  noise : fsm.sweepNoiseA = Vector.replicate nSweepSteps 0
  good : Good FsmState.phaseAdcAlignment.index.val fsm.results

theorem Begins.sweeps (begins : Begins m .phaseAdcAlignment fsm) : Sweeps m 0 fsm := by
  obtain ⟨position, noise⟩ := begins.sweep (by decide)
  exact ⟨begins.state, begins.unmeasured, begins.limit, begins.gate, begins.voltage, position, begins.count,
    begins.sums, noise, begins.good⟩

theorem Sweeps.entered {taken : Nat} (sweeps : Sweeps m taken fsm) (calm : b.interrupts = []) :
    ∃ after, fsm.enterSweep b = (after, b) ∧ Sweeps m taken after := by
  unfold enterSweep
  rw [readIsr_calm calm]
  split
  · exact ⟨_, rfl, sweeps.state, sweeps.unmeasured, sweeps.limit, sweeps.gate, sweeps.voltage, sweeps.position,
      sweeps.count, ⟨sweeps.sums.a, sweeps.sums.b, sweeps.sums.c, sweeps.sums.squareA, sweeps.sums.squareB⟩,
      sweeps.noise, sweeps.good⟩
  · exact ⟨_, rfl, sweeps⟩

theorem rms_zero {sum squares : ℝ} (zero : sum = 0) (same : squares = 0) (samples : UInt32) :
    HwStartup.rms (F := ℝ) sum squares samples = 0 := by
  rw [rms_exact, zero, same]
  simp

theorem Sums.quiet (sums : Sums 0 0 0 0 0 fsm) : Sums 0 0 0 0 0 (addSample .zero fsm) := by
  have added := sums.added .zero 1
  have zero : (0 : ℝ) + (1 : Nat) * (Scalar.zero : ℝ) = 0 := by simp [Scalar.zero_exact]
  have square : (0 : ℝ) + (1 : Nat) * ((Scalar.zero : ℝ) * (Scalar.zero : ℝ)) = 0 := by simp [Scalar.zero_exact]
  exact ⟨added.a.trans zero, added.b.trans zero, added.c.trans zero, added.squareA.trans square,
    added.squareB.trans square⟩

theorem Sweeps.sampled {taken : Nat} (sweeps : Sweeps m taken fsm) (more : taken < nSweepSteps * 256)
    (finds : Finds m true .zero b) :
    Sweeps m (taken + 1) (fsm.sweep b).1 ∧ Bench true (fsm.sweep b).2 := by
  have position : ¬nSweepSteps ≤ fsm.sweepPos := by
    rw [sweeps.position]
    omega
  have within : taken % 256 < nAlignSamples.toNat := Nat.mod_lt taken (by decide)
  have counted : nAlignSamples ≤ fsm.sampleCount + 1 ↔ taken % 256 = 255 := by
    have whole : nAlignSamples.toNat = 256 := rfl
    rw [sweeps.count, UInt32.le_iff_toNat_le, count_toNat within, whole]
    omega
  have sums := sweeps.sums.quiet
  unfold sweep
  rw [if_neg position, collectSample_found finds]
  simp only [decide_eq_true_eq, counted]
  split
  · rename_i last
    refine ⟨⟨sweeps.state, sweeps.unmeasured, sweeps.limit, sweeps.gate, sweeps.voltage, ?_, ?_, ?_, ?_,
      sweeps.good⟩, finds.toBench.setAdcTriggerOffset _⟩
    · show fsm.sweepPos + 1 = _
      rw [sweeps.position]
      omega
    · show 0 = UInt32.ofNat _
      rw [show (taken + 1) % 256 = 0 by omega]
      rfl
    · exact ⟨Scalar.zero_exact, Scalar.zero_exact, Scalar.zero_exact, Scalar.zero_exact, Scalar.zero_exact⟩
    · have quiet := rms_zero sums.a sums.squareA nAlignSamples
      unfold advanceSweep
      dsimp only
      rw [quiet, show (addSample .zero fsm).sweepNoiseA = _ from sweeps.noise]
      exact Vector.setIfInBounds_replicate_self
  · rename_i other
    refine ⟨⟨sweeps.state, sweeps.unmeasured, sweeps.limit, sweeps.gate, sweeps.voltage, ?_, ?_, sums, sweeps.noise,
      sweeps.good⟩, finds.toBench⟩
    · show fsm.sweepPos = _
      rw [sweeps.position]
      omega
    · show fsm.sampleCount + 1 = _
      rw [sweeps.count, show (taken + 1) % 256 = taken % 256 + 1 by omega, UInt32.ofNat_add]
      rfl

theorem quietest_zero : (quietestPosition (Vector.replicate nSweepSteps (0 : ℝ))).2 = 0 := by
  have kept (positions : List (Fin nSweepSteps)) (best : Nat × ℝ) (zero : best.2 = 0) :
      (positions.foldl (fun best i => if (Vector.replicate nSweepSteps (0 : ℝ))[i] < best.2
        then (i.val, (Vector.replicate nSweepSteps (0 : ℝ))[i]) else best) best).2 = 0 := by
    induction positions generalizing best with
    | nil => exact zero
    | cons i rest ih =>
      refine ih _ ?_
      dsimp only
      split
      · exact Vector.getElem_replicate i.isLt
      · exact zero
  exact kept _ _ (Vector.getElem_replicate (by decide))

/-- The step of the sweep at hand. -/
theorem Sweeps.working (sweeps : Sweeps m index fsm) (calm : b.interrupts = []) :
    ∃ after, Sweeps m index after ∧ fsm.runStep b = after.sweep (injectAlphaCurrent b) := by
  have injected : (injectAlphaCurrent b).interrupts = [] := forceDuty_calm calm _ _ _
  obtain ⟨after, entered, sweeping⟩ := sweeps.entered injected
  refine ⟨after, sweeping, ?_⟩
  have working : fsm.runStep b = fsm.runPhaseAdcAlignment b := by
    unfold runStep
    rw [sweeps.state]
  rw [working]
  unfold runPhaseAdcAlignment
  rw [if_neg (by simp [sweeps.unmeasured]), entered]

theorem Sweeps.runs (sweeps : Sweeps m index fsm) : Runs true fsm := by
  refine ⟨?_, sweeps.limit, .inr rfl⟩
  rw [isActive, sweeps.state]
  rfl

theorem At.sweeps {n : Nat} (place : At true fsm s) (begins : Begins m .phaseAdcAlignment fsm)
    (within : n ≤ nSweepSteps * 256) :
    ∃ after, Sweeps m n after ∧ At true after (s.run (List.replicate n (sampling m .zero))) := by
  induction n with
  | zero => exact ⟨fsm, begins.sweeps, place⟩
  | succ n ih =>
    obtain ⟨between, sweeps, place⟩ := ih (Nat.le_of_succ_le within)
    rw [List.replicate_succ', Session.run_append]
    refine place.reaches small_zero sweeps.runs fun b finds => ?_
    obtain ⟨after, sweeping, working⟩ := sweeps.working finds.calm
    rw [working]
    exact sweeping.sampled within (finds.forceDuty _ _ _)

theorem Sweeps.finished (sweeps : Sweeps m index fsm) (whole : index = nSweepSteps * 256) (bench : Bench true b) :
    Measured m .phaseAdcAlignment (fsm.sweep b).1 ∧ Bench true (fsm.sweep b).2 := by
  have position : nSweepSteps ≤ fsm.sweepPos := by
    rw [sweeps.position, whole]
    decide
  obtain ⟨noisy, -⟩ := sweeps.good.noise (by decide)
  have quietest : (quietestPosition fsm.sweepNoiseA).2 < (2.0 : ℝ) * fsm.results.adcNoiseRmsA := by
    rw [sweeps.noise, quietest_zero]
    exact mul_pos (by norm_num) noisy
  unfold sweep
  rw [if_pos position]
  refine ⟨⟨sweeps.state, rfl, sweeps.limit, sweeps.gate, sweeps.voltage, fun early => absurd early (by decide), ?_⟩,
    bench.setAdcTriggerOffset _⟩
  obtain ⟨offsetA, offsetB, offsetC, gainVdc, gainA, gainB, gainC, noise, passed⟩ := sweeps.good
  unfold finishPhaseAdcAlignment
  dsimp only
  rw [decide_eq_true quietest]
  exact Good.here ⟨offsetA, offsetB, offsetC, gainVdc, gainA, gainB, gainC, noise, passed⟩ (.inr (by decide))

theorem At.aligned {n : Nat} (whole : n = nSweepSteps * 256) (place : At true fsm s)
    (begins : Begins m .phaseAdcAlignment fsm) :
    ∃ after, Measured m .phaseAdcAlignment after ∧
      At true after (s.run (List.replicate (n + 1) (sampling m .zero))) := by
  obtain ⟨between, sweeps, place⟩ := place.sweeps begins (Nat.le_of_eq whole)
  rw [List.replicate_succ', Session.run_append]
  refine place.reaches small_zero sweeps.runs fun b finds => ?_
  obtain ⟨after, sweeping, working⟩ := sweeps.working finds.calm
  rw [working]
  exact sweeping.finished whole (finds.forceDuty _ _ _).toBench

/-! ### The current calibration -/

def sensed (fsm : HwStartup ℝ) : HwStartup ℝ := { fsm.finishCurrentSenseCalibration with stepDone := true }

theorem Meters.readable (m : Meters) : ¬m.current < 1e-3 :=
  not_lt.mpr (le_trans (by norm_num) m.clear)

theorem Amid.senses (amid : Amid m true .currentSenseCalibration fsm) (reading : fsm.extCurrent = m.current)
    (more : fsm.sampleCount < nCal) : Collects m nCal sensed (addSample currents) currents fsm := by
  refine ⟨amid.runs rfl, fun b finds => ?_⟩
  have forced : Finds m true currents (injectAlphaCurrent b) := finds.forceDuty _ _ _
  have working : fsm.runStep b = fsm.runCurrentSenseCalibration b := by
    unfold runStep
    rw [amid.state]
  have finished (b : Board ℝ) :
      (fsm.addSample currents).awaitReading b = (sensed (fsm.addSample currents), b) := by
    have read : (fsm.addSample currents).extCurrent = m.current := reading
    unfold awaitReading
    rw [read, if_neg m.readable]
    exact continueWhenAsked_later (by exact amid.unasked) b
  rw [working]
  unfold runCurrentSenseCalibration
  rw [if_neg (by simp [amid.unmeasured]), if_pos more, collectSample_found forced]
  dsimp only
  rw [finished]
  by_cases all : nCal ≤ fsm.sampleCount + 1
  · rw [if_pos all, if_neg (by simp [all])]
    exact ⟨rfl, forced.toBench⟩
  · rw [if_neg all, if_pos (by simp [all])]
    exact ⟨rfl, forced.toBench⟩

theorem gain_passes : ((1e-4 : ℝ) < 1 && Scalar.abs ((1 : ℝ) - 1.0) < gainTolerance) = true := by
  have tolerance : (gainTolerance : ℝ) = 0.05 := rfl
  rw [Scalar.abs_exact, tolerance]
  norm_num

theorem Good.calibrated {gainA gainB gainC : ℝ} (good : Good FsmState.currentSenseCalibration.index.val results)
    (a : gainA = 1) (b : gainB = 1) (c : gainC = 1) :
    Good (FsmState.currentSenseCalibration.index.val + 1)
      ({ results with gainA := gainA, gainB := gainB, gainC := gainC }.pass .currentSenseCalibration
        (((1e-4 : ℝ) < gainA && Scalar.abs (gainA - 1.0) < gainTolerance) &&
          ((1e-4 : ℝ) < gainB && Scalar.abs (gainB - 1.0) < gainTolerance) &&
          ((1e-4 : ℝ) < gainC && Scalar.abs (gainC - 1.0) < gainTolerance))) := by
  subst a b c
  rw [gain_passes]
  obtain ⟨offsetA, offsetB, offsetC, gainVdc, -, -, -, noise, passed⟩ := good
  exact Good.here ⟨offsetA, offsetB, offsetC, gainVdc, rfl, rfl, rfl, noise, passed⟩ (.inr (by decide))

/-- A phase of the driven motor reads as the clamp meter. -/
theorem gain_one {sum offset phase reference : ℝ} (summed : sum = 0 + nCal.toNat * phase) (zero : offset = 0)
    (large : 1e-4 < |phase|) (same : phase = reference) :
    (if (1e-4 : ℝ) < Scalar.abs (HwStartup.mean (F := ℝ) sum nCal - offset)
      then (HwStartup.mean (F := ℝ) sum nCal - offset) / reference else Scalar.zero) = 1 := by
  have mean : HwStartup.mean (F := ℝ) sum nCal = phase := by
    rw [summed]
    exact mean_same nCal (by decide) _
  have nonzero : phase ≠ 0 := by
    rintro rfl
    norm_num at large
  rw [mean, zero, sub_zero, Scalar.abs_exact, if_pos large, ← same, div_self nonzero]

theorem Amid.sensed (amid : Amid m true .currentSenseCalibration fsm) (reading : fsm.extCurrent = m.current)
    (sumA : fsm.accumA = (0 + nCal.toNat * m.driven.a : ℝ)) (sumB : fsm.accumB = (0 + nCal.toNat * m.driven.b : ℝ))
    (sumC : fsm.accumC = (0 + nCal.toNat * m.driven.c : ℝ)) :
    Measured m .currentSenseCalibration (Passing.sensed fsm) := by
  have good := amid.good
  have positive := m.positive
  have clear := m.clear
  have half : m.driven.b = -fsm.extCurrent * 0.5 := by
    rw [reading]
    rfl
  have largeOut : (1e-4 : ℝ) < |m.driven.a| := by
    have same : m.driven.a = m.current := rfl
    rw [same, abs_of_pos positive]
    norm_num at clear ⊢
    linarith
  have largeBack : (1e-4 : ℝ) < |m.driven.b| := by
    have same : m.driven.b = -m.current * 0.5 := rfl
    rw [same, abs_mul, abs_neg, abs_of_pos positive]
    norm_num at clear ⊢
    linarith
  refine ⟨amid.state, rfl, amid.limit, amid.gate, amid.voltage, fun early => absurd early (by decide), ?_⟩
  exact good.calibrated (gain_one sumA good.offsetA largeOut reading.symm) (gain_one sumB good.offsetB largeBack half)
    (gain_one sumC good.offsetC largeBack half)

theorem At.sensed {n : Nat} (whole : n = nCal.toNat) (place : At true fsm s)
    (begins : Begins m .currentSenseCalibration fsm) :
    ∃ after, Measured m .currentSenseCalibration after ∧ after.extCurrent = m.current ∧
      At true after (s.run (⟨id, .setExtCurrent m.current⟩ :: List.replicate n (sampling m m.driven))) := by
  let given : HwStartup ℝ := fsm.setExtCurrent m.current
  have amid : Amid m true .currentSenseCalibration given :=
    ⟨begins.state, begins.unmeasured, begins.unasked, begins.limit, begins.gate, begins.voltage, begins.sweep,
      begins.good⟩
  have sums : Sums 0 0 0 0 0 given :=
    ⟨begins.sums.a, begins.sums.b, begins.sums.c, begins.sums.squareA, begins.sums.squareB⟩
  have reading (k : Nat) : ((addSample m.driven)^[k] given).extCurrent = m.current :=
    (oneMore_add m.driven).extCurrent k given
  have ready : At true given (s.next ⟨id, .setExtCurrent m.current⟩) := by
    obtain ⟨rfl, bench⟩ := place
    exact ⟨rfl, bench⟩
  have nonzero : n ≠ 0 := by
    rw [whole]
    decide
  have added := sums.added m.driven n
  have measured : Measured m .currentSenseCalibration (Passing.sensed ((addSample m.driven)^[n] given)) := by
    subst whole
    exact ((oneMore_add m.driven).amid amid _).sensed (reading _) added.a added.b added.c
  refine ⟨_, measured, reading n, ?_⟩
  refine ready.finishes nCal 0 (small_driven m) (oneMore_add m.driven) begins.count nonzero
    ((Nat.zero_add n).trans whole) fun k earlier => ?_
  have fresh : given.sampleCount = 0 := begins.count
  exact ((oneMore_add m.driven).amid amid k).senses (reading k)
    ((oneMore_add m.driven).below fresh (whole ▸ earlier))

end Passing

end

end Unimoc.Startup
