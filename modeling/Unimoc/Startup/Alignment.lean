import Mathlib.Tactic.NormNum.GCD
import Unimoc.Lib.BinaryValue
import Unimoc.Startup.Isolation
import Unimoc.Startup.Sweep

/-! The result of the alignment sweep against the trigger offset its quietest position was measured with. -/
namespace Unimoc.Startup

open CurrentControl Firmware FirstLeast HwStartup Session

/-! ### The ticks of a position -/

theorem ten_halves (base : UInt32) : 10 * (base / 2) = 0 ↔ base ≤ 1 := by
  have half : (base / 2).toNat = base.toNat / 2 := UInt32.toNat_div base 2
  have bound : (base / 2).toNat < 2 ^ 31 := by
    rw [half]
    exact Nat.div_lt_of_lt_mul base.toNat_lt
  have small : base / 2 = 0 ↔ base ≤ 1 := by
    rw [← UInt32.toNat_inj, half, UInt32.le_iff_toNat_le]
    show base.toNat / 2 = 0 ↔ base.toNat ≤ 1
    rw [Nat.div_eq_zero_iff_lt two_pos]
    exact Nat.lt_succ_iff
  rw [← small]
  constructor
  · intro wrapped
    have zero : 10 * (base / 2).toNat % 2 ^ 32 = 0 :=
      (UInt32.toNat_mul 10 (base / 2)).symm.trans (congrArg UInt32.toNat wrapped)
    have tenfold : 2 ^ 31 * 2 ∣ 5 * (base / 2).toNat * 2 := by
      rw [mul_right_comm]
      exact Nat.dvd_of_mod_eq_zero zero
    have fivefold := Nat.dvd_of_mul_dvd_mul_right two_pos tenfold
    have coprime : Nat.Coprime (2 ^ 31) 5 := by norm_num
    have whole := coprime.dvd_of_dvd_mul_left fivefold
    exact UInt32.toNat_inj.mp (Nat.eq_zero_of_dvd_of_lt whole bound)
  · intro nothing
    rw [nothing]
    rfl

theorem sweepTicks_zero (base : UInt32) : sweepTicks base 0 = base ↔ base ≤ 1 := by
  have ticks : (base.toInt32 + (Int32.ofNat 0 - Int32.ofNat (nSweepSteps / 2)) * (base / 2).toInt32).toUInt32 =
      base + 4294967286 * (base / 2) := rfl
  have away : base + 4294967286 * (base / 2) = base ↔ 10 * (base / 2) = 0 := by grind
  unfold sweepTicks
  dsimp only
  split
  · rw [ticks, away]
    exact ten_halves base
  · rename_i below
    constructor
    · rintro rfl
      decide
    · intro small
      rcases Nat.le_one_iff_eq_zero_or_eq_one.mp (UInt32.le_iff_toNat_le.mp small) with zero | one
      · exact UInt32.toNat_inj.mp zero.symm
      · have unit : base = 1 := UInt32.toNat_inj.mp one
        subst unit
        exact absurd (by decide) below

theorem sweepTicks_offset (base : UInt32) (position : Nat) :
    offsetAt base position = sweepTicks base position ↔ position ≠ 0 ∨ base ≤ 1 := by
  unfold offsetAt
  split
  · rename_i first
    rw [first, eq_comm, sweepTicks_zero]
    exact (or_iff_right (fun apart => apart rfl)).symm
  · rename_i later
    exact iff_of_true rfl (.inl later)

/-! ### The noise of the target -/

theorem rms_number (sum squares : Binary64) (samples : UInt32) :
    (HwStartup.rms (F := Binary32) sum squares samples) ≠ .nan := by
  unfold HwStartup.rms
  dsimp only
  split
  · rename_i positive
    exact Binary.sqrt_number positive
  · nofun

theorem quietestPosition_first {noise : Fin nSweepSteps → Binary32} (numbers : ∀ j, noise j ≠ .nan) :
    ∃ p, First noise p ∧ (quietestPosition (Vector.ofFn noise)).1 = p.val := by
  have keyed : Keyed noise fun j => (noise j).toEReal := fun i j => Binary.lt_toEReal (numbers i) (numbers j)
  obtain ⟨p, first, best⟩ := keyed.foldl_first
  refine ⟨p, first, ?_⟩
  have loop : quietestPosition (Vector.ofFn noise) = (List.finRange nSweepSteps).foldl (better noise) (0, noise 0) := by
    unfold quietestPosition better
    simp
  rw [loop, best]

/-! ### The result -/

namespace Sweep

/-- The result is the trigger offset in force while the samples of the quietest position, the first of them,
were taken. -/
def Aligned (s : Sweep Binary32) : Prop :=
  ∃ p : Fin nSweepSteps, First (fun j : Fin nSweepSteps => noiseAt s.samples j) p ∧
    (∃ sample ∈ s.samples, sample.position = p) ∧
    ∀ sample ∈ s.samples, sample.position = p → sample.triggerOffset = s.fsm.results.adcTriggerOffsetOptimal

/-- Another position is quieter than the first one. -/
def QuieterLater (s : Sweep Binary32) : Prop :=
  ∃ j : Fin nSweepSteps, (noiseAt s.samples j : Binary32) < noiseAt s.samples 0

theorem Finished.aligned_iff {base : UInt32} {s : Sweep Binary32} (finished : Finished base s) :
    s.Aligned ↔ s.QuieterLater ∨ base ≤ 1 := by
  have numbers (j : Fin nSweepSteps) : (noiseAt s.samples j : Binary32) ≠ .nan := rms_number _ _ _
  obtain ⟨p, first, quietest⟩ := quietestPosition_first numbers
  have result := finished.result
  rw [quietest] at result
  have taken : ∃ sample ∈ s.samples, sample.position = p.val := by
    have some : samplesAt s.samples p ≠ [] := by
      rw [← List.length_pos_iff, finished.full p p.isLt]
      decide
    obtain ⟨sample, found⟩ := List.exists_mem_of_ne_nil _ some
    obtain ⟨inside, here⟩ := List.mem_filter.mp found
    exact ⟨sample, inside, of_decide_eq_true here⟩
  have aligned : s.Aligned ↔ offsetAt base p = sweepTicks base p := by
    constructor
    · rintro ⟨q, other, -, inForce⟩
      cases first.unique other
      obtain ⟨sample, found, here⟩ := taken
      rw [← result, ← inForce sample found here, finished.offsets sample found, here]
    · intro same
      refine ⟨p, first, taken, fun sample found here => ?_⟩
      rw [result, finished.offsets sample found, here, same]
  have later : s.QuieterLater ↔ p.val ≠ 0 := by
    constructor
    · rintro ⟨j, quieter⟩ zero
      have start : p = 0 := Fin.ext zero
      exact first.least j (start ▸ quieter)
    · intro apart
      exact ⟨p, first.before 0 (Fin.pos_iff_ne_zero.mpr fun start => apart (congrArg Fin.val start))⟩
  rw [aligned, sweepTicks_offset, later]

end Sweep

/-! ### A sweep in which no current flows -/

section Quiet

open Sweep

def quietCycle : List (List (Interrupt Binary32)) := [[.controlCycle quietSamples .zero]]

/-- After `n` quiet spins. -/
structure Quiet (base : UInt32) (n : Nat) (s : Sweep Binary32) : Prop where
  bench : BenchRuns s.board
  limit : s.fsm.ocLimit = benchLimit
  sweeping : Sweeping base s
  progress : s.fsm.sweepPos * 256 + s.fsm.sampleCount.toNat = n
  silent : ∀ sample ∈ s.samples, sample.current = Scalar.zero

theorem triggerOffset_bench {b : Board Binary32} (bench : BenchRuns b) (offset : UInt32) :
    BenchRuns (b.setAdcTriggerOffset offset) := by
  unfold Board.setAdcTriggerOffset
  rw [preempt_calm bench.calm]
  obtain ⟨calm, released, hardware, current, voltage, calibration, limit, trip, least, most⟩ := bench
  exact ⟨calm, released, hardware, current, voltage, calibration, limit, trip, least, most⟩

theorem quiet_currents {b : Board Binary32} (bench : BenchRuns b) :
    (taken (sample.meets b)).isr.rawPhaseCurrents = .zero := by
  unfold taken
  rw [bench.cycle]
  show quietSamples.phaseCurrents.back = .zero
  decide

structure QuietSpin (base : UInt32) (s : Sweep Binary32) (fsm : HwStartup Binary32) (b : Board Binary32) : Prop where
  bench : BenchRuns b
  silent : b.isr.rawPhaseCurrents = .zero
  limit : fsm.ocLimit = s.fsm.ocLimit
  position : fsm.sweepPos = s.fsm.sweepPos
  count : fsm.sampleCount = s.fsm.sampleCount
  known : fsm.baseTriggerOffset = base
  entered : Sweeping base ⟨fsm, b, s.samples⟩
  after : s.spin quietCycle = ⟨(fsm.sweep b).1, (fsm.sweep b).2,
    if fsm.sweepPos < nSweepSteps then
      ⟨fsm.sweepPos, b.readIsr.1.adcTriggerOffset, b.readIsr.1.rawPhaseCurrents.a⟩ :: s.samples
    else s.samples⟩

variable {base : UInt32} {n : Nat} {s : Sweep Binary32}

theorem Quiet.spin (quiet : Quiet base n s) : ∃ fsm b, QuietSpin base s fsm b := by
  have active : s.fsm.isActive = true := by
    rw [isActive, quiet.sweeping.state]
    rfl
  have steady := bench_samples.steady s.board quiet.bench
  rw [← quiet.limit] at steady
  have reached : s.fsm.reached { s.board with interrupts := quietCycle } = some (taken (sample.meets s.board)) :=
    reached_steady steady active (bench_samples.ready s.board quiet.bench)
  have bench : BenchRuns (injectAlphaCurrent (taken (sample.meets s.board))) :=
    bench_samples.forced _ _ _ _ (bench_samples.bench s.board quiet.bench)
  have silent : (injectAlphaCurrent (taken (sample.meets s.board))).isr.rawPhaseCurrents = .zero := by
    unfold injectAlphaCurrent Board.forceDuty
    rw [preempt_calm steady.calm]
    exact quiet_currents quiet.bench
  have offset := ((reached_undisturbed reached).trans (.injectAlphaCurrent _)).triggerOffset
  have spun := quiet.sweeping.spin_reached reached
  generalize injectAlphaCurrent (taken (sample.meets s.board)) = b at bench silent offset spun
  obtain ⟨known, entered⟩ := quiet.sweeping.entered (offset.trans quiet.sweeping.inForce)
  obtain ⟨position, count, limit⟩ := enterSweep_position s.fsm b
  have same : (s.fsm.enterSweep b).2 = b := by
    unfold enterSweep
    rw [readIsr_calm bench.calm]
    split <;> rfl
  dsimp only at spun
  rw [same] at entered spun
  rw [← position] at spun
  exact ⟨(s.fsm.enterSweep b).1, b, bench, silent, limit, position, count, known, entered, spun⟩

theorem Quiet.next (quiet : Quiet base n s) (more : n < 21 * 256) : Quiet base (n + 1) (s.spin quietCycle) := by
  obtain ⟨fsm, b, bench, silent, limit, position, count, known, entered, after⟩ := quiet.spin
  have progress := quiet.progress
  rw [← position, ← count] at progress
  have inside : fsm.sweepPos < nSweepSteps := by
    show fsm.sweepPos < 21
    omega
  rw [if_pos inside] at after
  have sweeping := after ▸ entered.collects known inside
  have samples : ∀ sample ∈ (s.spin quietCycle).samples, sample.current = Scalar.zero := by
    intro sample found
    rw [after] at found
    rcases List.mem_cons.mp found with rfl | older
    · rw [readIsr_calm bench.calm, silent]
      rfl
    · exact quiet.silent sample older
  have small : fsm.sampleCount.toNat < 256 := UInt32.lt_iff_toNat_lt.mp entered.below
  have counted : (fsm.sampleCount + 1).toNat = fsm.sampleCount.toNat + 1 := succ_toNat (by omega)
  refine ⟨?_, ?_, sweeping, ?_, samples⟩
  all_goals rw [after, sweep_collects inside]
  all_goals dsimp only
  · rw [preempt_calm bench.calm]
    split
    · exact triggerOffset_bench bench _
    · exact bench
  · split
    · exact limit.trans quiet.limit
    · exact limit.trans quiet.limit
  · split
    · rename_i all
      have whole : fsm.sampleCount.toNat + 1 = 256 :=
        counted.symm.trans (congrArg UInt32.toNat (last_sample entered.below all))
      have next : (fsm.addSample b.readIsr.1.rawPhaseCurrents).advanceSweep.sweepPos = fsm.sweepPos + 1 := rfl
      have cleared : (fsm.addSample b.readIsr.1.rawPhaseCurrents).advanceSweep.sampleCount.toNat = 0 := rfl
      rw [next, cleared, Nat.add_zero, Nat.succ_mul]
      omega
    · show fsm.sweepPos * 256 + (fsm.sampleCount + 1).toNat = n + 1
      omega

theorem Quiet.run (quiet : Quiet base n s) (k : Nat) (missing : n + k ≤ 21 * 256) :
    Quiet base (n + k) (Sweep.run s (List.replicate k quietCycle)) := by
  induction k generalizing n s with
  | zero => exact quiet
  | succ k ih =>
    have rest := ih (quiet.next (by omega)) (by omega)
    rw [Nat.add_assoc, Nat.add_comm 1 k] at rest
    exact rest

theorem Quiet.ends (quiet : Quiet base (21 * 256) s) :
    Finished base (s.spin quietCycle) ∧ ∀ sample ∈ (s.spin quietCycle).samples, sample.current = Scalar.zero := by
  obtain ⟨fsm, b, bench, silent, limit, position, count, known, entered, after⟩ := quiet.spin
  have progress := quiet.progress
  rw [← position, ← count] at progress
  have small : fsm.sampleCount.toNat < 256 := UInt32.lt_iff_toNat_lt.mp entered.below
  have all : 21 ≤ fsm.sweepPos := by omega
  rw [if_neg (Nat.not_lt_of_le all)] at after
  rw [after]
  exact ⟨entered.finishes known all b, quiet.silent⟩

def quietSweep (fsm : HwStartup Binary32) (board : Board Binary32) : Sweep Binary32 :=
  Sweep.run ⟨fsm, board, []⟩ (List.replicate (21 * 256 + 1) quietCycle)

theorem quietSweep_finished {fsm : HwStartup Binary32} (entered : fsm.Entered)
    (limit : fsm.ocLimit = benchLimit) {board : Board Binary32} (bench : BenchRuns board) :
    Finished board.isr.adcTriggerOffset (quietSweep fsm board) ∧
      ∀ sample ∈ (quietSweep fsm board).samples, sample.current = Scalar.zero := by
  have start : Quiet board.isr.adcTriggerOffset 0 ⟨fsm, board, []⟩ := by
    refine ⟨bench, limit, sweeping_start entered board, ?_, nofun⟩
    show fsm.sweepPos * 256 + fsm.sampleCount.toNat = 0
    rw [entered.position, entered.count]
    rfl
  have taken := start.run (21 * 256) (by omega)
  rw [Nat.zero_add] at taken
  have last : quietSweep fsm board =
      (Sweep.run ⟨fsm, board, []⟩ (List.replicate (21 * 256) quietCycle)).spin quietCycle := by
    unfold quietSweep Sweep.run
    rw [List.replicate_succ', List.foldl_append, List.foldl_cons, List.foldl_nil]
  rw [last]
  exact taken.ends

theorem sums_silent {samples : List (SweepSample Binary32)}
    (silent : ∀ sample ∈ samples, sample.current = Scalar.zero) :
    sumOf samples = Scalar.zero ∧ sumOfSquares samples = Scalar.zero := by
  induction samples with
  | nil => exact ⟨rfl, rfl⟩
  | cons sample rest ih =>
    obtain ⟨sum, squares⟩ := ih fun older found => silent older (List.mem_cons_of_mem sample found)
    have nothing := silent sample List.mem_cons_self
    constructor
    · show sumOf rest + Arithmetic.widen sample.current = Scalar.zero
      rw [sum, nothing]
      show (Scalar.zero + Binary.convert (Scalar.zero : Binary32) : Binary64) = Scalar.zero
      decide
    · show sumOfSquares rest + Arithmetic.widen sample.current * Arithmetic.widen sample.current = Scalar.zero
      rw [squares, nothing]
      show (Scalar.zero + Binary.convert (Scalar.zero : Binary32) * Binary.convert (Scalar.zero : Binary32) :
        Binary64) = Scalar.zero
      decide

theorem noise_silent {samples : List (SweepSample Binary32)}
    (silent : ∀ sample ∈ samples, sample.current = Scalar.zero) (position : Nat) :
    noiseAt samples position = (Scalar.zero : Binary32) := by
  have here : ∀ sample ∈ samplesAt samples position, sample.current = Scalar.zero := fun sample found =>
    silent sample (List.mem_filter.mp found).1
  obtain ⟨sum, squares⟩ := sums_silent here
  unfold noiseAt
  rw [sum, squares]
  decide

def benchEntry : HwStartup Binary32 :=
  ({ initial with ocLimit := benchLimit } : HwStartup Binary32).transitionTo .phaseAdcAlignment

theorem benchEntry_entered : benchEntry.Entered := ⟨rfl, rfl, rfl, rfl, rfl, rfl, rfl⟩

end Quiet

/-- The result of the sweep is the trigger offset its quietest position was measured with exactly when a later
position is quieter than the first, or the trigger offset at the start is at most a tick. -/
theorem alignment_in_force_iff {fsm : HwStartup Binary32} (entered : fsm.Entered) (board : Board Binary32)
    (spins : List (List (List (Interrupt Binary32))))
    (measured : (Sweep.run ⟨fsm, board, []⟩ spins).fsm.stepDone = true) :
    (Sweep.run ⟨fsm, board, []⟩ spins).Aligned ↔
      (Sweep.run ⟨fsm, board, []⟩ spins).QuieterLater ∨ board.isr.adcTriggerOffset ≤ 1 :=
  (Sweep.run_finished entered board spins measured).aligned_iff

/-- At a tick and without a current. -/
theorem alignment_in_force_tick :
    (quietSweep benchEntry (releasedBench.setAdcTriggerOffset 1)).Aligned := by
  have bench := triggerOffset_bench releasedBench_runs 1
  obtain ⟨finished, -⟩ := quietSweep_finished benchEntry_entered rfl bench
  unfold quietSweep at finished ⊢
  exact (alignment_in_force_iff benchEntry_entered (releasedBench.setAdcTriggerOffset 1)
    (List.replicate (21 * 256 + 1) quietCycle) finished.measured).mpr (.inr (by decide))

/-- Without a current every position is as quiet as the first: its samples are taken 170 ticks in, the result
is 0 ticks. -/
theorem first_position_misses :
    let s := quietSweep benchEntry releasedBench
    s.fsm.stepDone = true ∧ (∀ sample ∈ s.samples, sample.position = 0 → sample.triggerOffset = 170) ∧
      s.fsm.results.adcTriggerOffsetOptimal = 0 ∧ ¬s.Aligned := by
  obtain ⟨finished, silent⟩ := quietSweep_finished benchEntry_entered rfl releasedBench_runs
  have base : releasedBench.isr.adcTriggerOffset = 170 := by decide
  rw [base] at finished
  have noise : (fun j : Fin nSweepSteps => (noiseAt (quietSweep benchEntry releasedBench).samples j : Binary32)) =
      fun _ => Scalar.zero := funext fun j => noise_silent silent j
  refine ⟨finished.measured, ?_, ?_, ?_⟩
  · intro sample found first
    rw [finished.offsets sample found, first]
    rfl
  · rw [finished.result, noise]
    decide
  · rw [finished.aligned_iff]
    rintro (⟨j, quieter⟩ | small)
    · rw [noise_silent silent, noise_silent silent] at quieter
      exact absurd quieter (by decide)
    · exact absurd small (by decide)

end Unimoc.Startup
