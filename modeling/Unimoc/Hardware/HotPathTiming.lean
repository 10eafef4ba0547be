import Mathlib.Algebra.Group.Nat.Defs
import Mathlib.Algebra.Order.BigOperators.Group.List
import Mathlib.Algebra.Order.Ring.Nat
import Unimoc.Lib.Runs

/-! The execution-time statistics of a measured section: the interrupt records, a thread reads
and asks for new statistics. -/
namespace Unimoc.Hardware

open Runs

structure Stats where
  minCycles : UInt32
  maxCycles : UInt32
  sumCycles : UInt64
  /-- Wraps after 2^32 records. -/
  count : UInt32
deriving DecidableEq, Repr

namespace Stats

def initial : Stats := ⟨0xFFFFFFFF, 0, 0, 0⟩

def meanCycles (s : Stats) : UInt32 := if s.count = 0 then 0 else (s.sumCycles / s.count.toUInt64).toUInt32

def add (s : Stats) (cycles : UInt32) : Stats where
  minCycles := min s.minCycles cycles
  maxCycles := max s.maxCycles cycles
  sumCycles := s.sumCycles + cycles.toUInt64
  count := s.count + 1

def MeanBetween (s : Stats) : Prop := s.minCycles ≤ s.meanCycles ∧ s.meanCycles ≤ s.maxCycles

def tally (cycles : List UInt32) : Stats := cycles.foldr (fun c s => s.add c) initial

@[simp] theorem tally_nil : tally [] = initial := rfl

@[simp] theorem tally_cons (c : UInt32) (cycles : List UInt32) : tally (c :: cycles) = (tally cycles).add c := rfl

@[simp] theorem min_toNat (a b : UInt32) : (min a b).toNat = min a.toNat b.toNat := by
  change (if a ≤ b then a else b).toNat = _
  split <;> rename_i ordered <;> rw [UInt32.le_iff_toNat_le] at ordered <;> omega

@[simp] theorem max_toNat (a b : UInt32) : (max a b).toNat = max a.toNat b.toNat := by
  change (if a ≤ b then b else a).toNat = _
  split <;> rename_i ordered <;> rw [UInt32.le_iff_toNat_le] at ordered <;> omega

theorem tally_count (cycles : List UInt32) : (tally cycles).count.toNat = cycles.length % 2 ^ 32 := by
  induction cycles with
  | nil => rfl
  | cons c cycles ih =>
    simp [add, ih]

theorem tally_sum (cycles : List UInt32) :
    (tally cycles).sumCycles.toNat = (cycles.map UInt32.toNat).sum % 2 ^ 64 := by
  induction cycles with
  | nil => rfl
  | cons c cycles ih =>
    simp [add, ih, Nat.add_comm]

theorem tally_between {cycles : List UInt32} {c : UInt32} (recorded : c ∈ cycles) :
    (tally cycles).minCycles.toNat ≤ c.toNat ∧ c.toNat ≤ (tally cycles).maxCycles.toNat := by
  induction cycles with
  | nil => cases recorded
  | cons first cycles ih =>
    simp only [tally_cons, add, min_toNat, max_toNat]
    obtain rfl | older := List.mem_cons.mp recorded
    · omega
    · have := ih older
      omega

theorem le_tally_min {cycles : List UInt32} {bound : UInt32} (above : ∀ c ∈ cycles, bound ≤ c) :
    bound.toNat ≤ (tally cycles).minCycles.toNat := by
  induction cycles with
  | nil => exact Nat.le_of_lt_succ bound.toNat_lt
  | cons first cycles ih =>
    obtain ⟨least, rest⟩ := List.forall_mem_cons.mp above
    have older := ih rest
    rw [UInt32.le_iff_toNat_le] at least
    simp only [tally_cons, add, min_toNat]
    omega

theorem sum_between (cycles : List UInt32) :
    cycles.length * (tally cycles).minCycles.toNat ≤ (cycles.map UInt32.toNat).sum ∧
    (cycles.map UInt32.toNat).sum ≤ cycles.length * (tally cycles).maxCycles.toNat := by
  have low := List.card_nsmul_le_sum (cycles.map UInt32.toNat) (tally cycles).minCycles.toNat (by
    simpa using fun c recorded => (tally_between recorded).1)
  have high := List.sum_le_card_nsmul (cycles.map UInt32.toNat) (tally cycles).maxCycles.toNat (by
    simpa using fun c recorded => (tally_between recorded).2)
  simpa using And.intro low high

section

variable {cycles : List UInt32} (recorded : 0 < cycles.length) (few : cycles.length < 2 ^ 32)
include recorded few

theorem tally_mean : (tally cycles).meanCycles.toNat = (cycles.map UInt32.toNat).sum / cycles.length := by
  have counted : (tally cycles).count.toNat = cycles.length := by
    rw [tally_count, Nat.mod_eq_of_lt few]
  have nonzero : (tally cycles).count ≠ 0 := by
    intro none
    rw [none] at counted
    exact Nat.ne_of_lt recorded counted
  have high := (sum_between cycles).2
  have largest := (tally cycles).maxCycles.toNat_lt
  have small : (cycles.map UInt32.toNat).sum < cycles.length * 2 ^ 32 :=
    Nat.lt_of_le_of_lt high (Nat.mul_lt_mul_of_pos_left largest recorded)
  have room : (cycles.map UInt32.toNat).sum < 2 ^ 64 := by omega
  rw [meanCycles, if_neg nonzero, UInt64.toNat_toUInt32, UInt64.toNat_div, UInt32.toNat_toUInt64, counted,
    tally_sum, Nat.mod_eq_of_lt room, Nat.mod_eq_of_lt (Nat.div_lt_of_lt_mul small)]

theorem tally_meanBetween : (tally cycles).MeanBetween := by
  obtain ⟨low, high⟩ := sum_between cycles
  unfold MeanBetween
  rw [UInt32.le_iff_toNat_le, UInt32.le_iff_toNat_le, tally_mean recorded few]
  constructor
  · rwa [Nat.le_div_iff_mul_le recorded, Nat.mul_comm]
  · exact Nat.div_le_of_le_mul high

end

theorem meanCycles_wrapped {cycles : List UInt32} (wrapped : cycles.length % 2 ^ 32 = 0) :
    (tally cycles).meanCycles = 0 := by
  have zero : (tally cycles).count = 0 := by
    rw [← UInt32.toNat_inj, tally_count, wrapped]
    rfl
  rw [meanCycles, if_pos zero]

end Stats

structure Probe where
  accumulator : Stats
  published : Stats
  sequence : UInt32
  resetRequested : Bool
deriving DecidableEq, Repr

namespace Probe

def initial : Probe := ⟨.initial, .initial, 0, false⟩

/-- The sequence is odd while the published copy is written. -/
def record (cycles : UInt32) (p : Probe) : Probe :=
  let p := if p.resetRequested then { p with resetRequested := false, accumulator := .initial } else p
  let p := { p with accumulator := p.accumulator.add cycles }
  let sequence := p.sequence
  let p := { p with sequence := sequence + 1 }
  let p := { p with published := p.accumulator }
  { p with sequence := sequence + 2 }

/-- One turn of the loop, with no record in it; `none` turns again. -/
def read (p : Probe) : Option Stats := if p.sequence &&& 1 ≠ 0 then none else some p.published

def reset (p : Probe) : Probe := { p with resetRequested := true }

end Probe

inductive ProbeCall
  | record (cycles : UInt32)
  | reset
deriving DecidableEq, Repr

def Probe.call (p : Probe) : ProbeCall → Probe
  | .record cycles => p.record cycles
  | .reset => p.reset

def probeRun : Machine Probe ProbeCall where
  start := .initial
  next := Probe.call
  admits _ _ := True

/-- The records after the last reset, the newest first. -/
def sinceReset : List ProbeCall → List UInt32
  | [] => []
  | .record cycles :: past => cycles :: sinceReset past
  | .reset :: _ => []

namespace Probe

theorem even_add_two {n : UInt32} (even : n &&& 1 = 0) : (n + 2) &&& 1 = 0 := by
  rw [← UInt32.toNat_inj, UInt32.toNat_and] at even ⊢
  simp at even ⊢
  omega

/-- The statistics are those of the records after the last reset, unless it waits for the next
record. -/
structure Follows (p : Probe) (calls : List ProbeCall) : Prop where
  tallied : p.resetRequested = false → p.accumulator = .tally (sinceReset calls)
  waiting : p.resetRequested = true → sinceReset calls = []
  published : p.published = p.accumulator
  even : p.sequence &&& 1 = 0

theorem Follows.record {p : Probe} {calls : List ProbeCall} (follows : p.Follows calls) (cycles : UInt32) :
    (p.record cycles).Follows (.record cycles :: calls) where
  tallied _ := by
    cases requested : p.resetRequested with
    | false => simp [Probe.record, requested, sinceReset, follows.tallied requested]
    | true => simp [Probe.record, requested, sinceReset, follows.waiting requested]
  waiting requested := by
    cases waits : p.resetRequested <;> simp [Probe.record, waits] at requested
  published := rfl
  even := by
    cases waits : p.resetRequested <;> simpa [Probe.record, waits] using even_add_two follows.even

theorem Follows.reset {p : Probe} {calls : List ProbeCall} (follows : p.Follows calls) :
    p.reset.Follows (.reset :: calls) where
  tallied waits := by cases waits
  waiting _ := rfl
  published := follows.published
  even := follows.even

theorem follows (calls : List ProbeCall) : (probeRun.replay calls).Follows calls := by
  induction calls with
  | nil => exact ⟨fun _ => rfl, fun _ => rfl, rfl, rfl⟩
  | cons call past ih =>
    cases call with
    | record cycles => exact ih.record cycles
    | reset => exact ih.reset

theorem read_tally {calls : List ProbeCall} (recorded : 0 < (sinceReset calls).length) :
    (probeRun.replay calls).read = some (.tally (sinceReset calls)) := by
  have follows := follows calls
  have carried : (probeRun.replay calls).resetRequested = false := by
    cases waits : (probeRun.replay calls).resetRequested with
    | false => rfl
    | true =>
      rw [follows.waiting waits] at recorded
      cases recorded
  simp [read, follows.even, follows.published, follows.tallied carried]

end Probe

theorem mean_between (calls : List ProbeCall) (recorded : 0 < (sinceReset calls).length)
    (few : (sinceReset calls).length < 2 ^ 32) :
    ∃ stats, (probeRun.replay calls).read = some stats ∧ stats.MeanBetween :=
  ⟨_, Probe.read_tally recorded, Stats.tally_meanBetween recorded few⟩

theorem mean_between_three :
    0 < (sinceReset [.record 3, .record 8, .reset, .record 1]).length ∧
    (sinceReset [.record 3, .record 8, .reset, .record 1]).length < 2 ^ 32 ∧
    ∃ stats, (probeRun.replay [.record 3, .record 8, .reset, .record 1]).read = some stats ∧
      stats.MeanBetween :=
  ⟨by decide, by decide, mean_between _ (by decide) (by decide)⟩

/-- At every multiple of 2^32 records the mean is lost. -/
theorem mean_lost {calls : List ProbeCall} (recorded : 0 < (sinceReset calls).length)
    (wrapped : (sinceReset calls).length % 2 ^ 32 = 0) (lasting : ∀ c ∈ sinceReset calls, 1 ≤ c) :
    ∃ stats, (probeRun.replay calls).read = some stats ∧ stats.meanCycles = 0 ∧ ¬ stats.MeanBetween := by
  have lost := Stats.meanCycles_wrapped wrapped
  refine ⟨_, Probe.read_tally recorded, lost, ?_⟩
  intro between
  have least := Stats.le_tally_min lasting
  have low := UInt32.le_iff_toNat_le.mp between.1
  rw [lost] at low
  exact absurd (Nat.le_trans least low) (by decide)

theorem sinceReset_replicate (cycles : UInt32) (n : Nat) :
    sinceReset (List.replicate n (.record cycles)) = List.replicate n cycles := by
  induction n with
  | zero => rfl
  | succ n ih => simp [List.replicate_succ, sinceReset, ih]

theorem mean_of_equal {n : Nat} (positive : 0 < n) (wrapped : n % 2 ^ 32 = 0) :
    0 < (sinceReset (List.replicate n (.record 1))).length ∧
    ∃ stats, (probeRun.replay (List.replicate n (.record 1))).read = some stats ∧ stats.meanCycles = 0 ∧
      ¬ stats.MeanBetween := by
  have records := sinceReset_replicate 1 n
  have recorded : 0 < (sinceReset (List.replicate n (.record 1))).length := by
    rwa [records, List.length_replicate]
  refine ⟨recorded, mean_lost recorded ?_ ?_⟩
  · rwa [records, List.length_replicate]
  · rw [records]
    intro c among
    exact UInt32.le_of_eq (List.eq_of_mem_replicate among).symm

/-- 2^32 records of one cycle. -/
theorem mean_below_minimum :
    0 < (sinceReset (List.replicate (2 ^ 32) (.record 1))).length ∧
    ∃ stats, (probeRun.replay (List.replicate (2 ^ 32) (.record 1))).read = some stats ∧
      stats.meanCycles = 0 ∧ ¬ stats.MeanBetween :=
  mean_of_equal (Nat.two_pow_pos 32) (Nat.mod_self (2 ^ 32))

end Unimoc.Hardware
