import Unimoc.CurrentControl.Isr
import Unimoc.Hardware.DeadTime
import Unimoc.Hardware.DutyPlan
import Unimoc.Hardware.TripSafety
import Unimoc.Units.Exact

/-! The phase currents of the board: what the sample interrupt collects for a control cycle, the
window it checks each sample against, and the currents made of the samples. -/
namespace Unimoc.Hardware

section Plain

variable {F : Type} [Scalar F]

namespace Analog

def adcResolution : F := 4096.0

def voltageReference : F := 3.3

def currentZeroCounts : UInt32 := 2048

def shuntResistance : F := 0.0005

def currentAmplifierGain : F := 50.0

def countsToVolts (counts : F) : F := counts * voltageReference / adcResolution

/-- The signed count of a conversion, as a float. -/
def centered (raw : UInt32) : F :=
  if raw < currentZeroCounts then -Scalar.ofUInt64 (currentZeroCounts - raw).toUInt64
  else Scalar.ofUInt64 (raw - currentZeroCounts).toUInt64

def countsToCurrent (raw : UInt32) : F :=
  countsToVolts (centered raw) / (shuntResistance * currentAmplifierGain)

def currentPerCount : F := countsToCurrent (currentZeroCounts + 1)

end Analog

/-! ### The window -/

def packWindow (low high : UInt32) : UInt32 := (low &&& (0xFFFF : UInt32)) ||| ((high &&& (0xFFFF : UInt32)) <<< 16)

def outsideWindow (raw window : UInt32) : Bool :=
  decide (raw < window &&& (0xFFFF : UInt32)) || decide (window >>> 16 < raw)

/-- The window of a limit; beyond the measuring range there is no check. -/
def setOvercurrentLimit (limit : F) : UInt32 :=
  let counts := limit / Analog.currentPerCount
  if !(counts < (Scalar.ofUInt64 Analog.currentZeroCounts.toUInt64 : F)) then packWindow 0 0xFFF
  else
    let window := (Scalar.toUInt64 counts).toUInt32
    packWindow (Analog.currentZeroCounts - window) (Analog.currentZeroCounts + window)

/-! ### The sample interrupt -/

structure RawCurrents where
  a : UInt16
  b : UInt16
  c : UInt16
deriving DecidableEq, Repr

structure CycleRaw where
  currents : Plan RawCurrents
  vdc : UInt32
  overcurrent : Bool
  timestamp : UInt32

/-- What the registers of the converters and of the clock hold at a sample. -/
structure Conversions where
  ia : UInt32
  ib : UInt32
  ic : UInt32
  vdc : UInt32
  cycles : UInt32
deriving DecidableEq, Repr

def Conversions.currents (sample : Conversions) : RawCurrents :=
  ⟨sample.ia.toUInt16, sample.ib.toUInt16, sample.ic.toUInt16⟩

structure Sampling where
  cycle : CycleRaw
  sampleIndex : Nat
  window : UInt32
  registers : TimerRegisters

namespace Sampling

/-- The first sample is the last one of a cycle. -/
def start (window : UInt32) (registers : TimerRegisters) : Sampling where
  cycle := ⟨fun _ => ⟨0, 0, 0⟩, 0, false, 0⟩
  sampleIndex := halfPeriodsPerCycle - 1
  window
  registers

def outside (sample : Conversions) (window : UInt32) : Bool :=
  outsideWindow sample.ia window || outsideWindow sample.ib window || outsideWindow sample.ic window

/-- The cycle with the sample in it. -/
def collect (sample : Conversions) (s : Sampling) : CycleRaw :=
  let cycle := { s.cycle with currents := Function.update s.cycle.currents s.sampleIndex sample.currents }
  if outside sample s.window then { cycle with overcurrent := true } else cycle

/-- The cycle that the control cycle finds, when the sample is the last of one. -/
def sampleIsr (sample : Conversions) (s : Sampling) : Option CycleRaw × Sampling :=
  let cycle := s.collect sample
  let registers := if outside sample s.window then s.registers.trip else s.registers
  if s.sampleIndex + 1 < halfPeriodsPerCycle then
    (none, { s with cycle := cycle, sampleIndex := s.sampleIndex + 1, registers := registers })
  else
    let cycle := { cycle with vdc := sample.vdc, timestamp := sample.cycles }
    (some cycle,
      { s with cycle := { cycle with overcurrent := false }, sampleIndex := 0, registers := registers })

end Sampling

/-! ### The currents of a sample -/

def PhaseTicks.phase (ticks : PhaseTicks) : Nat → UInt32
  | 0 => ticks.ccr1
  | 1 => ticks.ccr2
  | _ => ticks.ccr3

def RawCurrents.phase (raw : RawCurrents) : Nat → UInt16
  | 0 => raw.a
  | 1 => raw.b
  | _ => raw.c

/-- The phase that switches closest to the sample: the highest duty at a peak, the lowest at a
valley, the first of equal ones. -/
def nearestEdge (atPeak : Bool) (ticks : PhaseTicks) : Nat :=
  [1, 2].foldl (fun edge phase =>
    if atPeak then if ticks.phase edge < ticks.phase phase then phase else edge
    else if ticks.phase phase < ticks.phase edge then phase else edge) 0

/-- Whether a phase switches within the guard around the sample. -/
def disturbed (atPeak : Bool) (reload guard : UInt32) (ticks : UInt32) : Bool :=
  if atPeak then reload - min ticks reload < guard else ticks < guard

def cycleSampleCurrents (atPeak : Bool) (ticks : PhaseTicks) (reload guard : UInt32) (raw : RawCurrents) :
    CurrentControl.ThreePhase F :=
  let current (phase : Nat) : F := Analog.countsToCurrent (raw.phase phase).toUInt32
  let edge := nearestEdge atPeak ticks
  if disturbed atPeak reload guard (ticks.phase edge) then
    let rebuilt : F := -current ((edge + 1) % 3) - current ((edge + 2) % 3)
    let out (phase : Nat) : F := if phase = edge then rebuilt else current phase
    ⟨out 0, out 1, out 2⟩
  else
    let zeroSequence := (current 0 + current 1 + current 2) / (3.0 : F)
    let a := current 0 - zeroSequence
    let b := current 1 - zeroSequence
    ⟨a, b, -a - b⟩

end Plain

/-! ### The window is the limit -/

section Exact

theorem centered_exact (raw : UInt32) : (Analog.centered raw : ℝ) = (raw.toNat : ℝ) - 2048 := by
  unfold Analog.centered Analog.currentZeroCounts
  split
  · rename_i below
    have small : raw.toNat < 2048 := below
    have counted : (2048 - raw).toUInt64.toNat = 2048 - raw.toNat := by
      rw [UInt32.toNat_toUInt64, UInt32.toNat_sub_of_le _ _ (UInt32.le_of_lt below)]
      rfl
    show -((2048 - raw).toUInt64.toNat : ℝ) = _
    rw [counted, Nat.cast_sub small.le]
    push_cast
    ring
  · rename_i above
    have large : 2048 ≤ raw.toNat := Nat.le_of_not_lt above
    have counted : (raw - 2048).toUInt64.toNat = raw.toNat - 2048 := by
      rw [UInt32.toNat_toUInt64, UInt32.toNat_sub_of_le _ _ (UInt32.not_lt.mp above)]
      rfl
    show (((raw - 2048).toUInt64.toNat : ℕ) : ℝ) = _
    rw [counted, Nat.cast_sub large]
    push_cast
    ring

theorem currentPerCount_exact : (Analog.currentPerCount : ℝ) = 3.3 / 4096 / (0.0005 * 50) := by
  rw [Analog.currentPerCount, Analog.countsToCurrent, centered_exact]
  have counted : (Analog.currentZeroCounts + 1).toNat = 2049 := rfl
  rw [counted]
  norm_num [Analog.countsToVolts, Analog.voltageReference, Analog.adcResolution, Analog.shuntResistance,
    Analog.currentAmplifierGain]

theorem countsToCurrent_exact (raw : UInt32) :
    (Analog.countsToCurrent raw : ℝ) = ((raw.toNat : ℝ) - 2048) * Analog.currentPerCount := by
  rw [currentPerCount_exact, Analog.countsToCurrent, centered_exact]
  simp only [Analog.countsToVolts, Analog.voltageReference, Analog.adcResolution, Analog.shuntResistance,
    Analog.currentAmplifierGain]
  norm_num
  ring

theorem packWindow_toNat {low high : UInt32} (small : low.toNat < 2 ^ 16) (fits : high.toNat < 2 ^ 16) :
    (packWindow low high).toNat = high.toNat * 2 ^ 16 + low.toNat := by
  have lowBits : (low &&& 0xFFFF).toNat = low.toNat := by
    rw [UInt32.toNat_and]
    exact (Nat.and_two_pow_sub_one_eq_mod low.toNat 16).trans (Nat.mod_eq_of_lt small)
  have highBits : (high &&& 0xFFFF).toNat = high.toNat := by
    rw [UInt32.toNat_and]
    exact (Nat.and_two_pow_sub_one_eq_mod high.toNat 16).trans (Nat.mod_eq_of_lt fits)
  have shifted : ((high &&& 0xFFFF) <<< 16).toNat = high.toNat * 2 ^ 16 := by
    rw [UInt32.toNat_shiftLeft, highBits]
    simp only [UInt32.reduceToNat, Nat.reduceMod, Nat.shiftLeft_eq]
    omega
  have joined : (((high &&& 0xFFFF) <<< 16) ||| (low &&& 0xFFFF)).toNat = _ :=
    @or_toNat _ _ 16 (by rw [shifted]; omega) (by rw [lowBits]; exact small)
  rw [packWindow, UInt32.or_comm, joined, shifted, lowBits]

theorem outsideWindow_iff {raw low high : UInt32} (small : low.toNat < 2 ^ 16) (fits : high.toNat < 2 ^ 16) :
    outsideWindow raw (packWindow low high) = true ↔ raw.toNat < low.toNat ∨ high.toNat < raw.toNat := by
  have packed := packWindow_toNat small fits
  have lowPart : (packWindow low high &&& (0xFFFF : UInt32)).toNat = low.toNat := by
    rw [UInt32.toNat_and, packed]
    refine (Nat.and_two_pow_sub_one_eq_mod _ 16).trans ?_
    omega
  have highPart : (packWindow low high >>> 16).toNat = high.toNat := by
    rw [UInt32.toNat_shiftRight, packed]
    simp only [UInt32.reduceToNat, Nat.reduceMod, Nat.shiftRight_eq_div_pow]
    omega
  rw [outsideWindow, Bool.or_eq_true, decide_eq_true_iff, decide_eq_true_iff, UInt32.lt_iff_toNat_lt,
    UInt32.lt_iff_toNat_lt, lowPart, highPart]

/-- The check on raw counts is the check on currents. -/
theorem outsideWindow_exact {limit : ℝ} (nonneg : 0 ≤ limit) {raw : UInt32} (bits : raw.toNat < 4096) :
    outsideWindow raw (setOvercurrentLimit limit) = true ↔ limit < |(Analog.countsToCurrent raw : ℝ)| := by
  have positive : 0 < (Analog.currentPerCount : ℝ) := by
    rw [currentPerCount_exact]
    norm_num
  have scaled : |(Analog.countsToCurrent raw : ℝ)| = |(raw.toNat : ℝ) - 2048| * Analog.currentPerCount := by
    rw [countsToCurrent_exact, abs_mul, abs_of_pos positive]
  rw [scaled, ← div_lt_iff₀ positive]
  generalize counts : limit / (Analog.currentPerCount : ℝ) = x
  have counted : 0 ≤ x := by
    rw [← counts]
    exact div_nonneg nonneg positive.le
  unfold setOvercurrentLimit
  rw [counts]
  have zero : ((Scalar.ofUInt64 Analog.currentZeroCounts.toUInt64 : ℝ)) = 2048 := by
    have counted : Analog.currentZeroCounts.toUInt64.toNat = 2048 := rfl
    simp only [Scalar.ofUInt64, counted]
    norm_num
  rw [zero]
  by_cases within : x < 2048
  · have whole : ⌊x⌋₊ < 2048 := (Nat.floor_lt counted).mpr (by exact_mod_cast within)
    have window : ((Scalar.toUInt64 x).toUInt32).toNat = ⌊x⌋₊ := by
      simp only [Scalar.toUInt64, UInt64.toNat_toUInt32, UInt64.toNat_ofNat']
      omega
    have low : (Analog.currentZeroCounts - (Scalar.toUInt64 x).toUInt32).toNat = 2048 - ⌊x⌋₊ := by
      rw [UInt32.toNat_sub_of_le, window]
      · rfl
      · rw [UInt32.le_iff_toNat_le, window]
        exact whole.le
    have high : (Analog.currentZeroCounts + (Scalar.toUInt64 x).toUInt32).toNat = 2048 + ⌊x⌋₊ := by
      have zeroCounts : Analog.currentZeroCounts.toNat = 2048 := rfl
      rw [UInt32.toNat_add, window, zeroCounts]
      exact Nat.mod_eq_of_lt (by omega)
    simp only [within, decide_true, Bool.not_true, Bool.false_eq_true, if_false]
    rw [outsideWindow_iff (by omega) (by omega), low, high]
    rcases Nat.lt_or_ge raw.toNat 2048 with below | above
    · have distance : |(raw.toNat : ℝ) - 2048| = ((2048 - raw.toNat : ℕ) : ℝ) := by
        have less : (raw.toNat : ℝ) ≤ 2048 := by exact_mod_cast below.le
        rw [abs_sub_comm, abs_of_nonneg (sub_nonneg.mpr less), Nat.cast_sub below.le]
        norm_num
      rw [distance, ← Nat.floor_lt counted]
      omega
    · have distance : |(raw.toNat : ℝ) - 2048| = ((raw.toNat - 2048 : ℕ) : ℝ) := by
        have more : (2048 : ℝ) ≤ raw.toNat := by exact_mod_cast above
        rw [abs_of_nonneg (sub_nonneg.mpr more), Nat.cast_sub above]
        norm_num
      rw [distance, ← Nat.floor_lt counted]
      omega
  · simp only [within, decide_false, Bool.not_false, if_true]
    rw [outsideWindow_iff (by decide) (by decide)]
    have most : |(raw.toNat : ℝ) - 2048| ≤ 2048 := by
      have cast : (raw.toNat : ℝ) ≤ 4095 := by exact_mod_cast Nat.le_of_lt_succ bits
      rw [abs_le]
      constructor <;> linarith [(Nat.cast_nonneg raw.toNat : (0 : ℝ) ≤ raw.toNat)]
    constructor
    · intro outside
      have inside : raw.toNat ≤ (0xFFF : UInt32).toNat := Nat.le_of_lt_succ bits
      rcases outside with less | more
      · exact absurd less (Nat.not_lt_zero _)
      · exact absurd more (Nat.not_lt.mpr inside)
    · intro beyond
      linarith

/-! ### The samples of a control cycle -/

/-- A sample with the limit in force. -/
abbrev Noted := Conversions × ℝ

def Noted.exceeds (noted : Noted) : Prop :=
  noted.2 < |(Analog.countsToCurrent noted.1.ia : ℝ)| ∨ noted.2 < |(Analog.countsToCurrent noted.1.ib : ℝ)| ∨
    noted.2 < |(Analog.countsToCurrent noted.1.ic : ℝ)|

/-- Twelve bits each. -/
structure Conversions.Bits (sample : Conversions) : Prop where
  ia : sample.ia.toNat < 4096
  ib : sample.ib.toNat < 4096
  ic : sample.ic.toNat < 4096

/-- What an observer notes: the samples in order, those of the cycle that is not over yet, and what
each control cycle found with the samples it stands for. -/
structure SampleRun where
  sampling : Sampling
  limit : ℝ
  noted : List Noted
  present : List Noted
  cycles : List (CycleRaw × List Noted)

inductive SampleEvent
  | sample (sample : Conversions)
  | limit (limit : ℝ)
  /-- Other code at the registers of the timer. -/
  | registers (write : TimerRegisters → TimerRegisters)

namespace SampleRun

noncomputable def start (limit : ℝ) (registers : TimerRegisters) : SampleRun :=
  ⟨.start (setOvercurrentLimit limit) registers, limit, [], [], []⟩

noncomputable def next (r : SampleRun) : SampleEvent → SampleRun
  | .sample sample =>
    let present := r.present ++ [(sample, r.limit)]
    match r.sampling.sampleIsr sample with
    | (none, sampling) =>
      { r with sampling := sampling, noted := r.noted ++ [(sample, r.limit)], present := present }
    | (some cycle, sampling) =>
      { r with
        sampling := sampling, noted := r.noted ++ [(sample, r.limit)], present := []
        cycles := r.cycles ++ [(cycle, present)] }
  | .limit limit => { r with sampling.window := setOvercurrentLimit limit, limit := limit }
  | .registers write => { r with sampling.registers := write r.sampling.registers }

def Admitted : SampleEvent → Prop
  | .sample sample => sample.Bits
  | .limit limit => 0 ≤ limit
  | .registers _ => True

noncomputable def run (limit : ℝ) (registers : TimerRegisters) (events : List SampleEvent) : SampleRun :=
  events.foldl next (start limit registers)

end SampleRun

/-- A cycle as far as its samples are in: the last slots of the arrays, and whether one was too high. -/
structure Collected (cycle : CycleRaw) (slots : Nat) (samples : List Noted) : Prop where
  currents : ∀ k noted, samples[k]? = some noted →
    cycle.currents (slots - samples.length + k) = noted.1.currents
  overcurrent : cycle.overcurrent = true ↔ ∃ noted ∈ samples, noted.exceeds

/-- The invariant of the run. -/
structure Kept (r : SampleRun) : Prop where
  window : r.sampling.window = setOvercurrentLimit r.limit
  nonneg : 0 ≤ r.limit
  index : r.sampling.sampleIndex < 4
  whole : r.cycles ≠ [] → r.present.length = r.sampling.sampleIndex
  fresh : r.cycles = [] → r.sampling.sampleIndex = 3 ∧ r.present = []
  collected : Collected r.sampling.cycle r.sampling.sampleIndex r.present
  noted : r.noted = (r.cycles.map Prod.snd).flatten ++ r.present
  reported : ∀ k report, r.cycles[k]? = some report →
    Collected report.1 4 report.2 ∧ report.2.length = if k = 0 then 1 else 4

theorem outside_exact {limit : ℝ} (nonneg : 0 ≤ limit) {sample : Conversions} (bits : sample.Bits) :
    Sampling.outside sample (setOvercurrentLimit limit) = true ↔ Noted.exceeds (sample, limit) := by
  rw [Sampling.outside, Bool.or_eq_true, Bool.or_eq_true, outsideWindow_exact nonneg bits.ia,
    outsideWindow_exact nonneg bits.ib, outsideWindow_exact nonneg bits.ic, or_assoc]
  rfl

theorem Collected.snoc {s : Sampling} {limit : ℝ} (window : s.window = setOvercurrentLimit limit) (nonneg : 0 ≤ limit)
    {samples : List Noted} (fits : samples.length ≤ s.sampleIndex) (collected : Collected s.cycle s.sampleIndex samples)
    {sample : Conversions} (bits : sample.Bits) :
    Collected (s.collect sample) (s.sampleIndex + 1) (samples ++ [(sample, limit)]) where
  currents := by
    intro k noted found
    have slots : (s.collect sample).currents = Function.update s.cycle.currents s.sampleIndex sample.currents := by
      unfold Sampling.collect
      split <;> rfl
    rw [slots, List.length_append, List.length_singleton, Nat.add_sub_add_right]
    rcases Nat.lt_trichotomy k samples.length with older | rfl | later
    · rw [List.getElem?_append_left older] at found
      rw [Function.update_of_ne (by omega)]
      exact collected.currents k noted found
    · rw [List.getElem?_concat_length, Option.some.injEq] at found
      rw [Nat.sub_add_cancel fits, Function.update_self, ← found]
    · rw [List.getElem?_eq_none (by simpa using later)] at found
      cases found
  overcurrent := by
    have trips := outside_exact nonneg bits
    rw [← window] at trips
    simp only [List.mem_append, List.mem_singleton, or_and_right, exists_or, exists_eq_left, ← collected.overcurrent,
      ← trips]
    unfold Sampling.collect
    split <;> simp_all

theorem kept_start {limit : ℝ} (nonneg : 0 ≤ limit) (registers : TimerRegisters) :
    Kept (SampleRun.start limit registers) where
  window := rfl
  nonneg := nonneg
  index := Nat.lt_succ_self 3
  whole := fun some => absurd rfl some
  fresh := fun _ => ⟨rfl, rfl⟩
  collected := ⟨nofun, by simp [SampleRun.start, Sampling.start]⟩
  noted := rfl
  reported := nofun

theorem Kept.sample {r : SampleRun} (kept : Kept r) {sample : Conversions} (bits : sample.Bits) :
    Kept (r.next (.sample sample)) := by
  have fits : r.present.length ≤ r.sampling.sampleIndex := by
    by_cases none : r.cycles = []
    · simp [(kept.fresh none).2]
    · exact (kept.whole none).le
  have collected := kept.collected.snoc kept.window kept.nonneg fits bits
  by_cases more : r.sampling.sampleIndex + 1 < halfPeriodsPerCycle
  · have some : r.cycles ≠ [] := by
      intro none
      rw [(kept.fresh none).1] at more
      exact absurd more (by decide)
    simp only [SampleRun.next, Sampling.sampleIsr, if_pos more]
    exact {
      window := kept.window
      nonneg := kept.nonneg
      index := more
      whole := fun _ => by simp [kept.whole some]
      fresh := fun none => absurd none some
      collected := collected
      noted := by simp [kept.noted]
      reported := kept.reported }
  · have last : r.sampling.sampleIndex = 3 := by
      have index := kept.index
      simp only [halfPeriodsPerCycle] at more
      omega
    simp only [SampleRun.next, Sampling.sampleIsr, if_neg more]
    exact {
      window := kept.window
      nonneg := kept.nonneg
      index := Nat.succ_pos 3
      whole := fun _ => rfl
      fresh := fun none => absurd none (by simp)
      collected := ⟨fun k noted found => by simp at found, by simp⟩
      noted := by simp [kept.noted]
      reported := by
        intro k report found
        rcases Nat.lt_trichotomy k r.cycles.length with older | rfl | later
        · rw [List.getElem?_append_left older] at found
          exact kept.reported k report found
        · rw [List.getElem?_concat_length, Option.some.injEq] at found
          rw [last] at collected
          rw [← found]
          refine ⟨⟨collected.currents, collected.overcurrent⟩, ?_⟩
          by_cases none : r.cycles = []
          · simp [none, (kept.fresh none).2]
          · rw [if_neg (by simpa using none), List.length_append, kept.whole none, last, List.length_singleton]
        · rw [List.getElem?_eq_none (by simpa using later)] at found
          cases found }

theorem Kept.next {r : SampleRun} (kept : Kept r) {event : SampleEvent} (admitted : SampleRun.Admitted event) :
    Kept (r.next event) := by
  cases event with
  | sample sample => exact kept.sample admitted
  | limit limit =>
    exact ⟨rfl, admitted, kept.index, kept.whole, kept.fresh, kept.collected, kept.noted, kept.reported⟩
  | registers write =>
    exact ⟨kept.window, kept.nonneg, kept.index, kept.whole, kept.fresh, kept.collected, kept.noted, kept.reported⟩

theorem kept_run {limit : ℝ} (nonneg : 0 ≤ limit) (registers : TimerRegisters) (events : List SampleEvent)
    (admitted : ∀ event ∈ events, SampleRun.Admitted event) : Kept (SampleRun.run limit registers events) := by
  have start := kept_start nonneg registers
  rw [SampleRun.run]
  generalize SampleRun.start limit registers = r at start
  induction events generalizing r with
  | nil => exact start
  | cons event rest ih =>
    exact ih (fun later mem => admitted later (by simp [mem])) _ (start.next (admitted event (by simp)))

/-- Over every run of samples, new limits and other code at the timer: the control cycles find the
samples in order, each once, four at a time after the first one; a cycle says overcurrent exactly
when one of its currents was beyond the limit in force at its sample; and a sample beyond the limit
leaves the outputs off. -/
theorem cycle_samples {limit : ℝ} (nonneg : 0 ≤ limit) (registers : TimerRegisters) (events : List SampleEvent)
    (admitted : ∀ event ∈ events, SampleRun.Admitted event) :
    (SampleRun.run limit registers events).noted =
        ((SampleRun.run limit registers events).cycles.map Prod.snd).flatten ++
          (SampleRun.run limit registers events).present ∧
      (SampleRun.run limit registers events).present.length < 4 ∧
      (∀ k report, (SampleRun.run limit registers events).cycles[k]? = some report →
        Collected report.1 4 report.2 ∧ report.2.length = if k = 0 then 1 else 4) ∧
      ∀ sample : Conversions, sample.Bits →
        Noted.exceeds (sample, (SampleRun.run limit registers events).limit) →
        ((SampleRun.run limit registers events).sampling.sampleIsr sample).2.registers.outputs = false := by
  have kept := kept_run nonneg registers events admitted
  generalize SampleRun.run limit registers events = r at kept
  refine ⟨kept.noted, ?_, kept.reported, ?_⟩
  · by_cases none : r.cycles = []
    · simp [(kept.fresh none).2]
    · rw [kept.whole none]
      exact kept.index
  · intro sample bits exceeds
    have trips := (outside_exact kept.nonneg bits).mpr exceeds
    rw [← kept.window] at trips
    unfold Sampling.sampleIsr
    rw [if_pos trips]
    split <;> exact TimerRegisters.trip_outputs _

/-- The limit drops to 10 A between two cycles; the last sample is 11 A off. -/
theorem cycle_samples_tripped :
    (SampleRun.run 20 ⟨0x8000, 0, true⟩ [.sample ⟨2048, 2048, 2048, 0, 1⟩, .limit 10, .registers id,
          .sample ⟨2400, 1700, 2048, 0, 2⟩]).noted =
        ((SampleRun.run 20 ⟨0x8000, 0, true⟩ [.sample ⟨2048, 2048, 2048, 0, 1⟩, .limit 10, .registers id,
          .sample ⟨2400, 1700, 2048, 0, 2⟩]).cycles.map Prod.snd).flatten ++
          (SampleRun.run 20 ⟨0x8000, 0, true⟩ [.sample ⟨2048, 2048, 2048, 0, 1⟩, .limit 10, .registers id,
            .sample ⟨2400, 1700, 2048, 0, 2⟩]).present := by
  refine (cycle_samples (by norm_num) ⟨0x8000, 0, true⟩ [.sample ⟨2048, 2048, 2048, 0, 1⟩, .limit 10, .registers id,
    .sample ⟨2400, 1700, 2048, 0, 2⟩] ?_).1
  intro event mem
  simp only [List.mem_cons, List.not_mem_nil, or_false] at mem
  rcases mem with rfl | rfl | rfl | rfl
  · exact ⟨by decide, by decide, by decide⟩
  · exact (by norm_num : (0 : ℝ) ≤ 10)
  · trivial
  · exact ⟨by decide, by decide, by decide⟩

end Exact

/-! ### The disturbed phase -/

section Disturbed

variable {atPeak : Bool} {reload guard : UInt32} {ticks : PhaseTicks}

theorem nearestEdge_lt : nearestEdge atPeak ticks < 3 := by
  simp only [nearestEdge, List.foldl_cons, List.foldl_nil]
  split_ifs <;> omega

/-- The phase found is the extreme one. -/
theorem nearestEdge_extreme {phase : Nat} (known : phase < 3) :
    if atPeak then ticks.phase phase ≤ ticks.phase (nearestEdge atPeak ticks)
    else ticks.phase (nearestEdge atPeak ticks) ≤ ticks.phase phase := by
  simp only [nearestEdge, List.foldl_cons, List.foldl_nil]
  obtain rfl | rfl | rfl : phase = 0 ∨ phase = 1 ∨ phase = 2 := by omega
  all_goals
    cases atPeak <;> grind

/-- Whenever a phase is disturbed, the one found is. -/
theorem nearestEdge_disturbed {phase : Nat} (known : phase < 3)
    (switches : disturbed atPeak reload guard (ticks.phase phase) = true) :
    disturbed atPeak reload guard (ticks.phase (nearestEdge atPeak ticks)) = true := by
  have extreme := @nearestEdge_extreme atPeak ticks phase known
  generalize ticks.phase (nearestEdge atPeak ticks) = most at extreme
  unfold disturbed at switches ⊢
  cases atPeak with
  | true =>
    simp only [if_true, decide_eq_true_eq] at extreme switches ⊢
    rw [UInt32.lt_iff_toNat_lt] at switches ⊢
    rw [UInt32.le_iff_toNat_le] at extreme
    have below (t : UInt32) : (reload - min t reload).toNat = reload.toNat - min t.toNat reload.toNat := by
      have least : min t reload = if t ≤ reload then t else reload := rfl
      rw [least]
      split_ifs with less
      · rw [UInt32.toNat_sub_of_le _ _ less, Nat.min_eq_left (UInt32.le_iff_toNat_le.mp less)]
      · have more := UInt32.le_iff_toNat_le.mp (UInt32.le_of_lt (UInt32.not_le.mp less))
        rw [UInt32.toNat_sub_of_le _ _ (UInt32.le_refl _), Nat.min_eq_right more]
    rw [below] at switches ⊢
    omega
  | false =>
    simp only [Bool.false_eq_true, if_false, decide_eq_true_eq] at extreme switches ⊢
    exact UInt32.lt_of_le_of_lt extreme switches

/-- Two samples that agree on the phases that do not switch give the same currents. -/
theorem disturbed_unused {F : Type} [Scalar F] {raw other : RawCurrents}
    (alone : ∀ p < 3, ∀ q < 3, disturbed atPeak reload guard (ticks.phase p) = true →
      disturbed atPeak reload guard (ticks.phase q) = true → p = q)
    (agree : ∀ p < 3, disturbed atPeak reload guard (ticks.phase p) = false → raw.phase p = other.phase p) :
    (cycleSampleCurrents atPeak ticks reload guard raw : CurrentControl.ThreePhase F) =
      cycleSampleCurrents atPeak ticks reload guard other := by
  have known := @nearestEdge_lt atPeak ticks
  by_cases switches : disturbed atPeak reload guard (ticks.phase (nearestEdge atPeak ticks)) = true
  · have rest : ∀ p < 3, p ≠ nearestEdge atPeak ticks → raw.phase p = other.phase p := by
      intro p inside different
      apply agree p inside
      rw [Bool.eq_false_iff]
      intro also
      exact different (alone p inside _ known also switches)
    simp only [cycleSampleCurrents, if_pos switches]
    generalize nearestEdge atPeak ticks = edge at known rest
    obtain rfl | rfl | rfl : edge = 0 ∨ edge = 1 ∨ edge = 2 := by omega
    · simp [rest 1 (by decide) (by decide), rest 2 (by decide) (by decide)]
    · simp [rest 0 (by decide) (by decide), rest 2 (by decide) (by decide)]
    · simp [rest 0 (by decide) (by decide), rest 1 (by decide) (by decide)]
  · have every : ∀ p < 3, raw.phase p = other.phase p := by
      intro p inside
      apply agree p inside
      rw [Bool.eq_false_iff]
      intro also
      exact switches (nearestEdge_disturbed inside also)
    simp only [cycleSampleCurrents, if_neg switches, every 0 (by decide), every 1 (by decide), every 2 (by decide)]

/-- The currents of a sample always sum to zero, and the conversion of a phase that switches next to
the sample has no part in them as long as it is the only one. -/
theorem sample_currents (atPeak : Bool) (ticks : PhaseTicks) (reload guard : UInt32) (raw : RawCurrents) :
    (cycleSampleCurrents atPeak ticks reload guard raw : CurrentControl.ThreePhase ℝ).a +
        (cycleSampleCurrents atPeak ticks reload guard raw : CurrentControl.ThreePhase ℝ).b +
        (cycleSampleCurrents atPeak ticks reload guard raw : CurrentControl.ThreePhase ℝ).c = 0 ∧
      ((∀ p < 3, ∀ q < 3, disturbed atPeak reload guard (ticks.phase p) = true →
          disturbed atPeak reload guard (ticks.phase q) = true → p = q) →
        ∀ other : RawCurrents,
          (∀ p < 3, disturbed atPeak reload guard (ticks.phase p) = false → raw.phase p = other.phase p) →
          (cycleSampleCurrents atPeak ticks reload guard raw : CurrentControl.ThreePhase ℝ) =
            cycleSampleCurrents atPeak ticks reload guard other) := by
  refine ⟨?_, fun alone other agree => disturbed_unused alone agree⟩
  have last (a b : ℝ) : a + b + (-a - b) = 0 := by ring
  have first (a b : ℝ) : -a - b + a + b = 0 := by ring
  have known := @nearestEdge_lt atPeak ticks
  unfold cycleSampleCurrents
  dsimp only
  split
  · generalize nearestEdge atPeak ticks = edge at known
    obtain rfl | rfl | rfl : edge = 0 ∨ edge = 1 ∨ edge = 2 := by omega
    · simpa using first _ _
    · simp
    · simp
  · exact last _ _

/-- Phase C switches next to the valley; its conversion is out of range. -/
theorem sample_currents_valley :
    (cycleSampleCurrents false ⟨2000, 1500, 3⟩ 4000 20 ⟨2100, 2000, 4095⟩ : CurrentControl.ThreePhase ℝ) =
      cycleSampleCurrents false ⟨2000, 1500, 3⟩ 4000 20 ⟨2100, 2000, 2044⟩ :=
  (sample_currents false ⟨2000, 1500, 3⟩ 4000 20 ⟨2100, 2000, 4095⟩).2 (by decide) ⟨2100, 2000, 2044⟩ (by decide)

end Disturbed

end Unimoc.Hardware
