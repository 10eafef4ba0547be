import Mathlib.Tactic.IntervalCases
import Unimoc.Ebike.EbikeControl
import Unimoc.Lib.Hysteresis
import Unimoc.Units.Exact

/-! The battery bars of the display in exact arithmetic: a ladder of levels that only low-load
voltages move. -/
namespace Unimoc.Ebike

open Drive EbikeControl Hysteresis

/-- The highest level below a bound that is met. -/
def highest (met : Nat → Prop) [DecidablePred met] (count : Nat) : Nat :=
  (List.range count).foldl (fun reached level => if 0 < level ∧ met level then level else reached) 0

theorem highest_succ (met : Nat → Prop) [DecidablePred met] (count : Nat) :
    highest met (count + 1) = if 0 < count ∧ met count then count else highest met count := by
  simp [highest, List.range_succ]

theorem highest_lt (met : Nat → Prop) [DecidablePred met] (count : Nat) : highest met (count + 1) < count + 1 := by
  induction count with
  | zero => exact Nat.zero_lt_one
  | succ count ih =>
    rw [highest_succ]
    split
    · exact Nat.lt_succ_self _
    · exact Nat.lt_succ_of_lt ih

theorem le_highest (met : Nat → Prop) [DecidablePred met] {count : Nat}
    (down : ∀ low high, low ≤ high → high < count → met high → met low) {level : Nat} (some : 0 < level)
    (inside : level < count) : level ≤ highest met count ↔ met level := by
  induction count with
  | zero => cases inside
  | succ count ih =>
    have ordered := Nat.le_of_lt_succ inside
    rw [highest_succ]
    by_cases top : 0 < count ∧ met count
    · rw [if_pos top]
      exact ⟨fun _ => down level count ordered (Nat.lt_succ_self _) top.2, fun _ => ordered⟩
    · rw [if_neg top]
      obtain below | rfl := Nat.lt_or_eq_of_le ordered
      · exact ih (fun low high ordered small => down low high ordered (Nat.lt_succ_of_lt small)) below
      · obtain ⟨below, rfl⟩ := Nat.exists_eq_succ_of_ne_zero (Nat.ne_of_gt some)
        have small := highest_lt met below
        constructor
        · intro reaches
          exact absurd (Nat.lt_of_le_of_lt reaches small) (Nat.lt_irrefl _)
        · intro holds
          exact absurd ⟨some, holds⟩ top

noncomputable section

def threshold (level : Nat) : ℝ := (cellVolts : List ℝ).getD level Scalar.zero

def topLevel : Nat := (cellVolts : List ℝ).length

theorem threshold_mono {low high : Nat} (ordered : low ≤ high) (top : high < topLevel) :
    threshold low ≤ threshold high := by
  change high < 6 at top
  unfold threshold cellVolts Scalar.zero
  interval_cases high <;> interval_cases low <;> norm_num

theorem barsAt_lt (voltage offset : ℝ) : barsAt voltage offset < topLevel :=
  highest_lt (fun level => threshold level + offset ≤ voltage) 5

theorem le_barsAt {voltage offset : ℝ} {level : Nat} (some : 0 < level) (top : level < topLevel) :
    level ≤ barsAt voltage offset ↔ threshold level + offset ≤ voltage := by
  refine le_highest (fun level => threshold level + offset ≤ voltage) ?_ some top
  intro low high ordered top met
  have up := threshold_mono ordered top
  linarith

theorem barHysteresis_pos : 0 < (barHysteresisCellVolts : ℝ) := by
  norm_num [barHysteresisCellVolts]

/-- The bars as levels of the cell voltage. -/
def batteryLadder : Ladder ℝ where
  reached voltage := barsAt voltage barHysteresisCellVolts
  kept voltage := barsAt voltage (-barHysteresisCellVolts)
  swing := barHysteresisCellVolts + barHysteresisCellVolts
  reached_le_kept voltage := by
    have positive := barHysteresis_pos
    obtain none | some := Nat.eq_zero_or_pos (barsAt voltage barHysteresisCellVolts)
    · rw [none]
      exact Nat.zero_le _
    · have top := barsAt_lt voltage barHysteresisCellVolts
      have met := (le_barsAt some top).mp (Nat.le_refl _)
      exact (le_barsAt some top).mpr (by linarith)
  apart := by
    intro level voltage later reaches loses
    have some := Nat.lt_of_le_of_lt (Nat.zero_le _) loses
    have top := Nat.lt_of_le_of_lt reaches (barsAt_lt voltage _)
    have met := (le_barsAt some top).mp reaches
    have unmet := mt (le_barsAt some top).mpr (Nat.not_le_of_lt loses)
    linarith

def cellVoltage (cells : UInt8) (vehicle : EbikeVehicle ℝ) : ℝ := vehicle.dcLink / (max cells 1).toNat

def LowLoad (vehicle : EbikeVehicle ℝ) : Prop :=
  vehicle.batteryCurrent < barsMaxCurrent ∧ -barsMaxCurrent < vehicle.batteryCurrent

theorem cellVoltage_eq (cells : UInt8) (vehicle : EbikeVehicle ℝ) :
    vehicle.dcLink / 1.0 / Scalar.ofUInt64 (max cells 1).toUInt64 = cellVoltage cells vehicle := by
  change vehicle.dcLink / 1.0 / ((max cells 1).toUInt64.toNat : ℝ) = _
  rw [UInt8.toNat_toUInt64, cellVoltage]
  norm_num

/-- A voltage under low load is a step on the ladder. -/
theorem bars_of_lowLoad {vehicle : EbikeVehicle ℝ} (low : LowLoad vehicle) (c : EbikeControl ℝ) :
    (c.batteryBars vehicle).2.bars =
      batteryLadder.update c.bars (cellVoltage c.parameters.batteryCells vehicle) := by
  have idle : (vehicle.batteryCurrent < barsMaxCurrent && -barsMaxCurrent < vehicle.batteryCurrent) = true := by
    rw [Bool.and_eq_true]
    exact ⟨decide_eq_true low.1, decide_eq_true low.2⟩
  rw [← cellVoltage_eq]
  exact if_pos idle

theorem bars_of_load {vehicle : EbikeVehicle ℝ} (load : ¬LowLoad vehicle) (c : EbikeControl ℝ) :
    (c.batteryBars vehicle).2.bars = c.bars := by
  have busy : ¬(vehicle.batteryCurrent < barsMaxCurrent && -barsMaxCurrent < vehicle.batteryCurrent) = true := by
    rw [Bool.and_eq_true]
    exact fun both => load ⟨of_decide_eq_true both.1, of_decide_eq_true both.2⟩
  exact if_neg busy

/-- The control after the batteries it has seen, oldest first. -/
def barsRun (c : EbikeControl ℝ) (vehicles : List (EbikeVehicle ℝ)) : EbikeControl ℝ :=
  vehicles.foldl (fun c vehicle => (c.batteryBars vehicle).2) c

theorem barsRun_append (c : EbikeControl ℝ) (early late : List (EbikeVehicle ℝ)) :
    barsRun c (early ++ late) = barsRun (barsRun c early) late :=
  List.foldl_append

theorem parameters_barsRun (c : EbikeControl ℝ) (vehicles : List (EbikeVehicle ℝ)) :
    (barsRun c vehicles).parameters = c.parameters := by
  induction vehicles generalizing c with
  | nil => rfl
  | cons vehicle vehicles ih => exact ih _

open Classical in
def lowVoltages (cells : UInt8) (vehicles : List (EbikeVehicle ℝ)) : List ℝ :=
  (vehicles.filter fun vehicle => LowLoad vehicle).map (cellVoltage cells)

theorem bars_barsRun (c : EbikeControl ℝ) (vehicles : List (EbikeVehicle ℝ)) :
    (barsRun c vehicles).bars =
      batteryLadder.run c.bars (lowVoltages c.parameters.batteryCells vehicles) := by
  induction vehicles generalizing c with
  | nil => rfl
  | cons vehicle vehicles ih =>
    change (barsRun (c.batteryBars vehicle).2 vehicles).bars = _
    rw [ih]
    by_cases low : LowLoad vehicle
    · simp [lowVoltages, low, Ladder.run, bars_of_lowLoad low]
      rfl
    · simp [lowVoltages, low, Ladder.run, bars_of_load low]
      rfl

theorem lowVoltages_cons {cells : UInt8} {vehicle : EbikeVehicle ℝ} (low : LowLoad vehicle)
    (vehicles : List (EbikeVehicle ℝ)) :
    lowVoltages cells (vehicle :: vehicles) = cellVoltage cells vehicle :: lowVoltages cells vehicles := by
  simp [lowVoltages, low]

theorem exists_of_lowVoltages {cells : UInt8} {vehicles : List (EbikeVehicle ℝ)} {P : ℝ → Prop}
    (found : ∃ v ∈ lowVoltages cells vehicles, P v) :
    ∃ vehicle ∈ vehicles, LowLoad vehicle ∧ P (cellVoltage cells vehicle) := by
  obtain ⟨v, listed, holds⟩ := found
  obtain ⟨vehicle, low, rfl⟩ := List.mem_map.mp listed
  rw [List.mem_filter] at low
  exact ⟨vehicle, low.1, by simpa using low.2, holds⟩

theorem lowLoad_of_change {c : EbikeControl ℝ} {vehicle : EbikeVehicle ℝ}
    (changes : (c.batteryBars vehicle).2.bars ≠ c.bars) : LowLoad vehicle := by
  by_contra load
  exact changes (bars_of_load load c)

def Raises (c : EbikeControl ℝ) (vehicle : EbikeVehicle ℝ) : Prop := c.bars < (c.batteryBars vehicle).2.bars

def Lowers (c : EbikeControl ℝ) (vehicle : EbikeVehicle ℝ) : Prop := (c.batteryBars vehicle).2.bars < c.bars

/-- A change of the bars and a change back are a swing of the cell voltage apart. -/
theorem swing_of_changes (c : EbikeControl ℝ) (first : EbikeVehicle ℝ) (between : List (EbikeVehicle ℝ))
    (last : EbikeVehicle ℝ) :
    let voltage := cellVoltage c.parameters.batteryCells
    let swing := 2 * barHysteresisCellVolts
    let before := barsRun c (first :: between)
    (Raises c first → Lowers before last →
      LowLoad last ∧ (∃ vehicle ∈ first :: between, LowLoad vehicle ∧ voltage last + swing < voltage vehicle) ∧
        (before.bars ≤ (c.batteryBars first).2.bars → voltage last + swing < voltage first)) ∧
    (Lowers c first → Raises before last →
      LowLoad last ∧ (∃ vehicle ∈ first :: between, LowLoad vehicle ∧ voltage vehicle + swing < voltage last) ∧
        ((c.batteryBars first).2.bars ≤ before.bars → voltage first + swing < voltage last)) := by
  intro voltage swing before
  have doubled : swing = batteryLadder.swing := two_mul _
  rw [doubled]
  have fixed : before.parameters = c.parameters := parameters_barsRun c _
  have run : before.bars = batteryLadder.run c.bars (lowVoltages c.parameters.batteryCells (first :: between)) :=
    bars_barsRun c _
  constructor
  · intro rises falls
    have low := lowLoad_of_change (Nat.ne_of_gt rises)
    have later := lowLoad_of_change (Nat.ne_of_lt falls)
    rw [Raises, bars_of_lowLoad low] at rises
    rw [Lowers, bars_of_lowLoad later, fixed] at falls
    refine ⟨later, ?_, ?_⟩
    · rw [run, lowVoltages_cons low] at falls
      have peak := batteryLadder.swing_down rises falls
      rw [← lowVoltages_cons low] at peak
      exact exists_of_lowVoltages peak
    · intro since
      rw [bars_of_lowLoad low] at since
      exact batteryLadder.swing_from_rise rises since falls
  · intro falls rises
    have low := lowLoad_of_change (Nat.ne_of_lt falls)
    have later := lowLoad_of_change (Nat.ne_of_gt rises)
    rw [Lowers, bars_of_lowLoad low] at falls
    rw [Raises, bars_of_lowLoad later, fixed] at rises
    refine ⟨later, ?_, ?_⟩
    · rw [run, lowVoltages_cons low] at rises
      have valley := batteryLadder.swing_up falls rises
      rw [← lowVoltages_cons low] at valley
      exact exists_of_lowVoltages valley
    · intro since
      rw [bars_of_lowLoad low] at since
      exact batteryLadder.swing_from_fall falls since rises

/-- Over any batteries a low-load voltage leaves the bars between the rising and the falling
thresholds, a load leaves them as they are, and a change back takes a swing of twice the
hysteresis. -/
theorem bars_hysteresis (c : EbikeControl ℝ) (vehicles : List (EbikeVehicle ℝ)) :
    (∀ vehicle, LowLoad vehicle →
      let voltage := cellVoltage c.parameters.batteryCells vehicle
      barsAt voltage barHysteresisCellVolts ≤ (barsRun c (vehicles ++ [vehicle])).bars ∧
        (barsRun c (vehicles ++ [vehicle])).bars ≤ barsAt voltage (-barHysteresisCellVolts)) ∧
    (∀ vehicle, ¬LowLoad vehicle → (barsRun c (vehicles ++ [vehicle])).bars = (barsRun c vehicles).bars) ∧
    ∀ first between last,
      let voltage := cellVoltage c.parameters.batteryCells
      let swing := 2 * barHysteresisCellVolts
      let start := barsRun c vehicles
      let before := barsRun c (vehicles ++ first :: between)
      (Raises start first → Lowers before last →
        LowLoad last ∧ (∃ vehicle ∈ first :: between, LowLoad vehicle ∧ voltage last + swing < voltage vehicle) ∧
          (before.bars ≤ (start.batteryBars first).2.bars → voltage last + swing < voltage first)) ∧
      (Lowers start first → Raises before last →
        LowLoad last ∧ (∃ vehicle ∈ first :: between, LowLoad vehicle ∧ voltage vehicle + swing < voltage last) ∧
          ((start.batteryBars first).2.bars ≤ before.bars → voltage first + swing < voltage last)) := by
  have fixed := parameters_barsRun c vehicles
  refine ⟨?_, ?_, ?_⟩
  · intro vehicle low voltage
    have step := bars_of_lowLoad low (barsRun c vehicles)
    rw [fixed] at step
    rw [barsRun_append]
    change _ ≤ ((barsRun c vehicles).batteryBars vehicle).2.bars ∧
      ((barsRun c vehicles).batteryBars vehicle).2.bars ≤ _
    rw [step]
    exact batteryLadder.update_between _ _
  · intro vehicle load
    rw [barsRun_append]
    exact bars_of_load load (barsRun c vehicles)
  · intro first between last voltage swing start before
    have apart := swing_of_changes (barsRun c vehicles) first between last
    rw [fixed, ← barsRun_append] at apart
    exact apart

def idleVehicle (dcLink : ℝ) : EbikeVehicle ℝ := ⟨0, 0, 0, dcLink, 0, 0, false, false⟩

theorem lowLoad_idle (dcLink : ℝ) : LowLoad (idleVehicle dcLink) := by
  constructor <;> norm_num [idleVehicle, barsMaxCurrent]

/-- Ten cells at 36 V show three bars, and at 42 V five again, a swing higher. -/
theorem bars_hysteresis_charge :
    3 ≤ (barsRun create [idleVehicle 36]).bars ∧ (barsRun create [idleVehicle 36]).bars ≤ 3 ∧
      cellVoltage 10 (idleVehicle 36) + 2 * barHysteresisCellVolts < cellVoltage 10 (idleVehicle 42) := by
  have ten : (create : EbikeControl ℝ).parameters.batteryCells = 10 := rfl
  have cell (dcLink : ℝ) : cellVoltage 10 (idleVehicle dcLink) = dcLink / 10 := by
    have larger : (max (10 : UInt8) 1).toNat = 10 := rfl
    rw [cellVoltage, larger]
    norm_num [idleVehicle]
  obtain ⟨between, -, swing⟩ := bars_hysteresis create []
  have first := between _ (lowLoad_idle 36)
  have second := (bars_hysteresis create [idleVehicle 36]).1 _ (lowLoad_idle 42)
  rw [ten] at first second swing
  have three : 3 ≤ barsAt (cellVoltage 10 (idleVehicle 36)) barHysteresisCellVolts :=
    (le_barsAt (by decide) (by decide)).mpr (by
      norm_num [cell, threshold, cellVolts, barHysteresisCellVolts])
  have four : ¬4 ≤ barsAt (cellVoltage 10 (idleVehicle 36)) (-barHysteresisCellVolts) := by
    rw [le_barsAt (by decide) (by decide)]
    norm_num [cell, threshold, cellVolts, barHysteresisCellVolts]
  have five : 5 ≤ barsAt (cellVoltage 10 (idleVehicle 42)) barHysteresisCellVolts :=
    (le_barsAt (by decide) (by decide)).mpr (by
      norm_num [cell, threshold, cellVolts, barHysteresisCellVolts])
  have low := Nat.le_trans three first.1
  have high := Nat.le_trans first.2 (Nat.le_of_not_lt four)
  have full := Nat.le_trans five second.1
  have falls : Lowers create (idleVehicle 36) := Nat.lt_of_le_of_lt high (by decide)
  have rises : Raises (barsRun create [idleVehicle 36]) (idleVehicle 42) :=
    Nat.lt_of_le_of_lt high (Nat.lt_of_lt_of_le (by decide) full)
  exact ⟨low, high, ((swing _ [] _).2 falls rises).2.2 (Nat.le_refl _)⟩

end

end Unimoc.Ebike
