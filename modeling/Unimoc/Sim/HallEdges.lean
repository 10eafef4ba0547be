import Unimoc.CurrentControl.RotorCounts
import Unimoc.Lib.BinaryQuotient
import Unimoc.Sim.HallSensor

/-! The simulated Hall sensors in single precision: the sector of the decoder that a code names, and
the age of an edge where the grid and the signals have the same boundary. -/
namespace Unimoc.Sim

open CurrentControl

namespace HallSensor

/-- The angle of one count: a revolution has twice the `float` pi. -/
noncomputable def count : ℝ := twoPi / 4294967296

theorem count_eq : count = 13176795 * 2 ^ (-53 : Int) := by
  have revolution : (twoPi : ℝ) = 2 * (Binary32.ofBits 0x40490FDB).value := twoPi_eq
  have half : Binary32.ofBits 0x40490FDB = .finite 13176795 (-22) := by decide
  unfold count
  rw [revolution, half]
  norm_num [Binary.value]

theorem count_pos : 0 < count := by
  rw [count_eq]
  positivity

theorem radiansPerCount_value : (RotorAngle.radiansPerCount : Binary32).isFinite = true ∧
    (RotorAngle.radiansPerCount : Binary32).value = count := by
  have bits : (RotorAngle.radiansPerCount : Binary32) = .finite 13176795 (-53) := by decide +kernel
  rw [bits, count_eq]
  exact ⟨rfl, by norm_num [Binary.value]⟩

/-! ### The decoder's sectors -/

theorem sector_bounds (sector : Fin 6) : sector.val * 4294967296 ≤ 6 * first sector ∧
    6 * last sector ≤ (sector.val + 1) * 4294967296 + 8 := by
  revert sector
  decide

theorem toInt_signed (x : UInt32) : x.toInt32.toInt =
    if 2 * x.toNat < 4294967296 then (x.toNat : ℤ) else (x.toNat : ℤ) - 4294967296 :=
  BitVec.toInt_eq_toNat_cond x.toInt32.toBitVec

theorem toInt_unsigned (x : Int32) :
    x.toInt = x.toUInt32.toNat ∨ x.toInt = (x.toUInt32.toNat : ℤ) - 4294967296 := by
  have signed := toInt_signed x.toUInt32
  rw [Int32.toInt32_toUInt32] at signed
  rw [signed]
  split_ifs
  · exact .inl rfl
  · exact .inr rfl

theorem raw_position (angle offset : Int32) :
    ∃ turns : ℤ, angle.toInt = offset.toInt + (angle.toUInt32 - offset.toUInt32).toNat + turns * 4294967296 := by
  have one := toInt_unsigned angle
  have other := toInt_unsigned offset
  have inside := angle.toUInt32.toNat_lt
  have inside' := offset.toUInt32.toNat_lt
  have wrapped : ((angle.toUInt32 - offset.toUInt32).toNat : ℤ) = (angle.toUInt32.toNat : ℤ) - offset.toUInt32.toNat ∨
      ((angle.toUInt32 - offset.toUInt32).toNat : ℤ) = (angle.toUInt32.toNat : ℤ) - offset.toUInt32.toNat + 4294967296 := by
    rw [UInt32.toNat_sub]
    omega
  refine ⟨(angle.toInt - offset.toInt - (angle.toUInt32 - offset.toUInt32).toNat) / 4294967296, ?_⟩
  omega

/-- A position is in its sector but for a third of a count. -/
theorem position_sector {sector : Fin 6} {position : Nat} (after : first sector ≤ position)
    (before : position < last sector) :
    ∃ x : ℝ, |x - position| ≤ 1 / 3 ∧ (sector.val : ℝ) * 4294967296 ≤ 6 * x ∧
      6 * x ≤ (sector.val + 1) * 4294967296 := by
  obtain ⟨low, high⟩ := sector_bounds sector
  have least : (sector.val : ℝ) * 4294967296 ≤ 6 * position := by
    have whole : sector.val * 4294967296 ≤ 6 * position := by omega
    exact_mod_cast whole
  have most : (6 : ℝ) * position ≤ (sector.val + 1) * 4294967296 + 2 := by
    have whole : 6 * position ≤ (sector.val + 1) * 4294967296 + 2 := by omega
    exact_mod_cast whole
  refine ⟨min position ((sector.val + 1) * 4294967296 / 6), ?_, ?_, ?_⟩
  · rw [abs_le]
    rcases min_choice (position : ℝ) ((sector.val + 1) * 4294967296 / 6) with same | cut
    · rw [same]
      constructor <;> linarith
    · have below := min_le_left (position : ℝ) ((sector.val + 1) * 4294967296 / 6)
      rw [cut] at below ⊢
      constructor <;> linarith
  · rcases min_choice (position : ℝ) ((sector.val + 1) * 4294967296 / 6) with same | cut
    · linarith
    · linarith
  · linarith [min_le_right (position : ℝ) ((sector.val + 1) * 4294967296 / 6)]

theorem nearestCount_close (x : ℝ) : |(RotorAngle.nearestCount x : ℝ) - x| ≤ 1 / 2 := by
  rw [RotorAngle.nearestCount_eq, abs_le]
  split_ifs
  · have low := Int.floor_le (-x + 1 / 2)
    have high := Int.lt_floor_add_one (-x + 1 / 2)
    push_cast
    constructor <;> linarith
  · have low := Int.floor_le (x + 1 / 2)
    have high := Int.lt_floor_add_one (x + 1 / 2)
    constructor <;> linarith

theorem revolutionsPerRadian_value : (RotorAngle.revolutionsPerRadian : Binary32).isFinite = true ∧
    (RotorAngle.revolutionsPerRadian : Binary32).value = 10680707 / 2 ^ 26 := by
  have bits : (RotorAngle.revolutionsPerRadian : Binary32) = .finite 10680707 (-26) := by decide +kernel
  rw [bits]
  exact ⟨rfl, by norm_num [Binary.value]⟩

theorem twoPi_count : (twoPi : ℝ) = 2 ^ 32 * count := by
  unfold count
  ring

/-- The revolutions of an offset in single precision, as an angle. -/
theorem offsetRevolutions_near {offset : Binary32} (finite : (RotorAngle.offsetRevolutions offset).isFinite = true) :
    |(RotorAngle.offsetRevolutions offset).value * twoPi - offset.value| ≤ count / 6 + |offset.value| * 0.5 ^ 23 := by
  obtain ⟨-, factor⟩ := revolutionsPerRadian_value
  have positive := count_pos
  have near := (Binary.mul_nearest (by decide) finite).2.2.relative (by decide)
  change |(RotorAngle.offsetRevolutions offset).value - offset.value * _| ≤ _ at near
  rw [factor, Binary.rounding_eq, abs_mul, abs_of_pos (by norm_num : (0 : ℝ) < 10680707 / 2 ^ 26)] at near
  generalize (RotorAngle.offsetRevolutions offset).value = revolutions at near ⊢
  generalize offset.value = angle at near ⊢
  have parts : revolutions * twoPi - angle = (revolutions - angle * (10680707 / 2 ^ 26)) * (2 ^ 32 * count) +
      angle * (10680707 / 2 ^ 26 * (2 ^ 32 * count) - 1) := by
    rw [twoPi_count]
    ring
  have unit : |10680707 / 2 ^ 26 * (2 ^ 32 * count) - 1| ≤ 1 / 2 ^ 26 := by
    rw [count_eq, abs_le]
    norm_num
  have rounding := mul_le_mul_of_nonneg_right near (by positivity : (0 : ℝ) ≤ 2 ^ 32 * count)
  have share := mul_le_mul_of_nonneg_left unit (abs_nonneg angle)
  rw [parts]
  refine (abs_add_le _ _).trans ?_
  rw [abs_mul _ (2 ^ 32 * count), abs_mul angle, abs_of_pos (by positivity : (0 : ℝ) < 2 ^ 32 * count)]
  have least : (2 : ℝ) ^ ((-149 : ℤ) - 1) * (2 ^ 32 * count) ≤ count / 6 := by
    rw [← mul_assoc, mul_comm]
    have small : (2 : ℝ) ^ ((-149 : ℤ) - 1) * 2 ^ 32 ≤ 1 / 6 := by norm_num
    nlinarith
  have relative : |angle| * (10680707 / 2 ^ 26) / 2 ^ 24 * (2 ^ 32 * count) ≤ |angle| * (0.5 ^ 23 - 1 / 2 ^ 26) := by
    have size : 10680707 / 2 ^ 26 / 2 ^ 24 * (2 ^ 32 * count) ≤ 0.5 ^ 23 - 1 / 2 ^ 26 := by
      rw [count_eq]
      norm_num
    calc |angle| * (10680707 / 2 ^ 26) / 2 ^ 24 * (2 ^ 32 * count) =
          |angle| * (10680707 / 2 ^ 26 / 2 ^ 24 * (2 ^ 32 * count)) := by ring
      _ ≤ |angle| * (0.5 ^ 23 - 1 / 2 ^ 26) := mul_le_mul_of_nonneg_left size (abs_nonneg angle)
  linarith

/-- Where the sensors are mounted: the offset in whole counts. -/
theorem offset_near {offset : Binary32} (finite : (RotorAngle.offsetRevolutions offset).isFinite = true)
    (below : |(RotorAngle.offsetRevolutions offset).value| < 2 ^ 63) :
    ∃ turns : ℤ, |(RotorAngle.fromAngle offset).raw.toInt * count + turns * twoPi - offset.value| ≤
      5 / 3 * count + |offset.value| * 0.5 ^ 23 := by
  obtain ⟨wrong, runs, small, -, moved⟩ := RotorAngle.advance_position finite (below.trans (by norm_num)) ⟨0, 0⟩
  have positive := count_pos
  have near := offsetRevolutions_near finite
  have rounded := nearestCount_close (RotorAngle.fraction offset)
  have whole : (RotorAngle.fromAngle offset).raw.toInt =
      RotorAngle.turn offset + wrong + (runs * 2 ^ 32 - (RotorAngle.fromAngle offset).revolutions.toInt) * 2 ^ 32 := by
    have start : RotorAngle.position ⟨0, 0⟩ = 0 := by decide
    rw [start] at moved
    unfold RotorAngle.position RotorAngle.countsPerRevolution at moved
    unfold RotorAngle.fromAngle
    omega
  have counts : |(RotorAngle.turn offset : ℝ) - (RotorAngle.offsetRevolutions offset).value * 2 ^ 32| ≤ 1 / 2 := by
    have parts : (RotorAngle.turn offset : ℝ) - (RotorAngle.offsetRevolutions offset).value * 2 ^ 32 =
        RotorAngle.nearestCount (RotorAngle.fraction offset) - RotorAngle.fraction offset := by
      rw [RotorAngle.turn, RotorAngle.fraction_eq]
      push_cast
      ring
    rw [parts]
    exact rounded
  have off : |(wrong : ℝ)| ≤ 1 := by exact_mod_cast small
  refine ⟨(RotorAngle.fromAngle offset).revolutions.toInt - runs * 2 ^ 32, ?_⟩
  have parts : (RotorAngle.fromAngle offset).raw.toInt * count +
        ((RotorAngle.fromAngle offset).revolutions.toInt - runs * 2 ^ 32 : ℤ) * twoPi - offset.value =
      ((RotorAngle.turn offset : ℝ) - (RotorAngle.offsetRevolutions offset).value * 2 ^ 32 + wrong) * count +
        ((RotorAngle.offsetRevolutions offset).value * twoPi - offset.value) := by
    have real : ((RotorAngle.fromAngle offset).raw.toInt : ℝ) = RotorAngle.turn offset + wrong +
        (runs * 2 ^ 32 - (RotorAngle.fromAngle offset).revolutions.toInt) * 2 ^ 32 := by exact_mod_cast whole
    rw [real, twoPi_count]
    push_cast
    ring
  rw [parts]
  refine (abs_add_le _ _).trans ?_
  rw [abs_mul, abs_of_pos positive]
  have both := (abs_add_le ((RotorAngle.turn offset : ℝ) - (RotorAngle.offsetRevolutions offset).value * 2 ^ 32)
    (wrong : ℝ)).trans (add_le_add counts off)
  have scaled := mul_le_mul_of_nonneg_right both positive.le
  linarith

section Named

variable (sensor : HallSensor Binary32) (electricalAngle : RotorAngle)

/-- The code is that of the sector, of a decoder with the same offset, in which the angle is: but for
two counts and for the rounding of the offset. -/
def Names : Prop :=
  ∃ sector, HallFusion.sector (sensor.code electricalAngle) = some sector ∧
    ∀ hall : HallFusion ℝ, hall.offset = sensor.offset.value →
      ∃ near, |near - electricalAngle.raw.toInt * count| ≤ count + count + |sensor.offset.value| * 0.5 ^ 23 ∧
        hall.InSector sector near

variable {sensor} (finite : (RotorAngle.offsetRevolutions sensor.offset).isFinite = true)
  (below : |(RotorAngle.offsetRevolutions sensor.offset).value| < 2 ^ 63)
include finite below

theorem names : sensor.Names electricalAngle := by
  obtain ⟨sector, after, before⟩ := exists_sector (sensor.position electricalAngle)
  obtain ⟨turns, raw⟩ := raw_position electricalAngle.raw (RotorAngle.fromAngle sensor.offset).raw
  obtain ⟨round, mounted⟩ := offset_near finite below
  refine ⟨sector, ?_, fun hall same => ?_⟩
  · unfold code
    rw [codeOf_sector after before, sector_sectorCode]
  · change electricalAngle.raw.toInt = _ + ((sensor.position electricalAngle).toNat : ℤ) + _ at raw
    generalize (sensor.position electricalAngle).toNat = position at *
    obtain ⟨x, close, least, most⟩ := position_sector after before
    have positive := count_pos
    have width : (HallFusion.sectorWidth : ℝ) = 4294967296 / 6 * count := by
      unfold count
      rw [sectorWidth_eq, twoPi_eq]
      ring
    have here : (electricalAngle.raw.toInt : ℝ) =
        (RotorAngle.fromAngle sensor.offset).raw.toInt + position + turns * 4294967296 := by exact_mod_cast raw
    refine ⟨sensor.offset.value + x * count + (turns - round) * twoPi, ?_, round - turns, ?_, ?_⟩
    · have parts : sensor.offset.value + x * count + (turns - round) * twoPi - electricalAngle.raw.toInt * count =
          -((RotorAngle.fromAngle sensor.offset).raw.toInt * count + round * twoPi - sensor.offset.value) +
            (x - position) * count := by
        rw [here, twoPi_count]
        ring
      have third := mul_le_mul_of_nonneg_right close positive.le
      rw [parts]
      refine (abs_add_le _ _).trans ?_
      rw [abs_neg, abs_mul, abs_of_pos positive]
      linarith
    · have scaled := mul_le_mul_of_nonneg_right least positive.le
      rw [same, width]
      push_cast
      linarith
    · have scaled := mul_le_mul_of_nonneg_right most positive.le
      rw [same, width]
      push_cast
      linarith

end Named

/-! ### The age of an edge -/

section Age

/-- A number of counts as a `float`. -/
theorem ofInt_near {distance : Nat} (small : distance < 2 ^ 31) :
    (Scalar.ofInt (distance : Int) : Binary32).isFinite = true ∧ 0 ≤ (Scalar.ofInt (distance : Int) : Binary32).value ∧
      |(Scalar.ofInt (distance : Int) : Binary32).value - distance| ≤ distance * (1.01 / 2 ^ 24) := by
  have same : (Scalar.ofInt (distance : Int) : Binary32) = Binary.round false distance 0 := by
    unfold Scalar.ofInt
    rw [if_neg (by omega)]
    change Binary.round false (UInt64.ofNat distance).toNat 0 = _
    rw [UInt64.toNat_ofNat_of_lt' (show distance < 2 ^ 64 by omega)]
  have below : |((distance : Int) : ℝ) * 2 ^ (0 : Int)| < 2 ^ ((128 : Int) - 1) := by
    have real : (distance : ℝ) < 2 ^ 31 := by exact_mod_cast small
    rw [zpow_zero, mul_one, Int.cast_natCast, abs_of_nonneg (by positivity)]
    exact real.trans (by norm_num)
  have rounded := @Binary.round_int 24 (-149) 128 (by decide) (by decide) (distance : Int) 0 below
  rw [zpow_zero, mul_one, decide_eq_false (by omega), Int.natAbs_natCast, ← same, Int.cast_natCast] at rounded
  have near := rounded.nearest.relative (by decide)
  rw [Binary.rounding_eq, Nat.abs_cast] at near
  refine ⟨rounded.finite, ?_, ?_⟩
  · exact rounded.nearest.ge ⟨0, 0, by norm_num, by norm_num, by norm_num⟩ (Nat.cast_nonneg distance)
  · rcases Nat.eq_zero_or_pos distance with rfl | some
    · rw [same, Binary.round_zero]
      norm_num [Binary.zero, Binary.value]
    · have one : (1 : ℝ) ≤ distance := by exact_mod_cast some
      norm_num at near ⊢
      linarith

/-- Counts as an angle. -/
theorem travel_near {distance : UInt32} (small : distance.toNat < 2 ^ 31) :
    (angleInRevolution ⟨distance.toInt32, 0⟩ : Binary32).isFinite = true ∧
      0 ≤ (angleInRevolution ⟨distance.toInt32, 0⟩ : Binary32).value ∧
      |(angleInRevolution ⟨distance.toInt32, 0⟩ : Binary32).value - distance.toNat * count| ≤
        distance.toNat * count * (2.1 / 2 ^ 24) := by
  have signed : distance.toInt32.toInt = (distance.toNat : Int) := by
    rw [toInt_signed, if_pos (by omega)]
  obtain ⟨finite, nonneg, near⟩ := ofInt_near small
  obtain ⟨finite', value⟩ := radiansPerCount_value
  have positive := count_pos
  unfold angleInRevolution
  dsimp only
  rw [signed]
  generalize (Scalar.ofInt (distance.toNat : Int) : Binary32) = number at finite nonneg near ⊢
  obtain ⟨low, high⟩ := abs_le.mp near
  have bound : (distance.toNat : ℝ) < 2 ^ 31 := by exact_mod_cast small
  have radians : number.value * count ≤ 8 := by
    have below : number.value ≤ 2 ^ 32 := by linarith
    calc number.value * count ≤ 2 ^ 32 * count := mul_le_mul_of_nonneg_right below positive.le
      _ ≤ 8 := by rw [count_eq]; norm_num
  have product : 0 ≤ number.value * count := mul_nonneg nonneg positive.le
  have rounded := Binary.mul_rounded (by decide) (by decide) finite finite'
    (by rw [value, abs_of_nonneg product]; exact radians.trans_lt (by norm_num))
  rw [value] at rounded
  change (number.mul _).isFinite = true ∧ 0 ≤ (number.mul _).value ∧ |(number.mul _).value - _| ≤ _
  refine ⟨rounded.finite, rounded.nearest.ge ⟨0, 0, by norm_num, by norm_num, by norm_num⟩ product, ?_⟩
  rcases Nat.eq_zero_or_pos distance.toNat with none | some
  · rw [none, Nat.cast_zero, zero_mul, sub_zero, abs_nonpos_iff] at near
    rw [near, zero_mul] at rounded
    rw [none, rounded.exact ⟨0, 0, by norm_num, by norm_num, by norm_num⟩]
    norm_num
  · have one : (1 : ℝ) ≤ distance.toNat := by exact_mod_cast some
    have error := rounded.nearest.relative (by decide)
    rw [Binary.rounding_eq, abs_of_nonneg product] at error
    have least : (2 : ℝ) ^ ((-149 : ℤ) - 1) ≤ distance.toNat * count * (0.01 / 2 ^ 24) := by
      have unit : (2 : ℝ) ^ ((-149 : ℤ) - 1) ≤ count * (0.01 / 2 ^ 24) := by
        rw [count_eq]
        norm_num
      have share := mul_le_mul_of_nonneg_right one (by positivity : 0 ≤ count * (0.01 / 2 ^ 24))
      linarith
    have scaled : |number.value * count - distance.toNat * count| ≤ distance.toNat * (1.01 / 2 ^ 24) * count := by
      rw [← sub_mul, abs_mul, abs_of_pos positive]
      exact mul_le_mul_of_nonneg_right near positive.le
    have size : number.value * count ≤ distance.toNat * count * 1.01 := by
      have below : number.value ≤ distance.toNat * 1.01 := by linarith
      linarith [mul_le_mul_of_nonneg_right below positive.le]
    refine (abs_sub_le _ (number.value * count) _).trans ?_
    linarith

theorem clamp_value {x upper : Binary32} (finite : x.isFinite = true) (finite' : upper.isFinite = true) :
    (Scalar.clamp x Scalar.zero upper).isFinite = true ∧
      (Scalar.clamp x Scalar.zero upper).value = min (max x.value 0) upper.value := by
  have zero : (Scalar.zero : Binary32).isFinite = true := by decide
  have raised : (Scalar.max x Scalar.zero).isFinite = true ∧ (Scalar.max x Scalar.zero).value = max x.value 0 := by
    unfold Scalar.max
    split_ifs with below
    · have order := (RotorAngle.negative_value finite).mp below
      exact ⟨zero, RotorAngle.zero_value.trans (max_eq_right order.le).symm⟩
    · have order := not_lt.mp (mt (RotorAngle.negative_value finite).mpr below)
      exact ⟨finite, (max_eq_left order).symm⟩
  obtain ⟨finite, value⟩ := raised
  have order := @Binary.lt_value 24 (-149) 128 _ _ finite' finite
  rw [← value]
  unfold Scalar.clamp Scalar.min
  split_ifs with above
  · exact ⟨finite', (min_eq_right (order.mp above).le).symm⟩
  · exact ⟨finite, (min_eq_left (not_lt.mp (mt order.mpr above))).symm⟩

theorem clamp_infinite {upper : Binary32} (finite : upper.isFinite = true) :
    Scalar.clamp (.infinite false) Scalar.zero upper = upper := by
  cases upper with
  | finite m e => rfl
  | nan | infinite _ => cases finite

/-- The quotient of an angle and a speed within a time step. -/
theorem age_near {angle speed timeStep : Binary32} (finite : angle.isFinite = true) (moves : speed.isFinite = true)
    (bounded : timeStep.isFinite = true) (short : timeStep.value < 2 ^ 126) (moving : speed.value ≠ 0)
    (nonneg : 0 ≤ angle.value / speed.value) :
    ∃ reached : ℝ, |reached - abs angle.value| ≤ |angle.value| * (1.2 / 2 ^ 24) + |speed.value| * 0.5 ^ 150 ∧
      (Scalar.clamp (angle / speed) Scalar.zero timeStep).isFinite = true ∧
      (Scalar.clamp (angle / speed) Scalar.zero timeStep).value * |speed.value| =
        min reached (timeStep.value * |speed.value|) := by
  have fast := abs_pos.mpr moving
  have whole : angle.value / speed.value * |speed.value| = |angle.value| := by
    rw [← abs_of_nonneg nonneg, abs_div, div_mul_cancel₀ _ fast.ne']
  have quotient := Binary.div_close (by decide) (by decide) finite moves moving
  change (angle / speed).isFinite = true ∧ |(angle / speed).value - _| ≤ _ ∨
    (∃ negative, angle / speed = .infinite negative ∧ _) ∧ _ at quotient
  rw [abs_of_nonneg nonneg, Binary.rounding_eq] at quotient
  generalize angle / speed = age at quotient ⊢
  generalize angle.value / speed.value = ratio at *
  rcases quotient with ⟨finite', near⟩ | ⟨⟨negative, rfl, sign⟩, large⟩
  · obtain ⟨clamped, value⟩ := clamp_value finite' bounded
    refine ⟨max age.value 0 * |speed.value|, ?_, clamped, ?_⟩
    · have raised : |max age.value 0 - ratio| ≤ |age.value - ratio| := by
        rw [← max_eq_left nonneg]
        exact (abs_max_sub_max_le_abs _ _ _).trans (le_of_eq (by rw [max_eq_left nonneg]))
      rw [← whole, ← sub_mul, abs_mul, abs_of_pos fast]
      have scaled := mul_le_mul_of_nonneg_right (raised.trans near) fast.le
      have share : ratio / 2 ^ (24 + 3) + (ratio + ratio / 2 ^ (24 + 3)) / 2 ^ 24 ≤ ratio * (1.2 / 2 ^ 24) := by
        norm_num
        linarith
      have least : (2 : ℝ) ^ ((-149 : ℤ) - 1) = 0.5 ^ 150 := by norm_num
      rw [least] at scaled
      linarith [mul_le_mul_of_nonneg_right share fast.le]
    · rw [value, min_mul_of_nonneg _ _ fast.le]
  · have positive : negative = false := by
      cases negative with
      | false => rfl
      | true => exact absurd (sign rfl) (not_lt.mpr nonneg)
    subst positive
    rw [clamp_infinite bounded]
    refine ⟨|angle.value|, by rw [sub_self, abs_zero]; positivity, bounded, ?_⟩
    have long : timeStep.value ≤ ratio := by
      norm_num at large short ⊢
      linarith
    rw [min_eq_right (whole ▸ mul_le_mul_of_nonneg_right long fast.le)]

theorem eq_zero_iff {speed : Binary32} (finite : speed.isFinite = true) :
    Scalar.eq speed Scalar.zero = true ↔ speed.value = 0 := by
  have zero : (Scalar.zero : Binary32).isFinite = true := by decide
  have below := @Binary.le_value 24 (-149) 128 _ _ finite zero
  have above := @Binary.le_value 24 (-149) 128 _ _ zero finite
  rw [RotorAngle.zero_value] at below above
  unfold Scalar.eq
  rw [Bool.and_eq_true, decide_eq_true_eq, decide_eq_true_eq]
  exact ⟨fun both => le_antisymm (below.mp both.1) (above.mp both.2), fun still => ⟨below.mpr still.le, above.mpr still.ge⟩⟩

/-- What single precision makes of a distance at a speed. -/
noncomputable def ageRounding (distance : Nat) (speed : Binary32) : ℝ :=
  distance * count * 0.5 ^ 22 + |speed.value| * 0.5 ^ 149

/-- An age at a speed: as far as the distance but for rounding, and no longer than the step. -/
def Reaches (distance : Nat) (speed timeStep age : Binary32) : Prop :=
  ∃ reached : ℝ, |reached - distance * count| ≤ ageRounding distance speed ∧
    age.isFinite = true ∧ age.value * |speed.value| = min reached (timeStep.value * |speed.value|)

variable {speed timeStep : Binary32} (moves : speed.isFinite = true) (bounded : timeStep.isFinite = true)
  (short : timeStep.value < 2 ^ 126)
include moves bounded short

theorem reaches {distance : UInt32} (small : distance.toNat < 2 ^ 31) (moving : speed.value ≠ 0) {angle : Binary32}
    (finite : angle.isFinite = true)
    (size : |angle.value| = (angleInRevolution ⟨distance.toInt32, 0⟩ : Binary32).value)
    (nonneg : 0 ≤ angle.value / speed.value) :
    Reaches distance.toNat speed timeStep (Scalar.clamp (angle / speed) Scalar.zero timeStep) := by
  obtain ⟨-, -, near⟩ := travel_near small
  obtain ⟨reached, close, clamped, value⟩ := age_near finite moves bounded short moving nonneg
  have positive := count_pos
  refine ⟨reached, ?_, clamped, value⟩
  rw [← size] at near
  have below := (abs_le.mp near).2
  have tiny : |speed.value| * 0.5 ^ 150 ≤ |speed.value| * 0.5 ^ 149 :=
    mul_le_mul_of_nonneg_left (by norm_num) (abs_nonneg _)
  have counts : 0 ≤ distance.toNat * count := by positivity
  unfold ageRounding
  refine (abs_sub_le _ |angle.value| _).trans ?_
  norm_num at near below close tiny ⊢
  linarith

end Age

/-! ### Steps across one boundary -/

section Crossing

variable (sensor : HallSensor Binary32) (start final : RotorAngle) (speed timeStep : Binary32) (travel distance : Nat)
  (slack : ℝ)

/-- A step at a constant speed, but for some slack. -/
structure SteadyStep : Prop where
  moves : speed.isFinite = true
  bounded : timeStep.isFinite = true
  short : timeStep.value < (2 ^ 126 : Nat)
  constant : |timeStep.value * |speed.value| - travel * count| ≤ slack

/-- The sensors report the edge, and its age within one count, the slack of the step and rounding. -/
def Reports : Prop :=
  let after := (sensor.update final speed timeStep).signals
  after.code = sensor.code final ∧ after.edge = true ∧ after.edgeAge.isFinite = true ∧
    |after.edgeAge.value * |speed.value| - distance * count| ≤ count + slack + ageRounding (distance + 1) speed

variable {sensor start final speed timeStep travel distance slack}

theorem update_changed (changed : sensor.code final ≠ sensor.signals.code) :
    sensor.update final speed timeStep =
      { sensor with signals := ⟨sensor.code final, true, sensor.edgeAge final speed timeStep⟩ } := if_neg changed

/-- The age is that of the shorter of two distances, the one the grid gives and the step. -/
theorem Reaches.shorter {grid : Nat} {age : Binary32} (reaches : Reaches grid speed timeStep age)
    (steady : SteadyStep speed timeStep travel slack) :
    |age.value * |speed.value| - (min grid travel : Nat) * count| ≤ slack + ageRounding (min grid travel) speed := by
  obtain ⟨reached, near, -, value⟩ := reaches
  obtain ⟨-, -, -, constant⟩ := steady
  have positive := count_pos
  have moved := abs_nonneg speed.value
  unfold ageRounding at near ⊢
  obtain ⟨least, most⟩ := abs_le.mp near
  obtain ⟨early, late⟩ := abs_le.mp constant
  have nonneg := (abs_nonneg _).trans constant
  rw [value, abs_le]
  rcases Nat.le_total grid travel with inside | beyond
  · rw [Nat.min_eq_left inside]
    have order : (grid : ℝ) * count ≤ travel * count := by gcongr
    have size : 0 ≤ (grid : ℝ) * count := by positivity
    constructor
    · rw [le_sub_iff_add_le, le_min_iff]
      constructor <;> linarith
    · linarith [min_le_left reached (timeStep.value * |speed.value|)]
  · rw [Nat.min_eq_right beyond]
    have order : (travel : ℝ) * count ≤ grid * count := by gcongr
    have size : 0 ≤ (travel : ℝ) * count := by positivity
    constructor
    · rw [le_sub_iff_add_le, le_min_iff]
      constructor <;> linarith
    · linarith [min_le_right reached (timeStep.value * |speed.value|)]

/-- A distance that is within one count in whole numbers. -/
theorem Reaches.reports {grid : Nat} (changed : sensor.code final ≠ sensor.signals.code)
    (reaches : Reaches grid speed timeStep (sensor.edgeAge final speed timeStep))
    (steady : SteadyStep speed timeStep travel slack) (above : min grid travel ≤ distance + 1)
    (below : distance ≤ min grid travel + 1) : sensor.Reports final speed timeStep distance slack := by
  have near := reaches.shorter steady
  obtain ⟨-, -, finite, -⟩ := reaches
  have positive := count_pos
  unfold Reports
  rw [update_changed changed]
  refine ⟨rfl, rfl, finite, ?_⟩
  have counts : |((min grid travel : Nat) : ℝ) * count - distance * count| ≤ count := by
    have apart : |((min grid travel : Nat) : ℝ) - distance| ≤ 1 := by
      have upper : ((min grid travel : Nat) : ℝ) ≤ distance + 1 := by exact_mod_cast above
      have lower : (distance : ℝ) ≤ (min grid travel : Nat) + 1 := by exact_mod_cast below
      rw [abs_le]
      constructor <;> linarith
    rw [← sub_mul, abs_mul, abs_of_pos positive]
    exact mul_le_of_le_one_left positive.le apart
  have rounding : ageRounding (min grid travel) speed ≤ ageRounding (distance + 1) speed := by
    unfold ageRounding
    gcongr
  refine (abs_sub_le _ ((min grid travel : Nat) * count) _).trans ?_
  dsimp only
  linarith

end Crossing

section Bench

def aligned (code : UInt8) : HallSensor Binary32 := ⟨.finite 0 0, code, false, .finite 0 0⟩

end Bench

end HallSensor

end Unimoc.Sim
