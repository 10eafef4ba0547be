import Mathlib.Algebra.Group.Nat.Defs
import Mathlib.Order.Bounds.Basic
import Mathlib.Tactic.NormNum

/-! The dead time of the power stage, from nanoseconds over ticks of the timer clock to the
field of the timer. -/
namespace Unimoc.Hardware

/-- Four ranges with growing steps, rounded up to the next step; `none` beyond the last. -/
def encodeDeadTime (ticks : UInt32) : Option UInt8 :=
  if ticks ≤ 127 then some ticks.toUInt8
  else if ticks ≤ 254 then some (0x80 ||| ((ticks + 1) / 2 - 64)).toUInt8
  else if ticks ≤ 504 then some (0xC0 ||| ((ticks + 7) / 8 - 32)).toUInt8
  else if ticks ≤ 1008 then some (0xE0 ||| ((ticks + 15) / 16 - 32)).toUInt8
  else none

def decodeDeadTime (dtg : UInt8) : UInt32 :=
  let dtg := dtg.toUInt32
  if dtg &&& 0x80 = 0 then dtg
  else if dtg &&& 0x40 = 0 then (64 + (dtg &&& 0x3F)) * 2
  else if dtg &&& 0x20 = 0 then (32 + (dtg &&& 0x1F)) * 8
  else (32 + (dtg &&& 0x1F)) * 16

/-- The quotient of the 64-bit division is cut to 32 bits. -/
def deadTimeTicks (nanoseconds clockHz : UInt32) : UInt32 :=
  ((nanoseconds.toUInt64 * clockHz.toUInt64 + 999999999) / 1000000000).toUInt32

/-! ### The field as a number -/

def ticksOf (field : Nat) : Nat :=
  if field < 128 then field
  else if field < 192 then (field - 64) * 2
  else if field < 224 then (field - 160) * 8
  else (field - 192) * 16

set_option maxRecDepth 8000 in
theorem decodeDeadTime_ofNat : ∀ field < 256, (decodeDeadTime (UInt8.ofNat field)).toNat = ticksOf field := by
  decide

theorem decodeDeadTime_toNat (dtg : UInt8) : (decodeDeadTime dtg).toNat = ticksOf dtg.toNat := by
  have known := decodeDeadTime_ofNat dtg.toNat dtg.toNat_lt
  rwa [UInt8.ofNat_toNat] at known

theorem or_toNat {flags low : UInt32} {bits : Nat} (aligned : flags.toNat % 2 ^ bits = 0)
    (small : low.toNat < 2 ^ bits) : (flags ||| low).toNat = flags.toNat + low.toNat := by
  obtain ⟨blocks, multiple⟩ := Nat.dvd_of_mod_eq_zero aligned
  have joined := Nat.two_pow_add_eq_or_of_lt small blocks
  simp [UInt32.toNat_or, multiple, ← joined]

def fieldOf (ticks : Nat) : Nat :=
  if ticks ≤ 127 then ticks
  else if ticks ≤ 254 then (ticks + 1) / 2 + 64
  else if ticks ≤ 504 then (ticks + 7) / 8 + 160
  else (ticks + 15) / 16 + 192

/-- The steps of the four ranges fit together: the field is the first that lasts long enough. -/
theorem fieldOf_le {ticks field : Nat} (encodable : ticks ≤ 1008) : fieldOf ticks ≤ field ↔ ticks ≤ ticksOf field := by
  unfold fieldOf ticksOf
  split_ifs <;> omega

theorem ticksOf_mono {low high : Nat} (ordered : low ≤ high) : ticksOf low ≤ ticksOf high := by
  unfold ticksOf
  split_ifs <;> omega

theorem packed {ticks up step skip flags : UInt32} (bits : Nat) (room : ticks.toNat + up.toNat < 2 ^ 32)
    (reached : skip.toNat ≤ (ticks.toNat + up.toNat) / step.toNat) (aligned : flags.toNat % 2 ^ bits = 0)
    (small : (ticks.toNat + up.toNat) / step.toNat - skip.toNat < 2 ^ bits) :
    (flags ||| ((ticks + up) / step - skip)).toUInt8 =
      UInt8.ofNat (flags.toNat + ((ticks.toNat + up.toNat) / step.toNat - skip.toNat)) := by
  have rounded : ((ticks + up) / step).toNat = (ticks.toNat + up.toNat) / step.toNat := by
    rw [UInt32.toNat_div, UInt32.toNat_add, Nat.mod_eq_of_lt room]
  have low : ((ticks + up) / step - skip).toNat = (ticks.toNat + up.toNat) / step.toNat - skip.toNat := by
    rw [UInt32.toNat_sub_of_le, rounded]
    rwa [UInt32.le_iff_toNat_le, rounded]
  have fits : ((ticks + up) / step - skip).toNat < 2 ^ bits := low ▸ small
  have joined := or_toNat aligned fits
  apply UInt8.toNat_inj.mp
  rw [UInt32.toNat_toUInt8, joined, low, UInt8.toNat_ofNat']

theorem encodeDeadTime_eq (ticks : UInt32) :
    encodeDeadTime ticks = if ticks.toNat ≤ 1008 then some (UInt8.ofNat (fieldOf ticks.toNat)) else none := by
  unfold encodeDeadTime fieldOf
  simp only [UInt32.le_iff_toNat_le, UInt32.reduceToNat]
  by_cases encodable : ticks.toNat ≤ 1008
  · simp only [if_pos encodable]
    by_cases single : ticks.toNat ≤ 127
    · simp only [if_pos single]
      rfl
    · by_cases double : ticks.toNat ≤ 254
      · simp only [if_neg single, if_pos double]
        rw [packed 6 (by simp; omega) (by simp; omega) rfl (by simp; omega)]
        congr 2
        simp
        omega
      · by_cases eighth : ticks.toNat ≤ 504
        · simp only [if_neg single, if_neg double, if_pos eighth]
          rw [packed 5 (by simp; omega) (by simp; omega) rfl (by simp; omega)]
          congr 2
          simp
          omega
        · simp only [if_neg single, if_neg double, if_neg eighth]
          rw [packed 5 (by simp; omega) (by simp; omega) rfl (by simp; omega)]
          congr 2
          simp
          omega
  · have long : ¬ ticks.toNat ≤ 127 ∧ ¬ ticks.toNat ≤ 254 ∧ ¬ ticks.toNat ≤ 504 := by omega
    simp [encodable, long]

theorem fieldOf_lt {ticks : Nat} (encodable : ticks ≤ 1008) : fieldOf ticks < 256 :=
  Nat.lt_succ_of_le ((fieldOf_le encodable).mpr encodable)

theorem encodeDeadTime_le {ticks : UInt32} {field : UInt8} (encoded : encodeDeadTime ticks = some field)
    (other : UInt8) : field ≤ other ↔ ticks ≤ decodeDeadTime other := by
  rw [encodeDeadTime_eq] at encoded
  split at encoded
  · rename_i encodable
    obtain rfl := Option.some.inj encoded
    rw [UInt8.le_iff_toNat_le, UInt8.toNat_ofNat_of_lt' (fieldOf_lt encodable), fieldOf_le encodable,
      ← decodeDeadTime_toNat, UInt32.le_iff_toNat_le]
  · cases encoded

theorem decodeDeadTime_mono {low high : UInt8} (ordered : low ≤ high) : decodeDeadTime low ≤ decodeDeadTime high := by
  rw [UInt32.le_iff_toNat_le, decodeDeadTime_toNat, decodeDeadTime_toNat]
  exact ticksOf_mono ordered

/-! ### The requested time -/

def wholeTicks (nanoseconds clockHz : UInt32) : Nat :=
  (nanoseconds.toNat * clockHz.toNat + 999999999) / 1000000000

theorem deadTimeTicks_toNat (nanoseconds clockHz : UInt32) :
    (deadTimeTicks nanoseconds clockHz).toNat = wholeTicks nanoseconds clockHz % 2 ^ 32 := by
  have long := Nat.mul_le_mul (Nat.le_pred_of_lt nanoseconds.toNat_lt) (Nat.le_pred_of_lt clockHz.toNat_lt)
  have room : nanoseconds.toNat * clockHz.toNat + 999999999 < 2 ^ 64 := by
    norm_num at long
    omega
  simp only [deadTimeTicks, wholeTicks]
  rw [UInt64.toNat_toUInt32, UInt64.toNat_div, UInt64.toNat_add, UInt64.toNat_mul]
  simp only [UInt32.toNat_toUInt64, UInt64.reduceToNat]
  rw [Nat.mod_add_mod, Nat.mod_eq_of_lt room]

theorem wholeTicks_le {nanoseconds clockHz : UInt32} {ticks : Nat} :
    wholeTicks nanoseconds clockHz ≤ ticks ↔ nanoseconds.toNat * clockHz.toNat ≤ ticks * 1000000000 := by
  unfold wholeTicks
  omega

def Encodable (ticks : UInt32) : Prop := ∃ dtg, decodeDeadTime dtg = ticks

/-- Some ticks of the clock are not shorter than a time. -/
def Lasts (nanoseconds clockHz ticks : UInt32) : Prop :=
  nanoseconds.toNat * clockHz.toNat ≤ ticks.toNat * 1000000000

/-- A field that is given is the smallest dead time not shorter than the requested one, and not
shorter than that of a shorter request. -/
def KeepsDeadTime (nanoseconds clockHz : UInt32) : Prop :=
  ∀ field, encodeDeadTime (deadTimeTicks nanoseconds clockHz) = some field →
    IsLeast { ticks | Encodable ticks ∧ Lasts nanoseconds clockHz ticks } (decodeDeadTime field) ∧
    ∀ shorter ≤ nanoseconds, ∀ less, encodeDeadTime (deadTimeTicks shorter clockHz) = some less →
      decodeDeadTime less ≤ decodeDeadTime field

/-- The ticks fit into the 32 bits, or what is left of them is refused. -/
def TicksFit (nanoseconds clockHz : UInt32) : Prop :=
  wholeTicks nanoseconds clockHz < 2 ^ 32 ∨ 1008 < wholeTicks nanoseconds clockHz % 2 ^ 32

section

variable {nanoseconds clockHz : UInt32}

theorem wholeTicks_mono {shorter : UInt32} (ordered : shorter ≤ nanoseconds) :
    wholeTicks shorter clockHz ≤ wholeTicks nanoseconds clockHz := by
  rw [wholeTicks_le]
  have least := Nat.mul_le_mul_right clockHz.toNat (UInt32.le_iff_toNat_le.mp ordered)
  exact Nat.le_trans least (wholeTicks_le.mp (Nat.le_refl _))

theorem deadTimeTicks_le_iff (fits : wholeTicks nanoseconds clockHz < 2 ^ 32) (ticks : UInt32) :
    deadTimeTicks nanoseconds clockHz ≤ ticks ↔ Lasts nanoseconds clockHz ticks := by
  rw [UInt32.le_iff_toNat_le, deadTimeTicks_toNat, Nat.mod_eq_of_lt fits, wholeTicks_le]
  rfl

theorem isLeast_field (fits : wholeTicks nanoseconds clockHz < 2 ^ 32) {field : UInt8}
    (encoded : encodeDeadTime (deadTimeTicks nanoseconds clockHz) = some field) :
    IsLeast { ticks | Encodable ticks ∧ Lasts nanoseconds clockHz ticks } (decodeDeadTime field) := by
  constructor
  · have reached := (encodeDeadTime_le encoded field).mp (UInt8.le_refl field)
    exact ⟨⟨field, rfl⟩, (deadTimeTicks_le_iff fits _).mp reached⟩
  · rintro ticks ⟨⟨other, rfl⟩, lasts⟩
    have reached := (deadTimeTicks_le_iff fits _).mpr lasts
    exact decodeDeadTime_mono ((encodeDeadTime_le encoded other).mpr reached)

theorem shorter_field (fits : wholeTicks nanoseconds clockHz < 2 ^ 32) {field less : UInt8} {shorter : UInt32}
    (ordered : shorter ≤ nanoseconds) (encoded : encodeDeadTime (deadTimeTicks nanoseconds clockHz) = some field)
    (small : encodeDeadTime (deadTimeTicks shorter clockHz) = some less) :
    decodeDeadTime less ≤ decodeDeadTime field := by
  have fewer : wholeTicks shorter clockHz ≤ wholeTicks nanoseconds clockHz := wholeTicks_mono ordered
  have ticks : deadTimeTicks shorter clockHz ≤ deadTimeTicks nanoseconds clockHz := by
    rw [UInt32.le_iff_toNat_le, deadTimeTicks_toNat, deadTimeTicks_toNat, Nat.mod_eq_of_lt fits,
      Nat.mod_eq_of_lt (Nat.lt_of_le_of_lt fewer fits)]
    exact fewer
  have reached := (encodeDeadTime_le encoded field).mp (UInt8.le_refl field)
  exact decodeDeadTime_mono ((encodeDeadTime_le small field).mpr (UInt32.le_trans ticks reached))

end

theorem decodeDeadTime_le (dtg : UInt8) : (decodeDeadTime dtg).toNat ≤ 1008 := by
  rw [decodeDeadTime_toNat]
  exact ticksOf_mono (Nat.le_of_lt_succ dtg.toNat_lt)

theorem dead_time (nanoseconds clockHz : UInt32) :
    KeepsDeadTime nanoseconds clockHz ↔ TicksFit nanoseconds clockHz := by
  constructor
  · intro keeps
    by_contra unfit
    obtain ⟨beyond, left⟩ := not_or.mp unfit
    have given := encodeDeadTime_eq (deadTimeTicks nanoseconds clockHz)
    rw [deadTimeTicks_toNat, if_pos (Nat.le_of_not_lt left)] at given
    have lasts := (keeps _ given).1.1.2
    have few := Nat.le_trans (wholeTicks_le.mpr lasts) (decodeDeadTime_le _)
    exact beyond (Nat.lt_of_le_of_lt few (by decide))
  · rintro (fits | refused) field encoded
    · exact ⟨isLeast_field fits encoded, fun shorter ordered less small =>
        shorter_field fits ordered encoded small⟩
    · rw [encodeDeadTime_eq, deadTimeTicks_toNat, if_neg (Nat.not_le_of_lt refused)] at encoded
      cases encoded

/-- 4.3 s at 1 GHz and one Hertz are 2^32 + 4 ticks: the field is that of 4 ticks. -/
theorem dead_time_undercut :
    encodeDeadTime (deadTimeTicks 4294967295 1000000001) = some 4 ∧ decodeDeadTime 4 = 4 ∧
    ¬ Lasts 4294967295 1000000001 4 ∧
    encodeDeadTime (deadTimeTicks 100 1000000001) = some 101 ∧ decodeDeadTime 101 = 101 ∧
    ¬ ∀ nanoseconds clockHz, KeepsDeadTime nanoseconds clockHz := by
  refine ⟨by decide, by decide, by unfold Lasts; decide, by decide, by decide, ?_⟩
  intro keeps
  have lasts := (keeps 4294967295 1000000001 4 (by decide)).1.1.2
  exact absurd lasts (by unfold Lasts; decide)

end Unimoc.Hardware
