import Mathlib.Data.List.Basic
import Mathlib.Data.Nat.ModEq

/-! A ring between one side that adds and one that takes, by two counters of 32 bits that run
free and wrap. -/
namespace RingQueue

/-- A power of two, as programs check it. -/
structure Capacity (size : UInt32) : Prop where
  nonzero : size ≠ 0
  power : size &&& (size - 1) = 0

/-- The slot of a counter. -/
def slot (size counter : UInt32) : Nat := (counter &&& (size - 1)).toNat

/-- The counter after so many steps. -/
def after (base : UInt32) (steps : Nat) : UInt32 := base + UInt32.ofNat steps

theorem after_succ (base : UInt32) (steps : Nat) : after base steps + 1 = after base (steps + 1) := by
  unfold after
  rw [UInt32.add_assoc, ← UInt32.ofNat_one, ← UInt32.ofNat_add]

theorem after_after (base : UInt32) (first second : Nat) : after (after base first) second = after base (first + second) := by
  unfold after
  rw [UInt32.add_assoc, ← UInt32.ofNat_add]

theorem toNat_after (base : UInt32) (steps : Nat) : (after base steps).toNat = (base.toNat + steps) % 2 ^ 32 := by
  unfold after
  rw [UInt32.toNat_add, UInt32.toNat_ofNat', Nat.add_mod_mod]

/-- The difference of two counters is the number of steps between them. -/
theorem distance {base : UInt32} {earlier later : Nat} (order : earlier ≤ later) (near : later < earlier + 2 ^ 32) :
    (after base later - after base earlier).toNat = later - earlier := by
  have base_lt := base.toNat_lt
  rw [UInt32.toNat_sub, toNat_after, toNat_after]
  omega

theorem after_inj {base : UInt32} {earlier later : Nat} (order : earlier ≤ later) (near : later < earlier + 2 ^ 32)
    (same : after base later = after base earlier) : earlier = later := by
  have gone := @distance base earlier later order near
  rw [same, UInt32.sub_self, UInt32.toNat_zero] at gone
  omega

namespace Capacity

variable {size : UInt32} (capacity : Capacity size)
include capacity

theorem toNat_pos : 0 < size.toNat := by
  rw [Nat.pos_iff_ne_zero]
  exact fun zero => capacity.nonzero (UInt32.toNat_inj.mp zero)

theorem exists_power : ∃ k ≤ 32, size.toNat = 2 ^ k := by
  have pos := capacity.toNat_pos
  have inside := size.toNat_lt
  have bits : size.toNat &&& (size.toNat - 1) = 0 := by
    have zero := congrArg UInt32.toNat capacity.power
    have one : (1 : UInt32) ≤ size := by
      rw [UInt32.le_iff_toNat_le]
      exact pos
    rwa [UInt32.toNat_and, UInt32.toNat_sub_of_le _ _ one, UInt32.toNat_zero] at zero
  obtain ⟨k, power⟩ := (Nat.and_sub_one_eq_zero_iff_isPowerOfTwo pos.ne').mp bits
  refine ⟨k, ?_, power⟩
  by_contra large
  have grown := Nat.pow_le_pow_right (by decide : 0 < 2) (by omega : 33 ≤ k)
  omega

theorem slot_after (base : UInt32) (steps : Nat) : slot size (after base steps) = (base.toNat + steps) % size.toNat := by
  obtain ⟨k, small, power⟩ := capacity.exists_power
  have one : (1 : UInt32) ≤ size := by
    rw [UInt32.le_iff_toNat_le]
    exact capacity.toNat_pos
  unfold slot
  rw [UInt32.toNat_and, UInt32.toNat_sub_of_le _ _ one, UInt32.toNat_one, power, Nat.and_two_pow_sub_one_eq_mod,
    toNat_after, Nat.mod_mod_of_dvd _ (Nat.pow_dvd_pow 2 small)]

theorem slot_lt (base : UInt32) (steps : Nat) : slot size (after base steps) < size.toNat := by
  rw [capacity.slot_after]
  exact Nat.mod_lt _ capacity.toNat_pos

theorem slot_ne {base : UInt32} {earlier later : Nat} (order : earlier < later) (near : later < earlier + size.toNat) :
    slot size (after base later) ≠ slot size (after base earlier) := by
  rw [capacity.slot_after, capacity.slot_after]
  intro same
  have congruent : base.toNat + earlier ≡ base.toNat + later [MOD size.toNat] := same.symm
  have apart := (Nat.modEq_iff_dvd' (by omega)).mp congruent
  have far := Nat.le_of_dvd (by omega) apart
  omega

end Capacity

variable {α : Type*} {size base : UInt32} {slots : List α} {taken : Nat} {added : List α}

/-- The ring carries what has been added and not been taken. -/
structure Carries (size base : UInt32) (slots : List α) (taken : Nat) (added : List α) : Prop where
  room : slots.length = size.toNat
  order : taken ≤ added.length
  within : added.length ≤ taken + size.toNat
  found : ∀ i, taken ≤ i → i < added.length → slots[slot size (after base i)]? = added[i]?

/-- What is in the ring, oldest first. -/
def queued (size : UInt32) (empty : α) (slots : List α) (head tail : UInt32) : List α :=
  (List.range (head - tail).toNat).map fun i => slots.getD (slot size (after tail i)) empty

namespace Carries

variable (capacity : Capacity size) (carries : Carries size base slots taken added)
include capacity carries

omit capacity in
theorem gap : (after base added.length - after base taken).toNat = added.length - taken := by
  have within := carries.within
  have inside := size.toNat_lt
  exact distance carries.order (by omega)

omit capacity in
theorem free_iff : ¬size ≤ after base added.length - after base taken ↔ added.length < taken + size.toNat := by
  have order := carries.order
  rw [UInt32.le_iff_toNat_le, carries.gap]
  omega

omit capacity in
theorem empty_iff : after base added.length = after base taken ↔ taken = added.length := by
  have within := carries.within
  have inside := size.toNat_lt
  exact ⟨fun same => after_inj carries.order (by omega) same, fun same => by rw [same]⟩

omit capacity in
theorem oldest (queued : taken < added.length) (empty : α) :
    slots.getD (slot size (after base taken)) empty = added[taken] := by
  rw [List.getD_eq_getElem?_getD, carries.found taken le_rfl queued, List.getElem?_eq_getElem queued, Option.getD_some]

theorem write (free : added.length < taken + size.toNat) (value : α) :
    Carries size base (slots.set (slot size (after base added.length)) value) taken added ∧
      (slots.set (slot size (after base added.length)) value)[slot size (after base added.length)]? = some value := by
  have inside := capacity.slot_lt base added.length
  have room := carries.room
  refine ⟨⟨by rw [List.length_set, room], carries.order, carries.within, fun i untaken old => ?_⟩, ?_⟩
  · rw [List.getElem?_set_ne (capacity.slot_ne old (by omega))]
    exact carries.found i untaken old
  · rw [List.getElem?_set_self (by omega)]

omit capacity in
theorem add (free : added.length < taken + size.toNat) {value : α}
    (written : slots[slot size (after base added.length)]? = some value) :
    Carries size base slots taken (added ++ [value]) := by
  refine ⟨carries.room, ?_, ?_, fun i untaken old => ?_⟩
  · rw [List.length_append]
    exact carries.order.trans (Nat.le_add_right ..)
  · rw [List.length_append]
    exact free
  · rw [List.length_append, List.length_singleton] at old
    rcases Nat.lt_succ_iff_lt_or_eq.mp old with older | newest
    · rw [List.getElem?_append_left older]
      exact carries.found i untaken older
    · rw [newest, written, List.getElem?_concat_length]

omit capacity in
theorem takeTo {place : Nat} (behind : taken ≤ place) (inside : place ≤ added.length) :
    Carries size base slots place added :=
  ⟨carries.room, inside, carries.within.trans (by omega), fun i untaken old => carries.found i (by omega) old⟩

omit capacity in
theorem take (left : taken < added.length) : Carries size base slots (taken + 1) added :=
  carries.takeTo (Nat.le_succ _) left

omit capacity in
theorem queued_eq (empty : α) :
    queued size empty slots (after base added.length) (after base taken) = added.drop taken := by
  apply List.ext_getElem?
  intro i
  unfold queued
  rw [carries.gap, List.getElem?_map, List.getElem?_drop]
  by_cases old : i < added.length - taken
  · rw [List.getElem?_range old, Option.map_some, after_after, List.getD_eq_getElem?_getD,
      carries.found _ (by omega) (by omega), List.getElem?_eq_getElem (by omega), Option.getD_some]
  · rw [List.getElem?_eq_none (by rw [List.length_range]; omega), List.getElem?_eq_none (by omega)]
    rfl

end Carries

end RingQueue
