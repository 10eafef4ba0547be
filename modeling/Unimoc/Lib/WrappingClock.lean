import Mathlib.Algebra.Group.Int.Defs
import Mathlib.Algebra.Group.Nat.Defs
import Mathlib.Order.Lattice

/-! A clock whose counter of 32 bits wraps, and the saturated age of an event that is dated by it. -/
namespace WrappingClock

/-- The counter at a time. -/
def stamp (time : ℤ) : UInt32 := UInt32.ofInt time

/-- Differences of stamps up to here are true ones. -/
def Near (earlier later : ℤ) : Prop := -2 ^ 31 ≤ later - earlier ∧ later - earlier < 2 ^ 31

instance (earlier later : ℤ) : Decidable (Near earlier later) :=
  inferInstanceAs (Decidable (_ ∧ _))

theorem stamp_natCast (time : ℕ) : stamp time = UInt32.ofNat time := by
  have whole : ((time : ℤ) % 2 ^ 32).toNat = time % 2 ^ 32 := by omega
  rw [stamp, UInt32.ofInt, whole]
  exact UInt32.ofNat_mod_size

theorem stamp_sub (later earlier : ℤ) : stamp later - stamp earlier = stamp (later - earlier) := by
  have back : stamp (later - earlier) + stamp earlier = stamp later := by
    unfold stamp
    rw [← UInt32.ofInt_add, Int.sub_add_cancel]
  rw [← back, UInt32.add_sub_cancel]

theorem toNat_stamp (time : ℤ) : ((stamp time).toNat : ℤ) = time % 2 ^ 32 := by
  have whole := UInt32.toNat_ofNat' (n := (time % 2 ^ 32).toNat)
  have least := Int.emod_nonneg time (by decide : (2 ^ 32 : ℤ) ≠ 0)
  have most := Int.emod_lt_of_pos time (by decide : (0 : ℤ) < 2 ^ 32)
  change ((UInt32.ofNat (time % 2 ^ 32).toNat).toNat : ℤ) = _
  rw [whole]
  omega

theorem toInt_stamp (time : ℤ) : (stamp time).toInt32.toInt = time.bmod (2 ^ 32) := by
  have bits : (stamp time).toBitVec = BitVec.ofInt 32 time := by
    apply BitVec.eq_of_toNat_eq
    rw [BitVec.toNat_ofInt, UInt32.toNat_toBitVec]
    exact UInt32.toNat_ofNat'.trans (Nat.mod_eq_of_lt (by omega))
  rw [Int32.toInt, UInt32.toBitVec_toInt32, bits, BitVec.toInt_ofInt]

theorem toInt_sub {earlier later : ℤ} (near : Near earlier later) :
    (stamp later - stamp earlier).toInt32.toInt = later - earlier := by
  obtain ⟨least, most⟩ := near
  rw [stamp_sub, toInt_stamp]
  exact Int.bmod_eq_of_le (by omega) (by omega)

theorem toNat_sub {earlier later : ℤ} (order : earlier ≤ later) (near : later < earlier + 2 ^ 32) :
    ((stamp later - stamp earlier).toNat : ℤ) = later - earlier := by
  rw [stamp_sub, toNat_stamp]
  exact Int.emod_eq_of_lt (by omega) (by omega)

theorem toNat_sub_back {earlier later : ℤ} (order : earlier < later) (near : later ≤ earlier + 2 ^ 32) :
    ((stamp earlier - stamp later).toNat : ℤ) = 2 ^ 32 - (later - earlier) := by
  rw [stamp_sub, toNat_stamp]
  omega

/-! ### Saturated ages -/

variable {limit : ℤ}

/-- From where the age counts once it is no older than the limit. -/
def refreshed (limit reference counted : ℤ) : ℤ := if limit < reference - counted then reference - limit else counted

/-- The age counts from the event, or from a later time that is as old as the limit. -/
def Counts (limit event counted reference : ℤ) : Prop :=
  counted = event ∨ event ≤ counted ∧ counted + limit ≤ reference

section Counts

variable {event counted reference : ℤ} (counts : Counts limit event counted reference)
include counts

theorem Counts.later {reference' : ℤ} (later : reference ≤ reference') : Counts limit event counted reference' := by
  rcases counts with equal | ⟨after, old⟩
  · exact .inl equal
  · exact .inr ⟨after, old.trans later⟩

theorem Counts.refresh : Counts limit event (refreshed limit reference counted) reference := by
  unfold refreshed
  rcases counts with rfl | ⟨after, old⟩
  · split_ifs with older
    · exact .inr (by omega)
    · exact .inl rfl
  · split_ifs with older
    · exact .inr (by omega)
    · exact .inr ⟨after, old⟩

theorem Counts.age : reference - refreshed limit reference counted = min (reference - event) limit := by
  unfold refreshed
  rcases counts with rfl | ⟨after, old⟩
  · split_ifs with older
    · rw [min_eq_right older.le]
      omega
    · rw [min_eq_left (not_lt.mp older)]
  · rw [min_eq_right (by omega)]
    split_ifs with older
    · omega
    · omega

end Counts

end WrappingClock
