import Unimoc.Lib.CountedRing
import Unimoc.Lib.Resumption

/-! The queue from an interrupt to the thread that drains it, access by access. The interrupt comes
between two accesses of the thread and runs to its end. -/
namespace Unimoc.Ebike

open CountedRing Resumption

/-- Ticks of the counter in a second. -/
def timestampFrequency : Nat := 170000000

/-- The places wrap at the size, so that one slot stays free. -/
structure EdgeQueue (Entry : Type) where
  entries : List Entry
  head : Nat
  tail : Nat
  overruns : UInt32
deriving DecidableEq, Repr

namespace EdgeQueue

variable {Entry : Type} (size : Nat) (empty : Entry)

def create : EdgeQueue Entry := ⟨List.replicate size empty, 0, 0, 0⟩

def countOverrun (queue : EdgeQueue Entry) : EdgeQueue Entry := { queue with overruns := queue.overruns + 1 }

def setEntry (place : Nat) (entry : Entry) (queue : EdgeQueue Entry) : EdgeQueue Entry :=
  { queue with entries := queue.entries.set place entry }

def setHead (head : Nat) (queue : EdgeQueue Entry) : EdgeQueue Entry := { queue with head := head }

def setTail (tail : Nat) (queue : EdgeQueue Entry) : EdgeQueue Entry := { queue with tail := tail }

def push (entry : Entry) : Resumption (EdgeQueue Entry) Unit := do
  let head ← Resumption.read (·.head)
  let tail ← Resumption.read (·.tail)
  if (head + 1) % size = tail then modify countOverrun
  else
    modify (setEntry head entry)
    modify (setHead ((head + 1) % size))

def pop : Resumption (EdgeQueue Entry) (Option Entry) := do
  let tail ← Resumption.read (·.tail)
  let head ← Resumption.read (·.head)
  if tail = head then pure none
  else
    let entry ← Resumption.read fun queue => queue.entries.getD tail empty
    modify (setTail ((tail + 1) % size))
    pure (some entry)

/-- Oldest first. -/
def waiting (queue : EdgeQueue Entry) : List Entry :=
  contents empty queue.entries queue.tail ((queue.head + size - queue.tail) % size)

structure Carries (queue : EdgeQueue Entry) (held : List Entry) : Prop where
  slots : queue.entries.length = size
  inside : queue.tail < size
  room : held.length < size
  head : queue.head = (queue.tail + held.length) % size
  contents : contents empty queue.entries queue.tail held.length = held

/-! ### How far a pop has come -/

def release (tail : Nat) (entry : Entry) : Resumption (EdgeQueue Entry) (Option Entry) := do
  modify (setTail ((tail + 1) % size))
  pure (some entry)

def copyEntry (tail : Nat) : Resumption (EdgeQueue Entry) (Option Entry) := do
  let entry ← Resumption.read fun queue => queue.entries.getD tail empty
  release size tail entry

def compareHead (tail : Nat) : Resumption (EdgeQueue Entry) (Option Entry) := do
  let head ← Resumption.read (·.head)
  if tail = head then pure none else copyEntry size empty tail

/-- What is left of a pop. Nothing but this pop moves the tail. -/
inductive Popping (tail : Nat) (held : List Entry) : Resumption (EdgeQueue Entry) (Option Entry) → Prop
  | begun : Popping tail held (pop size empty)
  | loaded : Popping tail held (compareHead size empty tail)
  | found : held ≠ [] → Popping tail held (copyEntry size empty tail)
  | copied {entry : Entry} {others : List Entry} : held = entry :: others → Popping tail held (release size tail entry)

variable {size : Nat} {empty : Entry} {queue : EdgeQueue Entry} {held : List Entry}

theorem carries_create (pos : 0 < size) : Carries size empty (create size empty) [] :=
  ⟨List.length_replicate, pos, pos, (Nat.zero_mod size).symm, rfl⟩

theorem Popping.add {tail : Nat} {r : Resumption (EdgeQueue Entry) (Option Entry)}
    (popping : Popping size empty tail held r) (entry : Entry) : Popping size empty tail (held ++ [entry]) r := by
  cases popping with
  | begun => exact .begun
  | loaded => exact .loaded
  | found filled => exact .found (List.append_ne_nil_of_left_ne_nil filled _)
  | copied oldest => exact .copied (by rw [oldest]; rfl)

theorem Popping.exists_access {tail : Nat} {r : Resumption (EdgeQueue Entry) (Option Entry)}
    (popping : Popping size empty tail held r) : ∃ write next, r = .access write next := by
  cases popping <;> exact ⟨_, _, rfl⟩

theorem Carries.push (carries : Carries size empty queue held) (free : held.length + 1 < size) (entry : Entry) :
    Carries size empty ((push size entry).run queue).2 (held ++ [entry]) ∧
      ((EdgeQueue.push size entry).run queue).2.tail = queue.tail := by
  have inside := carries.inside
  have slots := carries.slots
  have next : (queue.head + 1) % size = (queue.tail + (held.length + 1)) % size := by
    rw [carries.head, Nat.mod_add_mod, Nat.add_assoc]
  have vacant : (queue.head + 1) % size ≠ queue.tail := by
    have apart := @slot_ne size queue.tail 0 (held.length + 1) (Nat.succ_pos _) free
    rw [Nat.add_zero, Nat.mod_eq_of_lt inside] at apart
    rw [next]
    exact apart.symm
  have pushed : ((EdgeQueue.push size entry).run queue).2 =
      { queue with entries := queue.entries.set queue.head entry, head := (queue.head + 1) % size } := by
    simp [EdgeQueue.push, vacant, setEntry, setHead]
  rw [pushed]
  refine ⟨⟨(List.length_set ..).trans slots, inside, ?_, ?_, ?_⟩, rfl⟩
  · rw [List.length_append]
    exact free
  · rw [List.length_append]
    exact next
  · change CountedRing.contents empty (queue.entries.set queue.head entry) queue.tail (held ++ [entry]).length = _
    rw [List.length_append, List.length_singleton, carries.head, ← slots,
      contents_store (by omega), carries.contents]

theorem Carries.free_of_vacant (carries : Carries size empty queue held)
    (vacant : (queue.head + 1) % size ≠ queue.tail) : held.length + 1 < size := by
  have inside := carries.inside
  have room := carries.room
  by_contra full
  apply vacant
  rw [carries.head, Nat.mod_add_mod, (by omega : queue.tail + held.length + 1 = queue.tail + size), Nat.add_mod_right,
    Nat.mod_eq_of_lt inside]

theorem Carries.oldest {entry : Entry} {others : List Entry} (carries : Carries size empty queue (entry :: others)) :
    queue.entries.getD queue.tail empty = entry ∧
      Carries size empty (setTail ((queue.tail + 1) % size) queue) others := by
  obtain ⟨slots, inside, room, head, contents⟩ := carries
  rw [List.length_cons, contents_take (slots ▸ inside), slots] at contents
  obtain ⟨oldest, left⟩ := List.cons.inj contents
  refine ⟨oldest, slots, Nat.mod_lt _ (Nat.zero_lt_of_lt inside), Nat.lt_of_succ_lt room, ?_, left⟩
  change queue.head = ((queue.tail + 1) % size + others.length) % size
  rw [head, Nat.mod_add_mod, Nat.add_assoc, Nat.add_comm 1, List.length_cons]

theorem Carries.tail_eq_head (carries : Carries size empty queue held) : queue.tail = queue.head ↔ held = [] := by
  have inside := carries.inside
  constructor
  · intro none
    by_contra filled
    have apart := @slot_ne size queue.tail 0 held.length (List.length_pos_iff.mpr filled) carries.room
    rw [Nat.add_zero, Nat.mod_eq_of_lt inside, ← carries.head] at apart
    exact apart none
  · rintro rfl
    rw [carries.head]
    exact (Nat.mod_eq_of_lt inside).symm

theorem Carries.waiting_eq (carries : Carries size empty queue held) : queue.waiting size empty = held := by
  have inside := carries.inside
  have room := carries.room
  have count : (queue.head + size - queue.tail) % size = held.length := by
    rw [carries.head]
    by_cases wraps : queue.tail + held.length < size
    · rw [Nat.mod_eq_of_lt wraps, (by omega : queue.tail + held.length + size - queue.tail = held.length + size),
        Nat.add_mod_right, Nat.mod_eq_of_lt room]
    · have place : (queue.tail + held.length) % size = queue.tail + held.length - size := by
        rw [Nat.mod_eq_sub_mod (Nat.le_of_not_lt wraps), Nat.mod_eq_of_lt (by omega)]
      rw [place, (by omega : queue.tail + held.length - size + size - queue.tail = held.length), Nat.mod_eq_of_lt room]
  rw [waiting, count, carries.contents]

/-- One access of a pop: it goes on, it finds the queue empty, or it has taken the oldest entry. -/
theorem Popping.step {write : EdgeQueue Entry → EdgeQueue Entry}
    {next : EdgeQueue Entry → Resumption (EdgeQueue Entry) (Option Entry)} (carries : Carries size empty queue held)
    (popping : Popping size empty queue.tail held (.access write next)) :
    (∃ write' next', next queue = .access write' next' ∧ write queue = queue ∧
        Popping size empty queue.tail held (.access write' next')) ∨
      (next queue = .done none ∧ write queue = queue ∧ held = []) ∨
      ∃ entry others, next queue = .done (some entry) ∧ held = entry :: others ∧
        Carries size empty (write queue) others := by
  generalize whole : Resumption.access write next = r at popping
  cases popping with
  | begun =>
    cases whole
    exact .inl ⟨_, _, rfl, rfl, .loaded⟩
  | loaded =>
    cases whole
    by_cases none : queue.tail = queue.head
    · exact .inr (.inl ⟨if_pos none, rfl, carries.tail_eq_head.mp none⟩)
    · exact .inl ⟨_, _, if_neg none, rfl, .found (none ∘ carries.tail_eq_head.mpr)⟩
  | found filled =>
    cases whole
    obtain ⟨entry, others, rfl⟩ := List.exists_cons_of_ne_nil filled
    exact .inl ⟨_, _, rfl, rfl, .copied (congrArg (· :: others) carries.oldest.1.symm)⟩
  | copied oldest =>
    cases whole
    subst oldest
    exact .inr (.inr ⟨_, _, rfl, rfl, carries.oldest.2⟩)

end EdgeQueue

theorem sorted_capture {α : Type} {time : α → ℤ} {captured : List α} {newest : α} {now : ℤ}
    (sorted : captured.Pairwise fun older newer => time older ≤ time newer) (past : ∀ seen ∈ captured, time seen ≤ now)
    (later : now ≤ time newest) : (captured ++ [newest]).Pairwise fun older newer => time older ≤ time newer := by
  refine List.pairwise_append.mpr ⟨sorted, List.pairwise_singleton .., fun seen listed => ?_⟩
  exact List.forall_mem_singleton.mpr ((past seen listed).trans later)

end Unimoc.Ebike
