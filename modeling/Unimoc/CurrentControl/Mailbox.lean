import Mathlib.Algebra.Group.Nat.Defs
import Unimoc.Lib.Copies
import Unimoc.Lib.Runs

/-! Lock-free hand-over of a value between two priority levels, access by access: a word of
a value, the index and the sequence are one access each, and whatever has the higher
priority may come between any two. -/
namespace Unimoc.CurrentControl

open Resumption

variable {Word W : Type} [DecidableEq Word]

/-! ### What the two sides see -/

/-- A value that a Read returned, with the number of values published when the Read began
and when it ended. -/
structure Reading (V : Type) where
  value : V
  began : Nat
  ended : Nat

/-- Newest first. A value is published once its Write has returned; the value the hand-over
was made with is the first one. -/
structure History (V : Type) where
  published : List V
  readings : List (Reading V)

namespace History

variable {V : Type}

def publish (value : V) (h : History V) : History V := { h with published := value :: h.published }

def answer (value : V) (began : Nat) (h : History V) : History V :=
  { h with readings := ⟨value, began, h.published.length⟩ :: h.readings }

/-- The last published value when `count` values were. -/
def lastAt (h : History V) (count : Nat) : Option V := h.published[h.published.length - count]?

end History

/-- Each Read returns the value that was the last published one when it ended, and no Read
begins before an earlier one has ended, so that what the Reads return never goes back. -/
structure Delivered {V : Type} (h : History V) : Prop where
  last : ∀ r ∈ h.readings, h.lastAt r.ended = some r.value
  during : ∀ r ∈ h.readings, 0 < r.began ∧ r.began ≤ r.ended ∧ r.ended ≤ h.published.length
  inOrder : h.readings.Pairwise fun later earlier => earlier.ended ≤ later.began

section Delivered

variable {V : Type} {h : History V}

theorem Delivered.initial (value : V) : Delivered ⟨[value], []⟩ := by
  constructor <;> simp

theorem lastAt_publish (value : V) {count : Nat} (counted : count ≤ h.published.length) :
    (h.publish value).lastAt count = h.lastAt count := by
  unfold History.lastAt History.publish
  have shifted : (value :: h.published).length - count = h.published.length - count + 1 := by
    rw [List.length_cons]
    omega
  rw [shifted, List.getElem?_cons_succ]

theorem Delivered.publish (delivered : Delivered h) (value : V) : Delivered (h.publish value) := by
  constructor
  · intro r returned
    rw [lastAt_publish value (delivered.during r returned).2.2]
    exact delivered.last r returned
  · intro r returned
    have counted := delivered.during r returned
    simp only [History.publish, List.length_cons]
    omega
  · exact delivered.inOrder

/-- A Read that ends with the last published value in its hands. -/
theorem Delivered.answer (delivered : Delivered h) {value : V} {began : Nat}
    (newest : h.published.head? = some value) (positive : 0 < began) (past : began ≤ h.published.length)
    (since : ∀ r ∈ h.readings, r.ended ≤ began) : Delivered (h.answer value began) := by
  constructor
  · intro r returned
    rcases List.mem_cons.mp returned with rfl | earlier
    · simpa [History.lastAt, History.answer, List.head?_eq_getElem?] using newest
    · exact delivered.last r earlier
  · intro r returned
    rcases List.mem_cons.mp returned with rfl | earlier
    · exact ⟨positive, past, Nat.le_refl _⟩
    · exact delivered.during r earlier
  · exact List.pairwise_cons.mpr ⟨since, delivered.inOrder⟩

end Delivered

/-! ### `Mailbox`: a low writer, a high reader -/

/-- `slots` is an array of two. -/
structure Mailbox (Word W : Type) where
  slots : UInt8 → Word → W
  active : UInt8

namespace Mailbox

def setWord (slot : UInt8) (word : Word) (w : W) (m : Mailbox Word W) : Mailbox Word W :=
  { m with slots := Function.update m.slots slot (Function.update (m.slots slot) word w) }

def setActive (slot : UInt8) (m : Mailbox Word W) : Mailbox Word W := { m with active := slot }

variable (layout : Layout Word) (memory : Word → W)

def write (value : Word → W) : Resumption (Mailbox Word W) Unit := do
  let active ← Resumption.read (·.active)
  let next := 1 - active
  copyIn (setWord next) value layout.order
  modify (setActive next)

/-- `memory` is what the memory of the answer holds before the copy. -/
def read : Resumption (Mailbox Word W) (Word → W) := do
  let active ← Resumption.read (·.active)
  copyOut (fun m => m.slots active) layout.order memory

/-- `writer` is the value of the Write under way and what is left of it. -/
structure System (Word W : Type) where
  mailbox : Mailbox Word W
  writer : Option ((Word → W) × Resumption (Mailbox Word W) Unit)
  history : History (Word → W)

/-- The writer calls `Write` or makes its next access; the reader runs a whole `Read`. -/
inductive Event (Word W : Type)
  | write (value : Word → W)
  | step
  | read

namespace System

def step (s : System Word W) : System Word W :=
  match s.writer with
  | some (value, .access store next) =>
    match next s.mailbox with
    | .done _ => ⟨store s.mailbox, none, s.history.publish value⟩
    | rest => { s with mailbox := store s.mailbox, writer := some (value, rest) }
  | _ => s

def next (s : System Word W) : Event Word W → System Word W
  | .write value => { s with writer := some (value, Mailbox.write layout value) }
  | .step => s.step
  | .read =>
    let (value, mailbox) := (Mailbox.read layout memory).run s.mailbox
    { s with mailbox, history := s.history.answer value s.history.published.length }

end System

/-- Every order of a single writer's accesses and of Reads that run to completion. -/
def machine (initial : Word → W) : Runs.Machine (System Word W) (Event Word W) where
  start := ⟨⟨fun _ => initial, 0⟩, none, ⟨[initial], []⟩⟩
  next := System.next layout memory
  admits s
    | .write _ => s.writer.isNone
    | .step => s.writer.isSome
    | .read => True

instance (initial : Word → W) (s : System Word W) :
    ∀ e, Decidable ((machine layout memory initial).admits s e)
  | .write _ => inferInstanceAs (Decidable (s.writer.isNone = true))
  | .step => inferInstanceAs (Decidable (s.writer.isSome = true))
  | .read => inferInstanceAs (Decidable True)

/-! #### What a Read finds -/

/-- What is left of a Write once it knows its slot. -/
def fill (slot : UInt8) (value : Word → W) (rest : List Word) : Resumption (Mailbox Word W) Unit := do
  copyIn (setWord slot) value rest
  modify (setActive slot)

/-- How far a Write has come. Its slot is the one that is not read. -/
def Underway (m : Mailbox Word W) (value : Word → W) (r : Resumption (Mailbox Word W) Unit) : Prop :=
  r = write layout value ∨
    ∃ rest, r = fill (1 - m.active) value rest ∧ Agrees rest (m.slots (1 - m.active)) value

structure Consistent (s : System Word W) : Prop where
  inRange : s.mailbox.active = 0 ∨ s.mailbox.active = 1
  newest : s.history.published.head? = some (s.mailbox.slots s.mailbox.active)
  underway : ∀ value r, s.writer = some (value, r) → Underway layout s.mailbox value r
  delivered : Delivered s.history

variable {layout memory}

theorem other_ne {active : UInt8} (inRange : active = 0 ∨ active = 1) : active ≠ 1 - active := by
  rcases inRange with rfl | rfl <;> decide

theorem other_inRange {active : UInt8} (inRange : active = 0 ∨ active = 1) :
    1 - active = 0 ∨ 1 - active = 1 := by
  rcases inRange with rfl | rfl <;> decide

theorem copyOut_run (slot : UInt8) (words : List Word) (memory : Word → W) (m : Mailbox Word W)
    (agrees : Agrees words memory (m.slots slot)) :
    (copyOut (fun m : Mailbox Word W => m.slots slot) words memory).run m = (m.slots slot, m) := by
  induction words generalizing memory with
  | nil => rw [copyOut, run_pure, agrees.finished]
  | cons first rest ih =>
    simp only [copyOut, run_bind, run_read]
    exact ih _ agrees.move

theorem read_run (m : Mailbox Word W) :
    (read layout memory).run m = (m.slots m.active, m) := by
  simp only [read, run_bind, run_read]
  exact copyOut_run m.active layout.order memory m (agrees_start layout _ _)

theorem write_eq (value : Word → W) :
    write layout value = access id fun m => fill (1 - m.active) value layout.order := rfl

theorem step_more {s : System Word W} {value : Word → W} {store : Mailbox Word W → Mailbox Word W}
    {after : Mailbox Word W → Resumption (Mailbox Word W) Unit} {slot : UInt8} {rest : List Word}
    (writing : s.writer = some (value, .access store after)) (more : after s.mailbox = fill slot value rest) :
    s.step = { s with mailbox := store s.mailbox, writer := some (value, fill slot value rest) } := by
  unfold System.step
  rw [writing]
  simp only [more]
  cases rest with
  | nil => rfl
  | cons word rest => rfl

theorem Consistent.step {s : System Word W} (consistent : Consistent layout s) :
    Consistent layout s.step := by
  obtain ⟨inRange, newest, underway, delivered⟩ := consistent
  have apart := other_ne inRange
  rcases writing : s.writer with _ | ⟨value, r⟩
  · have idle : s.step = s := by
      unfold System.step
      rw [writing]
    rw [idle]
    exact ⟨inRange, newest, underway, delivered⟩
  · rcases underway value r writing with start | ⟨rest, start, agrees⟩
    · -- the index is loaded, nothing is copied yet
      subst start
      rw [step_more (writing.trans (congrArg some (Prod.ext rfl (write_eq value)))) rfl]
      constructor
      · exact inRange
      · exact newest
      · rintro _ _ ⟨⟩
        exact .inr ⟨layout.order, rfl, agrees_start layout _ _⟩
      · exact delivered
    · subst start
      cases rest with
      | cons word rest =>
        rw [step_more writing (show _ = fill _ value rest from rfl)]
        constructor
        · exact inRange
        · change s.history.published.head? = some (Function.update s.mailbox.slots _ _ s.mailbox.active)
          rw [Function.update_of_ne apart]
          exact newest
        · rintro _ _ ⟨⟩
          refine .inr ⟨rest, rfl, ?_⟩
          change Agrees rest
            (Function.update s.mailbox.slots (1 - s.mailbox.active) _ (1 - s.mailbox.active)) value
          rw [Function.update_self]
          exact agrees.move
        · exact delivered
      | nil =>
        -- the index flips: the slot that is now read holds the whole value
        have published : s.step =
            ⟨setActive (1 - s.mailbox.active) s.mailbox, none, s.history.publish value⟩ := by
          unfold System.step
          rw [writing]
          rfl
        rw [published]
        constructor
        · exact other_inRange inRange
        · exact congrArg some agrees.finished.symm
        · rintro _ _ ⟨⟩
        · exact delivered.publish value

theorem Consistent.next {s : System Word W} (consistent : Consistent layout s) (e : Event Word W) :
    Consistent layout (s.next layout memory e) := by
  cases e with
  | write value =>
    refine ⟨consistent.inRange, consistent.newest, ?_, consistent.delivered⟩
    rintro _ _ ⟨⟩
    exact .inl rfl
  | step => exact consistent.step
  | read =>
    simp only [System.next, read_run]
    refine ⟨consistent.inRange, consistent.newest, consistent.underway, ?_⟩
    refine consistent.delivered.answer consistent.newest ?_ (Nat.le_refl _) ?_
    · cases published : s.history.published with
      | nil => exact absurd consistent.newest (by simp [published])
      | cons _ _ => simp
    · intro r returned
      exact (consistent.delivered.during r returned).2.2

theorem consistent_start (initial : Word → W) :
    Consistent layout (machine layout memory initial).start := by
  constructor
  · exact .inl rfl
  · rfl
  · rintro _ _ ⟨⟩
  · exact .initial initial

theorem consistent (initial : Word → W) (trace : List (Event Word W)) :
    Consistent layout ((machine layout memory initial).replay trace) :=
  Runs.Machine.stays (Consistent layout) (consistent_start initial) (fun _ e kept => kept.next e) trace

end Mailbox

/-! ### `SeqLock`: a high writer, a low reader -/

structure SeqLock (Word W : Type) where
  value : Word → W
  sequence : UInt32

namespace SeqLock

def setWord (word : Word) (w : W) (l : SeqLock Word W) : SeqLock Word W :=
  { l with value := Function.update l.value word w }

def setSequence (sequence : UInt32) (l : SeqLock Word W) : SeqLock Word W := { l with sequence }

variable (layout : Layout Word) (memory : Word → W)

def write (value : Word → W) : Resumption (SeqLock Word W) Unit := do
  let sequence ← Resumption.read (·.sequence)
  modify (setSequence (sequence + 1))
  copyIn setWord value layout.order
  modify (setSequence (sequence + 2))

/-- One round of the loop of `Read`. Nothing sends it round again. -/
def attempt : Resumption (SeqLock Word W) (Option (Word → W)) := do
  let before ← Resumption.read (·.sequence)
  if before &&& 1 ≠ 0 then pure none
  else
    let copy ← copyOut (·.value) layout.order memory
    let after ← Resumption.read (·.sequence)
    pure (if after = before then some copy else none)

/-- `reader` is what was published when the Read under way began, and what is left of its
round. -/
structure System (Word W : Type) where
  lock : SeqLock Word W
  reader : Option (Nat × Resumption (SeqLock Word W) (Option (Word → W)))
  history : History (Word → W)

/-- The writer runs a whole `Write`; the reader calls `Read` or makes its next access. -/
inductive Event (Word W : Type)
  | write (value : Word → W)
  | read
  | step

namespace System

def step (s : System Word W) : System Word W :=
  match s.reader with
  | some (began, .access store next) =>
    match next s.lock with
    | .done (some value) => ⟨store s.lock, none, s.history.answer value began⟩
    | .done none => { s with lock := store s.lock, reader := some (began, attempt layout memory) }
    | rest => { s with lock := store s.lock, reader := some (began, rest) }
  | _ => s

def next (s : System Word W) : Event Word W → System Word W
  | .write value =>
    { s with lock := ((SeqLock.write layout value).run s.lock).2, history := s.history.publish value }
  | .read => { s with reader := some (s.history.published.length, attempt layout memory) }
  | .step => s.step layout memory

/-- A Read under way sees fewer than 2^31 writes. -/
def writable (s : System Word W) : Bool :=
  match s.reader with
  | none => true
  | some (began, _) => s.history.published.length + 1 < began + 2 ^ 31

end System

/-- Every order of a single reader's accesses and of Writes that run to completion. -/
def machine (initial : Word → W) : Runs.Machine (System Word W) (Event Word W) where
  start := ⟨⟨initial, 0⟩, none, ⟨[initial], []⟩⟩
  next := System.next layout memory
  admits s
    | .write _ => s.writable
    | .read => s.reader.isNone
    | .step => s.reader.isSome

instance (initial : Word → W) (s : System Word W) :
    ∀ e, Decidable ((machine layout memory initial).admits s e)
  | .write _ => inferInstanceAs (Decidable (s.writable = true))
  | .read => inferInstanceAs (Decidable (s.reader.isNone = true))
  | .step => inferInstanceAs (Decidable (s.reader.isSome = true))

/-! #### What a Read finds -/

/-- What is left of a round once it knows the sequence. -/
def copying (before : UInt32) (copy : Word → W) (rest : List Word) :
    Resumption (SeqLock Word W) (Option (Word → W)) := do
  let copy ← copyOut (·.value) rest copy
  let after ← Resumption.read (·.sequence)
  pure (if after = before then some copy else none)

/-- The sequence after so many published values, the first of which was never written. -/
def sequenceAt (count : Nat) : UInt32 := .ofNat (2 * (count - 1))

/-- How far a Read has come: before its round, or in a round that began when `loaded` values
were published. The copy is of one value as long as no other is published. -/
def Underway (s : System Word W) (began : Nat)
    (r : Resumption (SeqLock Word W) (Option (Word → W))) : Prop :=
  r = attempt layout memory ∨
    ∃ loaded copy rest, began ≤ loaded ∧ loaded ≤ s.history.published.length ∧
      rest.length ≤ layout.order.length ∧ r = copying (sequenceAt loaded) copy rest ∧
      (loaded = s.history.published.length → Agrees rest copy s.lock.value)

structure Consistent (s : System Word W) : Prop where
  newest : s.history.published.head? = some s.lock.value
  sequence : s.lock.sequence = sequenceAt s.history.published.length
  delivered : Delivered s.history
  began : ∀ began r, s.reader = some (began, r) → 0 < began ∧ began ≤ s.history.published.length ∧
    s.history.published.length < began + 2 ^ 31 ∧ ∀ earlier ∈ s.history.readings, earlier.ended ≤ began
  underway : ∀ began r, s.reader = some (began, r) → Underway layout memory s began r

variable {layout memory}

theorem sequenceAt_even (count : Nat) : sequenceAt count &&& 1 = 0 := by
  apply UInt32.toNat_inj.mp
  rw [UInt32.toNat_and, sequenceAt, UInt32.toNat_ofNat']
  change 2 * (count - 1) % 2 ^ 32 &&& 1 = 0
  rw [Nat.and_one_is_mod]
  omega

/-- The sequence comes back after 2^31 writes at the earliest. -/
theorem sequenceAt_injective {first last : Nat} (positive : 0 < first) (ordered : first ≤ last)
    (few : last < first + 2 ^ 31) (same : sequenceAt last = sequenceAt first) : first = last := by
  have wrapped := UInt32.toNat_inj.mpr same
  simp only [sequenceAt, UInt32.toNat_ofNat'] at wrapped
  omega

theorem sequenceAt_succ {count : Nat} (positive : 0 < count) :
    sequenceAt count + 2 = sequenceAt (count + 1) := by
  apply UInt32.toNat_inj.mp
  rw [UInt32.toNat_add]
  simp only [sequenceAt, UInt32.toNat_ofNat']
  change (_ + 2) % 2 ^ 32 = _
  omega

theorem write_run (value : Word → W) (l : SeqLock Word W) :
    ((write layout value).run l).2 = ⟨value, l.sequence + 2⟩ := by
  have moved := run_copyIn (S := SeqLock Word W) setWord (·.value) (fun _ _ _ => rfl) value layout.order
    (setSequence (l.sequence + 1) l)
  simp only [layout.complete, if_true] at moved
  simp only [write, run_bind, run_read, run_modify]
  exact congrArg (SeqLock.mk · (l.sequence + 2)) moved

theorem attempt_eq : (attempt layout memory : Resumption (SeqLock Word W) _) = access id fun l =>
    if l.sequence &&& 1 ≠ 0 then done none else copying l.sequence memory layout.order := rfl

theorem copying_nil (before : UInt32) (copy : Word → W) : copying before copy [] =
    access id fun l => done (if l.sequence = before then some copy else none) := rfl

theorem step_more {s : System Word W} {began : Nat}
    {after : SeqLock Word W → Resumption (SeqLock Word W) (Option (Word → W))} {before : UInt32}
    {copy : Word → W} {rest : List Word} (reading : s.reader = some (began, .access id after))
    (more : after s.lock = copying before copy rest) :
    s.step layout memory = { s with reader := some (began, copying before copy rest) } := by
  unfold System.step
  rw [reading]
  simp only [more]
  cases rest with
  | nil => rfl
  | cons word rest => rfl

theorem step_last {s : System Word W} {began : Nat} {before : UInt32} {copy : Word → W}
    (reading : s.reader = some (began, copying before copy [])) :
    s.step layout memory =
      if s.lock.sequence = before then ⟨s.lock, none, s.history.answer copy began⟩
      else { s with reader := some (began, attempt layout memory) } := by
  unfold System.step
  rw [reading, copying_nil]
  by_cases same : s.lock.sequence = before
  · simp only [same, if_true]
    rfl
  · simp only [same, if_false]
    rfl

theorem step_first {s : System Word W} (consistent : Consistent layout memory s) {began : Nat}
    (reading : s.reader = some (began, attempt layout memory)) :
    s.step layout memory =
      { s with reader := some (began, copying s.lock.sequence memory layout.order) } := by
  refine step_more (reading.trans (congrArg (fun r => some (began, r)) attempt_eq)) ?_
  have even : s.lock.sequence &&& 1 = 0 := by
    rw [consistent.sequence]
    exact sequenceAt_even _
  exact if_neg (not_not.mpr even)

theorem Consistent.step {s : System Word W} (consistent : Consistent layout memory s) :
    Consistent layout memory (s.step layout memory) := by
  obtain ⟨newest, sequence, delivered, started, underway⟩ := id consistent
  rcases reading : s.reader with _ | ⟨began, r⟩
  · have idle : s.step layout memory = s := by
      unfold System.step
      rw [reading]
    rw [idle]
    exact consistent
  · obtain ⟨positive, past, few, since⟩ := started began r reading
    rcases underway began r reading with start | ⟨loaded, copy, rest, later, counted, within, start, agrees⟩
    · subst start
      rw [step_first consistent reading]
      constructor
      · exact newest
      · exact sequence
      · exact delivered
      · rintro _ _ ⟨⟩
        exact ⟨positive, past, few, since⟩
      · rintro _ _ ⟨⟩
        refine .inr ⟨s.history.published.length, memory, layout.order, past, Nat.le_refl _,
          Nat.le_refl _, ?_, ?_⟩
        · exact congrArg (copying · memory layout.order) sequence
        · exact fun _ => agrees_start layout _ _
    · subst start
      cases rest with
      | cons word rest =>
        rw [step_more reading rfl]
        constructor
        · exact newest
        · exact sequence
        · exact delivered
        · rintro _ _ ⟨⟩
          exact ⟨positive, past, few, since⟩
        · rintro _ _ ⟨⟩
          exact .inr ⟨loaded, _, rest, later, counted, Nat.le_of_succ_le within, rfl,
            fun same => (agrees same).move⟩
      | nil =>
        rw [step_last reading]
        by_cases unmoved : s.lock.sequence = sequenceAt loaded
        · -- the sequence has not come back: nothing was written since it was loaded
          rw [if_pos unmoved]
          have same : loaded = s.history.published.length :=
            sequenceAt_injective (by omega) counted (by omega) (sequence.symm.trans unmoved)
          constructor
          · exact newest
          · exact sequence
          · refine delivered.answer ?_ positive past since
            rw [(agrees same).finished]
            exact newest
          · rintro _ _ ⟨⟩
          · rintro _ _ ⟨⟩
        · rw [if_neg unmoved]
          constructor
          · exact newest
          · exact sequence
          · exact delivered
          · rintro _ _ ⟨⟩
            exact ⟨positive, past, few, since⟩
          · rintro _ _ ⟨⟩
            exact .inl rfl

theorem Consistent.next {s : System Word W} (consistent : Consistent layout memory s) (e : Event Word W)
    {initial : Word → W} (admitted : (machine layout memory initial).admits s e) :
    Consistent layout memory (s.next layout memory e) := by
  have positive : 0 < s.history.published.length := by
    cases published : s.history.published with
    | nil => exact absurd consistent.newest (by simp [published])
    | cons _ _ => simp
  cases e with
  | write value =>
    simp only [System.next, write_run]
    constructor
    · rfl
    · change s.lock.sequence + 2 = _
      rw [consistent.sequence]
      exact sequenceAt_succ positive
    · exact consistent.delivered.publish value
    · intro began r reading
      change s.reader = some (began, r) at reading
      obtain ⟨began_pos, past, few, since⟩ := consistent.began began r reading
      change s.writable = true at admitted
      simp only [System.writable, reading] at admitted
      exact ⟨began_pos, Nat.le_succ_of_le past, of_decide_eq_true admitted, since⟩
    · intro began r reading
      rcases consistent.underway began r reading with start | ⟨loaded, copy, rest, later, counted, within, start, -⟩
      · exact .inl start
      · refine .inr ⟨loaded, copy, rest, later, Nat.le_succ_of_le counted, within, start, ?_⟩
        intro same
        simp only [History.publish, List.length_cons] at same
        omega
  | read =>
    constructor
    · exact consistent.newest
    · exact consistent.sequence
    · exact consistent.delivered
    · rintro _ _ ⟨⟩
      refine ⟨positive, Nat.le_refl _, Nat.lt_add_of_pos_right (Nat.two_pow_pos 31), ?_⟩
      intro earlier returned
      exact (consistent.delivered.during earlier returned).2.2
    · rintro _ _ ⟨⟩
      exact .inl rfl
  | step => exact consistent.step

theorem consistent (initial : Word → W) (trace : List (Event Word W))
    (legal : (machine layout memory initial).Legal trace) :
    Consistent layout memory ((machine layout memory initial).replay trace) := by
  refine Runs.Machine.invariant (fun s _ => Consistent layout memory s) ?_ ?_ trace legal
  · constructor
    · rfl
    · rfl
    · exact .initial initial
    · rintro _ _ ⟨⟩
    · rintro _ _ ⟨⟩
  · exact fun e past kept admitted => kept.next e admitted

/-! #### When a Read ends -/

theorem copy_undisturbed {s : System Word W} {began : Nat} {before : UInt32} {copy : Word → W}
    {rest : List Word} (reading : s.reader = some (began, copying before copy rest))
    (unmoved : s.lock.sequence = before) (agrees : Agrees rest copy s.lock.value) :
    (System.step layout memory)^[rest.length + 1] s =
      ⟨s.lock, none, s.history.answer s.lock.value began⟩ := by
  induction rest generalizing s copy with
  | nil =>
    change s.step layout memory = _
    rw [step_last reading, if_pos unmoved, agrees.finished]
  | cons word rest ih =>
    rw [List.length_cons, Function.iterate_succ_apply, step_more reading rfl]
    exact ih rfl unmoved agrees.move

theorem round_undisturbed {s : System Word W} (consistent : Consistent layout memory s) {began : Nat}
    (reading : s.reader = some (began, attempt layout memory)) :
    (System.step layout memory)^[layout.order.length + 2] s =
      ⟨s.lock, none, s.history.answer s.lock.value began⟩ := by
  rw [Function.iterate_succ_apply, step_first consistent reading]
  exact copy_undisturbed rfl rfl (agrees_start layout _ _)

/-- The rest of a round, which writes came into or not. -/
theorem rest_of_round {s : System Word W} {began : Nat} {before : UInt32} {copy : Word → W}
    {rest : List Word} (reading : s.reader = some (began, copying before copy rest)) :
    ((System.step layout memory)^[rest.length + 1] s).reader = none ∨
      ((System.step layout memory)^[rest.length + 1] s).reader = some (began, attempt layout memory) := by
  induction rest generalizing s copy with
  | nil =>
    change (s.step layout memory).reader = _ ∨ (s.step layout memory).reader = _
    rw [step_last reading]
    by_cases unmoved : s.lock.sequence = before
    · exact .inl (by rw [if_pos unmoved])
    · exact .inr (by rw [if_neg unmoved])
  | cons word rest ih =>
    rw [List.length_cons, Function.iterate_succ_apply, step_more reading rfl]
    exact ih rfl

theorem Consistent.iterate {s : System Word W} (consistent : Consistent layout memory s) (n : Nat) :
    Consistent layout memory ((System.step layout memory)^[n] s) := by
  induction n with
  | zero => exact consistent
  | succ n ih =>
    rw [Function.iterate_succ_apply']
    exact ih.step

theorem read_ends {s : System Word W} (consistent : Consistent layout memory s)
    (reading : s.reader.isSome = true) :
    ∃ n ≤ 2 * layout.order.length + 3, ((System.step layout memory)^[n] s).reader = none := by
  obtain ⟨⟨began, r⟩, runs⟩ := Option.isSome_iff_exists.mp reading
  rcases consistent.underway began r runs with start | ⟨loaded, copy, rest, -, -, within, start, -⟩
  · subst start
    refine ⟨layout.order.length + 2, by omega, ?_⟩
    rw [round_undisturbed consistent runs]
  · subst start
    have rested : ((System.step layout memory)^[rest.length + 1] s).reader = none ∨ _ :=
      rest_of_round runs
    rcases rested with ended | again
    · exact ⟨rest.length + 1, by omega, ended⟩
    · refine ⟨layout.order.length + 2 + (rest.length + 1), by omega, ?_⟩
      rw [Function.iterate_add_apply, round_undisturbed (consistent.iterate _) again]

end SeqLock

/-- The hand-over between two priority levels. In every order of the steps of its two sides
each Read returns a value that was written as a whole, that was the last published one when
the Read ended, and that is never older than what an earlier Read returned. A round of a
`SeqLock` read lies between two loads of the sequence; one that no write comes into ends it. -/
theorem values_delivered (layout : Layout Word) (memory initial : Word → W) :
    (∀ trace, (Mailbox.machine layout memory initial).Legal trace →
      Delivered ((Mailbox.machine layout memory initial).replay trace).history) ∧
    ∀ trace, (SeqLock.machine layout memory initial).Legal trace →
      let s := (SeqLock.machine layout memory initial).replay trace
      let after n := (SeqLock.machine layout memory initial).replay (List.replicate n .step ++ trace)
      Delivered s.history ∧
      (∀ began, s.reader = some (began, SeqLock.attempt layout memory) →
        after (layout.order.length + 2) = ⟨s.lock, none, s.history.answer s.lock.value began⟩) ∧
      (s.reader.isSome = true → ∃ n ≤ 2 * layout.order.length + 3, (after n).reader = none) := by
  constructor
  · intro trace _
    exact (Mailbox.consistent initial trace).delivered
  · intro trace legal s after
    have consistent := SeqLock.consistent initial trace legal
    have iterated (n : Nat) : after n = (SeqLock.System.step layout memory)^[n] s :=
      Runs.Machine.replay_replicate .step n trace
    refine ⟨consistent.delivered, ?_, ?_⟩
    · intro began reading
      rw [iterated]
      exact SeqLock.round_undisturbed consistent reading
    · intro reading
      obtain ⟨n, few, ended⟩ := SeqLock.read_ends consistent reading
      exact ⟨n, few, (iterated n ▸ ended)⟩

def pair : Layout Bool := ⟨[false, true], by intro word; cases word <;> decide⟩

/-- Oldest last: a Write that has copied one word when a Read comes, and goes on after it. -/
def halfWritten : List (Mailbox.Event Bool Nat) :=
  [.read, .step, .step, .read, .step, .step, .write fun _ => 7]

/-- Oldest last: a Write between the two words of a copy. -/
def overlapped : List (SeqLock.Event Bool Nat) := [.write fun _ => 7, .step, .step, .read]

theorem values_delivered_pair :
    Delivered ((Mailbox.machine pair (fun _ => 1) (fun _ => 0)).replay halfWritten).history ∧
    Delivered ((SeqLock.machine pair (fun _ => 1) (fun _ => 0)).replay overlapped).history ∧
    (∃ n ≤ 7, ((SeqLock.machine pair (fun _ => 1) (fun _ => 0)).replay
      (List.replicate n .step ++ overlapped)).reader = none) ∧
    ((SeqLock.machine pair (fun _ => 1) (fun _ => 0)).replay
      (List.replicate 4 .step ++ [.read])).reader = none := by
  have delivered := values_delivered pair (fun _ => (1 : Nat)) (fun _ => 0)
  refine ⟨delivered.1 halfWritten (by decide), (delivered.2 overlapped (by decide)).1,
    (delivered.2 overlapped (by decide)).2.2 (by decide), ?_⟩
  exact congrArg (·.reader) ((delivered.2 [.read] (by decide)).2.1 1 rfl)

end Unimoc.CurrentControl
