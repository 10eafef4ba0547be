import Unimoc.CurrentControl.HallFused
import Unimoc.Lib.Resumption
import Unimoc.Lib.RingQueue

/-! The queue between the capture interrupt and the observer, access by access, and the code the
observer holds. -/
namespace Unimoc.CurrentControl

open Resumption RingQueue

/-- The counters of both sides run free. -/
structure HallEventQueue where
  events : List HallEvent
  head : UInt32
  tail : UInt32
  latestCode : UInt8
  overflows : UInt32

namespace HallEventQueue

def setLatestCode (code : UInt8) (queue : HallEventQueue) : HallEventQueue := { queue with latestCode := code }

def countOverflow (queue : HallEventQueue) : HallEventQueue := { queue with overflows := queue.overflows + 1 }

def setEvent (slot : Nat) (event : HallEvent) (queue : HallEventQueue) : HallEventQueue :=
  { queue with events := queue.events.set slot event }

def setHead (head : UInt32) (queue : HallEventQueue) : HallEventQueue := { queue with head := head }

def setTail (tail : UInt32) (queue : HallEventQueue) : HallEventQueue := { queue with tail := tail }

variable (size : UInt32)

def push (event : HallEvent) : Resumption HallEventQueue Bool := do
  modify (setLatestCode event.code)
  let head ← Resumption.read (·.head)
  let tail ← Resumption.read (·.tail)
  if size ≤ head - tail then
    modify countOverflow
    pure false
  else
    modify (setEvent (slot size head) event)
    modify (setHead (head + 1))
    pure true

def pop : Resumption HallEventQueue (Option HallEvent) := do
  let tail ← Resumption.read (·.tail)
  let head ← Resumption.read (·.head)
  if head = tail then pure none
  else
    let event ← Resumption.read fun queue => queue.events.getD (slot size tail) ⟨0, 0⟩
    modify (setTail (tail + 1))
    pure (some event)

def contents (queue : HallEventQueue) : List HallEvent := queued size ⟨0, 0⟩ queue.events queue.head queue.tail

/-! ### How far each side has come -/

def publish (head : UInt32) : Resumption HallEventQueue Bool := do
  modify (setHead (head + 1))
  pure true

def fill (event : HallEvent) (head : UInt32) : Resumption HallEventQueue Bool := do
  modify (setEvent (slot size head) event)
  publish head

def refuse : Resumption HallEventQueue Bool := do
  modify countOverflow
  pure false

def loadTail (event : HallEvent) (head : UInt32) : Resumption HallEventQueue Bool := do
  let tail ← Resumption.read (·.tail)
  if size ≤ head - tail then refuse else fill size event head

def loadHead (event : HallEvent) : Resumption HallEventQueue Bool := do
  let head ← Resumption.read (·.head)
  loadTail size event head

def release (tail : UInt32) (event : HallEvent) : Resumption HallEventQueue (Option HallEvent) := do
  modify (setTail (tail + 1))
  pure (some event)

def copyEvent (tail : UInt32) : Resumption HallEventQueue (Option HallEvent) := do
  let event ← Resumption.read fun queue => queue.events.getD (slot size tail) ⟨0, 0⟩
  release tail event

def compareHead (tail : UInt32) : Resumption HallEventQueue (Option HallEvent) := do
  let head ← Resumption.read (·.head)
  if head = tail then pure none else copyEvent size tail

/-- What is left of a push. Its head stays, and the room it has found does not shrink. -/
inductive Pushing (queue : HallEventQueue) (taken added : Nat) (event : HallEvent) :
    Resumption HallEventQueue Bool → Prop
  | begun : Pushing queue taken added event (push size event)
  | counted : queue.latestCode = event.code → Pushing queue taken added event (loadHead size event)
  | loaded : queue.latestCode = event.code → Pushing queue taken added event (loadTail size event queue.head)
  | full : queue.latestCode = event.code → Pushing queue taken added event refuse
  | free : queue.latestCode = event.code → added < taken + size.toNat →
      Pushing queue taken added event (fill size event queue.head)
  | filled : queue.latestCode = event.code → added < taken + size.toNat →
      queue.events[slot size queue.head]? = some event → Pushing queue taken added event (publish queue.head)

/-- What is left of a pop. Its tail stays, and what it has found is not overwritten. -/
inductive Popping (tail : UInt32) (taken : Nat) (added : List HallEvent) :
    Resumption HallEventQueue (Option HallEvent) → Prop
  | begun : Popping tail taken added (pop size)
  | loaded : Popping tail taken added (compareHead size tail)
  | found : taken < added.length → Popping tail taken added (copyEvent size tail)
  | copied {event : HallEvent} : added[taken]? = some event → Popping tail taken added (release tail event)

variable {size}

theorem Pushing.take {queue : HallEventQueue} {taken added : Nat} {event : HallEvent}
    {r : Resumption HallEventQueue Bool} (pushing : Pushing size queue taken added event r) (tail : UInt32) :
    Pushing size (setTail tail queue) (taken + 1) added event r := by
  cases pushing with
  | begun => exact .begun
  | counted newest => exact .counted newest
  | loaded newest => exact .loaded newest
  | full newest => exact .full newest
  | free newest room => exact .free newest (by omega)
  | filled newest room written => exact .filled newest (by omega) written

theorem Popping.add {tail : UInt32} {taken : Nat} {added : List HallEvent}
    {r : Resumption HallEventQueue (Option HallEvent)} (popping : Popping size tail taken added r)
    (event : HallEvent) : Popping size tail taken (added ++ [event]) r := by
  cases popping with
  | begun => exact .begun
  | loaded => exact .loaded
  | found inside => exact .found (inside.trans_le (by rw [List.length_append]; exact Nat.le_add_right ..))
  | copied copied =>
    refine .copied ?_
    rw [List.getElem?_append_left (List.getElem?_eq_some_iff.mp copied).1]
    exact copied

end HallEventQueue

/-- Events the observer takes in one cycle. -/
def maxHallEvents : Nat := 8

/-- The observer while it takes the events of a cycle. -/
structure HallCycle (F : Type) where
  reference : UInt32
  obs : MechanicalObserver F
  events : List HallEvent
  pop : Resumption HallEventQueue (Option HallEvent)

/-- `pushes` are newest first, with whether the queue took them; `popped` is oldest first. -/
structure HallSystem (F : Type) where
  queue : HallEventQueue
  producer : Option (HallEvent × Resumption HallEventQueue Bool)
  observer : Option (HallCycle F)
  hall : HallFusion F
  pushes : List (HallEvent × Bool)
  popped : List HallEvent

/-- The interrupt captures an event or makes its next access; the observer begins a cycle or makes
its next access. -/
inductive HallStep (F : Type)
  | capture (event : HallEvent)
  | produce
  | observe (reference : UInt32) (obs : MechanicalObserver F)
  | consume

namespace HallSystem

variable {F : Type} [Arithmetic F] (wrap : F → Id F) (tickPeriod : F) (size : UInt32)

def accepted (pushes : List (HallEvent × Bool)) : List HallEvent := ((pushes.filter (·.2)).map (·.1)).reverse

def produce (s : HallSystem F) : HallSystem F :=
  match s.producer with
  | some (event, .access store next) =>
    match next s.queue with
    | .done accepted =>
      { s with queue := store s.queue, producer := none, pushes := (event, accepted) :: s.pushes }
    | rest => { s with queue := store s.queue, producer := some (event, rest) }
  | _ => s

def fuse (cycle : HallCycle F) (hall : HallFusion F) : HallFusion F :=
  if hall.enabled then (hall.update wrap cycle.events cycle.reference tickPeriod cycle.obs).run.1 else hall

def consume (s : HallSystem F) : HallSystem F :=
  match s.observer with
  | some ⟨reference, obs, events, .access store next⟩ =>
    match next s.queue with
    | .done none =>
      { s with
        queue := store s.queue, observer := none
        hall := fuse wrap tickPeriod ⟨reference, obs, events, pure none⟩ s.hall }
    | .done (some event) =>
      let s := { s with queue := store s.queue, popped := s.popped ++ [event] }
      let cycle := ⟨reference, obs, events ++ [event], HallEventQueue.pop size⟩
      if (events ++ [event]).length < maxHallEvents then { s with observer := some cycle }
      else { s with observer := none, hall := fuse wrap tickPeriod cycle s.hall }
    | rest => { s with queue := store s.queue, observer := some ⟨reference, obs, events, rest⟩ }
  | _ => s

def next (s : HallSystem F) : HallStep F → HallSystem F
  | .capture event => { s with producer := some (event, HallEventQueue.push size event) }
  | .produce => s.produce
  | .observe reference obs => { s with observer := some ⟨reference, obs, [], HallEventQueue.pop size⟩ }
  | .consume => s.consume wrap tickPeriod size

/-- Every order of the accesses of both sides, from an empty queue with its counters anywhere. -/
def machine (base : UInt32) (hall : HallFusion F) : Runs.Machine (HallSystem F) (HallStep F) where
  start :=
    { queue := ⟨List.replicate size.toNat ⟨0, 0⟩, base, base, 0, 0⟩
      producer := none
      observer := none
      hall := { hall.reset with enabled := true }
      pushes := []
      popped := [] }
  next := next wrap tickPeriod size
  admits s
    | .capture _ => s.producer.isNone
    | .produce => s.producer.isSome
    | .observe _ _ => s.observer.isNone
    | .consume => s.observer.isSome

/-- Of the newest event whose push has ended; 0 before. -/
def newestCode (pushes : List (HallEvent × Bool)) : UInt8 := (pushes.head?.map (·.1.code)).getD 0

/-- A push finds room, or its code is that of the newest event in the queue. -/
def Fits (s : HallSystem F) : HallStep F → Prop
  | .produce => ∀ event, s.producer = some (event, HallEventQueue.loadTail size event s.queue.head) →
      s.queue.head - s.queue.tail < size ∨
        event.code = (s.queue.events.getD (slot size (s.queue.head - 1)) ⟨0, 0⟩).code
  | _ => True

/-! ### What the interleavings keep -/

/-- The code held, once the events of the cycle under way are fused. -/
def heldCode (s : HallSystem F) : UInt8 :=
  match s.observer with
  | none => s.hall.code
  | some cycle => HallFusion.codeAfter s.hall.code cycle.events

variable (base : UInt32)

structure Consistent (s : HallSystem F) : Prop where
  carries : Carries size base s.queue.events s.popped.length (accepted s.pushes)
  head : s.queue.head = after base (accepted s.pushes).length
  tail : s.queue.tail = after base s.popped.length
  inOrder : s.popped = (accepted s.pushes).take s.popped.length
  producer : ∀ event r, s.producer = some (event, r) →
    HallEventQueue.Pushing size s.queue s.popped.length (accepted s.pushes).length event r
  observer : ∀ cycle, s.observer = some cycle →
    HallEventQueue.Popping size s.queue.tail s.popped.length (accepted s.pushes) cycle.pop
  held : s.heldCode = HallFusion.codeAfter 0 s.popped
  enabled : s.hall.enabled = true
  latest : s.producer = none → s.queue.latestCode = newestCode s.pushes

variable {wrap tickPeriod size base}

theorem consistent_start (hall : HallFusion F) : Consistent size base (machine wrap tickPeriod size base hall).start := by
  have zero : after base 0 = base := UInt32.add_zero base
  refine ⟨⟨List.length_replicate, le_rfl, Nat.zero_le _, fun i _ old => ?_⟩, zero.symm, zero.symm, rfl, ?_, ?_, rfl,
    rfl, fun _ => rfl⟩
  · exact absurd old (Nat.not_lt_zero i)
  · rintro _ _ ⟨⟩
  · rintro _ ⟨⟩

section Steps

variable {s : HallSystem F} (consistent : Consistent size base s)
include consistent

omit [Arithmetic F] in
theorem Consistent.producing {event : HallEvent} {r : Resumption HallEventQueue Bool}
    (pushing : HallEventQueue.Pushing size s.queue s.popped.length (accepted s.pushes).length event r) :
    Consistent size base { s with producer := some (event, r) } := by
  constructor
  · exact consistent.carries
  · exact consistent.head
  · exact consistent.tail
  · exact consistent.inOrder
  · rintro _ _ ⟨⟩
    exact pushing
  · exact consistent.observer
  · exact consistent.held
  · exact consistent.enabled
  · rintro ⟨⟩

omit [Arithmetic F] in
theorem Consistent.observing {cycle : HallCycle F} (same : s.heldCode = HallFusion.codeAfter s.hall.code cycle.events)
    (popping : HallEventQueue.Popping size s.queue.tail s.popped.length (accepted s.pushes) cycle.pop) :
    Consistent size base { s with observer := some cycle } := by
  constructor
  · exact consistent.carries
  · exact consistent.head
  · exact consistent.tail
  · exact consistent.inOrder
  · exact consistent.producer
  · rintro _ ⟨⟩
    exact popping
  · exact same.symm.trans consistent.held
  · exact consistent.enabled
  · exact consistent.latest

end Steps

theorem accepted_taken (event : HallEvent) (pushes : List (HallEvent × Bool)) :
    accepted ((event, true) :: pushes) = accepted pushes ++ [event] := by
  simp [accepted]

section Produce

variable {s : HallSystem F} {event : HallEvent} {store : HallEventQueue → HallEventQueue}
  {next : HallEventQueue → Resumption HallEventQueue Bool}
  (pushing : s.producer = some (event, .access store next))
include pushing

omit [Arithmetic F] in
theorem produce_more {write : HallEventQueue → HallEventQueue} {later : HallEventQueue → Resumption HallEventQueue Bool}
    (more : next s.queue = .access write later) :
    s.produce = { s with queue := store s.queue, producer := some (event, .access write later) } := by
  unfold produce
  rw [pushing]
  simp only [more]

omit [Arithmetic F] in
theorem produce_done {taken : Bool} (finished : next s.queue = .done taken) :
    s.produce = { s with queue := store s.queue, producer := none, pushes := (event, taken) :: s.pushes } := by
  unfold produce
  rw [pushing]
  simp only [finished]

end Produce

open HallEventQueue in
omit [Arithmetic F] in
theorem Consistent.produce (capacity : Capacity size) {s : HallSystem F} (consistent : Consistent size base s) :
    Consistent size base s.produce := by
  rcases pushing : s.producer with _ | ⟨event, r⟩
  · have idle : s.produce = s := by
      unfold HallSystem.produce
      rw [pushing]
    rwa [idle]
  obtain ⟨carries, head, tail, inOrder, producer, observer, held, enabled, latest⟩ := id consistent
  cases producer event r pushing with
  | begun =>
    rw [produce_more pushing (rfl : _ = loadHead size event)]
    refine ⟨carries, head, tail, inOrder, ?_, observer, held, enabled, fun idle => by cases idle⟩
    rintro _ _ ⟨⟩
    exact .counted rfl
  | counted newest =>
    rw [produce_more pushing (rfl : _ = loadTail size event s.queue.head)]
    exact consistent.producing (.loaded newest)
  | loaded newest =>
    by_cases crowded : size ≤ s.queue.head - s.queue.tail
    · rw [produce_more pushing (if_pos crowded : _ = refuse)]
      exact consistent.producing (.full newest)
    · rw [produce_more pushing (if_neg crowded : _ = fill size event s.queue.head)]
      have room : (accepted s.pushes).length < s.popped.length + size.toNat := by
        rw [head, tail] at crowded
        exact carries.free_iff.mp crowded
      exact consistent.producing (.free newest room)
  | full newest =>
    rw [produce_done pushing (rfl : _ = Resumption.done false)]
    refine ⟨carries, head, tail, inOrder, ?_, observer, held, enabled, fun _ => newest⟩
    rintro _ _ ⟨⟩
  | free newest room =>
    rw [produce_more pushing (rfl : _ = publish s.queue.head)]
    obtain ⟨written, copied⟩ := carries.write capacity room event
    rw [← head] at written copied
    refine ⟨written, head, tail, inOrder, ?_, observer, held, enabled, fun idle => by cases idle⟩
    rintro _ _ ⟨⟩
    exact .filled newest room copied
  | filled newest room written =>
    rw [produce_done pushing (rfl : _ = Resumption.done true)]
    rw [head] at written
    have grown := carries.add room written
    rw [← accepted_taken] at grown
    have longer : (accepted ((event, true) :: s.pushes)).length = (accepted s.pushes).length + 1 := by
      rw [accepted_taken, List.length_append, List.length_singleton]
    refine ⟨grown, ?_, tail, ?_, ?_, ?_, held, enabled, fun _ => newest⟩
    · change s.queue.head + 1 = after base (accepted ((event, true) :: s.pushes)).length
      rw [longer, head, after_succ]
    · change s.popped = (accepted ((event, true) :: s.pushes)).take s.popped.length
      rw [accepted_taken, List.take_append_of_le_length carries.order]
      exact inOrder
    · rintro _ _ ⟨⟩
    · intro cycle observing
      change HallEventQueue.Popping size s.queue.tail s.popped.length (accepted ((event, true) :: s.pushes)) cycle.pop
      rw [accepted_taken]
      exact (observer cycle observing).add event

section Consume

variable {s : HallSystem F} {reference : UInt32} {obs : MechanicalObserver F} {events : List HallEvent}
  {store : HallEventQueue → HallEventQueue} {next : HallEventQueue → Resumption HallEventQueue (Option HallEvent)}
  (popping : s.observer = some ⟨reference, obs, events, .access store next⟩)
include popping

theorem consume_more {write : HallEventQueue → HallEventQueue}
    {later : HallEventQueue → Resumption HallEventQueue (Option HallEvent)} (more : next s.queue = .access write later) :
    s.consume wrap tickPeriod size =
      { s with queue := store s.queue, observer := some ⟨reference, obs, events, .access write later⟩ } := by
  unfold consume
  rw [popping]
  simp only [more]

theorem consume_empty (finished : next s.queue = .done none) :
    s.consume wrap tickPeriod size =
      { s with
        queue := store s.queue, observer := none
        hall := fuse wrap tickPeriod ⟨reference, obs, events, pure none⟩ s.hall } := by
  unfold consume
  rw [popping]
  simp only [finished]

theorem consume_taken {event : HallEvent} (finished : next s.queue = .done (some event)) :
    s.consume wrap tickPeriod size =
      { s with
        queue := store s.queue, popped := s.popped ++ [event]
        observer :=
          if (events ++ [event]).length < maxHallEvents then
            some ⟨reference, obs, events ++ [event], HallEventQueue.pop size⟩
          else none
        hall :=
          if (events ++ [event]).length < maxHallEvents then s.hall
          else fuse wrap tickPeriod ⟨reference, obs, events ++ [event], HallEventQueue.pop size⟩ s.hall } := by
  unfold consume
  rw [popping]
  simp only [finished]
  by_cases few : (events ++ [event]).length < maxHallEvents
  · simp only [if_pos few]
  · simp only [if_neg few]

end Consume

theorem fuse_kept (cycle : HallCycle F) {hall : HallFusion F} (enabled : hall.enabled = true) :
    (fuse wrap tickPeriod cycle hall).code = HallFusion.codeAfter hall.code cycle.events ∧
      (fuse wrap tickPeriod cycle hall).enabled = true := by
  obtain ⟨code, kept⟩ := @HallFusion.update_kept F _ wrap tickPeriod cycle.events cycle.reference hall cycle.obs
  unfold fuse
  rw [if_pos enabled]
  exact ⟨code, kept.trans enabled⟩

open HallEventQueue in
theorem Consistent.consume {s : HallSystem F} (consistent : Consistent size base s) :
    Consistent size base (s.consume wrap tickPeriod size) := by
  rcases observing : s.observer with _ | ⟨reference, obs, events, r⟩
  · have idle : s.consume wrap tickPeriod size = s := by
      unfold HallSystem.consume
      rw [observing]
    rwa [idle]
  obtain ⟨carries, head, tail, inOrder, producer, observer, held, enabled, latest⟩ := id consistent
  have under : s.heldCode = HallFusion.codeAfter s.hall.code events := by
    unfold heldCode
    rw [observing]
  have popping : Popping size s.queue.tail s.popped.length (accepted s.pushes) r := observer _ observing
  cases popping with
  | begun =>
    rw [consume_more observing (rfl : _ = compareHead size s.queue.tail)]
    exact consistent.observing under .loaded
  | loaded =>
    by_cases same : s.queue.head = s.queue.tail
    · rw [consume_empty observing (if_pos same : _ = Resumption.done none)]
      obtain ⟨code, kept⟩ := @fuse_kept F _ wrap tickPeriod ⟨reference, obs, events, pure none⟩ _ enabled
      refine ⟨carries, head, tail, inOrder, producer, ?_, ?_, kept, latest⟩
      · rintro _ ⟨⟩
      · exact code.trans (under.symm.trans held)
    · rw [consume_more observing (if_neg same : _ = copyEvent size s.queue.tail)]
      refine consistent.observing under (.found (lt_of_le_of_ne carries.order fun level => same ?_))
      rw [head, tail]
      exact carries.empty_iff.mpr level
  | found inside =>
    rw [consume_more observing (rfl : _ = release s.queue.tail (s.queue.events.getD (slot size s.queue.tail) ⟨0, 0⟩))]
    refine consistent.observing under (.copied ?_)
    rw [tail, carries.oldest inside, List.getElem?_eq_getElem inside]
  | @copied event copied =>
    rw [consume_taken observing (rfl : _ = Resumption.done (some event))]
    have inside := (List.getElem?_eq_some_iff.mp copied).1
    have longer : (s.popped ++ [event]).length = s.popped.length + 1 := by
      rw [List.length_append, List.length_singleton]
    have code : HallFusion.codeAfter s.hall.code (events ++ [event]) = HallFusion.codeAfter 0 (s.popped ++ [event]) := by
      rw [HallFusion.codeAfter_append, HallFusion.codeAfter_append]
    obtain ⟨fused, kept⟩ :=
      @fuse_kept F _ wrap tickPeriod ⟨reference, obs, events ++ [event], HallEventQueue.pop size⟩ _ enabled
    constructor
    · rw [longer]
      exact carries.take inside
    · exact head
    · change s.queue.tail + 1 = after base (s.popped ++ [event]).length
      rw [longer, tail, after_succ]
    · change s.popped ++ [event] = (accepted s.pushes).take (s.popped ++ [event]).length
      rw [longer, List.take_add_one, copied, ← inOrder]
      rfl
    · intro event' r pushing
      rw [longer]
      exact (producer event' r pushing).take _
    · intro cycle going
      change (if _ then some _ else none) = some cycle at going
      split at going
      · cases going
        exact .begun
      · cases going
    · unfold heldCode
      by_cases few : (events ++ [event]).length < maxHallEvents
      · simp only [if_pos few]
        exact code
      · simp only [if_neg few]
        exact fused.trans code
    · change HallFusion.enabled (if _ then _ else _) = true
      split
      · exact enabled
      · exact kept
    · exact latest

theorem Consistent.next (capacity : Capacity size) {s : HallSystem F} (consistent : Consistent size base s)
    {hall : HallFusion F} (step : HallStep F) (admitted : (machine wrap tickPeriod size base hall).admits s step) :
    Consistent size base (s.next wrap tickPeriod size step) := by
  cases step with
  | capture event => exact consistent.producing .begun
  | produce => exact consistent.produce capacity
  | observe reference obs =>
    change s.observer.isNone = true at admitted
    refine consistent.observing ?_ .begun
    unfold heldCode
    rw [Option.isNone_iff_eq_none.mp admitted]
    rfl
  | consume => exact consistent.consume

theorem consistent (capacity : Capacity size) (hall : HallFusion F) (trace : List (HallStep F))
    (legal : (machine wrap tickPeriod size base hall).Legal trace) :
    Consistent size base ((machine wrap tickPeriod size base hall).replay trace) := by
  refine Runs.Machine.invariant (fun s _ => Consistent size base s) (consistent_start hall) ?_ trace legal
  exact fun step past kept admitted => kept.next capacity step admitted

section Settled

variable {s : HallSystem F} (consistent : Consistent size base s)
include consistent

omit [Arithmetic F] in
theorem Consistent.conserved : s.popped ++ s.queue.contents size = accepted s.pushes := by
  unfold HallEventQueue.contents
  rw [consistent.head, consistent.tail, consistent.carries.queued_eq]
  nth_rewrite 1 [consistent.inOrder]
  exact List.take_append_drop ..

omit [Arithmetic F] in
theorem Consistent.settled (rested : s.observer = none) (empty : s.queue.head = s.queue.tail) :
    s.hall.code = HallFusion.codeAfter 0 (accepted s.pushes) := by
  have conserved := consistent.conserved
  have emptied : s.queue.contents size = [] := by
    unfold HallEventQueue.contents queued
    rw [empty, UInt32.sub_self]
    rfl
  rw [emptied, List.append_nil] at conserved
  have held := consistent.held
  unfold heldCode at held
  rw [rested, conserved] at held
  exact held

omit [Arithmetic F] in
theorem Consistent.newest (capacity : Capacity size) (crowded : size ≤ s.queue.head - s.queue.tail) :
    (s.queue.events.getD (slot size (s.queue.head - 1)) ⟨0, 0⟩).code = HallFusion.codeAfter 0 (accepted s.pushes) := by
  have carries := consistent.carries
  have positive := capacity.toNat_pos
  rw [consistent.head, consistent.tail, UInt32.le_iff_toNat_le, carries.gap] at crowded
  rw [consistent.head]
  rcases List.eq_nil_or_concat' (accepted s.pushes) with unpushed | ⟨older, event, grown⟩
  · rw [unpushed, List.length_nil, Nat.zero_sub] at crowded
    omega
  · rw [grown, List.length_append, List.length_singleton] at crowded
    rw [grown] at carries ⊢
    have found := carries.found older.length (by omega) (by simp)
    rw [List.length_append, List.length_singleton, ← after_succ, UInt32.add_sub_cancel,
      List.getD_eq_getElem?_getD, found, List.getElem?_concat_length, HallFusion.codeAfter_append]
    rfl

end Settled

/-! ### Runs in which the newest code is never refused -/

/-- The newest event in the queue, or taken from it, carries the newest code. -/
structure Newest (s : HallSystem F) : Prop where
  taken : HallFusion.codeAfter 0 (accepted s.pushes) = newestCode s.pushes
  refusing : ∀ event, s.producer = some (event, HallEventQueue.refuse) →
    event.code = HallFusion.codeAfter 0 (accepted s.pushes)

theorem ne_refuse {write : HallEventQueue → HallEventQueue} {next : HallEventQueue → Resumption HallEventQueue Bool}
    (kept : ∀ queue, (write queue).overflows = queue.overflows) : .access write next ≠ HallEventQueue.refuse := by
  intro same
  injection same with counts
  have counted := kept ⟨[], 0, 0, 0, 0⟩
  rw [counts] at counted
  exact absurd counted (by decide)

omit [Arithmetic F] in
theorem Newest.producing {s : HallSystem F} (newest : Newest s) {event : HallEvent} {queue : HallEventQueue}
    {write : HallEventQueue → HallEventQueue} {next : HallEventQueue → Resumption HallEventQueue Bool}
    (kept : ∀ queue, (write queue).overflows = queue.overflows) :
    Newest { s with queue := queue, producer := some (event, .access write next) } := by
  refine ⟨newest.taken, fun refused same => ?_⟩
  have rest := (Prod.mk.inj (Option.some.inj same)).2
  exact absurd rest (ne_refuse kept)

open HallEventQueue in
omit [Arithmetic F] in
theorem Newest.produce (capacity : Capacity size) {s : HallSystem F} (consistent : Consistent size base s)
    (newest : Newest s) (fits : Fits size s .produce) : Newest s.produce := by
  rcases pushing : s.producer with _ | ⟨event, r⟩
  · have idle : s.produce = s := by
      unfold HallSystem.produce
      rw [pushing]
    rwa [idle]
  cases consistent.producer event r pushing with
  | begun =>
    rw [produce_more pushing (rfl : _ = loadHead size event)]
    exact newest.producing fun _ => rfl
  | counted =>
    rw [produce_more pushing (rfl : _ = loadTail size event s.queue.head)]
    exact newest.producing fun _ => rfl
  | loaded =>
    by_cases crowded : size ≤ s.queue.head - s.queue.tail
    · rw [produce_more pushing (if_pos crowded : _ = refuse)]
      refine ⟨newest.taken, ?_⟩
      rintro _ ⟨⟩
      rcases fits event pushing with room | same
      · exact absurd crowded (by rwa [UInt32.not_le])
      · exact same.trans (consistent.newest capacity crowded)
    · rw [produce_more pushing (if_neg crowded : _ = fill size event s.queue.head)]
      exact newest.producing fun _ => rfl
  | full =>
    rw [produce_done pushing (rfl : _ = Resumption.done false)]
    refine ⟨?_, ?_⟩
    · exact (newest.refusing event pushing).symm
    · rintro _ ⟨⟩
  | free =>
    rw [produce_more pushing (rfl : _ = publish s.queue.head)]
    exact newest.producing fun _ => rfl
  | filled =>
    rw [produce_done pushing (rfl : _ = Resumption.done true)]
    refine ⟨?_, ?_⟩
    · change HallFusion.codeAfter 0 (accepted ((event, true) :: s.pushes)) = event.code
      rw [accepted_taken, HallFusion.codeAfter_append]
    · rintro _ ⟨⟩

theorem consume_pushes (s : HallSystem F) :
    (s.consume wrap tickPeriod size).producer = s.producer ∧ (s.consume wrap tickPeriod size).pushes = s.pushes := by
  unfold HallSystem.consume
  split
  · split
    · exact ⟨rfl, rfl⟩
    · split
      · exact ⟨rfl, rfl⟩
      · exact ⟨rfl, rfl⟩
    · exact ⟨rfl, rfl⟩
  · exact ⟨rfl, rfl⟩

theorem Newest.next (capacity : Capacity size) {s : HallSystem F} (consistent : Consistent size base s)
    (newest : Newest s) (step : HallStep F) (fits : Fits size s step) : Newest (s.next wrap tickPeriod size step) := by
  cases step with
  | capture event =>
    exact newest.producing fun _ => rfl
  | produce => exact newest.produce capacity consistent fits
  | observe reference obs => exact ⟨newest.taken, newest.refusing⟩
  | consume =>
    obtain ⟨producer, pushes⟩ := @consume_pushes F _ wrap tickPeriod size s
    constructor
    · exact (congrArg (fun pushes => HallFusion.codeAfter 0 (accepted pushes)) pushes).trans
        (newest.taken.trans (congrArg newestCode pushes).symm)
    · intro event refusing
      exact (newest.refusing event (producer.symm.trans refusing)).trans
        (congrArg (fun pushes => HallFusion.codeAfter 0 (accepted pushes)) pushes.symm)

theorem newest (capacity : Capacity size) (hall : HallFusion F) (trace : List (HallStep F))
    (legal : (machine wrap tickPeriod size base hall).Legal trace)
    (fits : Runs.Throughout
      (fun step past => Fits size ((machine wrap tickPeriod size base hall).replay past) step) trace) :
    Newest ((machine wrap tickPeriod size base hall).replay trace) := by
  refine (Runs.Machine.invariant_under _ (fun s _ => Consistent size base s ∧ Newest s) ?_ ?_ trace legal fits).2
  · refine ⟨consistent_start hall, rfl, ?_⟩
    rintro _ ⟨⟩
  · exact fun step past kept admitted fits =>
      ⟨kept.1.next capacity step admitted, kept.2.next capacity kept.1 step fits⟩

end HallSystem

section Bench

noncomputable def benchHall (size base : UInt32) : Runs.Machine (HallSystem ℝ) (HallStep ℝ) :=
  HallSystem.machine wrapNear 1e-9 size base blankHall

instance (size base : UInt32) : ∀ s step, Decidable ((benchHall size base).admits s step)
  | s, .capture _ => inferInstanceAs (Decidable (s.producer.isNone = true))
  | s, .produce => inferInstanceAs (Decidable (s.producer.isSome = true))
  | s, .observe _ _ => inferInstanceAs (Decidable (s.observer.isNone = true))
  | s, .consume => inferInstanceAs (Decidable (s.observer.isSome = true))

/-- Newest first, as every trace here: a push that nothing comes into. -/
def pushed (event : HallEvent) (accesses : Nat) : List (HallStep ℝ) :=
  List.replicate accesses .produce ++ [.capture event]

/-- The second push between two accesses of a pop. -/
noncomputable def pushedBetween : List (HallStep ℝ) :=
  List.replicate 8 .consume ++ pushed ⟨3, 200⟩ 5 ++
    (List.replicate 2 .consume ++ .observe 300 blankObserver :: pushed ⟨1, 100⟩ 5)

/-- A turning rotor while no cycle runs the observer, and the two cycles that empty the queue after it has
stopped. -/
noncomputable def overflowing : List (HallStep ℝ) :=
  let code (i : Nat) : UInt8 := [1, 3, 2, 6, 4, 5].getD (i % 6) 0
  let cycle := List.replicate 32 .consume ++ [.observe 20000 blankObserver]
  cycle ++ cycle ++ pushed ⟨code 16, 17000⟩ 4 ++
    ((List.range 16).map fun i => pushed ⟨code i, UInt32.ofNat (1000 * i)⟩ 5).reverse.flatten

end Bench

open HallSystem in
/-- In every order of the accesses, the events taken and the events still queued are the accepted
pushes in their order. Once all are taken and fused, the code held is the newest code captured if
and only if the newest accepted event carries it, as it does while each push finds room or carries
the code of the newest event queued. `LatestCode` has it in either case. -/
theorem hall_events_conserved {F : Type} [Arithmetic F] (wrap : F → Id F) (tickPeriod : F) {size : UInt32}
    (capacity : Capacity size) (base : UInt32) (hall : HallFusion F) (trace : List (HallStep F))
    (legal : (machine wrap tickPeriod size base hall).Legal trace) :
    let s := (machine wrap tickPeriod size base hall).replay trace
    s.popped ++ s.queue.contents size = accepted s.pushes ∧
    (s.producer = none → s.queue.latestCode = newestCode s.pushes) ∧
    (s.observer = none → s.queue.head = s.queue.tail →
      (s.hall.code = newestCode s.pushes ↔ HallFusion.codeAfter 0 (accepted s.pushes) = newestCode s.pushes) ∧
      (Runs.Throughout
        (fun step past => Fits size ((machine wrap tickPeriod size base hall).replay past) step) trace →
        s.hall.code = newestCode s.pushes)) := by
  intro s
  have kept : Consistent size base s := consistent capacity hall trace legal
  refine ⟨kept.conserved, kept.latest, fun rested empty => ⟨?_, fun fits => ?_⟩⟩
  · rw [kept.settled rested empty]
  · rw [kept.settled rested empty]
    exact (newest capacity hall trace legal fits).taken

open HallSystem in
/-- Across the wrap of the counters. -/
theorem hall_events_conserved_between :
    let s := (benchHall 2 0xFFFFFFFF).replay pushedBetween
    s.popped ++ s.queue.contents 2 = [⟨1, 100⟩, ⟨3, 200⟩] ∧ s.queue.latestCode = 3 ∧ s.hall.code = 3 := by
  have legal : (benchHall 2 0xFFFFFFFF).Legal pushedBetween := by decide
  have room : Runs.Throughout
      (fun _ past =>
        ((benchHall 2 0xFFFFFFFF).replay past).producer.isNone = true ∨
          ((benchHall 2 0xFFFFFFFF).replay past).queue.head - ((benchHall 2 0xFFFFFFFF).replay past).queue.tail < 2)
      pushedBetween := by decide
  obtain ⟨conserved, latest, settled⟩ :=
    hall_events_conserved wrapNear 1e-9 (⟨by decide, by decide⟩ : Capacity 2) 0xFFFFFFFF blankHall pushedBetween legal
  refine ⟨conserved.trans (by decide), (latest ?_).trans (by decide), ?_⟩
  · exact Option.isNone_iff_eq_none.mp (by decide)
  · refine ((settled (Option.isNone_iff_eq_none.mp (by decide)) (by decide)).2 ?_).trans
      (by decide)
    refine room.mono fun step past found => ?_
    cases step with
    | produce =>
      intro event pushing
      rcases found with nothing | room
      · have idle := Option.isNone_iff_eq_none.mp nothing
        cases idle.symm.trans pushing
      · exact .inl room
    | capture event => trivial
    | observe reference obs => trivial
    | consume => trivial

open HallSystem in
/-- The seventeenth event of a turning rotor is dropped: its code is never held. -/
theorem newest_code_lost :
    let s := (benchHall 16 0).replay overflowing
    (benchHall 16 0).Legal overflowing ∧ s.producer = none ∧ s.observer = none ∧ s.queue.head = s.queue.tail ∧
      s.hall.code = 6 ∧ newestCode s.pushes = 4 ∧ s.queue.latestCode = 4 := by
  have legal : (benchHall 16 0).Legal overflowing := by decide +kernel
  have kept : Consistent 16 0 ((benchHall 16 0).replay overflowing) :=
    consistent ⟨by decide, by decide⟩ blankHall overflowing legal
  have rested := Option.isNone_iff_eq_none.mp
    (by decide +kernel : ((benchHall 16 0).replay overflowing).observer.isNone = true)
  refine ⟨legal, Option.isNone_iff_eq_none.mp (by decide +kernel), rested, by decide +kernel, ?_, by decide +kernel,
    by decide +kernel⟩
  rw [kept.settled rested (by decide +kernel)]
  decide +kernel

end Unimoc.CurrentControl
