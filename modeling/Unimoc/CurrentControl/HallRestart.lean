import Unimoc.CurrentControl.HallQueue

/-! The thread restarts the Hall capture while the capture interrupt and the observer run. Both come
between two steps of the thread and run to their end. -/
namespace Unimoc.CurrentControl

open Resumption RingQueue

/-- Where the thread is in `InitHall`. -/
inductive InitHall
  | clearing
  /-- In `Clear`, with the head loaded when so many pushes had been accepted. -/
  | droppingTo (head : UInt32) (accepted : Nat)
  /-- In `ReadHallCode`, in front of a sensor. -/
  | reading (sensor : Nat) (code : UInt8)
  /-- In `Push`, with the number of accesses made. -/
  | pushing (event : HallEvent) (made : Nat) (rest : Resumption HallEventQueue Bool)

namespace InitHall

def dropHead : InitHall → Option UInt32
  | .droppingTo head _ => some head
  | _ => none

def storing (queue : HallEventQueue) : InitHall → Option HallEvent
  | .pushing event (_ + 3) (.access _ next) => if (next queue matches .done false) then none else some event
  | _ => none

end InitHall

/-- `pins` is the code on the inputs. `accepted` and `popped` are oldest first, and `cleared` counts the pushes
accepted when the newest `Clear` loaded the head. `overtaken` tells of an edge accepted since the thread last
loaded the head, `missed` of a newest edge that was refused. -/
structure HallRestart where
  queue : HallEventQueue
  thread : Option InitHall
  pins : UInt8
  accepted : List HallEvent
  popped : List HallEvent
  cleared : Nat
  restarted : Bool
  overtaken : Bool
  missed : Bool

inductive RestartStep
  | capture (event : HallEvent)
  | pop
  | initHall
  | access
  | readPin
  | readClock (timestamp : UInt32)

namespace HallRestart

variable (size : UInt32)

def pushed (event : HallEvent) (taken : Bool) (accepted : List HallEvent) : List HallEvent :=
  if taken then accepted ++ [event] else accepted

def capture (event : HallEvent) (s : HallRestart) : HallRestart :=
  let (taken, queue) := (HallEventQueue.push size event).run s.queue
  { s with
    queue := queue
    pins := event.code
    accepted := pushed event taken s.accepted
    overtaken := s.overtaken || taken
    missed := !taken }

def pop (s : HallRestart) : HallRestart :=
  let (event, queue) := (HallEventQueue.pop size).run s.queue
  { s with queue := queue, popped := s.popped ++ event.toList }

def access (s : HallRestart) : HallRestart :=
  match s.thread with
  | some .clearing => { s with thread := some (.droppingTo s.queue.head s.accepted.length), overtaken := false }
  | some (.droppingTo head accepted) =>
    { s with queue := s.queue.setTail head, thread := some (.reading 0 0), cleared := accepted }
  | some (.pushing event made (.access write next)) =>
    match next s.queue with
    | .done taken =>
      { s with
        queue := write s.queue
        thread := none
        accepted := pushed event taken s.accepted
        restarted := true
        missed := s.missed && !taken }
    | rest =>
      -- The access after the first loads the head.
      { s with
        queue := write s.queue
        thread := some (.pushing event (made + 1) rest)
        overtaken := s.overtaken && made != 1 }
  | _ => s

def sensorBit (sensor : Nat) : UInt8 := 1 <<< UInt8.ofNat sensor

def readPin (s : HallRestart) : HallRestart :=
  match s.thread with
  | some (.reading sensor code) =>
    { s with
      thread := some (.reading (sensor + 1)
        (if s.pins &&& sensorBit sensor = 0 then code else code ||| sensorBit sensor)) }
  | _ => s

def readClock (timestamp : UInt32) (s : HallRestart) : HallRestart :=
  match s.thread with
  | some (.reading _ code) =>
    { s with thread := some (.pushing ⟨code, timestamp⟩ 0 (HallEventQueue.push size ⟨code, timestamp⟩)) }
  | _ => s

def next (s : HallRestart) : RestartStep → HallRestart
  | .capture event => s.capture size event
  | .pop => s.pop size
  | .initHall => { s with thread := some .clearing }
  | .access => s.access
  | .readPin => s.readPin
  | .readClock timestamp => s.readClock size timestamp

/-- From an empty queue with its counters anywhere. -/
def machine (base : UInt32) (pins : UInt8) : Runs.Machine HallRestart RestartStep where
  start :=
    { queue := ⟨List.replicate size.toNat ⟨0, 0⟩, base, base, 0, 0⟩
      thread := none
      pins := pins
      accepted := []
      popped := []
      cleared := 0
      restarted := false
      overtaken := false
      missed := false }
  next := next size
  admits s
    | .capture _ | .pop => True
    | .initHall => s.thread.isNone
    | .access => (s.thread matches some .clearing | some (.droppingTo ..) | some (.pushing ..))
    | .readPin => (s.thread matches some (.reading 0 _) | some (.reading 1 _) | some (.reading 2 _))
    | .readClock _ => (s.thread matches some (.reading 3 _))

instance (base : UInt32) (pins : UInt8) : ∀ s step, Decidable ((machine size base pins).admits s step)
  | _, .capture _ | _, .pop => inferInstanceAs (Decidable True)
  | _, .initHall | _, .access | _, .readPin | _, .readClock _ => inferInstanceAs (Decidable (_ = true))

/-- The observer pops no event that was captured after `Clear` had loaded the head. When the push of the restart
stores into a queue it has found room in, no edge has been accepted since it loaded the head, and its code is
still that of the inputs. -/
def Undisturbed (s : HallRestart) : RestartStep → Prop
  | .pop => ∀ head ∈ s.thread.bind InitHall.dropHead, s.queue.tail = head → s.queue.head = head
  | .access => ∀ event ∈ s.thread.bind (InitHall.storing s.queue), s.overtaken = false ∧ event.code = s.pins
  | _ => True

instance (s : HallRestart) : ∀ step, Decidable (s.Undisturbed step)
  | .pop => @Option.decidableForallMem _ (fun head => s.queue.tail = head → s.queue.head = head) _ _
  | .access => @Option.decidableForallMem _ (fun event : HallEvent => s.overtaken = false ∧ event.code = s.pins) _ _
  | .capture _ | .initHall | .readPin | .readClock _ => inferInstanceAs (Decidable True)

/-- The counters stay consistent, no event is popped twice, none that was accepted since `Clear` is lost, and
the last popped code is that of the inputs once a restart has returned and the queue is empty, unless the
newest edge was refused. -/
structure Intact (s : HallRestart) : Prop where
  counters : s.queue.head - s.queue.tail ≤ size
  once : (s.popped ++ s.queue.contents size).Sublist s.accepted
  kept : s.accepted.drop s.cleared <:+ s.popped ++ s.queue.contents size
  newest : s.thread = none → s.restarted = true → s.missed = false → s.queue.head = s.queue.tail →
    s.popped.getLast?.map HallEvent.code = some s.pins

variable {size}

/-! ### What the steps do -/

section Runs

variable {queue : HallEventQueue}

theorem push_full (full : size ≤ queue.head - queue.tail) (event : HallEvent) :
    (HallEventQueue.push size event).run queue =
      (false, { queue with latestCode := event.code, overflows := queue.overflows + 1 }) := by
  simp [HallEventQueue.push, HallEventQueue.setLatestCode, HallEventQueue.countOverflow, full]

theorem push_free (free : ¬size ≤ queue.head - queue.tail) (event : HallEvent) :
    (HallEventQueue.push size event).run queue =
      (true,
        { queue with
          latestCode := event.code
          events := queue.events.set (slot size queue.head) event
          head := queue.head + 1 }) := by
  simp [HallEventQueue.push, HallEventQueue.setLatestCode, HallEventQueue.setEvent, HallEventQueue.setHead, free]

theorem pop_none (empty : queue.head = queue.tail) : (HallEventQueue.pop size).run queue = (none, queue) := by
  simp [HallEventQueue.pop, empty]

theorem pop_some (queued : queue.head ≠ queue.tail) :
    (HallEventQueue.pop size).run queue =
      (some (queue.events.getD (slot size queue.tail) ⟨0, 0⟩), queue.setTail (queue.tail + 1)) := by
  simp [HallEventQueue.pop, queued]

end Runs

section Access

variable {s : HallRestart} {event : HallEvent} {made : Nat} {write : HallEventQueue → HallEventQueue}
  {next : HallEventQueue → Resumption HallEventQueue Bool}
  (pushing : s.thread = some (.pushing event made (.access write next)))
include pushing

theorem access_more {write' : HallEventQueue → HallEventQueue} {next' : HallEventQueue → Resumption HallEventQueue Bool}
    (more : next s.queue = .access write' next') :
    s.access =
      { s with
        queue := write s.queue
        thread := some (.pushing event (made + 1) (.access write' next'))
        overtaken := s.overtaken && made != 1 } := by
  unfold access
  rw [pushing]
  simp only [more]

theorem access_done {taken : Bool} (finished : next s.queue = .done taken) :
    s.access =
      { s with
        queue := write s.queue
        thread := none
        accepted := pushed event taken s.accepted
        restarted := true
        missed := s.missed && !taken } := by
  unfold access
  rw [pushing]
  simp only [finished]

end Access

/-! ### What undisturbed runs keep -/

open HallEventQueue in
/-- How far the restart has come: nothing behind the head it drops to is popped, and the slot it fills is its
own until an edge overtakes it. -/
inductive Restarting (size base : UInt32) (s : HallRestart) (taken : Nat) : InitHall → Prop
  | clearing : Restarting size base s taken .clearing
  | dropping {loaded : Nat} : taken ≤ loaded → loaded ≤ s.accepted.length →
      (s.overtaken = true → loaded < s.accepted.length) →
      Restarting size base s taken (.droppingTo (after base loaded) loaded)
  | reading {sensor : Nat} {code : UInt8} : Restarting size base s taken (.reading sensor code)
  | begun {event : HallEvent} : Restarting size base s taken (.pushing event 0 (push size event))
  | counted {event : HallEvent} : Restarting size base s taken (.pushing event 1 (loadHead size event))
  | loaded {event : HallEvent} {head : UInt32} : (s.overtaken = false → head = s.queue.head) →
      Restarting size base s taken (.pushing event 2 (loadTail size event head))
  | full {event : HallEvent} : s.cleared < s.accepted.length →
      Restarting size base s taken (.pushing event 3 refuse)
  | free {event : HallEvent} {head : UInt32} :
      (s.overtaken = false → head = s.queue.head ∧ s.accepted.length < taken + size.toNat) →
      Restarting size base s taken (.pushing event 3 (fill size event head))
  | filled {event : HallEvent} {head : UInt32} :
      (s.overtaken = false → head = s.queue.head ∧ s.accepted.length < taken + size.toNat ∧
        s.queue.events[slot size head]? = some event) →
      Restarting size base s taken (.pushing event 4 (publish head))

/-- `taken` is the place of the tail among the accepted pushes. -/
structure Consistent (size base : UInt32) (s : HallRestart) (taken : Nat) : Prop where
  carries : Carries size base s.queue.events taken s.accepted
  head : s.queue.head = after base s.accepted.length
  tail : s.queue.tail = after base taken
  once : (s.popped ++ s.accepted.drop taken).Sublist s.accepted
  cleared : s.cleared ≤ taken
  kept : s.accepted.drop s.cleared <:+ s.popped ++ s.accepted.drop taken
  overtaken : s.overtaken = true → s.cleared < s.accepted.length
  thread : ∀ init, s.thread = some init → Restarting size base s taken init
  settled : s.thread = none → s.restarted = true → s.cleared < s.accepted.length
  current : s.cleared < s.accepted.length → s.missed = false →
    s.accepted.getLast?.map HallEvent.code = some s.pins

section Consistent

variable {base : UInt32} {s : HallRestart} {taken : Nat} (consistent : Consistent size base s taken)
include consistent

theorem Consistent.free_iff : ¬size ≤ s.queue.head - s.queue.tail ↔ s.accepted.length < taken + size.toNat := by
  rw [consistent.head, consistent.tail]
  exact consistent.carries.free_iff

theorem Consistent.empty_iff : s.queue.head = s.queue.tail ↔ taken = s.accepted.length := by
  rw [consistent.head, consistent.tail]
  exact consistent.carries.empty_iff

theorem Consistent.contents : s.queue.contents size = s.accepted.drop taken := by
  unfold HallEventQueue.contents
  rw [consistent.head, consistent.tail, consistent.carries.queued_eq]

theorem Consistent.intact : s.Intact size := by
  have within := consistent.carries.within
  refine ⟨?_, ?_, ?_, fun rests restarted found empty => ?_⟩
  · rw [consistent.head, consistent.tail, UInt32.le_iff_toNat_le, consistent.carries.gap]
    omega
  · rw [consistent.contents]
    exact consistent.once
  · rw [consistent.contents]
    exact consistent.kept
  · have since := consistent.settled rests restarted
    have newest := consistent.current since found
    obtain ⟨before, whole⟩ := consistent.kept
    rw [consistent.empty_iff.mp empty, List.drop_length, List.append_nil] at whole
    obtain ⟨event, last, -⟩ := Option.map_eq_some_iff.mp newest
    rw [← newest, ← whole, List.getLast?_append, List.getLast?_drop, if_neg (Nat.not_le.mpr since), last]
    rfl

theorem Consistent.add {later : HallRestart} {event : HallEvent}
    (carries : Carries size base later.queue.events taken s.accepted)
    (written : later.queue.events[slot size s.queue.head]? = some event) (room : s.accepted.length < taken + size.toNat)
    (head : later.queue.head = s.queue.head + 1) (tail : later.queue.tail = s.queue.tail)
    (accepted : later.accepted = s.accepted ++ [event]) (popped : later.popped = s.popped)
    (cleared : later.cleared = s.cleared) (newest : event.code = later.pins)
    (thread : ∀ init, later.thread = some init → Restarting size base later taken init) :
    Consistent size base later taken := by
  have order := consistent.carries.order
  have longer : later.accepted.length = s.accepted.length + 1 := by
    rw [accepted, List.length_append, List.length_singleton]
  have left : later.accepted.drop taken = s.accepted.drop taken ++ [event] := by
    rw [accepted, List.drop_append_of_le_length order]
  have since : later.cleared < later.accepted.length := by
    rw [cleared, longer]
    exact Nat.lt_succ_of_le (consistent.cleared.trans order)
  rw [consistent.head] at written
  refine ⟨?_, ?_, tail.trans consistent.tail, ?_, ?_, ?_, fun _ => since, thread, fun _ _ => since, fun _ _ => ?_⟩
  · rw [accepted]
    exact carries.add room written
  · rw [head, consistent.head, longer, after_succ]
  · rw [left, popped, accepted, ← List.append_assoc]
    exact consistent.once.append (.refl _)
  · rw [cleared]
    exact consistent.cleared
  · rw [left, popped, cleared, accepted, List.drop_append_of_le_length (consistent.cleared.trans order),
      ← List.append_assoc]
    obtain ⟨before, whole⟩ := consistent.kept
    exact ⟨before, by rw [← whole, List.append_assoc]⟩
  · rw [accepted, List.getLast?_concat, Option.map_some, newest]

/-- The restart goes on, in a queue whose ring stays. -/
theorem Consistent.goesOn {init : InitHall} {code : UInt8} {overflows : UInt32} {overtaken : Bool}
    (overtakes : overtaken = true → s.overtaken = true) :
    let later : HallRestart :=
      { s with
        queue := { s.queue with latestCode := code, overflows := overflows }
        thread := some init
        overtaken := overtaken }
    Restarting size base later taken init → Consistent size base later taken := by
  intro later restarts
  obtain ⟨carries, head, tail, once, cleared, kept, since, -, -, current⟩ := consistent
  refine ⟨carries, head, tail, once, cleared, kept, since ∘ overtakes, ?_, ?_, current⟩
  · rintro _ ⟨⟩
    exact restarts
  · rintro ⟨⟩

theorem Consistent.capture (capacity : Capacity size) (event : HallEvent) :
    Consistent size base (s.capture size event) taken := by
  unfold HallRestart.capture
  by_cases full : size ≤ s.queue.head - s.queue.tail
  · rw [push_full full]
    have same : (s.overtaken || false) = s.overtaken := Bool.or_false _
    obtain ⟨carries, head, tail, once, cleared, kept, since, thread, settled, -⟩ := consistent
    refine ⟨carries, head, tail, once, cleared, kept, ?_, fun init restarts => ?_, settled, ?_⟩
    · rw [← same] at since
      exact since
    · cases thread init restarts with
      | clearing => exact .clearing
      | dropping behind inside further =>
        rw [← same] at further
        exact .dropping behind inside further
      | reading => exact .reading
      | begun => exact .begun
      | counted => exact .counted
      | loaded own =>
        rw [← same] at own
        exact .loaded own
      | full since => exact .full since
      | free own =>
        rw [← same] at own
        exact .free own
      | filled own =>
        rw [← same] at own
        exact .filled own
    · rintro _ ⟨⟩
  · rw [push_free full]
    have room := consistent.free_iff.mp full
    obtain ⟨carries, written⟩ := consistent.carries.write capacity room event
    rw [← consistent.head] at carries written
    have longer : s.accepted.length < (s.accepted ++ [event]).length := by
      rw [List.length_append]
      exact Nat.lt_succ_self _
    have overtakes : ∀ {goal : Prop}, (s.overtaken || true) = false → goal := by
      intro goal still
      rw [Bool.or_true] at still
      cases still
    refine consistent.add carries written room rfl rfl rfl rfl rfl rfl fun init restarts => ?_
    cases consistent.thread init restarts with
    | clearing => exact .clearing
    | dropping behind inside =>
      exact .dropping behind (inside.trans longer.le) fun _ => inside.trans_lt longer
    | reading => exact .reading
    | begun => exact .begun
    | counted => exact .counted
    | loaded => exact .loaded overtakes
    | full since => exact .full (since.trans longer)
    | free => exact .free overtakes
    | filled => exact .filled overtakes

theorem Consistent.pop (undisturbed : s.Undisturbed .pop) : ∃ taken', Consistent size base (s.pop size) taken' := by
  by_cases empty : s.queue.head = s.queue.tail
  · have same : s.pop size = s := by
      unfold HallRestart.pop
      rw [pop_none empty]
      simp only [Option.toList_none, List.append_nil]
    rw [same]
    exact ⟨taken, consistent⟩
  have queued : taken < s.accepted.length :=
    Nat.lt_of_le_of_ne consistent.carries.order (empty ∘ consistent.empty_iff.mpr)
  have oldest : s.queue.events.getD (slot size s.queue.tail) ⟨0, 0⟩ = s.accepted[taken] := by
    rw [consistent.tail, consistent.carries.oldest queued]
  have moved : s.popped ++ [s.accepted[taken]] ++ s.accepted.drop (taken + 1) = s.popped ++ s.accepted.drop taken := by
    rw [List.drop_eq_getElem_cons queued, List.append_assoc]
    rfl
  have wider : s.accepted.length < taken + size.toNat → s.accepted.length < taken + 1 + size.toNat := by omega
  refine ⟨taken + 1, ?_⟩
  unfold HallRestart.pop
  rw [pop_some empty, oldest]
  refine ⟨consistent.carries.take queued, consistent.head, ?_, ?_, consistent.cleared.trans (Nat.le_succ _), ?_,
    consistent.overtaken, fun init restarts => ?_, consistent.settled, consistent.current⟩
  · change s.queue.tail + 1 = _
    rw [consistent.tail, after_succ]
  · exact moved ▸ consistent.once
  · exact moved ▸ consistent.kept
  · cases consistent.thread init restarts with
    | clearing => exact .clearing
    | @dropping loaded behind inside further =>
      refine .dropping (Nat.lt_of_le_of_ne behind ?_) inside further
      rintro rfl
      apply empty
      rw [consistent.tail]
      refine undisturbed _ ?_ consistent.tail
      rw [show s.thread = _ from restarts]
      rfl
    | reading => exact .reading
    | begun => exact .begun
    | counted => exact .counted
    | loaded own => exact .loaded own
    | full since => exact .full since
    | free own => exact .free fun still => (own still).imp_right wider
    | filled own => exact .filled fun still => (own still).imp_right (And.imp_left wider)

theorem Consistent.drop {loaded : Nat} (behind : taken ≤ loaded) (inside : loaded ≤ s.accepted.length)
    (further : s.overtaken = true → loaded < s.accepted.length) :
    Consistent size base
      { s with
        queue := s.queue.setTail (after base loaded)
        thread := some (.reading 0 0)
        cleared := loaded }
      loaded := by
  have fewer : (s.accepted.drop loaded).Sublist (s.accepted.drop taken) := by
    rw [← Nat.add_sub_cancel' behind, ← List.drop_drop]
    exact List.drop_sublist ..
  refine ⟨consistent.carries.takeTo behind inside, consistent.head, rfl, ?_, le_rfl, List.suffix_append .., further, ?_,
    ?_, ?_⟩
  · exact (fewer.append_left _).trans consistent.once
  · rintro _ ⟨⟩
    exact .reading
  · rintro ⟨⟩
  · exact fun since => consistent.current ((consistent.cleared.trans behind).trans_lt since)

open HallEventQueue in
theorem Consistent.access (capacity : Capacity size) (undisturbed : s.Undisturbed .access) :
    ∃ taken', Consistent size base s.access taken' := by
  rcases init : s.thread with _ | init'
  · refine ⟨taken, ?_⟩
    unfold HallRestart.access
    rw [init]
    exact consistent
  have order := consistent.carries.order
  have stores : ∀ event, init'.storing s.queue = some event → s.overtaken = false ∧ event.code = s.pins := by
    intro event found
    refine undisturbed event ?_
    rw [init]
    exact found
  have before : ∀ {made : Nat}, (s.overtaken && made != 1) = true → s.overtaken = true := by
    intro made both
    exact (Bool.and_eq_true_iff.mp both).1
  cases consistent.thread init' init with
  | clearing =>
    refine ⟨taken, ?_⟩
    unfold HallRestart.access
    rw [init, consistent.head]
    refine consistent.goesOn ?_ (.dropping order le_rfl ?_)
    · rintro ⟨⟩
    · rintro ⟨⟩
  | @dropping loaded behind inside further =>
    refine ⟨loaded, ?_⟩
    unfold HallRestart.access
    rw [init]
    exact consistent.drop behind inside further
  | reading =>
    refine ⟨taken, ?_⟩
    unfold HallRestart.access
    rw [init]
    exact consistent
  | @begun event =>
    refine ⟨taken, ?_⟩
    rw [access_more init (rfl : _ = loadHead size event)]
    exact consistent.goesOn before .counted
  | @counted event =>
    refine ⟨taken, ?_⟩
    rw [access_more init (rfl : _ = loadTail size event s.queue.head)]
    exact consistent.goesOn before (.loaded fun _ => rfl)
  | @loaded event head own =>
    refine ⟨taken, ?_⟩
    by_cases full : size ≤ head - s.queue.tail
    · rw [access_more init (if_pos full : _ = refuse)]
      refine consistent.goesOn before (.full ?_)
      cases overtakes : s.overtaken with
      | true => exact consistent.overtaken overtakes
      | false =>
        rw [own overtakes] at full
        have crowded := mt consistent.free_iff.mpr (not_not.mpr full)
        have cleared := consistent.cleared
        have pos := capacity.toNat_pos
        change s.cleared < s.accepted.length
        omega
    · rw [access_more init (if_neg full : _ = fill size event head)]
      refine consistent.goesOn before (.free fun still => ?_)
      have mine := own ((Bool.and_true _).symm.trans still)
      rw [mine] at full
      exact ⟨mine, consistent.free_iff.mp full⟩
  | @full event since =>
    refine ⟨taken, ?_⟩
    rw [access_done init (rfl : _ = Resumption.done false)]
    obtain ⟨carries, head, tail, once, cleared, kept, overtaken, -, -, current⟩ := consistent
    refine ⟨carries, head, tail, once, cleared, kept, overtaken, ?_, fun _ _ => since, fun since found => ?_⟩
    · rintro _ ⟨⟩
    · exact current since ((Bool.and_true _).symm.trans found)
  | @free event head own =>
    obtain ⟨still, -⟩ := stores event rfl
    obtain ⟨rfl, room⟩ := own still
    refine ⟨taken, ?_⟩
    rw [access_more init (rfl : _ = publish s.queue.head)]
    obtain ⟨carries, written⟩ := consistent.carries.write capacity room event
    rw [← consistent.head] at carries written
    refine ⟨carries, consistent.head, consistent.tail, consistent.once, consistent.cleared, consistent.kept,
      consistent.overtaken ∘ before, ?_, ?_, consistent.current⟩
    · rintro _ ⟨⟩
      exact .filled fun _ => ⟨rfl, room, written⟩
    · rintro ⟨⟩
  | @filled event head own =>
    obtain ⟨still, newest⟩ := stores event rfl
    obtain ⟨rfl, room, written⟩ := own still
    refine ⟨taken, ?_⟩
    rw [access_done init (rfl : _ = Resumption.done true)]
    refine consistent.add consistent.carries written room rfl rfl rfl rfl rfl newest ?_
    rintro _ ⟨⟩

theorem Consistent.next (capacity : Capacity size) (step : RestartStep) (undisturbed : s.Undisturbed step) :
    ∃ taken', Consistent size base (s.next size step) taken' := by
  have onItsWay : ∀ init, Restarting size base { s with thread := some init } taken init →
      Consistent size base { s with thread := some init } taken := fun _ => consistent.goesOn id
  cases step with
  | capture event => exact ⟨taken, consistent.capture capacity event⟩
  | pop => exact consistent.pop undisturbed
  | initHall => exact ⟨taken, onItsWay _ .clearing⟩
  | access => exact consistent.access capacity undisturbed
  | readPin =>
    refine ⟨taken, ?_⟩
    change Consistent size base s.readPin taken
    unfold HallRestart.readPin
    split
    · exact onItsWay _ .reading
    · exact consistent
  | readClock timestamp =>
    refine ⟨taken, ?_⟩
    change Consistent size base (s.readClock size timestamp) taken
    unfold HallRestart.readClock
    split
    · exact onItsWay _ .begun
    · exact consistent

end Consistent

theorem consistent_start (base : UInt32) (pins : UInt8) : Consistent size base (machine size base pins).start 0 := by
  have zero : after base 0 = base := UInt32.add_zero base
  refine ⟨⟨List.length_replicate, le_rfl, Nat.zero_le _, fun i _ old => ?_⟩, zero.symm, zero.symm, .refl _, le_rfl,
    List.suffix_rfl, ?_, ?_, ?_, ?_⟩
  · exact absurd old (Nat.not_lt_zero i)
  · rintro ⟨⟩
  · rintro _ ⟨⟩
  · rintro _ ⟨⟩
  · exact fun since => absurd since (Nat.lt_irrefl 0)

end HallRestart

open HallRestart in
/-- Every undisturbed order of the steps leaves the queue intact. -/
theorem hall_restart {size : UInt32} (capacity : Capacity size) (base : UInt32) (pins : UInt8)
    (trace : List RestartStep) (legal : (machine size base pins).Legal trace)
    (undisturbed : Runs.Throughout (fun step past => ((machine size base pins).replay past).Undisturbed step) trace) :
    ((machine size base pins).replay trace).Intact size := by
  obtain ⟨taken, kept⟩ := Runs.Machine.invariant_under _ (fun s _ => ∃ taken, Consistent size base s taken)
    ⟨0, consistent_start base pins⟩
    (fun step _ ⟨_, kept⟩ _ undisturbed => kept.next capacity step undisturbed) trace legal undisturbed
  exact kept.intact

def afterClear : List RestartStep := [.access, .access, .initHall]

def pinsRead : List RestartStep := List.replicate 3 .readPin ++ afterClear

/-- The push is about to store its event. -/
def roomFound : List RestartStep := List.replicate 3 .access ++ .readClock 200 :: pinsRead

/-- An edge between the halves of `Clear`, and a pop before the pins are read. -/
def edgeInClear : List RestartStep :=
  .pop :: List.replicate 5 .access ++ .readClock 200 :: List.replicate 3 .readPin ++
    [.pop, .access, .capture ⟨2, 100⟩, .access, .initHall, .capture ⟨3, 50⟩]

def poppedInClear : List RestartStep := [.pop, .access, .pop, .capture ⟨3, 100⟩, .access, .initHall]

def edgesInPush : List RestartStep :=
  [.access, .access, .pop, .capture ⟨2, 300⟩, .pop, .capture ⟨3, 250⟩] ++ roomFound

def edgeInPush : List RestartStep := [.access, .access, .capture ⟨3, 250⟩] ++ roomFound

def edgeAfterPins : List RestartStep :=
  [.pop, .pop] ++ List.replicate 5 .access ++ [.readClock 200, .capture ⟨3, 100⟩] ++ pinsRead

open HallRestart in
/-- Across the wrap of the counters. -/
theorem hall_restart_edge_in_clear :
    ((machine 2 0xFFFFFFFF 1).replay edgeInClear).popped.getLast?.map HallEvent.code =
      some ((machine 2 0xFFFFFFFF 1).replay edgeInClear).pins :=
  have intact := hall_restart (⟨by decide, by decide⟩ : Capacity 2) 0xFFFFFFFF 1 edgeInClear (by decide) (by decide)
  intact.newest (Option.isNone_iff_eq_none.mp (by decide)) (by decide) (by decide) (by decide)

open HallRestart in
/-- An edge popped twice, counters that run out of order, an edge overwritten, and a code older than the last
edge. -/
theorem hall_restart_disturbed :
    ((machine 16 0 1).Legal poppedInClear ∧ ((machine 16 0 1).replay poppedInClear).accepted = [⟨3, 100⟩] ∧
      ((machine 16 0 1).replay poppedInClear).popped = [⟨3, 100⟩, ⟨3, 100⟩]) ∧
    ((machine 16 0 1).Legal edgesInPush ∧ 16 < ((machine 16 0 1).replay edgesInPush).queue.head -
      ((machine 16 0 1).replay edgesInPush).queue.tail) ∧
    ((machine 16 0 1).Legal edgeInPush ∧ ((machine 16 0 1).replay edgeInPush).accepted = [⟨3, 250⟩, ⟨1, 200⟩] ∧
      ((machine 16 0 1).replay edgeInPush).popped = [] ∧
      ((machine 16 0 1).replay edgeInPush).queue.contents 16 = [⟨1, 200⟩]) ∧
    (machine 16 0 1).Legal edgeAfterPins ∧ ((machine 16 0 1).replay edgeAfterPins).thread = none ∧
      ((machine 16 0 1).replay edgeAfterPins).queue.head = ((machine 16 0 1).replay edgeAfterPins).queue.tail ∧
      ((machine 16 0 1).replay edgeAfterPins).popped = [⟨3, 100⟩, ⟨1, 200⟩] ∧
      ((machine 16 0 1).replay edgeAfterPins).pins = 3 :=
  ⟨by decide, by decide, by decide, by decide, Option.isNone_iff_eq_none.mp (by decide), by decide, by decide,
    by decide⟩

end Unimoc.CurrentControl
