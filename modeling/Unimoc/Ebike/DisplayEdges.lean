import Unimoc.Lib.Runs
import Unimoc.Ebike.EdgeQueue
import Unimoc.Ebike.EdgeUartLine

/-! The edges of the display line, between the interrupt that captures them and the thread that decodes
them. -/
namespace Unimoc.Ebike

open WrappingClock Resumption TimedCall

def displaySlots : Nat := 128

def displayBaud : Nat := 9600

def displayBitTicks : ℕ := timestampFrequency / displayBaud

/-- Where the thread is in `ReadDisplay`. -/
inductive ReadingDisplay
  | resting
  | emptying (span : Nat) (pop : Resumption (EdgeQueue UartEdge) (Option UartEdge))
  /-- The queue was found empty; `first` is the time of the first edge that came then. -/
  | polling (span : Nat) (first : Option ℤ)
  | delivering (left : Nat)

def ReadingDisplay.note (time : ℤ) : ReadingDisplay → ReadingDisplay
  | .polling span first => .polling span (first.or (some time))
  | reading => reading

def ReadingDisplay.first : ReadingDisplay → Option ℤ
  | .polling _ first => first
  | _ => none

/-- `captured` has every edge with its time, and `calls` what the decoder was called with, oldest first. -/
structure DisplaySystem where
  queue : EdgeQueue UartEdge
  reading : ReadingDisplay
  decoder : EdgeUartDecoder
  delivered : List UInt8
  now : ℤ
  polled : ℤ
  captured : List (ℤ × Bool)
  calls : List TimedCall

/-- The interrupt runs, or the thread calls `ReadDisplay` or goes on with it. -/
inductive DisplayStep
  | displayEdge (time : ℤ) (level : Bool)
  | call (span : Nat)
  | access
  | poll (time : ℤ)
  | takeByte

namespace DisplaySystem

def stamped (edge : ℤ × Bool) : UartEdge := ⟨stamp edge.1, edge.2⟩

/-- The edges that the decoder has not been given. -/
def pending (s : DisplaySystem) : List (ℤ × Bool) := s.captured.drop (s.calls.filterMap edge).length

def displayEdge (time : ℤ) (level : Bool) (s : DisplaySystem) : DisplaySystem :=
  { s with
    queue := ((EdgeQueue.push displaySlots (stamped (time, level))).run s.queue).2
    reading := s.reading.note time
    now := time
    captured := s.captured ++ [(time, level)] }

def popEdge : Resumption (EdgeQueue UartEdge) (Option UartEdge) := EdgeQueue.pop displaySlots ⟨0, true⟩

def access (s : DisplaySystem) : DisplaySystem :=
  match s.reading with
  | .emptying span (.access write next) =>
    match next s.queue with
    | .done none => { s with queue := write s.queue, reading := .polling span none }
    | .done (some edge) =>
      { s with
        queue := write s.queue
        reading := .emptying span popEdge
        decoder := s.decoder.push edge
        calls := s.calls ++ (s.pending.head?.map fun edge => TimedCall.push edge.1 edge.2).toList }
    | rest => { s with queue := write s.queue, reading := .emptying span rest }
  | _ => s

def poll (time : ℤ) (s : DisplaySystem) : DisplaySystem :=
  match s.reading with
  | .polling span _ =>
    { s with
      reading := .delivering span
      decoder := s.decoder.poll (stamp time)
      now := time
      polled := time
      calls := s.calls ++ [.poll time] }
  | _ => s

def takeByte (s : DisplaySystem) : DisplaySystem :=
  match s.reading with
  | .delivering 0 => { s with reading := .resting }
  | .delivering (left + 1) =>
    { s with
      reading := if s.decoder.pop.1.isSome then .delivering left else .resting
      decoder := s.decoder.pop.2
      delivered := s.delivered ++ s.decoder.pop.1.toList
      calls := s.calls ++ [.pop] }
  | _ => s

def next (s : DisplaySystem) : DisplayStep → DisplaySystem
  | .displayEdge time level => s.displayEdge time level
  | .call span => { s with reading := .emptying span popEdge }
  | .access => s.access
  | .poll time => s.poll time
  | .takeByte => s.takeByte

/-- Time never runs `2 ^ 31` ticks past a call, and neither the queue nor the FIFO is ever full. The start
counts as a call. -/
def machine (started : ℤ) : Runs.Machine DisplaySystem DisplayStep where
  start := ⟨.create displaySlots ⟨0, true⟩, .resting, .create (UInt32.ofNat displayBitTicks), [], started, started, [], []⟩
  next := next
  admits s
    | .displayEdge time _ =>
      s.now ≤ time ∧ time < s.polled + 2 ^ 31 ∧ (s.queue.head + 1) % displaySlots ≠ s.queue.tail
    | .call _ => (s.reading matches .resting)
    | .access => (s.reading matches .emptying ..) ∧ s.decoder.count < EdgeUartDecoder.fifoSize
    | .poll time =>
      (s.reading matches .polling ..) ∧ s.now ≤ time ∧ time < s.polled + 2 ^ 31 ∧
        s.decoder.count < EdgeUartDecoder.fifoSize
    | .takeByte => (s.reading matches .delivering _)

instance (started : ℤ) : ∀ s step, Decidable ((machine started).admits s step)
  | _, .displayEdge .. => inferInstanceAs (Decidable (_ ∧ _ ∧ _))
  | _, .call _ => inferInstanceAs (Decidable (_ = true))
  | _, .access => inferInstanceAs (Decidable (_ ∧ _))
  | _, .poll _ => inferInstanceAs (Decidable (_ ∧ _ ∧ _ ∧ _))
  | _, .takeByte => inferInstanceAs (Decidable (_ = true))

/-- The decoder is polled while no edge that is older is still to be pushed. -/
def InOrder (s : DisplaySystem) : DisplayStep → Prop
  | .poll time => ∀ edge ∈ s.pending, time ≤ edge.1
  | _ => True

/-- No edge comes between the empty queue and the clock that is read then. -/
def Undisturbed (s : DisplaySystem) : DisplayStep → Prop
  | .poll time => ∀ first ∈ s.reading.first, time ≤ first
  | _ => True

instance (s : DisplaySystem) : ∀ step, Decidable (s.InOrder step)
  | .poll time => inferInstanceAs (Decidable (∀ edge ∈ s.pending, time ≤ edge.1))
  | .displayEdge .. | .call _ | .access | .takeByte => inferInstanceAs (Decidable True)

instance (s : DisplaySystem) : ∀ step, Decidable (s.Undisturbed step)
  | .poll time => inferInstanceAs (Decidable (∀ first ∈ s.reading.first, time ≤ first))
  | .displayEdge .. | .call _ | .access | .takeByte => inferInstanceAs (Decidable True)

/-! ### What a step does -/

section Steps

variable {s : DisplaySystem} {span : Nat}

section Access

variable {write : EdgeQueue UartEdge → EdgeQueue UartEdge}
  {next : EdgeQueue UartEdge → Resumption (EdgeQueue UartEdge) (Option UartEdge)}
  (reads : s.reading = .emptying span (.access write next))
include reads

theorem access_more {write' : EdgeQueue UartEdge → EdgeQueue UartEdge}
    {next' : EdgeQueue UartEdge → Resumption (EdgeQueue UartEdge) (Option UartEdge)}
    (more : next s.queue = .access write' next') :
    s.access = { s with queue := write s.queue, reading := .emptying span (.access write' next') } := by
  unfold access
  rw [reads]
  simp only [more]

theorem access_none (empty : next s.queue = .done none) :
    s.access = { s with queue := write s.queue, reading := .polling span none } := by
  unfold access
  rw [reads]
  simp only [empty]

theorem access_some {popped : UartEdge} (taken : next s.queue = .done (some popped)) :
    s.access =
      { s with
        queue := write s.queue
        reading := .emptying span popEdge
        decoder := s.decoder.push popped
        calls := s.calls ++ (s.pending.head?.map fun edge => TimedCall.push edge.1 edge.2).toList } := by
  unfold access
  rw [reads]
  simp only [taken]

end Access

theorem poll_eq {first : Option ℤ} (reads : s.reading = .polling span first) (time : ℤ) :
    s.poll time =
      { s with
        reading := .delivering span
        decoder := s.decoder.poll (stamp time)
        now := time
        polled := time
        calls := s.calls ++ [.poll time] } := by
  unfold poll
  rw [reads]

end Steps

/-- The edges that the decoder has not been given wait in the queue. -/
structure Consistent (s : DisplaySystem) (rest : List (ℤ × Bool)) : Prop where
  captured : s.captured = s.calls.filterMap edge ++ rest
  run : (heardFrom displayBitTicks s.calls).decoder = s.decoder ∧ (heardFrom displayBitTicks s.calls).popped = s.delivered
  room : LineDecoder.Roomy displayBitTicks s.calls
  carries : EdgeQueue.Carries displaySlots ⟨0, true⟩ s.queue (rest.map stamped)
  sorted : s.captured.Pairwise fun older newer => older.1 ≤ newer.1
  past : ∀ seen ∈ s.captured, seen.1 ≤ s.now
  called : ∀ time ∈ times s.calls, time ≤ s.now
  polled : s.polled ≤ s.now
  soon : ∀ seen ∈ rest, seen.1 < s.polled + 2 ^ 31
  popping : ∀ span pop, s.reading = .emptying span pop →
    EdgeQueue.Popping displaySlots ⟨0, true⟩ s.queue.tail (rest.map stamped) pop
  polling : ∀ span first, s.reading = .polling span first → first = rest.head?.map Prod.fst

section Consistent

variable {s : DisplaySystem} {rest : List (ℤ × Bool)} (consistent : Consistent s rest)
include consistent

theorem Consistent.pending_eq : s.pending = rest := by
  unfold pending
  rw [consistent.captured, List.drop_left]

theorem Consistent.past_rest : ∀ seen ∈ rest, seen.1 ≤ s.now := by
  intro seen listed
  apply consistent.past
  rw [consistent.captured]
  exact List.mem_append_right _ listed

theorem Consistent.displayEdge {time : ℤ} (later : s.now ≤ time) (soon : time < s.polled + 2 ^ 31)
    (vacant : (s.queue.head + 1) % displaySlots ≠ s.queue.tail) (level : Bool) :
    Consistent (s.displayEdge time level) (rest ++ [(time, level)]) := by
  obtain ⟨carries, tail⟩ := consistent.carries.push (consistent.carries.free_of_vacant vacant) (stamped (time, level))
  refine ⟨?_, consistent.run, consistent.room, ?_, ?_, ?_, ?_, consistent.polled.trans later, ?_, ?_, ?_⟩
  · change s.captured ++ [_] = _
    rw [consistent.captured, List.append_assoc]
    rfl
  · rw [List.map_append]
    exact carries
  · exact sorted_capture consistent.sorted consistent.past later
  · refine List.forall_mem_append.mpr ⟨?_, List.forall_mem_singleton.mpr le_rfl⟩
    exact fun older listed => (consistent.past older listed).trans later
  · exact fun older listed => (consistent.called older listed).trans later
  · exact List.forall_mem_append.mpr ⟨consistent.soon, List.forall_mem_singleton.mpr soon⟩
  · intro span pop reads
    change EdgeQueue.Popping _ _ ((EdgeQueue.push displaySlots (stamped (time, level))).run s.queue).2.tail _ _
    rw [tail, List.map_append]
    refine (consistent.popping span pop ?_).add _
    cases reading : s.reading with
    | emptying => exact (congrArg (ReadingDisplay.note time) reading).symm.trans reads
    | polling | resting | delivering => cases (congrArg (ReadingDisplay.note time) reading).symm.trans reads
  · intro span first reads
    cases reading : s.reading with
    | polling _ old =>
      cases (congrArg (ReadingDisplay.note time) reading).symm.trans reads
      rw [consistent.polling _ _ reading]
      cases rest <;> rfl
    | emptying | resting | delivering => cases (congrArg (ReadingDisplay.note time) reading).symm.trans reads

/-- An access gives the decoder no edge, or the oldest that waits. -/
theorem Consistent.access {span : Nat} {pop : Resumption (EdgeQueue UartEdge) (Option UartEdge)}
    (reads : s.reading = .emptying span pop) (space : s.decoder.count < EdgeUartDecoder.fifoSize) :
    s.access.polled = s.polled ∧ (Consistent s.access rest ∧ s.access.calls = s.calls ∨
      ∃ seen others, rest = seen :: others ∧ Consistent s.access others ∧
        s.access.calls = s.calls ++ [.push seen.1 seen.2]) := by
  have pending := consistent.pending_eq
  have pastRest := consistent.past_rest
  obtain ⟨captured, run, room, carries, sorted, past, called, polled, soon, popping, -⟩ := consistent
  have popping := popping span pop reads
  obtain ⟨write, next, rfl⟩ := popping.exists_access
  obtain ⟨write', next', more, same, popping⟩ | ⟨empty, same, none⟩ | ⟨popped, others, taken, oldest, left⟩ :=
    popping.step carries
  · rw [access_more reads more, same]
    refine ⟨rfl, .inl ⟨⟨captured, run, room, carries, sorted, past, called, polled, soon, ?_, ?_⟩, rfl⟩⟩
    · rintro _ _ ⟨⟩
      exact popping
    · rintro _ _ ⟨⟩
  · obtain rfl := List.map_eq_nil_iff.mp none
    rw [access_none reads empty, same]
    refine ⟨rfl, .inl ⟨⟨captured, run, room, carries, sorted, past, called, polled, soon, ?_, ?_⟩, rfl⟩⟩
    · rintro _ _ ⟨⟩
    · rintro _ _ ⟨⟩
      rfl
  · obtain ⟨seen, others, rfl, rfl, rfl⟩ := List.map_eq_cons_iff.mp oldest
    have calls : s.calls ++ (s.pending.head?.map fun edge => TimedCall.push edge.1 edge.2).toList =
        s.calls ++ [.push seen.1 seen.2] := by
      rw [pending]
      rfl
    rw [access_some reads taken, calls]
    refine ⟨rfl, .inr ⟨seen, others, rfl, ⟨?_, ?_, ?_, left, sorted, past, ?_, polled, ?_, ?_, ?_⟩, rfl⟩⟩
    · rw [List.filterMap_append, List.append_assoc]
      exact captured
    · rw [LineDecoder.heardFrom_append]
      exact ⟨congrArg (EdgeUartDecoder.push (stamped seen)) run.1, run.2⟩
    · refine room.append fun _ => ?_
      rw [run.1]
      exact space
    · rw [LineDecoder.times_append]
      refine List.forall_mem_append.mpr ⟨called, List.forall_mem_singleton.mpr ?_⟩
      exact pastRest seen List.mem_cons_self
    · exact fun newer listed => soon newer (List.mem_cons_of_mem _ listed)
    · rintro _ _ ⟨⟩
      exact .begun
    · rintro _ _ ⟨⟩

theorem Consistent.poll {span : Nat} {first : Option ℤ} (reads : s.reading = .polling span first) {time : ℤ}
    (later : s.now ≤ time) (space : s.decoder.count < EdgeUartDecoder.fifoSize) : Consistent (s.poll time) rest := by
  rw [poll_eq reads]
  refine ⟨?_, ?_, ?_, consistent.carries, consistent.sorted, ?_, ?_, le_rfl, ?_, ?_, ?_⟩
  · rw [List.filterMap_append]
    exact consistent.captured.trans (congrArg (· ++ rest) (List.append_nil _).symm)
  · rw [LineDecoder.heardFrom_append]
    exact ⟨congrArg (EdgeUartDecoder.poll (stamp time)) consistent.run.1, consistent.run.2⟩
  · refine consistent.room.append fun _ => ?_
    rw [consistent.run.1]
    exact space
  · exact fun seen listed => (consistent.past seen listed).trans later
  · rw [LineDecoder.times_append]
    refine List.forall_mem_append.mpr ⟨?_, List.forall_mem_singleton.mpr le_rfl⟩
    exact fun older listed => (consistent.called older listed).trans later
  · intro seen listed
    have before := consistent.past_rest seen listed
    change seen.1 < time + 2 ^ 31
    omega
  · rintro _ _ ⟨⟩
  · rintro _ _ ⟨⟩

theorem Consistent.leaves {reading : ReadingDisplay} (quiet : ∀ span pop, reading ≠ .emptying span pop)
    (done : ∀ span first, reading ≠ .polling span first) : Consistent { s with reading := reading } rest := by
  obtain ⟨captured, run, room, carries, sorted, past, called, polled, soon, -, -⟩ := consistent
  exact ⟨captured, run, room, carries, sorted, past, called, polled, soon,
    fun span pop reads => absurd reads (quiet span pop), fun span first reads => absurd reads (done span first)⟩

theorem Consistent.begin (span : Nat) : Consistent { s with reading := .emptying span popEdge } rest := by
  obtain ⟨captured, run, room, carries, sorted, past, called, polled, soon, -, -⟩ := consistent
  refine ⟨captured, run, room, carries, sorted, past, called, polled, soon, ?_, ?_⟩
  · rintro _ _ ⟨⟩
    exact .begun
  · rintro _ _ ⟨⟩

theorem Consistent.takeByte {left : Nat} (reads : s.reading = .delivering left) : Consistent s.takeByte rest := by
  unfold DisplaySystem.takeByte
  rw [reads]
  cases left with
  | zero => exact consistent.leaves (by rintro _ _ ⟨⟩) (by rintro _ _ ⟨⟩)
  | succ left =>
    have popped : Consistent
        { s with
          decoder := s.decoder.pop.2
          delivered := s.delivered ++ s.decoder.pop.1.toList
          calls := s.calls ++ [.pop] } rest := by
      obtain ⟨captured, run, room, carries, sorted, past, called, polled, soon, popping, polling⟩ := consistent
      refine ⟨?_, ?_, ?_, carries, sorted, past, ?_, polled, soon, popping, polling⟩
      · rw [List.filterMap_append]
        exact captured.trans (congrArg (· ++ rest) (List.append_nil _).symm)
      · rw [LineDecoder.heardFrom_append, ← run.1, ← run.2]
        exact ⟨rfl, rfl⟩
      · exact room.append (absurd rfl)
      · rw [LineDecoder.times_append]
        exact List.forall_mem_append.mpr ⟨called, List.forall_mem_nil _⟩
    dsimp only
    split
    · exact popped.leaves (by rintro _ _ ⟨⟩) (by rintro _ _ ⟨⟩)
    · exact popped.leaves (by rintro _ _ ⟨⟩) (by rintro _ _ ⟨⟩)

end Consistent

/-! ### The order of the calls -/

/-- The decoder is called in time order, and the edges that wait are no older than its last call. -/
structure Timely (s : DisplaySystem) (rest : List (ℤ × Bool)) : Prop where
  order : (times s.calls).IsChain Soon
  behind : ∀ seen ∈ rest, s.polled ≤ seen.1 ∧ ∀ time ∈ times s.calls, time ≤ seen.1
  newest : ∀ time ∈ (times s.calls).getLast?, s.polled ≤ time

section Timely

variable {s : DisplaySystem} {rest : List (ℤ × Bool)} (consistent : Consistent s rest)
include consistent

theorem Consistent.sorted_rest : rest.Pairwise fun older newer => older.1 ≤ newer.1 := by
  have sorted := consistent.sorted
  rw [consistent.captured] at sorted
  exact (List.pairwise_append.mp sorted).2.1

/-- The edges that wait are those since the queue was found empty. -/
theorem Consistent.inOrder_iff {started : ℤ} {step : DisplayStep} (admitted : (machine started).admits s step) :
    s.InOrder step ↔ s.Undisturbed step := by
  cases step with
  | poll time =>
    obtain ⟨reads, -⟩ := admitted
    unfold InOrder Undisturbed
    rw [consistent.pending_eq]
    cases reading : s.reading with
    | polling span first =>
      rw [ReadingDisplay.first, consistent.polling span first reading]
      have sorted := consistent.sorted_rest
      cases rest with
      | nil => exact iff_of_true (List.forall_mem_nil _) (by rintro _ ⟨⟩)
      | cons oldest others =>
        constructor
        · rintro inOrder _ ⟨⟩
          exact inOrder oldest List.mem_cons_self
        · intro early seen listed
          have early := early oldest.1 rfl
          rcases List.mem_cons.mp listed with rfl | newer
          · exact early
          · exact early.trans (List.rel_of_pairwise_cons sorted newer)
    | resting | emptying | delivering => simp [reading] at reads
  | displayEdge | call | access | takeByte => exact Iff.rfl

theorem Timely.displayEdge (timely : Timely s rest) {time : ℤ} (later : s.now ≤ time) (level : Bool) :
    Timely (s.displayEdge time level) (rest ++ [(time, level)]) := by
  refine ⟨timely.order, List.forall_mem_append.mpr ⟨timely.behind, List.forall_mem_singleton.mpr ⟨?_, ?_⟩⟩, timely.newest⟩
  · exact consistent.polled.trans later
  · exact fun older listed => (consistent.called older listed).trans later

theorem Timely.push {after : DisplaySystem} {seen : ℤ × Bool} {others : List (ℤ × Bool)} (oldest : rest = seen :: others)
    (timely : Timely s rest) (polled : after.polled = s.polled)
    (calls : after.calls = s.calls ++ [.push seen.1 seen.2]) : Timely after others := by
  subst oldest
  obtain ⟨⟨recent, late⟩, behind⟩ := List.forall_mem_cons.mp timely.behind
  have soon := consistent.soon seen List.mem_cons_self
  have sorted := consistent.sorted_rest
  have grown : times after.calls = times s.calls ++ [seen.1] := by
    rw [calls, LineDecoder.times_append]
    rfl
  refine ⟨?_, ?_, ?_⟩
  · rw [grown]
    refine List.isChain_append.mpr ⟨timely.order, List.isChain_singleton _, ?_⟩
    rintro time listed _ ⟨⟩
    have near := timely.newest time listed
    exact ⟨late time (List.mem_of_getLast? listed), by omega⟩
  · rw [grown, polled]
    intro newer listed
    obtain ⟨recent, late⟩ := behind newer listed
    exact ⟨recent, List.forall_mem_append.mpr
      ⟨late, List.forall_mem_singleton.mpr (List.rel_of_pairwise_cons sorted listed)⟩⟩
  · rw [grown, List.getLast?_concat, polled]
    rintro _ ⟨⟩
    exact recent

theorem Timely.poll (timely : Timely s rest) {after : DisplaySystem} {time : ℤ} (later : s.now ≤ time)
    (soon : time < s.polled + 2 ^ 31) (early : ∀ seen ∈ rest, time ≤ seen.1) (polled : after.polled = time)
    (calls : after.calls = s.calls ++ [.poll time]) : Timely after rest := by
  have grown : times after.calls = times s.calls ++ [time] := by
    rw [calls, LineDecoder.times_append]
    rfl
  refine ⟨?_, ?_, ?_⟩
  · rw [grown]
    refine List.isChain_append.mpr ⟨timely.order, List.isChain_singleton _, ?_⟩
    rintro older listed _ ⟨⟩
    have near := timely.newest older listed
    exact ⟨(consistent.called older (List.mem_of_getLast? listed)).trans later, by omega⟩
  · rw [grown, polled]
    intro seen listed
    exact ⟨early seen listed, List.forall_mem_append.mpr
      ⟨(timely.behind seen listed).2, List.forall_mem_singleton.mpr (early seen listed)⟩⟩
  · rw [grown, List.getLast?_concat, polled]
    rintro _ ⟨⟩
    exact le_rfl

end Timely

theorem takeByte_keeps (s : DisplaySystem) : s.takeByte.polled = s.polled ∧ times s.takeByte.calls = times s.calls := by
  unfold takeByte
  split
  · exact ⟨rfl, rfl⟩
  · exact ⟨rfl, (LineDecoder.times_append ..).trans (List.append_nil _)⟩
  · exact ⟨rfl, rfl⟩

theorem Consistent.next {s : DisplaySystem} {rest : List (ℤ × Bool)} (consistent : Consistent s rest) {started : ℤ}
    {step : DisplayStep} (admitted : (machine started).admits s step) :
    ∃ rest', Consistent (s.next step) rest' ∧ (Timely s rest → s.InOrder step → Timely (s.next step) rest') := by
  cases step with
  | displayEdge time level =>
    obtain ⟨later, soon, vacant⟩ := admitted
    exact ⟨_, consistent.displayEdge later soon vacant level, fun timely _ => timely.displayEdge consistent later level⟩
  | call span =>
    have begun := consistent.begin span
    exact ⟨rest, begun, fun timely _ => ⟨timely.order, timely.behind, timely.newest⟩⟩
  | access =>
    obtain ⟨reads, space⟩ := admitted
    cases reading : s.reading with
    | emptying span pop =>
      obtain ⟨polled, ⟨kept, calls⟩ | ⟨seen, others, oldest, kept, calls⟩⟩ := consistent.access reading space
      · refine ⟨rest, kept, fun timely _ => ⟨?_, ?_, ?_⟩⟩
        · exact calls ▸ timely.order
        · exact calls ▸ polled ▸ timely.behind
        · exact calls ▸ polled ▸ timely.newest
      · exact ⟨others, kept, fun timely _ => timely.push consistent oldest polled calls⟩
    | resting | polling | delivering => simp [reading] at reads
  | poll time =>
    obtain ⟨reads, later, soon, space⟩ := admitted
    cases reading : s.reading with
    | polling span first =>
      refine ⟨rest, consistent.poll reading later space, fun timely inOrder => ?_⟩
      have early : ∀ seen ∈ rest, time ≤ seen.1 := consistent.pending_eq ▸ inOrder
      change Timely (s.poll time) rest
      rw [poll_eq reading]
      exact timely.poll consistent later soon early rfl rfl
    | resting | emptying | delivering => simp [reading] at reads
  | takeByte =>
    cases reading : s.reading with
    | delivering left =>
      refine ⟨rest, consistent.takeByte reading, fun timely _ => ?_⟩
      obtain ⟨polled, calls⟩ := s.takeByte_keeps
      exact ⟨calls ▸ timely.order, by rw [DisplaySystem.next, calls, polled]; exact timely.behind,
        by rw [DisplaySystem.next, calls, polled]; exact timely.newest⟩
    | resting | emptying | polling => simp [machine, reading] at admitted

def InOrderRun (started : ℤ) : List DisplayStep → Prop :=
  Runs.Throughout fun step past => ((machine started).replay past).InOrder step

def UndisturbedRun (started : ℤ) : List DisplayStep → Prop :=
  Runs.Throughout fun step past => ((machine started).replay past).Undisturbed step

theorem consistent (started : ℤ) (trace : List DisplayStep) (legal : (machine started).Legal trace) :
    ∃ rest, Consistent ((machine started).replay trace) rest ∧
      (InOrderRun started trace → Timely ((machine started).replay trace) rest) := by
  refine Runs.Machine.invariant (fun s past => ∃ rest, Consistent s rest ∧ (InOrderRun started past → Timely s rest))
    ?_ ?_ trace legal
  · refine ⟨[], ⟨rfl, ⟨rfl, rfl⟩, ?_, EdgeQueue.carries_create (by decide), .nil, List.forall_mem_nil _,
      List.forall_mem_nil _, le_rfl, List.forall_mem_nil _, by rintro _ _ ⟨⟩, by rintro _ _ ⟨⟩⟩,
      fun _ => ⟨.nil, List.forall_mem_nil _, by rintro _ ⟨⟩⟩⟩
    intro heard call listed
    exact absurd (List.prefix_nil.mp listed) (List.append_ne_nil_of_right_ne_nil heard (List.cons_ne_nil call []))
  · rintro step past ⟨rest, consistent, timely⟩ admitted
    obtain ⟨rest', kept, next⟩ := consistent.next admitted
    refine ⟨rest', kept, fun inOrder => ?_⟩
    obtain ⟨here, before⟩ := (Runs.throughout_cons ..).mp inOrder
    exact next (timely before) here

theorem inOrderRun_iff (started : ℤ) (trace : List DisplayStep) (legal : (machine started).Legal trace) :
    InOrderRun started trace ↔ UndisturbedRun started trace := by
  refine Runs.Machine.throughout_congr (fun s _ => ∃ rest, Consistent s rest) ?_ ?_ trace legal
  · intro trace legal
    obtain ⟨rest, kept, -⟩ := consistent started trace legal
    exact ⟨rest, kept⟩
  · rintro step past ⟨rest, kept⟩ admitted
    exact kept.inOrder_iff admitted

end DisplaySystem

open DisplaySystem in
/-- The decoder is polled in order if and only if no edge comes between the empty queue and the clock that
is read then. In such runs its calls are in time order, and the bytes are those it makes of the same edges
up to the same time however it is polled. -/
theorem display_edges (started : ℤ) (trace : List DisplayStep) (legal : (machine started).Legal trace) :
    let s := (machine started).replay trace
    (InOrderRun started trace ↔ UndisturbedRun started trace) ∧
      s.captured = s.calls.filterMap edge ++ s.pending ∧
      (UndisturbedRun started trace →
        (times s.calls).IsChain Soon ∧
        (∀ seen ∈ s.pending, ∀ time ∈ times s.calls, time ≤ seen.1) ∧
        ∀ others : List TimedCall, (times others).IsChain Soon → LineDecoder.Roomy displayBitTicks others →
          others.filterMap edge = s.calls.filterMap edge → (times others).getLast? = (times s.calls).getLast? →
          s.delivered ++ s.decoder.waiting = (heardFrom displayBitTicks others).bytes) := by
  intro s
  have same := inOrderRun_iff started trace legal
  obtain ⟨rest, kept, timely⟩ := consistent started trace legal
  refine ⟨same, ?_, fun undisturbed => ?_⟩
  · rw [kept.pending_eq]
    exact kept.captured
  · have timely := timely (same.mpr undisturbed)
    rw [kept.pending_eq]
    refine ⟨timely.order, fun seen listed => (timely.behind seen listed).2, ?_⟩
    intro others soon room edges newest
    rw [← LineDecoder.bytes_eq (by decide) timely.order soon kept.room room edges.symm newest.symm, UartRun.bytes,
      kept.run.1, kept.run.2]

/-- Newest first, as every trace here: a call that finds an edge, and the accesses with which it does so. -/
def emptyOne : List DisplayStep := List.replicate 6 .access ++ [.call 16]

/-- The byte 0xFE, whose only edge after its start is pushed before the poll in its second data bit. -/
def polledInOrder : List DisplayStep :=
  [.takeByte, .takeByte, .poll 194788, .access, .access, .call 16, .takeByte, .poll 46041] ++
    emptyOne ++ [.displayEdge 35416 true, .takeByte, .poll 20000] ++ emptyOne ++ [.displayEdge 0 false]

/-- The same edge while the thread is about to read the clock. -/
def edgeBeforePoll : List DisplayStep :=
  [.takeByte, .takeByte, .poll 194788] ++ emptyOne ++ [.takeByte, .poll 46041, .displayEdge 35416 true] ++
    emptyOne ++ [.displayEdge 0 false]

/-- The edges of that byte, and one poll behind its stop bit. -/
def edgesAlone : List TimedCall := [.push 0 false, .push 35416 true, .poll 194788]

open DisplaySystem in
theorem display_edges_in_order :
    ((machine 0).replay polledInOrder).delivered ++ ((machine 0).replay polledInOrder).decoder.waiting = [0xFE] := by
  have undisturbed : UndisturbedRun 0 polledInOrder := by
    unfold UndisturbedRun
    decide
  obtain ⟨-, -, ordered⟩ := display_edges 0 polledInOrder (by decide)
  obtain ⟨-, -, alone⟩ := ordered undisturbed
  exact (alone edgesAlone (by decide) (LineDecoder.roomy_of_inits (by decide)) (by decide) (by decide)).trans (by decide)

open DisplaySystem in
/-- The bit is sampled with the level before the edge. -/
theorem edge_polled_over :
    (machine 0).Legal edgeBeforePoll ∧ ¬InOrderRun 0 edgeBeforePoll ∧
      ((machine 0).replay edgeBeforePoll).calls.filterMap edge = edgesAlone.filterMap edge ∧
      (times ((machine 0).replay edgeBeforePoll).calls).getLast? = (times edgesAlone).getLast? ∧
      ((machine 0).replay edgeBeforePoll).delivered = [0xFC] ∧ (heardFrom displayBitTicks edgesAlone).bytes = [0xFE] := by
  have disordered : ¬InOrderRun 0 edgeBeforePoll := by
    unfold InOrderRun
    decide
  exact ⟨by decide, disordered, by decide, by decide, by decide, by decide⟩

end Unimoc.Ebike
