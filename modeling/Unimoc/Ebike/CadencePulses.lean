import Unimoc.Lib.Runs
import Unimoc.Lib.WrappingClock
import Unimoc.Ebike.PulseAge

/-! The ages of the cadence pulses, between the interrupt that stamps them and the thread that reads
them. -/
namespace Unimoc.Ebike

open WrappingClock Resumption

def crankSlots : Nat := 32

/-- `ReadCadencePulses` after it has read the clock. -/
structure CadenceCall where
  previous : ℤ
  reference : ℤ
  ages : List UInt32
  pop : Resumption (EdgeQueue UInt32) (Option UInt32)

structure CadenceReport where
  previous : ℤ
  reference : ℤ
  ages : List UInt32
deriving DecidableEq

/-- Of no pulse the age is negative or above the time since the call before, and the oldest is first. The
same in single precision. -/
structure CadenceReport.Proper (report : CadenceReport) : Prop where
  bounded : ∀ age ∈ report.ages,
    0 ≤ (ageOf age : ℝ) ∧ (ageOf age : ℝ) ≤ (report.reference - report.previous : ℤ) / 170000000
  oldestFirst : (report.ages.map (ageOf : UInt32 → ℝ)).Pairwise (· ≥ ·)
  boundedSingle : ∀ age ∈ report.ages,
    (Scalar.zero : Binary32) ≤ ageOf age ∧ (ageOf age : Binary32) ≤ ageOf (stamp report.reference - stamp report.previous)
  oldestFirstSingle : (report.ages.map (ageOf : UInt32 → Binary32)).Pairwise (· ≥ ·)

/-- `since` counts the pulses from the last return on; `captured` has their times, oldest first. -/
structure CadenceSystem where
  queue : EdgeQueue UInt32
  call : Option CadenceCall
  now : ℤ
  latest : ℤ
  since : Nat
  captured : List ℤ
  reports : List CadenceReport

/-- The interrupt runs, the thread calls, or the thread makes its next access to the queue. -/
inductive CadenceStep
  | crankPulse (time : ℤ)
  | call (time : ℤ)
  | access

namespace CadenceSystem

variable (span : Nat)

def crankPulse (time : ℤ) (s : CadenceSystem) : CadenceSystem :=
  { s with
    queue := ((EdgeQueue.push crankSlots (stamp time)).run s.queue).2
    now := time
    since := s.since + 1
    captured := s.captured ++ [time] }

def begin (time : ℤ) (s : CadenceSystem) : CadenceSystem :=
  { s with call := some ⟨s.latest, time, [], EdgeQueue.pop crankSlots 0⟩, now := time, latest := time }

/-- Ages beyond the span are dropped. -/
def keep (reference : ℤ) (ages : List UInt32) (ticks : UInt32) : List UInt32 :=
  if ages.length < span then ages ++ [stamp reference - ticks] else ages

def access (s : CadenceSystem) : CadenceSystem :=
  match s.call with
  | some ⟨previous, reference, ages, .access write next⟩ =>
    match next s.queue with
    | .done none =>
      { s with
        queue := write s.queue, call := none, since := 0, reports := s.reports ++ [⟨previous, reference, ages⟩] }
    | .done (some ticks) =>
      { s with
        queue := write s.queue
        call := some ⟨previous, reference, keep span reference ages ticks, EdgeQueue.pop crankSlots 0⟩ }
    | rest => { s with queue := write s.queue, call := some ⟨previous, reference, ages, rest⟩ }
  | _ => s

def next (s : CadenceSystem) : CadenceStep → CadenceSystem
  | .crankPulse time => s.crankPulse time
  | .call time => s.begin time
  | .access => s.access span

/-- Time never runs `2 ^ 31` ticks past a call, and the queue and the span have room for the pulses
between two returns. The start counts as a call. -/
def machine (started : ℤ) : Runs.Machine CadenceSystem CadenceStep where
  start := ⟨.create crankSlots 0, none, started, started, 0, [], []⟩
  next := next span
  admits s
    | .crankPulse time =>
      s.now ≤ time ∧ time < s.latest + 2 ^ 31 ∧ s.since + 1 < crankSlots ∧ s.since + 1 ≤ span
    | .call time => s.call.isNone ∧ s.now ≤ time ∧ time < s.latest + 2 ^ 31
    | .access => s.call.isSome

instance (started : ℤ) : ∀ s step, Decidable ((machine span started).admits s step)
  | _, .crankPulse _ => inferInstanceAs (Decidable (_ ∧ _ ∧ _ ∧ _))
  | _, .call _ => inferInstanceAs (Decidable (_ ∧ _ ∧ _))
  | s, .access => inferInstanceAs (Decidable (s.call.isSome = true))

/-- No pulse comes after the clock was read while a call still empties the queue. -/
def Undisturbed (s : CadenceSystem) : CadenceStep → Prop
  | .crankPulse time => ∀ call ∈ s.call, time ≤ call.reference
  | _ => True

instance (s : CadenceSystem) : ∀ step, Decidable (s.Undisturbed step)
  | .crankPulse time => inferInstanceAs (Decidable (∀ call ∈ s.call, time ≤ call.reference))
  | .call _ => inferInstanceAs (Decidable True)
  | .access => inferInstanceAs (Decidable True)

/-- The stamps that ages stand for. -/
def stamps (reference : ℤ) (ages : List UInt32) : List UInt32 := ages.map (stamp reference - ·)

/-- Of the returned calls and the one that runs. -/
def told (s : CadenceSystem) : List UInt32 :=
  s.reports.flatMap (fun report => stamps report.reference report.ages) ++
    s.call.toList.flatMap fun call => stamps call.reference call.ages

variable {span}

/-! ### What an access does -/

section Access

variable {s : CadenceSystem} {previous reference : ℤ} {ages : List UInt32}
  {write : EdgeQueue UInt32 → EdgeQueue UInt32}
  {next : EdgeQueue UInt32 → Resumption (EdgeQueue UInt32) (Option UInt32)}
  (runs : s.call = some ⟨previous, reference, ages, .access write next⟩)
include runs

theorem access_more {write' : EdgeQueue UInt32 → EdgeQueue UInt32}
    {next' : EdgeQueue UInt32 → Resumption (EdgeQueue UInt32) (Option UInt32)}
    (more : next s.queue = .access write' next') :
    s.access span = { s with queue := write s.queue, call := some ⟨previous, reference, ages, .access write' next'⟩ } := by
  unfold access
  rw [runs]
  simp only [more]

theorem access_none (empty : next s.queue = .done none) :
    s.access span =
      { s with
        queue := write s.queue, call := none, since := 0, reports := s.reports ++ [⟨previous, reference, ages⟩] } := by
  unfold access
  rw [runs]
  simp only [empty]

theorem access_some {ticks : UInt32} (popped : next s.queue = .done (some ticks)) :
    s.access span =
      { s with
        queue := write s.queue
        call := some ⟨previous, reference, keep span reference ages ticks, EdgeQueue.pop crankSlots 0⟩ } := by
  unfold access
  rw [runs]
  simp only [popped]

end Access

/-- The pulses told of by the returned calls, those told of by the call that runs, and those that wait. -/
structure Consistent (span : Nat) (s : CadenceSystem) (earlier pulses held : List ℤ) : Prop where
  captured : s.captured = earlier ++ (pulses ++ held)
  carries : EdgeQueue.Carries crankSlots 0 s.queue (held.map stamp)
  told : s.reports.flatMap (fun report => stamps report.reference report.ages) = earlier.map stamp
  since : s.since = (pulses ++ held).length
  room : s.since < crankSlots ∧ s.since ≤ span
  sorted : s.captured.Pairwise (· ≤ ·)
  past : ∀ time ∈ s.captured, time ≤ s.now
  latest : s.latest ≤ s.now
  soon : ∀ time ∈ pulses ++ held, time < s.latest + 2 ^ 31
  idle : s.call = none → pulses = []
  ages : ∀ call ∈ s.call, call.ages = pulses.map (stamp call.reference - stamp ·)
  popping : ∀ call ∈ s.call, EdgeQueue.Popping crankSlots 0 s.queue.tail (held.map stamp) call.pop
  reference : ∀ call ∈ s.call, call.reference = s.latest
  previous : ∀ call ∈ s.call, call.previous ≤ call.reference ∧ call.reference < call.previous + 2 ^ 31

theorem stamps_ages (reference : ℤ) (pulses : List ℤ) :
    stamps reference (pulses.map (stamp reference - stamp ·)) = pulses.map stamp := by
  rw [stamps, List.map_map]
  refine List.map_congr_left fun time _ => ?_
  change stamp reference - (stamp reference - stamp time) = stamp time
  grind

section Steps

variable {s : CadenceSystem} {earlier pulses held : List ℤ} (consistent : Consistent span s earlier pulses held)
include consistent

theorem Consistent.past_waiting : ∀ time ∈ pulses ++ held, time ≤ s.now := by
  intro time listed
  apply consistent.past
  rw [consistent.captured]
  exact List.mem_append_right _ listed

theorem Consistent.crankPulse {time : ℤ} (later : s.now ≤ time) (soon : time < s.latest + 2 ^ 31)
    (free : s.since + 1 < crankSlots) (within : s.since + 1 ≤ span) :
    Consistent span (s.crankPulse time) earlier pulses (held ++ [time]) := by
  have since := consistent.since
  have few : (held.map stamp).length + 1 < crankSlots := by
    rw [List.length_map]
    rw [List.length_append] at since
    omega
  obtain ⟨carries, tail⟩ := consistent.carries.push few (stamp time)
  refine ⟨?_, ?_, consistent.told, ?_, ⟨free, within⟩, ?_, ?_, consistent.latest.trans later, ?_, consistent.idle,
    consistent.ages, ?_, consistent.reference, consistent.previous⟩
  · change s.captured ++ [time] = _
    rw [consistent.captured, List.append_assoc, List.append_assoc]
  · rw [List.map_append]
    exact carries
  · change s.since + 1 = _
    rw [since, ← List.append_assoc]
    exact (@List.length_append _ (pulses ++ held) [time]).symm
  · exact @sorted_capture ℤ id _ _ _ consistent.sorted consistent.past later
  · intro older listed
    rcases List.mem_append.mp listed with old | new
    · exact (consistent.past older old).trans later
    · exact (List.mem_singleton.mp new).le
  · intro older listed
    rw [← List.append_assoc] at listed
    rcases List.mem_append.mp listed with old | new
    · exact consistent.soon older old
    · rw [List.mem_singleton.mp new]
      exact soon
  · intro call runs
    rw [List.map_append]
    change EdgeQueue.Popping _ _ ((EdgeQueue.push crankSlots (stamp time)).run s.queue).2.tail _ _
    rw [tail]
    exact (consistent.popping call runs).add _

theorem Consistent.begin {time : ℤ} (rests : s.call = none) (later : s.now ≤ time) (soon : time < s.latest + 2 ^ 31) :
    Consistent span (s.begin time) earlier pulses held := by
  obtain rfl := consistent.idle rests
  refine ⟨consistent.captured, consistent.carries, consistent.told, consistent.since, consistent.room,
    consistent.sorted, ?_, le_rfl, ?_, fun _ => rfl, ?_, ?_, ?_, ?_⟩
  · exact fun older listed => (consistent.past older listed).trans later
  · intro older listed
    have before := consistent.past_waiting older listed
    change older < time + 2 ^ 31
    omega
  · rintro _ ⟨⟩
    rfl
  · rintro _ ⟨⟩
    exact .begun
  · rintro _ ⟨⟩
    rfl
  · rintro _ ⟨⟩
    exact ⟨consistent.latest.trans later, soon⟩

/-- An access keeps what the call has found, or takes the oldest pulse that waits, or the call returns. -/
theorem Consistent.access {call : CadenceCall} (runs : s.call = some call) :
    (∃ pulses' held' call', Consistent span (s.access span) earlier pulses' held' ∧ pulses' ++ held' = pulses ++ held ∧
        (s.access span).call = some call' ∧ (s.access span).reports = s.reports ∧ call'.previous = call.previous ∧
        call'.reference = call.reference) ∨
      held = [] ∧ Consistent span (s.access span) (earlier ++ pulses) [] [] ∧ (s.access span).call = none ∧
        (s.access span).reports =
          s.reports ++ [⟨call.previous, call.reference, pulses.map (stamp call.reference - stamp ·)⟩] := by
  obtain ⟨captured, carries, told, since, room, sorted, past, latest, soon, -, ages, popping, reference, previous⟩ :=
    consistent
  have ages := ages call runs
  have popping := popping call runs
  have reference := reference call runs
  have previous := previous call runs
  obtain ⟨write, next, rest⟩ := popping.exists_access
  obtain ⟨before, clock, found, pop⟩ := call
  obtain rfl : pop = .access write next := rest
  obtain ⟨write', next', more, same, popping⟩ | ⟨empty, same, none⟩ | ⟨ticks, others, popped, oldest, left⟩ :=
    popping.step carries
  · rw [access_more runs more, same]
    refine .inl ⟨pulses, held, _, ⟨captured, carries, told, since, room, sorted, past, latest, soon, ?_, ?_, ?_, ?_, ?_⟩,
      rfl, rfl, rfl, rfl, rfl⟩
    · rintro ⟨⟩
    · rintro _ ⟨⟩
      exact ages
    · rintro _ ⟨⟩
      exact popping
    · rintro _ ⟨⟩
      exact reference
    · rintro _ ⟨⟩
      exact previous
  · obtain rfl := List.map_eq_nil_iff.mp none
    rw [access_none runs empty, same]
    refine .inr ⟨rfl, ⟨?_, carries, ?_, rfl, ⟨(by decide : 0 < crankSlots), Nat.zero_le _⟩, sorted, past, latest, ?_, fun _ => rfl, ?_, ?_,
      ?_, ?_⟩, rfl, by rw [← ages]⟩
    · rw [captured, List.append_nil, List.append_nil, List.append_nil]
    · change (s.reports ++ [_]).flatMap _ = _
      rw [List.flatMap_append, told, List.map_append, List.flatMap_singleton, show found = _ from ages, stamps_ages]
    · exact List.forall_mem_nil _
    all_goals rintro _ ⟨⟩
  · obtain ⟨time, held, rfl, rfl, rfl⟩ := List.map_eq_cons_iff.mp oldest
    rw [access_some runs popped]
    have grown : pulses ++ [time] ++ held = pulses ++ time :: held := List.append_assoc ..
    have free : found.length < span := by
      have counted := room.2
      rw [since, List.length_append, List.length_cons] at counted
      rw [show found = _ from ages, List.length_map]
      omega
    refine .inl ⟨pulses ++ [time], held, _, ⟨?_, left, told, ?_, room, sorted, past, latest, ?_, ?_, ?_, ?_, ?_, ?_⟩,
      grown, rfl, rfl, rfl, rfl⟩
    · rw [grown]
      exact captured
    · rw [grown]
      exact since
    · rw [grown]
      exact soon
    · rintro ⟨⟩
    · rintro _ ⟨⟩
      change keep span clock found (stamp time) = _
      rw [keep, if_pos free, show found = _ from ages, List.map_append]
      rfl
    · rintro _ ⟨⟩
      exact .begun
    · rintro _ ⟨⟩
      exact reference
    · rintro _ ⟨⟩
      exact previous

end Steps

end CadenceSystem

/-! ### Proper ages -/

namespace CadenceReport

variable {previous reference : ℤ} {pulses : List ℤ}

theorem proper_of_within (soon : reference < previous + 2 ^ 31) (sorted : pulses.Pairwise (· ≤ ·))
    (within : ∀ time ∈ pulses, previous ≤ time ∧ time ≤ reference) :
    Proper ⟨previous, reference, pulses.map (stamp reference - stamp ·)⟩ := by
  have age : ∀ time ∈ pulses, (ageOf (stamp reference - stamp time) : ℝ) = (reference - time : ℤ) / 170000000 := by
    intro time listed
    obtain ⟨after, before⟩ := within time listed
    rw [ageOf_eq, toNat_sub before (by omega)]
  have ticks : ∀ {older newer : ℤ}, previous ≤ older → older ≤ newer → newer ≤ reference →
      stamp reference - stamp newer ≤ stamp reference - stamp older := by
    intro older newer first order last
    have near := toNat_sub last (by omega)
    have far := toNat_sub (order.trans last) (by omega)
    rw [UInt32.le_iff_toNat_le]
    omega
  constructor
  · intro _ listed
    obtain ⟨time, old, rfl⟩ := List.mem_map.mp listed
    obtain ⟨after, before⟩ := within time old
    rw [age time old]
    have positive : (0 : ℝ) ≤ (reference - time : ℤ) := by exact_mod_cast (by omega : 0 ≤ reference - time)
    have bounded : ((reference - time : ℤ) : ℝ) ≤ (reference - previous : ℤ) := by exact_mod_cast (by omega)
    exact ⟨by positivity, by gcongr⟩
  · rw [List.map_map, List.pairwise_map]
    refine sorted.imp_of_mem fun {older newer} old new order => ?_
    have further : ((reference - newer : ℤ) : ℝ) ≤ (reference - older : ℤ) := by exact_mod_cast (by omega)
    change (ageOf _ : ℝ) ≥ ageOf _
    rw [age older old, age newer new]
    gcongr
  · intro _ listed
    obtain ⟨time, old, rfl⟩ := List.mem_map.mp listed
    obtain ⟨after, before⟩ := within time old
    exact ⟨ageOf_nonneg _, ageOf_mono (ticks le_rfl after before)⟩
  · rw [List.map_map, List.pairwise_map]
    exact sorted.imp_of_mem fun old new order => ageOf_mono (ticks (within _ old).1 order (within _ new).2)

theorem improper {time : ℤ} (listed : time ∈ pulses) (later : reference < time) (near : time < reference + 2 ^ 31)
    (soon : reference < previous + 2 ^ 31) :
    ¬Proper ⟨previous, reference, pulses.map (stamp reference - stamp ·)⟩ := by
  intro proper
  have bounded := (proper.bounded _ (List.mem_map.mpr ⟨time, listed, rfl⟩)).2
  rw [ageOf_eq, toNat_sub_back later (by omega), div_le_div_iff_of_pos_right (by norm_num)] at bounded
  have counted : (2 ^ 32 - (time - reference) : ℤ) ≤ reference - previous := by exact_mod_cast bounded
  omega

end CadenceReport

namespace CadenceSystem

variable {span : Nat}

/-- The ages are proper, and those to come will be. -/
structure Timely (s : CadenceSystem) (pulses held : List ℤ) : Prop where
  proper : ∀ report ∈ s.reports, report.Proper
  idle : s.call = none → ∀ time ∈ held, s.latest ≤ time
  calling : ∀ call ∈ s.call, ∀ time ∈ pulses ++ held, call.previous ≤ time ∧ time ≤ call.reference

/-- An age is not proper, or one that is to come will not be. -/
def Tainted (s : CadenceSystem) (pulses held : List ℤ) : Prop :=
  (∃ report ∈ s.reports, ¬report.Proper) ∨ ∃ call ∈ s.call, ∃ time ∈ pulses ++ held, call.reference < time

/-- What a step makes of timely and of tainted states. -/
structure Judged (s s' : CadenceSystem) (undisturbed : Prop) (pulses held pulses' held' : List ℤ) : Prop where
  timely : Timely s pulses held → undisturbed → Timely s' pulses' held'
  tainted : Tainted s pulses held ∨ ¬undisturbed → Tainted s' pulses' held'

section Steps

variable {s : CadenceSystem} {earlier pulses held : List ℤ} (consistent : Consistent span s earlier pulses held)
include consistent

theorem Consistent.judge_crankPulse {time : ℤ} (later : s.now ≤ time) :
    Judged s (s.crankPulse time) (s.Undisturbed (.crankPulse time)) pulses held pulses (held ++ [time]) := by
  have after := consistent.latest.trans later
  constructor
  · intro timely undisturbed
    refine ⟨timely.proper, ?_, ?_⟩
    · intro rests older listed
      rcases List.mem_append.mp listed with old | new
      · exact timely.idle rests older old
      · rw [List.mem_singleton.mp new]
        exact after
    · intro call runs older listed
      rw [← List.append_assoc] at listed
      rcases List.mem_append.mp listed with old | new
      · exact timely.calling call runs older old
      · rw [List.mem_singleton.mp new]
        have reference := consistent.reference call runs
        have previous := (consistent.previous call runs).1
        exact ⟨by omega, undisturbed call runs⟩
  · rintro ((improper | ⟨call, runs, older, listed, late⟩) | disturbed)
    · exact .inl improper
    · refine .inr ⟨call, runs, older, ?_, late⟩
      rw [← List.append_assoc]
      exact List.mem_append_left _ listed
    · unfold Undisturbed at disturbed
      push Not at disturbed
      obtain ⟨call, runs, late⟩ := disturbed
      refine .inr ⟨call, runs, time, ?_, late⟩
      exact List.mem_append_right _ (List.mem_append_right _ List.mem_cons_self)

theorem Consistent.judge_begin {time : ℤ} (rests : s.call = none) (later : s.now ≤ time) :
    Judged s (s.begin time) (s.Undisturbed (.call time)) pulses held pulses held := by
  obtain rfl := consistent.idle rests
  constructor
  · intro timely _
    refine ⟨timely.proper, ?_, ?_⟩
    · rintro ⟨⟩
    · rintro _ ⟨⟩ older listed
      exact ⟨timely.idle rests older listed, (consistent.past_waiting older listed).trans later⟩
  · rintro ((improper | ⟨call, runs, -⟩) | disturbed)
    · exact .inl improper
    · rw [rests] at runs
      cases runs
    · exact absurd trivial disturbed

theorem Consistent.judge_access {call : CadenceCall} (runs : s.call = some call) :
    ∃ earlier' pulses' held', Consistent span (s.access span) earlier' pulses' held' ∧
      Judged s (s.access span) (s.Undisturbed .access) pulses held pulses' held' := by
  have previous := consistent.previous call runs
  have reference := consistent.reference call runs
  obtain ⟨pulses', held', call', kept, same, goesOn, reports, before, clock⟩ | ⟨rfl, kept, returned, reports⟩ :=
    consistent.access runs
  · refine ⟨earlier, pulses', held', kept, ?_, ?_⟩
    · intro timely _
      refine ⟨by rw [reports]; exact timely.proper, by rw [goesOn]; rintro ⟨⟩, ?_⟩
      rw [goesOn, same]
      rintro _ ⟨⟩
      rw [before, clock]
      exact timely.calling call runs
    · rintro ((improper | ⟨_, runs', time, listed, late⟩) | disturbed)
      · exact .inl (by rw [reports]; exact improper)
      · obtain rfl := Option.some.inj (runs.symm.trans runs')
        exact .inr ⟨call', goesOn, time, by rw [same]; exact listed, by rw [clock]; exact late⟩
      · exact absurd trivial disturbed
  · refine ⟨_, [], [], kept, ?_, ?_⟩
    · intro timely _
      have within := timely.calling call runs
      rw [List.append_nil] at within
      have sorted : pulses.Pairwise (· ≤ ·) := by
        have all := consistent.sorted
        rw [consistent.captured, List.append_nil] at all
        exact (List.pairwise_append.mp all).2.1
      refine ⟨?_, fun _ => List.forall_mem_nil _, by rw [returned]; rintro _ ⟨⟩⟩
      rw [reports]
      exact List.forall_mem_append.mpr ⟨timely.proper,
        List.forall_mem_singleton.mpr (CadenceReport.proper_of_within previous.2 sorted within)⟩
    · rintro ((⟨report, listed, improper⟩ | ⟨_, runs', time, listed, late⟩) | disturbed)
      · exact .inl ⟨report, by rw [reports]; exact List.mem_append_left _ listed, improper⟩
      · obtain rfl := Option.some.inj (runs.symm.trans runs')
        have soon := consistent.soon time listed
        rw [List.append_nil] at listed
        refine .inl ⟨_, by rw [reports]; exact List.mem_append_right _ List.mem_cons_self, ?_⟩
        exact CadenceReport.improper listed late (by omega) previous.2
      · exact absurd trivial disturbed

theorem Consistent.next {started : ℤ} {step : CadenceStep} (admitted : (machine span started).admits s step) :
    ∃ earlier' pulses' held', Consistent span (s.next span step) earlier' pulses' held' ∧
      Judged s (s.next span step) (s.Undisturbed step) pulses held pulses' held' := by
  cases step with
  | crankPulse time =>
    obtain ⟨later, soon, free, within⟩ := admitted
    exact ⟨_, _, _, consistent.crankPulse later soon free within, consistent.judge_crankPulse later⟩
  | call time =>
    obtain ⟨rests, later, soon⟩ := admitted
    have rests := Option.isNone_iff_eq_none.mp rests
    exact ⟨_, _, _, consistent.begin rests later soon, consistent.judge_begin rests later⟩
  | access =>
    obtain ⟨call, runs⟩ := Option.isSome_iff_exists.mp admitted
    exact consistent.judge_access runs

end Steps

/-- Every step of a run is undisturbed. -/
def UndisturbedRun (span : Nat) (started : ℤ) : List CadenceStep → Prop :=
  Runs.Throughout fun step past => ((machine span started).replay past).Undisturbed step

theorem judged (started : ℤ) (trace : List CadenceStep) (legal : (machine span started).Legal trace) :
    ∃ earlier pulses held, Consistent span ((machine span started).replay trace) earlier pulses held ∧
      (UndisturbedRun span started trace → Timely ((machine span started).replay trace) pulses held) ∧
      (¬UndisturbedRun span started trace → Tainted ((machine span started).replay trace) pulses held) := by
  refine Runs.Machine.invariant (fun s past => ∃ earlier pulses held, Consistent span s earlier pulses held ∧
    (UndisturbedRun span started past → Timely s pulses held) ∧
    (¬UndisturbedRun span started past → Tainted s pulses held)) ?_ ?_ trace legal
  · refine ⟨[], [], [], ⟨rfl, EdgeQueue.carries_create (by decide), rfl, rfl, ⟨(by decide : 0 < crankSlots), Nat.zero_le _⟩, .nil,
      List.forall_mem_nil _, le_rfl, List.forall_mem_nil _, fun _ => rfl, ?_, ?_, ?_, ?_⟩, ?_, ?_⟩
    any_goals rintro _ ⟨⟩
    · exact fun _ => ⟨List.forall_mem_nil _, fun _ => List.forall_mem_nil _, by rintro _ ⟨⟩⟩
    · exact fun disturbed => absurd (Runs.throughout_nil _) disturbed
  · rintro step past ⟨earlier, pulses, held, consistent, timely, tainted⟩ admitted
    obtain ⟨earlier', pulses', held', kept, judged⟩ := consistent.next admitted
    refine ⟨earlier', pulses', held', kept, ?_, ?_⟩
    · intro undisturbed
      obtain ⟨here, before⟩ := (Runs.throughout_cons ..).mp undisturbed
      exact judged.timely (timely before) here
    · intro disturbed
      by_cases before : UndisturbedRun span started past
      · exact judged.tainted (.inr fun here => disturbed ((Runs.throughout_cons ..).mpr ⟨here, before⟩))
      · exact judged.tainted (.inl (tainted before))

end CadenceSystem

open CadenceSystem in
/-- In every order of the interrupt and the accesses of the thread each pulse is told of exactly once, in
order. The ages are proper in every run in which no pulse comes after the clock was read while the call
still empties the queue, and in no other once the call has returned. -/
theorem cadence_ages (span : Nat) (started : ℤ) (trace : List CadenceStep)
    (legal : (machine span started).Legal trace) :
    let s := (machine span started).replay trace
    s.told ++ s.queue.waiting crankSlots 0 = s.captured.map stamp ∧
      (UndisturbedRun span started trace → ∀ report ∈ s.reports, report.Proper) ∧
      (s.call = none → (∀ report ∈ s.reports, report.Proper) → UndisturbedRun span started trace) := by
  intro s
  obtain ⟨earlier, pulses, held, consistent, timely, tainted⟩ := judged started trace legal
  refine ⟨?_, fun undisturbed => (timely undisturbed).proper, ?_⟩
  · have calling : (s.call.toList.flatMap fun call => stamps call.reference call.ages) = pulses.map stamp := by
      cases runs : s.call with
      | none => rw [consistent.idle runs]; rfl
      | some call =>
        rw [Option.toList_some, List.flatMap_singleton, consistent.ages call runs, stamps_ages]
    rw [told, consistent.told, calling, consistent.carries.waiting_eq, consistent.captured, List.map_append,
      List.map_append, List.append_assoc]
  · intro rests proper
    by_contra disturbed
    obtain ⟨report, listed, improper⟩ | ⟨call, runs, -⟩ := tainted disturbed
    · exact improper (proper report listed)
    · cases rests.symm.trans runs

/-- Newest first, as every trace here: a pulse in front of a call and one in the tick of its clock. -/
def quietPulses : List CadenceStep :=
  List.replicate 9 .access ++ [.crankPulse 100, .access, .call 100, .crankPulse 50]

/-- A pulse five ticks after the clock of a call that has made its first access. -/
def pulseWhileEmptying : List CadenceStep := List.replicate 5 .access ++ [.crankPulse 105, .access, .call 100]

open CadenceSystem in
theorem cadence_ages_quiet :
    ((machine 8 0).replay quietPulses).reports = [⟨0, 100, [50, 0]⟩] ∧
      ∀ report ∈ ((machine 8 0).replay quietPulses).reports, report.Proper := by
  have undisturbed : UndisturbedRun 8 0 quietPulses := by
    unfold UndisturbedRun
    decide
  exact ⟨by decide, (cadence_ages 8 0 quietPulses (by decide)).2.1 undisturbed⟩

open CadenceSystem in
/-- Its age is 25 s. -/
theorem pulse_aged_after_clock :
    (machine 8 0).Legal pulseWhileEmptying ∧
      ((machine 8 0).replay pulseWhileEmptying).reports = [⟨0, 100, [4294967291]⟩] ∧
      ¬∀ report ∈ ((machine 8 0).replay pulseWhileEmptying).reports, report.Proper := by
  have reports : ((machine 8 0).replay pulseWhileEmptying).reports =
      [⟨0, 100, [105].map (stamp 100 - stamp ·)⟩] := by decide
  refine ⟨by decide, reports, ?_⟩
  rw [reports, List.forall_mem_singleton]
  exact CadenceReport.improper List.mem_cons_self (by decide) (by decide) (by decide)

end Unimoc.Ebike
