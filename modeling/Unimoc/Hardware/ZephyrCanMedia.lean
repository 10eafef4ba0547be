import Unimoc.Cyphal.CanardTransport

/-! A CAN controller behind the transport: its interrupts fill a message queue and wake the Cyphal
thread, which takes frames out and reads the state of the bus. -/
namespace Unimoc.Hardware

open Cyphal

/-- `struct can_frame`. -/
structure DriverFrame where
  id : UInt32
  dlc : UInt8
  extended : Bool
  remote : Bool
  fd : Bool
  brs : Bool
  data : List UInt8
deriving DecidableEq, Repr

/-- `can_bytes_to_dlc()` and `can_dlc_to_bytes()`. -/
structure DataLengthCode where
  ofBytes : UInt8 → UInt8
  toBytes : UInt8 → UInt8

/-- The lengths of CAN FD. -/
def dataLengths : List UInt8 := [0, 1, 2, 3, 4, 5, 6, 7, 8, 12, 16, 20, 24, 32, 48, 64]

def DataLengthCode.Lawful (code : DataLengthCode) : Prop := ∀ size ∈ dataLengths, code.toBytes (code.ofBytes size) = size

inductive CanState
  | errorActive
  | errorWarning
  | errorPassive
  | busOff
  | stopped
deriving DecidableEq, Repr

/-- The driver takes `sizeof(can_frame::data)` bytes; `wake` counts the semaphore. -/
structure ZephyrCanMedia where
  mtu : Nat
  brs : Bool
  dataSize : Nat
  rxQueue : List DriverFrame
  rxOverruns : UInt32
  busState : CanBusState
  busOffCount : UInt32
  wake : Nat
deriving DecidableEq, Repr

namespace ZephyrCanMedia

def rxQueueLength : Nat := 32

def wakeLimit : Nat := 1000

def canClassicMtu : Nat := 8

def canExtIdMask : UInt32 := 0x1FFFFFFF

def init (useFd capableOfFd brs : Bool) (dataSize : Nat) : ZephyrCanMedia where
  mtu := if useFd && capableOfFd then Sim.canFdMtu else canClassicMtu
  brs := useFd && capableOfFd && brs
  dataSize
  rxQueue := []
  rxOverruns := 0
  busState := .errorActive
  busOffCount := 0
  wake := 0

/-- `k_sem_give()`. -/
def give (media : ZephyrCanMedia) : ZephyrCanMedia := { media with wake := min (media.wake + 1) wakeLimit }

/-- `k_sem_take()` with a timeout. -/
def take (media : ZephyrCanMedia) : ZephyrCanMedia := { media with wake := media.wake - 1 }

/-- `k_msgq_put()` without waiting. -/
def put (frame : DriverFrame) (media : ZephyrCanMedia) : ZephyrCanMedia :=
  if media.rxQueue.length < rxQueueLength then { media with rxQueue := media.rxQueue ++ [frame] }
  else { media with rxOverruns := media.rxOverruns + 1 }

def onFrame (frame : DriverFrame) (media : ZephyrCanMedia) : ZephyrCanMedia :=
  if frame.remote then media else (media.put frame).give

def busStateOf : CanState → CanBusState
  | .errorWarning => .errorWarning
  | .errorPassive => .errorPassive
  | .busOff => .busOff
  | .errorActive | .stopped => .errorActive

def onStateChange (state : CanState) (media : ZephyrCanMedia) : ZephyrCanMedia :=
  { media with
    busState := busStateOf state
    busOffCount := if state = CanState.busOff then media.busOffCount + 1 else media.busOffCount }.give

/-- What `Push()` hands to `can_send()`. -/
def sent (code : DataLengthCode) (frame : Sim.CanFrame) (media : ZephyrCanMedia) : DriverFrame where
  id := frame.extendedCanId &&& canExtIdMask
  dlc := code.ofBytes frame.size
  extended := true
  remote := false
  fd := canClassicMtu < media.mtu
  brs := canClassicMtu < media.mtu && media.brs
  data := (frame.data.toList.take (min frame.size.toNat media.dataSize)).rightpad media.dataSize 0

/-- What `Pop()` makes of a frame of the driver. Behind its bytes stays what the caller's frame had there. -/
def received (code : DataLengthCode) (given : Sim.CanFrame) (frame : DriverFrame) : Sim.CanFrame :=
  let size := code.toBytes frame.dlc
  { extendedCanId := frame.id
    size
    data := Vector.ofFn fun i => if i.val < size.toNat then frame.data.getD i 0 else given.data.get i }

/-- `k_msgq_get()` without waiting. -/
def get (media : ZephyrCanMedia) : Option DriverFrame × ZephyrCanMedia :=
  match media.rxQueue with
  | [] => (none, media)
  | frame :: rest => (some frame, { media with rxQueue := rest })

def pop (code : DataLengthCode) (given : Sim.CanFrame) (media : ZephyrCanMedia) : Option Sim.CanFrame × ZephyrCanMedia :=
  (media.get.1.map (received code given), media.get.2)

end ZephyrCanMedia

/-! ### Interrupts between the steps of the thread -/

/-- `Pop()` is given a frame to write to. `BusStatus()` loads the state, then the count. -/
inductive CanEvent
  | onFrame (frame : DriverFrame)
  | onStateChange (state : CanState)
  | take
  | pop (given : Sim.CanFrame)
  | loadBusState
  | loadBusOffCount
deriving DecidableEq, Repr

/-- What an observer notes beside the controller. `burst` counts the data frames since the queue was
last found empty, `signalled` says that an interrupt came since the thread last took the semaphore. -/
structure CanRun where
  media : ZephyrCanMedia
  popped : List Sim.CanFrame
  refused : Nat
  burst : Nat
  longestBurst : Nat
  signalled : Bool
  loadedState : CanBusState
  reports : List CanBusStatus
deriving DecidableEq, Repr

namespace CanRun

def start (media : ZephyrCanMedia) : CanRun where
  media
  popped := []
  refused := 0
  burst := 0
  longestBurst := 0
  signalled := false
  loadedState := media.busState
  reports := []

def next (code : DataLengthCode) (r : CanRun) : CanEvent → CanRun
  | .onFrame frame =>
    if frame.remote then r
    else { r with
      media := r.media.onFrame frame
      refused := if r.media.rxQueue.length < ZephyrCanMedia.rxQueueLength then r.refused else r.refused + 1
      burst := r.burst + 1
      longestBurst := max r.longestBurst (r.burst + 1)
      signalled := true }
  | .onStateChange state =>
    { r with
      media := r.media.onStateChange state
      signalled := true }
  | .take => { r with media := r.media.take, signalled := false }
  | .pop given =>
    match r.media.pop code given with
    | (some frame, media) => { r with media, popped := r.popped ++ [frame] }
    | (none, media) => { r with media, burst := 0 }
  | .loadBusState => { r with loadedState := r.media.busState }
  | .loadBusOffCount => { r with reports := r.reports ++ [⟨r.loadedState, r.media.busOffCount⟩] }

def run (code : DataLengthCode) (media : ZephyrCanMedia) (events : List CanEvent) : CanRun :=
  events.foldl (next code) (start media)

/-- The data frames that have come in, oldest first. -/
def arrivals (events : List CanEvent) : List DriverFrame :=
  events.filterMap fun
    | .onFrame frame => if frame.remote then none else some frame
    | _ => none

/-! ### Frames -/

/-- What is valid of a frame. -/
structure Contents where
  extendedCanId : UInt32
  size : UInt8
  bytes : List UInt8
deriving DecidableEq, Repr

def contents (frame : Sim.CanFrame) : Contents :=
  ⟨frame.extendedCanId, frame.size, frame.data.toList.take frame.size.toNat⟩

variable (code : DataLengthCode)

/-- What a frame of the driver carries, whatever it is written to. -/
def carried (frame : DriverFrame) : Contents := contents (ZephyrCanMedia.received code .initial frame)

/-- The frames popped and those that wait. -/
def accepted (r : CanRun) : List Contents := r.popped.map contents ++ r.media.rxQueue.map (carried code)

/-- The bytes behind the valid ones do not count. -/
theorem contents_congr {one other : Sim.CanFrame} (id : one.extendedCanId = other.extendedCanId)
    (size : one.size = other.size)
    (bytes : ∀ i (inside : i < Sim.canFdMtu), i < one.size.toNat → one.data[i] = other.data[i]) :
    contents one = contents other := by
  have same : one.data.toList.take one.size.toNat = other.data.toList.take one.size.toNat := by
    apply List.ext_getElem?
    intro i
    rw [List.getElem?_take, List.getElem?_take]
    split
    · rename_i valid
      by_cases inside : i < Sim.canFdMtu
      · have byte := bytes i inside valid
        simpa [inside] using byte
      · simp [inside]
    · rfl
  rw [contents, contents, same, id, size]

theorem contents_received (given : Sim.CanFrame) (frame : DriverFrame) :
    contents (ZephyrCanMedia.received code given frame) = carried code frame := by
  refine contents_congr rfl rfl fun i inside valid => ?_
  have valid : i < (code.toBytes frame.dlc).toNat := valid
  simp [ZephyrCanMedia.received, valid]

/-- After the frames `arrived`. -/
structure Kept (r : CanRun) (overruns : UInt32) (arrived : List DriverFrame) : Prop where
  part : (r.accepted code).Sublist (arrived.map (carried code))
  counted : arrived.length = (r.accepted code).length + r.refused
  overruns : r.media.rxOverruns = overruns + UInt32.ofNat r.refused
  short : r.media.rxQueue.length ≤ ZephyrCanMedia.rxQueueLength
  waiting : r.media.rxQueue.length ≤ r.burst
  longest : r.burst ≤ r.longestBurst
  paced : r.longestBurst ≤ ZephyrCanMedia.rxQueueLength → r.refused = 0
  woken : r.signalled = true → 0 < r.media.wake

variable {code} {r : CanRun} {overruns : UInt32} {arrived : List DriverFrame}

theorem give_wake (media : ZephyrCanMedia) : 0 < media.give.wake := by
  have limit : 0 < ZephyrCanMedia.wakeLimit := by decide
  exact lt_min (Nat.succ_pos _) limit

theorem Kept.onFrame (kept : Kept code r overruns arrived) {frame : DriverFrame} (data : frame.remote = false) :
    Kept code (r.next code (.onFrame frame)) overruns (arrived ++ [frame]) := by
  simp only [next, ZephyrCanMedia.onFrame, data, Bool.false_eq_true, if_false]
  by_cases room : r.media.rxQueue.length < ZephyrCanMedia.rxQueueLength
  · simp only [ZephyrCanMedia.put, if_pos room, ZephyrCanMedia.give]
    refine ⟨?_, ?_, kept.overruns, ?_, ?_, le_max_right _ _, ?_, fun _ => ?_⟩
    · simpa [accepted, ← List.append_assoc] using
        kept.part.append (List.Sublist.refl [carried code frame])
    · have counted := kept.counted
      simp only [accepted, List.length_append, List.length_map, List.length_singleton] at counted ⊢
      omega
    · rw [List.length_append]
      exact room
    · have waiting := kept.waiting
      simp only [List.length_append, List.length_singleton]
      omega
    · intro short
      exact kept.paced ((le_max_left _ _).trans short)
    · exact give_wake r.media
  · simp only [ZephyrCanMedia.put, if_neg room, ZephyrCanMedia.give]
    have full := kept.short
    have waiting := kept.waiting
    refine ⟨?_, ?_, ?_, kept.short, ?_, le_max_right _ _, ?_, fun _ => ?_⟩
    · rw [List.map_append]
      exact kept.part.trans (List.sublist_append_left _ _)
    · have counted := kept.counted
      simp only [accepted, List.length_append, List.length_map, List.length_singleton] at counted ⊢
      omega
    · simp only [kept.overruns, UInt32.ofNat_add]
      rw [UInt32.add_assoc]
      rfl
    · exact waiting.trans (Nat.le_succ _)
    · intro short
      have longer := (le_max_right r.longestBurst (r.burst + 1)).trans short
      omega
    · exact give_wake r.media

theorem Kept.next (kept : Kept code r overruns arrived) (event : CanEvent) :
    Kept code (r.next code event) overruns (arrived ++ arrivals [event]) := by
  cases event with
  | onFrame frame =>
    cases remote : frame.remote with
    | false => simpa [arrivals, remote] using kept.onFrame remote
    | true => simpa [CanRun.next, arrivals, remote] using kept
  | onStateChange state =>
    simp only [arrivals, List.filterMap_cons, List.filterMap_nil, List.append_nil]
    exact ⟨kept.part, kept.counted, kept.overruns, kept.short, kept.waiting, kept.longest, kept.paced,
      fun _ => give_wake _⟩
  | take =>
    simp only [arrivals, List.filterMap_cons, List.filterMap_nil, List.append_nil]
    exact ⟨kept.part, kept.counted, kept.overruns, kept.short, kept.waiting, kept.longest, kept.paced, nofun⟩
  | pop given =>
    simp only [arrivals, List.filterMap_cons, List.filterMap_nil, List.append_nil]
    obtain ⟨part, counted, overruns, short, waiting, longest, paced, woken⟩ := kept
    simp only [accepted, CanRun.next, ZephyrCanMedia.pop, ZephyrCanMedia.get] at part counted ⊢
    cases queue : r.media.rxQueue with
    | nil =>
      rw [queue] at part counted
      exact ⟨by simpa [accepted, queue] using part, by simpa [accepted, queue] using counted, overruns, short,
        by simp [queue], Nat.zero_le _, paced, woken⟩
    | cons frame rest =>
      rw [queue] at part counted short waiting
      simp only [List.length_cons] at short waiting
      exact ⟨by simpa [accepted, contents_received] using part, by simpa [accepted] using counted, overruns,
        Nat.le_of_succ_le short, Nat.le_of_succ_le waiting, longest, paced, woken⟩
  | loadBusState =>
    simp only [arrivals, List.filterMap_cons, List.filterMap_nil, List.append_nil]
    exact ⟨kept.part, kept.counted, kept.overruns, kept.short, kept.waiting, kept.longest, kept.paced, kept.woken⟩
  | loadBusOffCount =>
    simp only [arrivals, List.filterMap_cons, List.filterMap_nil, List.append_nil]
    exact ⟨kept.part, kept.counted, kept.overruns, kept.short, kept.waiting, kept.longest, kept.paced, kept.woken⟩

theorem Kept.foldl (events : List CanEvent) (kept : Kept code r overruns arrived) :
    Kept code (events.foldl (CanRun.next code) r) overruns (arrived ++ arrivals events) := by
  induction events generalizing r arrived with
  | nil => simpa [arrivals] using kept
  | cons event rest ih =>
    have later := ih (kept.next event)
    rw [List.append_assoc, ← show arrivals (event :: rest) = arrivals [event] ++ arrivals rest from
      List.filterMap_append (l := [event])] at later
    exact later

theorem run_kept {media : ZephyrCanMedia} (empty : media.rxQueue = []) (events : List CanEvent) :
    Kept code (run code media events) media.rxOverruns (arrivals events) := by
  have start : Kept code (start media) media.rxOverruns [] := by
    constructor <;> simp [accepted, CanRun.start, empty]
  exact start.foldl events

end CanRun

/-- A frame a transport pushes, of a CAN FD length. -/
structure WellFormed (mtu : Nat) (frame : Sim.CanFrame) : Prop where
  id : frame.extendedCanId.toNat < 2 ^ 29
  size : frame.size ∈ dataLengths
  fits : frame.size.toNat ≤ mtu

theorem masked {id : UInt32} (small : id.toNat < 2 ^ 29) : id &&& ZephyrCanMedia.canExtIdMask = id := by
  apply UInt32.toNat.inj
  rw [UInt32.toNat_and, show ZephyrCanMedia.canExtIdMask.toNat = 2 ^ 29 - 1 from rfl, Nat.and_two_pow_sub_one_eq_mod]
  exact Nat.mod_eq_of_lt small

/-- What one controller sends another one receives. -/
theorem carried_sent {code : DataLengthCode} (lawful : code.Lawful) {sender : ZephyrCanMedia}
    (room : sender.mtu ≤ sender.dataSize) {frame : Sim.CanFrame} (formed : WellFormed sender.mtu frame) :
    CanRun.carried code (sender.sent code frame) = CanRun.contents frame := by
  have size := lawful frame.size formed.size
  have whole : min frame.size.toNat sender.dataSize = frame.size.toNat := Nat.min_eq_left (formed.fits.trans room)
  refine CanRun.contents_congr (masked formed.id) size fun i inside valid => ?_
  have valid : i < frame.size.toNat := by
    change i < (code.toBytes (code.ofBytes frame.size)).toNat at valid
    rwa [size] at valid
  simp only [ZephyrCanMedia.received, ZephyrCanMedia.sent, size, whole, List.rightpad, Vector.getElem_ofFn]
  rw [if_pos valid, List.getD_eq_getElem?_getD, List.getElem?_append_left (by simp; omega), List.getElem?_take_of_lt valid]
  simp [inside]

/-- Over every order of interrupts and of steps of the thread: with no more than 32 frames between two
points at which the queue is found empty, the frames the senders pushed are popped in order with their
identifiers and bytes, or still wait; otherwise the lost ones are counted. An interrupt since the thread last took
the semaphore has given it. -/
theorem link_delivers {code : DataLengthCode} (lawful : code.Lawful) {media : ZephyrCanMedia}
    (empty : media.rxQueue = []) (events : List CanEvent) (pushed : List (ZephyrCanMedia × Sim.CanFrame))
    (formed : ∀ push ∈ pushed, push.1.mtu ≤ push.1.dataSize ∧ WellFormed push.1.mtu push.2)
    (bus : CanRun.arrivals events = pushed.map fun push => push.1.sent code push.2) :
    ((CanRun.run code media events).accepted code).Sublist (pushed.map fun push => CanRun.contents push.2) ∧
      pushed.length = ((CanRun.run code media events).accepted code).length + (CanRun.run code media events).refused ∧
      (CanRun.run code media events).media.rxOverruns =
        media.rxOverruns + UInt32.ofNat (CanRun.run code media events).refused ∧
      ((CanRun.run code media events).longestBurst ≤ ZephyrCanMedia.rxQueueLength →
        (CanRun.run code media events).accepted code = pushed.map fun push => CanRun.contents push.2) ∧
      ((CanRun.run code media events).signalled = true → 0 < (CanRun.run code media events).media.wake) := by
  have kept := @CanRun.run_kept code media empty events
  generalize CanRun.run code media events = r at kept ⊢
  rw [bus] at kept
  have back : (pushed.map fun push => push.1.sent code push.2).map (CanRun.carried code) =
      pushed.map fun push => CanRun.contents push.2 := by
    rw [List.map_map]
    apply List.map_congr_left
    intro push mem
    exact carried_sent lawful (formed push mem).1 (formed push mem).2
  have part := kept.part
  have counted := kept.counted
  rw [back] at part
  rw [List.length_map] at counted
  refine ⟨part, counted, kept.overruns, fun short => ?_, kept.woken⟩
  apply part.eq_of_length
  rw [kept.paced short] at counted
  simpa using counted.symm

/-- The lengths in the order of their codes. -/
def tableCode : DataLengthCode where
  ofBytes size := UInt8.ofNat (dataLengths.findIdx (size ≤ ·))
  toBytes dlc := dataLengths.getD dlc.toNat 0

theorem tableCode_lawful : tableCode.Lawful := by
  unfold DataLengthCode.Lawful
  decide +kernel

def eightBytes : Sim.CanFrame := ⟨0x1234567, 8, Vector.ofFn fun i => if i.val < 8 then UInt8.ofNat i.val else 0⟩

def staleBytes : Sim.CanFrame := ⟨0, 0, Vector.replicate Sim.canFdMtu 0xFF⟩

/-- Two frames and a remote frame between them. -/
def busy : List CanEvent :=
  [.onFrame ((ZephyrCanMedia.init true true true 64).sent tableCode eightBytes), .take, .pop staleBytes,
    .onFrame ⟨5, 0, true, true, false, false, []⟩,
    .onFrame ((ZephyrCanMedia.init true true true 64).sent tableCode .initial)]

theorem link_delivers_busy :
    (CanRun.run tableCode (.init true true true 64) busy).accepted tableCode =
        [⟨0x1234567, 8, [0, 1, 2, 3, 4, 5, 6, 7]⟩, ⟨0, 0, []⟩] ∧
      0 < (CanRun.run tableCode (.init true true true 64) busy).media.wake := by
  have delivers := @link_delivers tableCode tableCode_lawful (.init true true true 64) rfl busy
    [(.init true true true 64, eightBytes), (.init true true true 64, .initial)]
    (by
      intro push mem
      simp only [List.mem_cons, List.not_mem_nil, or_false] at mem
      rcases mem with rfl | rfl
      · exact ⟨by decide, by decide, by decide, by decide⟩
      · exact ⟨by decide, by decide, by decide, by decide⟩)
    (by decide)
  exact ⟨delivers.2.2.2.1 (by decide), delivers.2.2.2.2 (by decide)⟩

/-! ### The state of the bus -/

/-- The state the controller last reported. -/
def newestState (initially : CanBusState) (events : List CanEvent) : CanBusState :=
  events.foldl (fun state event =>
    match event with
    | .onStateChange new => ZephyrCanMedia.busStateOf new
    | _ => state) initially

def busOffEvents (events : List CanEvent) : Nat := events.count (.onStateChange .busOff)

namespace CanRun

variable (code : DataLengthCode)

theorem next_busState (r : CanRun) (event : CanEvent) :
    (r.next code event).media.busState = newestState r.media.busState [event] ∧
      (r.next code event).media.busOffCount = r.media.busOffCount + UInt32.ofNat (busOffEvents [event]) ∧
      (event ≠ .loadBusState → (r.next code event).loadedState = r.loadedState) := by
  cases event with
  | onFrame frame =>
    simp only [next]
    split
    · exact ⟨rfl, (UInt32.add_zero _).symm, fun _ => rfl⟩
    · simp only [ZephyrCanMedia.onFrame, ZephyrCanMedia.put, ZephyrCanMedia.give]
      split
      · contradiction
      · split <;> exact ⟨rfl, (UInt32.add_zero _).symm, fun _ => trivial⟩
  | onStateChange state =>
    cases state <;>
      simp [next, ZephyrCanMedia.onStateChange, ZephyrCanMedia.give, newestState, busOffEvents]
  | take => exact ⟨rfl, (UInt32.add_zero _).symm, fun _ => rfl⟩
  | pop given =>
    simp only [next, ZephyrCanMedia.pop, ZephyrCanMedia.get]
    cases r.media.rxQueue with
    | nil => exact ⟨rfl, (UInt32.add_zero _).symm, fun _ => rfl⟩
    | cons frame rest => exact ⟨rfl, (UInt32.add_zero _).symm, fun _ => rfl⟩
  | loadBusState => exact ⟨rfl, (UInt32.add_zero _).symm, nofun⟩
  | loadBusOffCount => exact ⟨rfl, (UInt32.add_zero _).symm, fun _ => rfl⟩

theorem foldl_busState (events : List CanEvent) (r : CanRun) :
    (events.foldl (next code) r).media.busState = newestState r.media.busState events ∧
      (events.foldl (next code) r).media.busOffCount = r.media.busOffCount + UInt32.ofNat (busOffEvents events) ∧
      (.loadBusState ∉ events → (events.foldl (next code) r).loadedState = r.loadedState) := by
  induction events generalizing r with
  | nil => exact ⟨rfl, (UInt32.add_zero _).symm, fun _ => rfl⟩
  | cons event rest ih =>
    obtain ⟨state, count, loaded⟩ := next_busState code r event
    obtain ⟨stateAfter, countAfter, loadedAfter⟩ := ih (r.next code event)
    rw [state] at stateAfter
    rw [count, UInt32.add_assoc, ← UInt32.ofNat_add] at countAfter
    refine ⟨stateAfter, ?_, fun absent => ?_⟩
    · rw [List.foldl_cons, countAfter, busOffEvents, busOffEvents, busOffEvents, ← List.count_append, List.singleton_append]
    · simp only [List.mem_cons, not_or] at absent
      rw [List.foldl_cons, loadedAfter absent.2, loaded (Ne.symm absent.1)]

end CanRun

/-- Between the counts of two readings of the bus state: they are equal exactly when the bus did not
go off in between, however it recovered; and the state read is the one the controller reported last
before it was loaded. -/
theorem bus_off_noticed (code : DataLengthCode) (media : ZephyrCanMedia) (before middle after : List CanEvent)
    (few : busOffEvents (middle ++ .loadBusState :: after) < 2 ^ 32) (once : .loadBusState ∉ after) :
    ∀ first second, (CanRun.run code media (before ++ [.loadBusOffCount])).reports.getLast? = some first →
      (CanRun.run code media (before ++ .loadBusOffCount :: (middle ++ .loadBusState :: (after ++ [.loadBusOffCount])))
        ).reports.getLast? = some second →
      (second.busOffCount = first.busOffCount ↔ .onStateChange .busOff ∉ middle ++ after) ∧
        second.state = newestState media.busState (before ++ middle) := by
  intro first second one other
  have past := CanRun.foldl_busState code before (CanRun.start media)
  simp only [CanRun.run, List.foldl_append, List.foldl_cons, List.foldl_nil] at one other
  generalize before.foldl (CanRun.next code) (CanRun.start media) = r at past one other
  have half := CanRun.foldl_busState code middle (r.next code .loadBusOffCount)
  generalize middle.foldl (CanRun.next code) (r.next code .loadBusOffCount) = s at half other
  have rest := CanRun.foldl_busState code after (s.next code .loadBusState)
  generalize after.foldl (CanRun.next code) (s.next code .loadBusState) = t at rest other
  simp only [CanRun.next, List.getLast?_concat, Option.some.injEq] at one other
  rw [← one, ← other]
  constructor
  · have total : t.media.busOffCount = r.media.busOffCount + UInt32.ofNat (busOffEvents (middle ++ after)) := by
      rw [rest.2.1, busOffEvents, busOffEvents, List.count_append, UInt32.ofNat_add, ← UInt32.add_assoc]
      exact congrArg (· + _) half.2.1
    have same : busOffEvents (middle ++ .loadBusState :: after) = busOffEvents (middle ++ after) := by
      simp [busOffEvents]
    rw [same] at few
    dsimp only
    rw [total, UInt32.add_eq_left, ← UInt32.toNat_inj, UInt32.toNat_ofNat_of_lt' few]
    exact List.count_eq_zero
  · have loaded : t.loadedState = s.media.busState := rest.2.2 once
    dsimp only
    rw [loaded, newestState, List.foldl_append, half.1]
    exact congrArg (newestState · middle) past.1

/-- Off and back between two readings that both say error active. -/
theorem bus_off_noticed_recovered :
    (CanRun.run tableCode (.init false false false 8) ([.loadBusState] ++ .loadBusOffCount :: ([.onStateChange .busOff,
      .onStateChange .errorActive] ++ .loadBusState :: ([] ++ [.loadBusOffCount])))).reports.map CanBusStatus.busOffCount =
        [0, 1] ∧
      ((1 : UInt32) = 0 ↔
        CanEvent.onStateChange .busOff ∉ [.onStateChange .busOff, .onStateChange .errorActive] ++ []) :=
  ⟨by decide, (bus_off_noticed tableCode (.init false false false 8) [.loadBusState] [.onStateChange .busOff,
    .onStateChange .errorActive] [] (by decide) (by decide) ⟨.errorActive, 0⟩ ⟨.errorActive, 1⟩ (by decide) (by decide)).1⟩

end Unimoc.Hardware
