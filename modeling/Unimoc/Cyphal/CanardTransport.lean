import Unimoc.Cyphal.Wire
import Unimoc.Sim.Slcan

/-! The transport between the node and its CAN interfaces: on the way out a queue an interface,
on the way in turns. -/
namespace Unimoc.Cyphal

/-- An interface as the transport sees it, with what happens to it in between. -/
structure CanMedia (M : Type) where
  push : Sim.CanFrame → M → Bool × M
  pop : M → Option Sim.CanFrame × M
  busStatus : M → CanBusStatus

structure TxItem where
  deadlineUs : UInt64
  extendedCanId : UInt32
  payload : List UInt8
deriving DecidableEq, Repr

structure TransferMetadata where
  priority : Wire.Priority
  kind : TransferKind
  portId : UInt16
  remoteNodeId : UInt8
  transferId : UInt8

structure RxTransfer where
  metadata : TransferMetadata
  payload : List UInt8

/-- What `canardTxPush()` makes of a queue: the frames of the transfer, all or none of them, and the
expired ones it takes out. -/
structure Pushed (C : Type) where
  canard : C
  queue : List TxItem
  added : List TxItem
  expired : List TxItem
  outOfMemory : Bool
  failedAllocations : Nat

/-- A transfer that nothing was queued of counts as one dropped frame. -/
def Pushed.refusals {C : Type} (pushed : Pushed C) : Nat := if pushed.added.isEmpty && pushed.outOfMemory then 1 else 0

/-- What `canardRxAccept()` makes of a frame. -/
inductive Accepted
  | outOfMemory
  | incomplete
  | complete (received : RxTransfer)

/-- libcanard with its memory. A queue is listed in the order of `canardTxPeek()`; the number beside
the outcome of a frame counts the allocations that failed. -/
structure Canard (C : Type) where
  txPush : UInt8 → List TxItem → UInt64 → TransferMetadata → List UInt8 → UInt64 → C → Pushed C
  txFree : TxItem → C → C
  rxAccept : UInt8 → UInt64 → Sim.CanFrame → Nat → C → Accepted × Nat × C
  deallocate : List UInt8 → C → C

def defaultTxTimeoutUs : UInt64 := 100000

def maxFramesPerReceive : Nat := 64

def canMaxInterfaces : Nat := 2

/-- The times and the lists of queued, expired and handed frames are not kept by the code, nor are
the transfers refused. -/
structure Interface (M : Type) where
  media : M
  txQueue : List TxItem
  queued : List (UInt64 × TxItem)
  expired : List (UInt64 × TxItem)
  handed : List (UInt64 × TxItem)
  refused : Nat

/-- `looks` has what each look at an interface found, which the code does not keep. -/
structure CanardTransport (C M : Type) where
  heapValid : Bool
  canard : C
  nodeId : UInt8
  interfaces : List (Interface M)
  nextRxInterface : Nat
  nowUs : UInt64
  txDropped : Nat
  outOfMemory : Nat
  looks : List (Nat × Option Sim.CanFrame)

namespace Interface

variable {C M : Type} (lib : Canard C) (can : CanMedia M)

def attached (media : M) : Interface M := ⟨media, [], [], [], [], 0⟩

def push (nodeId : UInt8) (nowUs : UInt64) (metadata : TransferMetadata) (payload : List UInt8) (canard : C)
    (interface : Interface M) : Pushed C × Interface M :=
  let pushed := lib.txPush nodeId interface.txQueue (nowUs + defaultTxTimeoutUs) metadata payload nowUs canard
  (pushed,
    { interface with
      txQueue := pushed.queue
      queued := interface.queued ++ pushed.added.map (nowUs, ·)
      expired := interface.expired ++ pushed.expired.map (nowUs, ·)
      refused := interface.refused + pushed.refusals })

def frame (item : TxItem) : Sim.CanFrame where
  extendedCanId := item.extendedCanId
  size := (min item.payload.length Sim.canFdMtu).toUInt8
  data := Vector.ofFn fun k => item.payload.getD k 0

/-- The queue by itself, as the loop shortens it. -/
def drain (nowUs : UInt64) : List TxItem → C → Interface M → Nat × C × Interface M
  | [], canard, interface => (0, canard, { interface with txQueue := [] })
  | item :: rest, canard, interface =>
    if item.deadlineUs < nowUs then
      let (dropped, canard, interface) :=
        drain nowUs rest (lib.txFree item canard) { interface with expired := interface.expired ++ [(nowUs, item)] }
      (dropped + 1, canard, interface)
    else
      let (taken, media) := can.push (frame item) interface.media
      if taken then
        drain nowUs rest (lib.txFree item canard)
          { interface with media := media, handed := interface.handed ++ [(nowUs, item)] }
      else (0, canard, { interface with media := media, txQueue := item :: rest })

end Interface

namespace CanardTransport

variable {C M : Type} (lib : Canard C) (can : CanMedia M)

def constructed (heapValid : Bool) (canard : C) (interfaces : List (Option M)) : CanardTransport C M where
  heapValid := heapValid
  canard := canard
  nodeId := nodeIdUnset
  interfaces := ((interfaces.filterMap id).take canMaxInterfaces).map .attached
  nextRxInterface := 0
  nowUs := 0
  txDropped := 0
  outOfMemory := 0
  looks := []

def isValid (transport : CanardTransport C M) : Bool := transport.heapValid && 0 < transport.interfaces.length

/-- The queues one after the other: whether one took the transfer, the frames dropped and the
allocations that failed. -/
def pushAll (nodeId : UInt8) (nowUs : UInt64) (metadata : TransferMetadata) (payload : List UInt8) :
    C → List (Interface M) → Bool × Nat × Nat × C × List (Interface M)
  | canard, [] => (false, 0, 0, canard, [])
  | canard, interface :: rest =>
    let (pushed, interface) := interface.push lib nodeId nowUs metadata payload canard
    let (accepted, dropped, failed, canard, rest) := pushAll nodeId nowUs metadata payload pushed.canard rest
    (!pushed.added.isEmpty || accepted,
      pushed.expired.length + pushed.refusals + dropped,
      pushed.failedAllocations + failed, canard, interface :: rest)

def metadata (transfer : Wire.Transfer) : TransferMetadata where
  priority := transfer.priority
  kind := transfer.kind
  portId := transfer.portId
  remoteNodeId := if transfer.kind = .message then nodeIdUnset else transfer.destinationNodeId
  transferId := transfer.transferId

def send (transfer : Wire.Transfer) (transport : CanardTransport C M) : Bool × CanardTransport C M :=
  if !transport.isValid then (false, transport)
  else
    let (accepted, dropped, failed, canard, interfaces) :=
      pushAll lib transport.nodeId transport.nowUs (metadata transfer) transfer.payload transport.canard
        transport.interfaces
    (accepted,
      { transport with
        canard := canard, interfaces := interfaces, txDropped := transport.txDropped + dropped
        outOfMemory := transport.outOfMemory + failed })

def drainAll (nowUs : UInt64) : C → List (Interface M) → Nat × C × List (Interface M)
  | canard, [] => (0, canard, [])
  | canard, interface :: rest =>
    let (dropped, canard, interface) := interface.drain lib can nowUs interface.txQueue canard
    let (more, canard, rest) := drainAll nowUs canard rest
    (dropped + more, canard, interface :: rest)

def process (nowUs : UInt64) (transport : CanardTransport C M) : CanardTransport C M :=
  let (dropped, canard, interfaces) := drainAll lib can nowUs transport.canard transport.interfaces
  { transport with
    nowUs := nowUs, canard := canard, interfaces := interfaces, txDropped := transport.txDropped + dropped }

def localNodeId (transport : CanardTransport C M) : UInt8 :=
  if transport.nodeId ≤ nodeIdMax then transport.nodeId else nodeIdUnset

def setLocalNodeId (nodeId : UInt8) (transport : CanardTransport C M) : CanardTransport C M :=
  { transport with nodeId := if nodeId ≤ nodeIdMax then nodeId else nodeIdUnset }

/-- The transfer as the buffer holds it. -/
def delivered (capacity : Nat) (received : RxTransfer) (transport : CanardTransport C M) : Wire.Transfer where
  portId := received.metadata.portId
  kind := received.metadata.kind
  priority := received.metadata.priority
  transferId := received.metadata.transferId
  sourceNodeId := received.metadata.remoteNodeId
  destinationNodeId := if received.metadata.kind = .message then nodeIdUnset else transport.localNodeId
  payload := received.payload.take capacity

/-- Looks at the interface whose turn it is. -/
def look (interface : Interface M) (transport : CanardTransport C M) : Option Sim.CanFrame × CanardTransport C M :=
  let turn := transport.nextRxInterface
  let (found, media) := can.pop interface.media
  (found,
    { transport with
      nextRxInterface := (turn + 1) % transport.interfaces.length
      interfaces := transport.interfaces.set turn { interface with media := media }
      looks := transport.looks ++ [(turn, found)] })

/-- The attempts left, and the interfaces found without a frame one after the other. -/
def receiveFrames (capacity : Nat) : Nat → Nat → CanardTransport C M → Option Wire.Transfer × CanardTransport C M
  | 0, _, transport => (none, transport)
  | attempts + 1, idle, transport =>
    if transport.interfaces.length ≤ idle then (none, transport)
    else match transport.interfaces[transport.nextRxInterface]? with
      | none => (none, transport)
      | some interface =>
        let (found, looked) := transport.look can interface
        match found with
        | none => receiveFrames capacity attempts (idle + 1) looked
        | some frame =>
          let (accepted, failed, canard) :=
            lib.rxAccept transport.nodeId transport.nowUs frame transport.nextRxInterface transport.canard
          let fed := { looked with canard := canard, outOfMemory := looked.outOfMemory + failed }
          match accepted with
          | .outOfMemory => receiveFrames capacity attempts 0 { fed with outOfMemory := fed.outOfMemory + 1 }
          | .incomplete => receiveFrames capacity attempts 0 fed
          | .complete received =>
            (some (delivered capacity received transport),
              { fed with canard := lib.deallocate received.payload fed.canard })

def receive (capacity : Nat) (transport : CanardTransport C M) : Option Wire.Transfer × CanardTransport C M :=
  if !transport.isValid then (none, transport)
  else receiveFrames lib can capacity maxFramesPerReceive 0 transport

/-- The best state of the interfaces, and their bus-off events together. -/
def busStatus (transport : CanardTransport C M) : CanBusStatus :=
  if transport.interfaces.isEmpty then ⟨.errorActive, 0⟩
  else transport.interfaces.foldl
    (fun status interface =>
      let found := can.busStatus interface.media
      ⟨if found.state.ctorIdx < status.state.ctorIdx then found.state else status.state,
        status.busOffCount + found.busOffCount⟩) ⟨.busOff, 0⟩

end CanardTransport

/-! ### What becomes of a frame that was queued -/

/-- How libcanard keeps its queues. -/
structure Canard.Queues {C : Type} (lib : Canard C) : Prop where
  accounts : ∀ nodeId queue deadlineUs metadata payload nowUs canard,
    let pushed := lib.txPush nodeId queue deadlineUs metadata payload nowUs canard
    (pushed.added ++ queue).Perm (pushed.expired ++ pushed.queue)
  deadline : ∀ nodeId queue deadlineUs metadata payload nowUs canard,
    ∀ item ∈ (lib.txPush nodeId queue deadlineUs metadata payload nowUs canard).added, item.deadlineUs = deadlineUs
  late : ∀ nodeId queue deadlineUs metadata payload nowUs canard,
    ∀ item ∈ (lib.txPush nodeId queue deadlineUs metadata payload nowUs canard).expired, item.deadlineUs < nowUs

/-- What an interface knows of itself: the frames it took, and what it gave at each look. -/
structure MediaLog {M : Type} (can : CanMedia M) where
  taken : M → List Sim.CanFrame
  given : M → List (Option Sim.CanFrame)
  taken_push : ∀ frame media,
    taken (can.push frame media).2 = taken media ++ if (can.push frame media).1 then [frame] else []
  given_push : ∀ frame media, given (can.push frame media).2 = given media
  taken_pop : ∀ media, taken (can.pop media).2 = taken media
  given_pop : ∀ media, given (can.pop media).2 = given media ++ [(can.pop media).1]

/-- An interface with its log beside it. -/
structure Logged (M : Type) where
  media : M
  taken : List Sim.CanFrame
  given : List (Option Sim.CanFrame)

def CanMedia.logged {M : Type} (can : CanMedia M) : CanMedia (Logged M) where
  push frame device :=
    let (took, media) := can.push frame device.media
    (took, { device with media := media, taken := device.taken ++ if took then [frame] else [] })
  pop device :=
    let (found, media) := can.pop device.media
    (found, { device with media := media, given := device.given ++ [found] })
  busStatus device := can.busStatus device.media

def CanMedia.log {M : Type} (can : CanMedia M) : MediaLog can.logged :=
  ⟨Logged.taken, Logged.given, fun _ _ => rfl, fun _ _ => rfl, fun _ => rfl, fun _ => rfl⟩

namespace Interface

variable {C M : Type} {lib : Canard C} {can : CanMedia M}

/-- Every queued frame is handed over once and in time, or dropped late, or still waits. -/
structure Ledger (interface : Interface M) : Prop where
  accounts : (interface.queued.map Prod.snd).Perm
    (interface.expired.map Prod.snd ++ (interface.handed.map Prod.snd ++ interface.txQueue))
  deadline : ∀ entry ∈ interface.queued, entry.2.deadlineUs = entry.1 + defaultTxTimeoutUs
  late : ∀ entry ∈ interface.expired, entry.2.deadlineUs < entry.1
  onTime : ∀ entry ∈ interface.handed, entry.1 ≤ entry.2.deadlineUs

/-- The frames and transfers the interface lost. -/
def lost (interface : Interface M) : Nat := interface.expired.length + interface.refused

/-- Nothing waits, or the first frame is still good and the interface has just refused it. -/
def Served (can : CanMedia M) (nowUs : UInt64) (interface : Interface M) : Prop :=
  interface.txQueue = [] ∨ ∃ item rest media, interface.txQueue = item :: rest ∧ ¬ item.deadlineUs < nowUs ∧
    can.push (frame item) media = (false, interface.media)

theorem attached_ledger (media : M) : Ledger (attached media) :=
  ⟨List.Perm.nil, nofun, nofun, nofun⟩

theorem push_ledger (queues : lib.Queues) (nodeId : UInt8) (nowUs : UInt64) (metadata : TransferMetadata)
    (payload : List UInt8) (canard : C) {interface : Interface M} (ledger : Ledger interface) :
    Ledger (interface.push lib nodeId nowUs metadata payload canard).2 := by
  have accounts := queues.accounts nodeId interface.txQueue (nowUs + defaultTxTimeoutUs) metadata payload nowUs canard
  have deadline := queues.deadline nodeId interface.txQueue (nowUs + defaultTxTimeoutUs) metadata payload nowUs canard
  have late := queues.late nodeId interface.txQueue (nowUs + defaultTxTimeoutUs) metadata payload nowUs canard
  simp only [push]
  generalize lib.txPush nodeId interface.txQueue (nowUs + defaultTxTimeoutUs) metadata payload nowUs canard = pushed
    at accounts deadline late
  constructor
  · have before := ledger.accounts
    simp only [List.map_append, List.map_map, Function.comp_def, List.map_id']
    rw [List.perm_iff_count] at accounts before ⊢
    intro item
    have here := accounts item
    have there := before item
    simp only [List.count_append] at here there ⊢
    omega
  · intro entry mem
    rcases List.mem_append.mp mem with old | new
    · exact ledger.deadline entry old
    · obtain ⟨item, inside, rfl⟩ := List.mem_map.mp new
      exact deadline item inside
  · intro entry mem
    rcases List.mem_append.mp mem with old | new
    · exact ledger.late entry old
    · obtain ⟨item, inside, rfl⟩ := List.mem_map.mp new
      exact late item inside
  · exact ledger.onTime

theorem push_lost (nodeId : UInt8) (nowUs : UInt64) (metadata : TransferMetadata) (payload : List UInt8) (canard : C)
    (interface : Interface M) :
    (interface.push lib nodeId nowUs metadata payload canard).2.lost = interface.lost +
      ((interface.push lib nodeId nowUs metadata payload canard).1.expired.length +
        (interface.push lib nodeId nowUs metadata payload canard).1.refusals) := by
  simp only [push, lost, List.length_append, List.length_map]
  exact Nat.add_add_add_comm ..

section Drain

variable (nowUs : UInt64)

/-- The books of an interface whose queue is down to a rest. -/
structure Draining (interface : Interface M) (queue : List TxItem) : Prop where
  accounts : (interface.queued.map Prod.snd).Perm
    (interface.expired.map Prod.snd ++ (interface.handed.map Prod.snd ++ queue))
  deadline : ∀ entry ∈ interface.queued, entry.2.deadlineUs = entry.1 + defaultTxTimeoutUs
  late : ∀ entry ∈ interface.expired, entry.2.deadlineUs < entry.1
  onTime : ∀ entry ∈ interface.handed, entry.1 ≤ entry.2.deadlineUs

theorem Draining.drop {interface : Interface M} {item : TxItem} {rest : List TxItem}
    (books : Draining interface (item :: rest)) (late : item.deadlineUs < nowUs) :
    Draining { interface with expired := interface.expired ++ [(nowUs, item)] } rest where
  accounts := by
    have before := books.accounts
    rw [List.perm_iff_count] at before ⊢
    intro other
    have here := before other
    simp only [List.map_append, List.map_cons, List.map_nil, List.count_append, List.count_cons, List.count_nil] at here ⊢
    omega
  deadline := books.deadline
  late := by
    intro entry mem
    rcases List.mem_append.mp mem with old | new
    · exact books.late entry old
    · rw [List.mem_singleton.mp new]
      exact late
  onTime := books.onTime

theorem Draining.hand {interface : Interface M} {item : TxItem} {rest : List TxItem}
    (books : Draining interface (item :: rest)) (inTime : ¬ item.deadlineUs < nowUs) (media : M) :
    Draining { interface with media := media, handed := interface.handed ++ [(nowUs, item)] } rest where
  accounts := by
    have before := books.accounts
    rw [List.perm_iff_count] at before ⊢
    intro other
    have here := before other
    simp only [List.map_append, List.map_cons, List.map_nil, List.count_append, List.count_cons, List.count_nil] at here ⊢
    omega
  deadline := books.deadline
  late := books.late
  onTime := by
    intro entry mem
    rcases List.mem_append.mp mem with old | new
    · exact books.onTime entry old
    · rw [List.mem_singleton.mp new]
      exact UInt64.not_lt.mp inTime

theorem drain_ledger (queue : List TxItem) (canard : C) {interface : Interface M} (books : Draining interface queue) :
    Ledger (drain lib can nowUs queue canard interface).2.2 := by
  induction queue generalizing canard interface with
  | nil => exact ⟨books.accounts, books.deadline, books.late, books.onTime⟩
  | cons item rest ih =>
    rw [drain]
    split
    · rename_i late
      exact ih _ (books.drop nowUs late)
    · rename_i inTime
      dsimp only
      split
      · exact ih _ (books.hand nowUs inTime _)
      · exact ⟨books.accounts, books.deadline, books.late, books.onTime⟩

theorem drain_lost (queue : List TxItem) (canard : C) (interface : Interface M) :
    (drain lib can nowUs queue canard interface).2.2.lost =
      interface.lost + (drain lib can nowUs queue canard interface).1 := by
  induction queue generalizing canard interface with
  | nil => rfl
  | cons item rest ih =>
    rw [drain]
    split
    · dsimp only
      rw [ih]
      simp only [lost, List.length_append, List.length_singleton]
      omega
    · dsimp only
      split
      · exact ih ..
      · rfl

theorem drain_served (queue : List TxItem) (canard : C) (interface : Interface M) :
    Served can nowUs (drain lib can nowUs queue canard interface).2.2 := by
  induction queue generalizing canard interface with
  | nil => exact .inl rfl
  | cons item rest ih =>
    rw [drain]
    split
    · exact ih ..
    · rename_i inTime
      dsimp only
      split
      · exact ih ..
      · rename_i refused
        refine .inr ⟨item, rest, interface.media, rfl, inTime, ?_⟩
        exact Prod.ext (by simpa using refused) rfl

end Drain

/-- The frames handed over and what the looks found are what the log of the interface has. -/
structure Told (log : MediaLog can) (device : M) (looks : List (Option Sim.CanFrame)) (interface : Interface M) : Prop where
  handed : log.taken interface.media = log.taken device ++ interface.handed.map fun entry => frame entry.2
  looks : log.given interface.media = log.given device ++ looks

theorem Told.drain {log : MediaLog can} {device : M} {looks : List (Option Sim.CanFrame)} (nowUs : UInt64)
    (queue : List TxItem) (canard : C) {interface : Interface M} (told : interface.Told log device looks) :
    (interface.drain lib can nowUs queue canard).2.2.Told log device looks := by
  induction queue generalizing canard interface with
  | nil => exact ⟨told.handed, told.looks⟩
  | cons item rest ih =>
    have taken := log.taken_push (frame item) interface.media
    have given := (log.given_push (frame item) interface.media).trans told.looks
    rw [told.handed] at taken
    rw [Interface.drain]
    split
    · exact ih _ ⟨told.handed, told.looks⟩
    · dsimp only
      split
      · rename_i took
        rw [if_pos took, List.append_assoc] at taken
        exact ih _ ⟨by rw [taken, List.map_append]; rfl, given⟩
      · rename_i refused
        rw [if_neg refused, List.append_nil] at taken
        exact ⟨taken, given⟩

end Interface

namespace CanardTransport

variable {C M : Type} {lib : Canard C} {can : CanMedia M}

/-- The books of all interfaces, and the counter of the transport beside them. -/
structure Accounted (transport : CanardTransport C M) : Prop where
  ledgers : ∀ interface ∈ transport.interfaces, interface.Ledger
  dropped : transport.txDropped = (transport.interfaces.map Interface.lost).sum

section Send

variable (nodeId : UInt8) (nowUs : UInt64) (metadata : TransferMetadata) (payload : List UInt8)

theorem pushAll_ledger (queues : lib.Queues) (canard : C) {interfaces : List (Interface M)}
    (ledgers : ∀ interface ∈ interfaces, interface.Ledger) :
    ∀ interface ∈ (pushAll lib nodeId nowUs metadata payload canard interfaces).2.2.2.2, interface.Ledger := by
  induction interfaces generalizing canard with
  | nil => exact ledgers
  | cons first rest ih =>
    intro interface mem
    rcases List.mem_cons.mp mem with rfl | later
    · exact Interface.push_ledger queues nodeId nowUs metadata payload canard (ledgers first (by simp))
    · exact ih _ (fun other inside => ledgers other (by simp [inside])) interface later

theorem pushAll_lost (canard : C) (interfaces : List (Interface M)) :
    ((pushAll lib nodeId nowUs metadata payload canard interfaces).2.2.2.2.map Interface.lost).sum =
      (interfaces.map Interface.lost).sum + (pushAll lib nodeId nowUs metadata payload canard interfaces).2.1 := by
  induction interfaces generalizing canard with
  | nil => rfl
  | cons first rest ih =>
    simp only [pushAll, List.map_cons, List.sum_cons, ih, Interface.push_lost]
    exact Nat.add_add_add_comm ..

theorem send_accounted (queues : lib.Queues) (transfer : Wire.Transfer) {transport : CanardTransport C M}
    (accounted : Accounted transport) : Accounted (transport.send lib transfer).2 := by
  unfold send
  split
  · exact accounted
  · refine ⟨pushAll_ledger _ _ _ _ queues _ accounted.ledgers, ?_⟩
    dsimp only
    rw [pushAll_lost, ← accounted.dropped]

end Send

section Process

variable (nowUs : UInt64)

theorem drainAll_ledger (canard : C) {interfaces : List (Interface M)}
    (ledgers : ∀ interface ∈ interfaces, interface.Ledger) :
    ∀ interface ∈ (drainAll lib can nowUs canard interfaces).2.2, interface.Ledger := by
  induction interfaces generalizing canard with
  | nil => exact ledgers
  | cons first rest ih =>
    intro interface mem
    rcases List.mem_cons.mp mem with rfl | later
    · have books := ledgers first (by simp)
      exact Interface.drain_ledger nowUs _ _ ⟨books.accounts, books.deadline, books.late, books.onTime⟩
    · exact ih _ (fun other inside => ledgers other (by simp [inside])) interface later

theorem drainAll_lost (canard : C) (interfaces : List (Interface M)) :
    ((drainAll lib can nowUs canard interfaces).2.2.map Interface.lost).sum =
      (interfaces.map Interface.lost).sum + (drainAll lib can nowUs canard interfaces).1 := by
  induction interfaces generalizing canard with
  | nil => rfl
  | cons first rest ih =>
    simp only [drainAll, List.map_cons, List.sum_cons, ih, Interface.drain_lost]
    omega

theorem drainAll_served (canard : C) (interfaces : List (Interface M)) :
    ∀ interface ∈ (drainAll lib can nowUs canard interfaces).2.2, interface.Served can nowUs := by
  induction interfaces generalizing canard with
  | nil => nofun
  | cons first rest ih =>
    intro interface mem
    rcases List.mem_cons.mp mem with rfl | later
    · exact Interface.drain_served nowUs _ _ _
    · exact ih _ interface later

theorem process_accounted {transport : CanardTransport C M} (accounted : Accounted transport) :
    Accounted (transport.process lib can nowUs) := by
  refine ⟨drainAll_ledger nowUs _ accounted.ledgers, ?_⟩
  simp only [process]
  rw [drainAll_lost, ← accounted.dropped]

end Process

/-! ### Whose turn it is -/

/-- Each look is at the interface after the one before. -/
structure InTurn (transport : CanardTransport C M) : Prop where
  next : transport.nextRxInterface = transport.looks.length % transport.interfaces.length
  looked : ∀ k (inside : k < transport.looks.length),
    (transport.looks.get ⟨k, inside⟩).1 = k % transport.interfaces.length

/-- The list ends with that many looks that found nothing. -/
def Quiet (count : Nat) (looks : List (Nat × Option Sim.CanFrame)) : Prop :=
  ∃ before empty, looks = before ++ empty ∧ empty.length = count ∧ ∀ entry ∈ empty, entry.2 = none

theorem quiet_zero (looks : List (Nat × Option Sim.CanFrame)) : Quiet 0 looks :=
  ⟨looks, [], by simp⟩

theorem Quiet.snoc {count : Nat} {looks : List (Nat × Option Sim.CanFrame)} (quiet : Quiet count looks) (turn : Nat) :
    Quiet (count + 1) (looks ++ [(turn, none)]) := by
  obtain ⟨before, empty, rfl, rfl, nothing⟩ := quiet
  refine ⟨before, empty ++ [(turn, none)], by simp, by simp, ?_⟩
  intro entry mem
  rcases List.mem_append.mp mem with old | new
  · exact nothing entry old
  · rw [List.mem_singleton.mp new]

section Look

variable {transport : CanardTransport C M}

theorem look_accounted {interface : Interface M} (accounted : Accounted transport)
    (here : transport.interfaces[transport.nextRxInterface]? = some interface) :
    Accounted (transport.look can interface).2 where
  ledgers := by
    have books := accounted.ledgers interface (List.mem_of_getElem? here)
    intro other mem
    rcases List.mem_or_eq_of_mem_set mem with old | rfl
    · exact accounted.ledgers other old
    · exact ⟨books.accounts, books.deadline, books.late, books.onTime⟩
  dropped := by
    have same : (transport.look can interface).2.interfaces.map Interface.lost = transport.interfaces.map Interface.lost := by
      apply List.ext_getElem?
      intro k
      simp only [look, List.getElem?_map, List.getElem?_set, if_pos (List.getElem?_eq_some_iff.mp here).1]
      split
      · rename_i turn
        rw [← turn, here]
        rfl
      · rfl
    rw [same, ← accounted.dropped]
    rfl

theorem look_inTurn (interface : Interface M) (inTurn : InTurn transport) : InTurn (transport.look can interface).2 where
  next := by
    simp only [look, List.length_append, List.length_singleton, List.length_set, inTurn.next, Nat.mod_add_mod]
  looked := by
    intro k inside
    simp only [look, List.length_set, List.length_append, List.length_singleton, List.get_eq_getElem] at inside ⊢
    rcases Nat.lt_or_eq_of_le (Nat.le_of_lt_succ inside) with older | rfl
    · rw [List.getElem_append_left older]
      exact inTurn.looked k older
    · rw [List.getElem_concat_length rfl]
      exact inTurn.next

end Look

/-! ### What the interfaces tell -/

/-- What the looks at an interface found. -/
def looksAt (turn : Nat) (looks : List (Nat × Option Sim.CanFrame)) : List (Option Sim.CanFrame) :=
  (looks.filter fun entry => entry.1 == turn).map Prod.snd

/-- Every interface against the device it is. -/
def Told (log : MediaLog can) (devices : List M) (transport : CanardTransport C M) : Prop :=
  ∀ turn (interface : Interface M), transport.interfaces[turn]? = some interface →
    ∃ device, devices[turn]? = some device ∧ interface.Told log device (looksAt turn transport.looks)

theorem pushAll_get (nodeId : UInt8) (nowUs : UInt64) (metadata : TransferMetadata) (payload : List UInt8) (canard : C)
    {interfaces : List (Interface M)} {turn : Nat} {pushed : Interface M}
    (here : (pushAll lib nodeId nowUs metadata payload canard interfaces).2.2.2.2[turn]? = some pushed) :
    ∃ interface canard, interfaces[turn]? = some interface ∧
      pushed = (interface.push lib nodeId nowUs metadata payload canard).2 := by
  induction interfaces generalizing canard turn with
  | nil => cases here
  | cons first rest ih =>
    cases turn with
    | zero => exact ⟨first, canard, rfl, (Option.some.inj here).symm⟩
    | succ turn => exact ih _ here

theorem drainAll_get (nowUs : UInt64) (canard : C) {interfaces : List (Interface M)} {turn : Nat}
    {drained : Interface M} (here : (drainAll lib can nowUs canard interfaces).2.2[turn]? = some drained) :
    ∃ interface canard, interfaces[turn]? = some interface ∧
      drained = (interface.drain lib can nowUs interface.txQueue canard).2.2 := by
  induction interfaces generalizing canard turn with
  | nil => cases here
  | cons first rest ih =>
    cases turn with
    | zero => exact ⟨first, canard, rfl, (Option.some.inj here).symm⟩
    | succ turn => exact ih _ here

section Told

variable {log : MediaLog can} {devices : List M} {transport : CanardTransport C M}

theorem Told.send (transfer : Wire.Transfer) (told : Told log devices transport) :
    Told log devices (transport.send lib transfer).2 := by
  unfold CanardTransport.send
  split
  · exact told
  · intro turn interface here
    obtain ⟨before, canard, there, rfl⟩ := pushAll_get _ _ _ _ _ here
    obtain ⟨device, is, kept⟩ := told turn before there
    exact ⟨device, is, kept.handed, kept.looks⟩

theorem Told.process (nowUs : UInt64) (told : Told log devices transport) :
    Told log devices (transport.process lib can nowUs) := by
  intro turn interface here
  obtain ⟨before, canard, there, rfl⟩ := drainAll_get nowUs _ here
  obtain ⟨device, is, kept⟩ := told turn before there
  exact ⟨device, is, kept.drain nowUs _ _⟩

theorem Told.look {interface : Interface M} (told : Told log devices transport)
    (here : transport.interfaces[transport.nextRxInterface]? = some interface) :
    Told log devices (transport.look can interface).2 := by
  intro turn other there
  simp only [CanardTransport.look, List.getElem?_set] at there
  split at there
  · rename_i mine
    subst mine
    rw [if_pos (List.getElem?_eq_some_iff.mp here).1] at there
    obtain rfl := Option.some.inj there
    obtain ⟨device, is, kept⟩ := told _ interface here
    refine ⟨device, is, (log.taken_pop _).trans kept.handed, ?_⟩
    simp only [CanardTransport.look, looksAt, List.filter_append, List.map_append]
    rw [log.given_pop, kept.looks, List.append_assoc, List.filter_singleton]
    simp [looksAt]
  · rename_i others
    obtain ⟨device, is, kept⟩ := told turn other there
    refine ⟨device, is, kept.handed, ?_⟩
    have same : looksAt turn (transport.look can interface).2.looks = looksAt turn transport.looks := by
      simp [looksAt, CanardTransport.look, others]
    rw [same]
    exact kept.looks

end Told

/-- What holds after every look and whatever libcanard makes of the frames. -/
theorem receiveFrames_keeps {P : CanardTransport C M → Prop} (capacity : Nat)
    (looked : ∀ transport interface, transport.interfaces[transport.nextRxInterface]? = some interface →
      P transport → P (transport.look can interface).2)
    (fed : ∀ transport canard count, P transport → P { transport with canard := canard, outOfMemory := count })
    (attempts idle : Nat) (transport : CanardTransport C M) (holds : P transport) :
    P (receiveFrames lib can capacity attempts idle transport).2 := by
  induction attempts generalizing idle transport with
  | zero => exact holds
  | succ attempts ih =>
    unfold receiveFrames
    split
    · exact holds
    · split
      · exact holds
      · rename_i interface here
        have after := looked transport interface here holds
        dsimp only
        split
        · exact ih _ _ after
        · split
          · exact ih _ _ (fed _ _ _ after)
          · exact ih _ _ (fed _ _ _ after)
          · exact fed _ _ _ after

theorem receive_keeps {P : CanardTransport C M → Prop} (capacity : Nat)
    (looked : ∀ transport interface, transport.interfaces[transport.nextRxInterface]? = some interface →
      P transport → P (transport.look can interface).2)
    (fed : ∀ transport canard count, P transport → P { transport with canard := canard, outOfMemory := count })
    (transport : CanardTransport C M) (holds : P transport) : P (transport.receive lib can capacity).2 := by
  unfold receive
  split
  · exact holds
  · exact receiveFrames_keeps capacity looked fed _ _ _ holds

/-- What a poll has looked at; one that ends without a transfer has used all its looks or has found
nothing at any interface. -/
structure Polled (attempts : Nat) (recent : List (Nat × Option Sim.CanFrame)) (transport : CanardTransport C M)
    (answer : Option Wire.Transfer × CanardTransport C M) (mine : List (Nat × Option Sim.CanFrame)) : Prop where
  looks : answer.2.looks = transport.looks ++ mine
  few : mine.length ≤ attempts
  exhausted : answer.1 = none → mine.length = attempts ∨ Quiet transport.interfaces.length (recent ++ mine)

/-- One look more before a poll. -/
theorem Polled.cons {attempts : Nat} {recent mine : List (Nat × Option Sim.CanFrame)}
    {transport later : CanardTransport C M} {answer : Option Wire.Transfer × CanardTransport C M}
    {entry : Nat × Option Sim.CanFrame} (looks : later.looks = transport.looks ++ [entry])
    (same : later.interfaces.length = transport.interfaces.length)
    (polled : Polled attempts (recent ++ [entry]) later answer mine) :
    Polled (attempts + 1) recent transport answer (entry :: mine) where
  looks := by rw [polled.looks, looks, List.append_assoc, List.singleton_append]
  few := Nat.succ_le_succ polled.few
  exhausted := by
    intro without
    rcases polled.exhausted without with used | quiet
    · exact .inl (congrArg Nat.succ used)
    · exact .inr (by simpa [same] using quiet)

theorem receiveFrames_polled (capacity attempts idle : Nat) (recent : List (Nat × Option Sim.CanFrame))
    {transport : CanardTransport C M} (attached : 0 < transport.interfaces.length) (inTurn : InTurn transport)
    (quiet : Quiet idle recent) (fewer : idle ≤ transport.interfaces.length) :
    ∃ mine, Polled attempts recent transport (receiveFrames lib can capacity attempts idle transport) mine := by
  induction attempts generalizing idle recent transport with
  | zero => exact ⟨[], by simp [receiveFrames], by simp, fun _ => .inl rfl⟩
  | succ attempts ih =>
    have inside : transport.nextRxInterface < transport.interfaces.length := by
      rw [inTurn.next]
      exact Nat.mod_lt _ attached
    unfold receiveFrames
    split
    · rename_i all
      have every : idle = transport.interfaces.length := Nat.le_antisymm fewer all
      exact ⟨[], by simp, by simp, fun _ => .inr (by simpa [← every] using quiet)⟩
    · rw [List.getElem?_eq_getElem inside]
      dsimp only
      have next : InTurn (transport.look can transport.interfaces[transport.nextRxInterface]).2 := look_inTurn _ inTurn
      have same : (transport.look can transport.interfaces[transport.nextRxInterface]).2.interfaces.length =
          transport.interfaces.length := List.length_set ..
      have still : 0 < (transport.look can transport.interfaces[transport.nextRxInterface]).2.interfaces.length := by
        rwa [same]
      split
      · rename_i nothing
        obtain ⟨mine, polled⟩ := ih (idle + 1) _ still next (quiet.snoc transport.nextRxInterface)
          (by rw [same]; omega)
        exact ⟨_, polled.cons (by rw [← nothing]; rfl) same⟩
      · rename_i frame found
        have looked : (transport.look can transport.interfaces[transport.nextRxInterface]).2.looks =
            transport.looks ++ [(transport.nextRxInterface, some frame)] := by
          rw [← found]
          rfl
        have later : ∀ canard count, ∃ mine, Polled (attempts + 1) recent transport
            (receiveFrames lib can capacity attempts 0
              { (transport.look can transport.interfaces[transport.nextRxInterface]).2 with
                canard := canard, outOfMemory := count }) mine := by
          intro canard count
          have fed : InTurn
              { (transport.look can transport.interfaces[transport.nextRxInterface]).2 with
                canard := canard, outOfMemory := count } := ⟨next.next, next.looked⟩
          obtain ⟨mine, polled⟩ := ih 0 _ (by exact still) fed (quiet_zero _) (Nat.zero_le _)
          exact ⟨_, polled.cons (by exact looked) (by exact same)⟩
        split
        · exact later _ _
        · exact later _ _
        · exact ⟨_, looked, by simp, nofun⟩

/-! ### Runs -/

/-- The calls of the node; a subscription is between the node and libcanard alone. -/
inductive Event (C : Type)
  | send (transfer : Wire.Transfer)
  | receive (capacity : Nat)
  | process (nowUs : UInt64)
  | setLocalNodeId (nodeId : UInt8)
  | subscribe (link : C → C)

variable (lib can) in
def next (transport : CanardTransport C M) : Event C → CanardTransport C M
  | .send transfer => (transport.send lib transfer).2
  | .receive capacity => (transport.receive lib can capacity).2
  | .process nowUs => transport.process lib can nowUs
  | .setLocalNodeId nodeId => transport.setLocalNodeId nodeId
  | .subscribe link => { transport with canard := link transport.canard }

variable (lib can) in
def run (heapValid : Bool) (canard : C) (media : List (Option M)) (events : List (Event C)) : CanardTransport C M :=
  events.foldl (next lib can) (constructed heapValid canard media)

theorem run_keeps {P : CanardTransport C M → Prop} (heapValid : Bool) (canard : C) (media : List (Option M))
    (start : P (constructed heapValid canard media))
    (kept : ∀ transport event, P transport → P (next lib can transport event)) (events : List (Event C)) :
    P (run lib can heapValid canard media events) := by
  rw [run]
  generalize constructed heapValid canard media = transport at start
  induction events generalizing transport with
  | nil => exact start
  | cons event rest ih => exact ih _ (kept transport event start)

theorem constructed_accounted (heapValid : Bool) (canard : C) (media : List (Option M)) :
    Accounted (constructed heapValid canard media : CanardTransport C M) where
  ledgers := by
    intro interface mem
    obtain ⟨device, -, rfl⟩ := List.mem_map.mp mem
    exact Interface.attached_ledger device
  dropped := by
    simp [constructed, Function.comp_def, Interface.attached, Interface.lost]

theorem next_accounted (queues : lib.Queues) (transport : CanardTransport C M) (event : Event C)
    (accounted : Accounted transport) : Accounted (next lib can transport event) := by
  cases event with
  | send transfer => exact send_accounted queues transfer accounted
  | receive capacity =>
    refine receive_keeps capacity ?_ ?_ transport accounted
    · intro transport interface here before
      exact look_accounted before here
    · intro transport canard count before
      exact ⟨before.ledgers, before.dropped⟩
  | process nowUs => exact process_accounted nowUs accounted
  | setLocalNodeId nodeId => exact ⟨accounted.ledgers, accounted.dropped⟩
  | subscribe link => exact ⟨accounted.ledgers, accounted.dropped⟩

theorem constructed_told (log : MediaLog can) (heapValid : Bool) (canard : C) (media : List (Option M)) :
    Told log ((media.filterMap id).take canMaxInterfaces) (constructed heapValid canard media : CanardTransport C M) := by
  intro turn interface here
  rw [constructed, List.getElem?_map, Option.map_eq_some_iff] at here
  obtain ⟨device, is, rfl⟩ := here
  exact ⟨device, is, (List.append_nil _).symm, (List.append_nil _).symm⟩

theorem next_told {log : MediaLog can} {devices : List M} (transport : CanardTransport C M) (event : Event C)
    (told : Told log devices transport) : Told log devices (next lib can transport event) := by
  cases event with
  | send transfer => exact told.send transfer
  | receive capacity =>
    refine receive_keeps capacity ?_ ?_ transport told
    · intro transport interface here before
      exact before.look here
    · intro transport canard count before
      exact before
  | process nowUs => exact told.process nowUs
  | setLocalNodeId nodeId => exact told
  | subscribe link => exact told

theorem run_told (log : MediaLog can) (heapValid : Bool) (canard : C) (media : List (Option M)) (events : List (Event C)) :
    Told log ((media.filterMap id).take canMaxInterfaces) (run lib can heapValid canard media events) :=
  run_keeps heapValid canard media (constructed_told log heapValid canard media) next_told events

/-- Over every run of the node: the frames of a transfer that an interface's queue took are handed to
the interface once, within the timeout, or counted as dropped, or still wait; a poll of the
transport leaves a frame waiting only behind one that the interface refused; and the frames handed
over are those the interface took. -/
theorem frames_accounted (queues : lib.Queues) (heapValid : Bool) (canard : C) (media : List (Option M))
    (events : List (Event C)) :
    (∀ interface ∈ (run lib can heapValid canard media events).interfaces, interface.Ledger) ∧
      (run lib can heapValid canard media events).txDropped =
        ((run lib can heapValid canard media events).interfaces.map Interface.lost).sum ∧
      (∀ nowUs, ∀ interface ∈ ((run lib can heapValid canard media events).process lib can nowUs).interfaces,
        interface.Served can nowUs) ∧
      ∀ (log : MediaLog can) (turn : Nat) (interface : Interface M),
        (run lib can heapValid canard media events).interfaces[turn]? = some interface →
          ∃ device, ((media.filterMap id).take canMaxInterfaces)[turn]? = some device ∧
            log.taken interface.media = log.taken device ++ interface.handed.map fun entry => Interface.frame entry.2 := by
  have accounted : Accounted (run lib can heapValid canard media events) :=
    run_keeps heapValid canard media (constructed_accounted heapValid canard media) (next_accounted queues) events
  refine ⟨accounted.ledgers, accounted.dropped, fun nowUs => drainAll_served nowUs _ _, ?_⟩
  intro log turn interface here
  obtain ⟨device, is, told⟩ := run_told log heapValid canard media events turn interface here
  exact ⟨device, is, told.handed⟩

theorem pushAll_length (nodeId : UInt8) (nowUs : UInt64) (metadata : TransferMetadata) (payload : List UInt8)
    (canard : C) (interfaces : List (Interface M)) :
    (pushAll lib nodeId nowUs metadata payload canard interfaces).2.2.2.2.length = interfaces.length := by
  induction interfaces generalizing canard with
  | nil => rfl
  | cons first rest ih => simp [pushAll, ih]

theorem drainAll_length (nowUs : UInt64) (canard : C) (interfaces : List (Interface M)) :
    (drainAll lib can nowUs canard interfaces).2.2.length = interfaces.length := by
  induction interfaces generalizing canard with
  | nil => rfl
  | cons first rest ih => simp [drainAll, ih]

theorem next_inTurn (transport : CanardTransport C M) (event : Event C) (inTurn : InTurn transport) :
    InTurn (next lib can transport event) := by
  cases event with
  | send transfer =>
    simp only [next, send]
    split
    · exact inTurn
    · constructor
      · rw [pushAll_length]
        exact inTurn.next
      · rw [pushAll_length]
        exact inTurn.looked
  | receive capacity =>
    refine receive_keeps capacity ?_ ?_ transport inTurn
    · intro transport interface _ before
      exact look_inTurn interface before
    · intro transport canard count before
      exact ⟨before.next, before.looked⟩
  | process nowUs =>
    constructor
    · simp only [next, process, drainAll_length]
      exact inTurn.next
    · simp only [next, process, drainAll_length]
      exact inTurn.looked
  | setLocalNodeId nodeId => exact ⟨inTurn.next, inTurn.looked⟩
  | subscribe link => exact ⟨inTurn.next, inTurn.looked⟩

/-- Over every run of the node the interfaces are looked at in turn, across all polls and whatever
comes in; a poll that ends without a transfer has found no frame at any interface, one look
after the other, or has looked 64 times; and the looks have found what the interfaces gave. -/
theorem turns_taken (heapValid : Bool) (canard : C) (media : List (Option M)) (events : List (Event C))
    (valid : (run lib can heapValid canard media events).isValid = true) (capacity : Nat) :
    (∀ k (inside : k < (run lib can heapValid canard media events).looks.length),
        ((run lib can heapValid canard media events).looks.get ⟨k, inside⟩).1 =
          k % (run lib can heapValid canard media events).interfaces.length) ∧
      (∃ mine, ((run lib can heapValid canard media events).receive lib can capacity).2.looks =
          (run lib can heapValid canard media events).looks ++ mine ∧ mine.length ≤ maxFramesPerReceive ∧
        (((run lib can heapValid canard media events).receive lib can capacity).1 = none →
          mine.length = maxFramesPerReceive ∨
            Quiet (run lib can heapValid canard media events).interfaces.length mine)) ∧
      ∀ (log : MediaLog can) (turn : Nat) (interface : Interface M),
        (run lib can heapValid canard media events).interfaces[turn]? = some interface →
          ∃ device, ((media.filterMap id).take canMaxInterfaces)[turn]? = some device ∧
            log.given interface.media =
              log.given device ++ looksAt turn (run lib can heapValid canard media events).looks := by
  have inTurn : InTurn (run lib can heapValid canard media events) :=
    run_keeps heapValid canard media ⟨by simp [constructed], nofun⟩ next_inTurn events
  have told := fun log : MediaLog can => @run_told C M lib can log heapValid canard media events
  generalize run lib can heapValid canard media events = transport at valid inTurn told
  refine ⟨inTurn.looked, ?_, ?_⟩
  rotate_left
  · intro log turn interface here
    obtain ⟨device, is, same⟩ := told log turn interface here
    exact ⟨device, is, same.looks⟩
  have attached : 0 < transport.interfaces.length := by
    simp only [isValid, Bool.and_eq_true, decide_eq_true_eq] at valid
    exact valid.2
  obtain ⟨mine, polled⟩ := @receiveFrames_polled C M lib can capacity maxFramesPerReceive 0 [] transport attached inTurn
    (quiet_zero _) (Nat.zero_le _)
  rw [receive, valid]
  exact ⟨mine, polled.looks, polled.few, polled.exhausted⟩

section Bench

/-- One frame a transfer, in the order of the transfers, 64 of them at most. -/
def plainCanard : Canard Unit where
  txPush _ queue deadlineUs metadata payload nowUs canard :=
    let waiting := queue.filter fun item => !decide (item.deadlineUs < nowUs)
    let expired := queue.filter fun item => decide (item.deadlineUs < nowUs)
    if waiting.length < 64 then
      let item : TxItem := ⟨deadlineUs, metadata.portId.toUInt32, payload⟩
      ⟨canard, waiting ++ [item], [item], expired, false, 0⟩
    else ⟨canard, waiting, [], expired, true, 0⟩
  txFree _ canard := canard
  rxAccept _ _ _ _ canard := (.incomplete, 0, canard)
  deallocate _ canard := canard

theorem plainCanard_queues : plainCanard.Queues where
  accounts := by
    intro nodeId queue deadlineUs metadata payload nowUs canard
    have parts := List.filter_append_perm (fun item : TxItem => decide (item.deadlineUs < nowUs)) queue
    simp only [plainCanard]
    split
    · rw [List.perm_iff_count] at parts ⊢
      intro item
      have here := parts item
      simp only [List.count_append] at here ⊢
      omega
    · simpa using parts.symm
  deadline := by
    intro nodeId queue deadlineUs metadata payload nowUs canard item mem
    simp only [plainCanard] at mem
    split at mem
    · rw [List.mem_singleton.mp mem]
    · cases mem
  late := by
    intro nodeId queue deadlineUs metadata payload nowUs canard item mem
    simp only [plainCanard] at mem
    split at mem <;> simpa using (List.mem_filter.mp mem).2

/-- Takes the frames it has room for; whether a frame is there to be read. -/
def plainMedia : CanMedia (Nat × Bool) where
  push _ media := if 0 < media.1 then (true, (media.1 - 1, media.2)) else (false, media)
  pop media := (if media.2 then some .initial else none, media)
  busStatus _ := ⟨.errorActive, 0⟩

def plainTransfer : Wire.Transfer := ⟨7509, 1, 255, 0, .message, .nominal, [1, 2, 3]⟩

/-- The second frame waits until it is late. -/
def plainEvents : List (Event Unit) :=
  [.process 10, .send plainTransfer, .send plainTransfer, .process 20, .receive 8, .process 200000]

/-- Room for one frame and for two, a frame to be read at the first interface only. -/
def plainDevices : List (Option (Logged (Nat × Bool))) := [some ⟨(1, true), [], []⟩, none, some ⟨(2, false), [], []⟩]

theorem plainDevices_fresh :
    ∀ device ∈ (plainDevices.filterMap id).take canMaxInterfaces, device.taken = [] ∧ device.given = [] := by
  rintro _ (_ | ⟨_, _ | ⟨_, ⟨⟩⟩⟩)
  · exact ⟨rfl, rfl⟩
  · exact ⟨rfl, rfl⟩

def busyRun : CanardTransport Unit (Logged (Nat × Bool)) :=
  run plainCanard plainMedia.logged true () plainDevices plainEvents

theorem frames_accounted_busy :
    (∀ interface ∈ busyRun.interfaces, interface.Ledger) ∧
      busyRun.txDropped = (busyRun.interfaces.map Interface.lost).sum ∧
      (∀ nowUs, ∀ interface ∈ (busyRun.process plainCanard plainMedia.logged nowUs).interfaces,
        interface.Served plainMedia.logged nowUs) ∧
      ∀ (turn : Nat) (interface : Interface (Logged (Nat × Bool))), busyRun.interfaces[turn]? = some interface →
        interface.media.taken = interface.handed.map fun entry => Interface.frame entry.2 := by
  obtain ⟨ledgers, dropped, served, taken⟩ :=
    @frames_accounted Unit _ plainCanard plainMedia.logged plainCanard_queues true () plainDevices plainEvents
  refine ⟨ledgers, dropped, served, fun turn interface here => ?_⟩
  obtain ⟨device, is, same⟩ := taken plainMedia.log turn interface here
  exact same.trans (congrArg (· ++ _) (plainDevices_fresh device (List.mem_of_getElem? is)).1)

theorem turns_taken_busy :
    (∀ k (inside : k < busyRun.looks.length), (busyRun.looks.get ⟨k, inside⟩).1 = k % busyRun.interfaces.length) ∧
      (∃ mine, (busyRun.receive plainCanard plainMedia.logged 8).2.looks = busyRun.looks ++ mine ∧
        mine.length ≤ maxFramesPerReceive ∧
        ((busyRun.receive plainCanard plainMedia.logged 8).1 = none →
          mine.length = maxFramesPerReceive ∨ Quiet busyRun.interfaces.length mine)) ∧
      ∀ (turn : Nat) (interface : Interface (Logged (Nat × Bool))), busyRun.interfaces[turn]? = some interface →
        interface.media.given = looksAt turn busyRun.looks := by
  have valid : busyRun.isValid = true := by decide
  unfold busyRun at valid ⊢
  obtain ⟨looked, polled, given⟩ := turns_taken true () plainDevices plainEvents valid 8
  refine ⟨looked, polled, fun turn interface here => ?_⟩
  obtain ⟨device, is, same⟩ := given plainMedia.log turn interface here
  exact same.trans (congrArg (· ++ _) (plainDevices_fresh device (List.mem_of_getElem? is)).2)

example : busyRun.txDropped = 1 ∧ busyRun.interfaces.length = 2 := by decide

end Bench

end CanardTransport

end Unimoc.Cyphal
