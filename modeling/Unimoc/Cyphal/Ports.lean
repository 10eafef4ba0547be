import Unimoc.Cyphal.Node

/-! The ports of the Cyphal node: the subscriptions of the transport, the tables of
listeners and servers, the dispatch, and the subjects the node publishes by itself. -/
namespace Unimoc.Cyphal

def portHeartbeat : UInt16 := 7509

def portPortList : UInt16 := 7510

def portDiagnosticRecord : UInt16 := 8184

def portRegisterList : UInt16 := 385

def portGetInfo : UInt16 := 430

def servedServices : List UInt16 :=
  [portRegisterAccess, portRegisterList, portGetInfo, portExecuteCommand]

/-! ### The transport -/

def maxSubscriptions : Nat := 24

structure Subscription where
  kind : TransferKind
  portId : UInt16
  extent : Nat

/-- What `canardRxSubscribe()` answers: whether libcanard links the subscription. -/
abbrev Linking := TransferKind → UInt16 → Nat → Bool

namespace CanardTransport

def carries (subscriptions : List Subscription) (kind : TransferKind) (portId : UInt16) : Bool :=
  subscriptions.any fun s => s.kind = kind && s.portId = portId

/-- A port subscribed again keeps its object with the larger extent. -/
def subscribe (links : Linking) (subscriptions : List Subscription) (kind : TransferKind)
    (portId : UInt16) (extent : Nat) : Bool × List Subscription :=
  match subscriptions.find? fun s => s.kind = kind && s.portId = portId with
  | some existing =>
    if extent ≤ existing.extent then (true, subscriptions)
    else if links kind portId extent then
      (true, subscriptions.map fun s =>
        if s.kind = kind && s.portId = portId then { s with extent := extent } else s)
    else (false, subscriptions)
  | none =>
    if maxSubscriptions ≤ subscriptions.length then (false, subscriptions)
    else if links kind portId extent then (true, subscriptions ++ [⟨kind, portId, extent⟩])
    else (false, subscriptions)

variable {links : Linking} {subscriptions : List Subscription} (kind : TransferKind) (portId : UInt16)
  (extent : Nat)

theorem carries_extended (k : TransferKind) (p : UInt16) :
    carries (subscriptions.map fun s =>
      if s.kind = kind && s.portId = portId then { s with extent := extent } else s) k p =
      carries subscriptions k p := by
  unfold carries
  rw [List.any_map]
  congr 1
  funext s
  simp only [Function.comp_apply]
  split <;> rfl

theorem carries_subscribe {k : TransferKind} {p : UInt16} (carried : carries subscriptions k p = true) :
    carries (subscribe links subscriptions kind portId extent).2 k p = true := by
  unfold subscribe
  split
  · split_ifs
    · exact carried
    · exact (carries_extended _ _ _ k p).trans carried
    · exact carried
  · split_ifs
    · exact carried
    · simpa [carries] using .inl (by simpa [carries] using carried)
    · exact carried

theorem subscribe_length : (subscribe links subscriptions kind portId extent).2.length ≤
    subscriptions.length + 1 := by
  unfold subscribe
  split <;> split_ifs <;> simp

theorem subscribe_linked (linked : ∀ kind portId extent, links kind portId extent = true)
    (slots : subscriptions.length < maxSubscriptions) :
    (subscribe links subscriptions kind portId extent).1 = true ∧
      ∀ k p, carries (subscribe links subscriptions kind portId extent).2 k p =
        (carries subscriptions k p || (kind = k && portId = p)) := by
  unfold subscribe
  split
  · rename_i existing found
    have present : ∀ k p, (kind = k && portId = p : Bool) = true → carries subscriptions k p = true := by
      intro k p same
      simp only [Bool.and_eq_true, decide_eq_true_eq] at same
      obtain ⟨rfl, rfl⟩ := same
      have matching := List.find?_some (p := fun s : Subscription => s.kind = kind && s.portId = portId) found
      exact List.any_eq_true.mpr ⟨existing, List.mem_of_find?_eq_some found, matching⟩
    have unchanged : ∀ k p, carries subscriptions k p =
        (carries subscriptions k p || (kind = k && portId = p)) := by
      intro k p
      cases same : (kind = k && portId = p : Bool) with
      | true => rw [present k p same, Bool.true_or]
      | false => rw [Bool.or_false]
    split
    · exact ⟨rfl, unchanged⟩
    · rw [if_pos (linked ..)]
      exact ⟨rfl, fun k p => (carries_extended _ _ _ k p).trans (unchanged k p)⟩
  · rw [if_neg (Nat.not_le.mpr slots), if_pos (linked ..)]
    exact ⟨rfl, fun k p => by simp [carries]⟩

end CanardTransport

/-! ### The tables of the node -/

def maxListeners : Nat := 12

def maxServers : Nat := 8

/-- Listeners and servers are named by the component they belong to. -/
structure NodePorts (Component : Type) where
  subscriptions : List Subscription
  nodeId : UInt8
  listeners : List (UInt16 × Component)
  servers : List (UInt16 × Component)

inductive Delivery (Component : Type)
  | getInfo
  | registerList
  | registerAccess
  | executeCommand
  | allocation
  | message (listener : Component)
  | request (server : Component)

namespace NodePorts

variable {Component : Type} (links : Linking) (node : NodePorts Component)

def constructed : NodePorts Component := ⟨[], nodeIdUnset, [], []⟩

def subscribe (subjectId : UInt16) (extent : Nat) (listener : Component) :
    Bool × NodePorts Component :=
  if subjectId = unsetPortId then (true, node)
  else if maxListeners ≤ node.listeners.length then (false, node)
  else
    let (linked, subscriptions) :=
      CanardTransport.subscribe links node.subscriptions .message subjectId extent
    let node := { node with subscriptions := subscriptions }
    if linked then (true, { node with listeners := node.listeners ++ [(subjectId, listener)] })
    else (false, node)

/-- A service the node serves by itself is taken. -/
def taken (serviceId : UInt16) : Bool :=
  servedServices.contains serviceId || node.servers.any fun server => server.1 = serviceId

def addServer (serviceId : UInt16) (extent : Nat) (handler : Component) :
    Bool × NodePorts Component :=
  if serviceId = unsetPortId then (true, node)
  else if maxServiceId < serviceId || node.taken serviceId || maxServers ≤ node.servers.length then
    (false, node)
  else
    let (linked, subscriptions) :=
      CanardTransport.subscribe links node.subscriptions .serviceRequest serviceId extent
    let node := { node with subscriptions := subscriptions }
    if linked then (true, { node with servers := node.servers ++ [(serviceId, handler)] })
    else (false, node)

/-- The subscriptions of a component, in order; a refused one does not keep the others off. -/
def subscribeAll (listener : Component) :
    List (UInt16 × Nat) → NodePorts Component → Bool × NodePorts Component
  | [], node => (true, node)
  | (subjectId, extent) :: rest, node =>
    let (first, node) := node.subscribe links subjectId extent listener
    let (others, node) := node.subscribeAll listener rest
    (first && others, node)

def addServers (handler : Component) :
    List (UInt16 × Nat) → NodePorts Component → Bool × NodePorts Component
  | [], node => (true, node)
  | (serviceId, extent) :: rest, node =>
    let (first, node) := node.addServer links serviceId extent handler
    let (others, node) := node.addServers handler rest
    (first && others, node)

/-- Takes the node-ID and subscribes the standard services, without a node-ID also the
allocation. -/
def start (extent : UInt16 → Nat) (nodeId : UInt8) : Bool × NodePorts Component :=
  let nodeId := if nodeId ≤ nodeIdMax then nodeId else nodeIdUnset
  let ports := [portGetInfo, portRegisterList, portRegisterAccess, portExecuteCommand].map
    (TransferKind.serviceRequest, ·)
  let ports := if nodeId = nodeIdUnset then ports ++ [(.message, nodeIdAllocationPort)] else ports
  let subscribed (so : Bool × List Subscription) (port : TransferKind × UInt16) :=
    let (linked, subscriptions) :=
      CanardTransport.subscribe links so.2 port.1 port.2 (extent port.2)
    (linked && so.1, subscriptions)
  let (all, subscriptions) := ports.foldl subscribed (true, node.subscriptions)
  (all, { node with nodeId := nodeId, subscriptions := subscriptions })

def dispatch (kind : TransferKind) (portId : UInt16) : List (Delivery Component) :=
  match kind with
  | .serviceRequest =>
    if node.nodeId = nodeIdUnset then []
    else if portId = portGetInfo then [.getInfo]
    else if portId = portRegisterList then [.registerList]
    else if portId = portRegisterAccess then [.registerAccess]
    else if portId = portExecuteCommand then [.executeCommand]
    else ((node.servers.find? (·.1 = portId)).map fun server => .request server.2).toList
  | .serviceResponse => []
  | .message =>
    if portId = nodeIdAllocationPort then [.allocation]
    else (node.listeners.filter (·.1 = portId)).map fun listener => .message listener.2

/-! ### What a component adds at most -/

section Growth

variable (listener : Component)

theorem subscribe_grows (subjectId : UInt16) (extent : Nat) :
    (node.subscribe links subjectId extent listener).2.listeners.length ≤ node.listeners.length + 1 ∧
      (node.subscribe links subjectId extent listener).2.subscriptions.length ≤
        node.subscriptions.length + 1 := by
  have longer := @CanardTransport.subscribe_length links node.subscriptions .message subjectId extent
  unfold subscribe
  split_ifs
  · exact ⟨Nat.le_succ _, Nat.le_succ _⟩
  · exact ⟨Nat.le_succ _, Nat.le_succ _⟩
  · dsimp only
    split
    · exact ⟨by simp, longer⟩
    · exact ⟨Nat.le_succ _, longer⟩

theorem subscribeAll_grows (ports : List (UInt16 × Nat)) :
    (node.subscribeAll links listener ports).2.listeners.length ≤ node.listeners.length + ports.length ∧
      (node.subscribeAll links listener ports).2.subscriptions.length ≤
        node.subscriptions.length + ports.length := by
  induction ports generalizing node with
  | nil => exact ⟨Nat.le_refl _, Nat.le_refl _⟩
  | cons port rest ih =>
    obtain ⟨one, other⟩ := node.subscribe_grows links listener port.1 port.2
    obtain ⟨listeners, subscriptions⟩ := ih (node.subscribe links port.1 port.2 listener).2
    simp only [subscribeAll, List.length_cons]
    omega

theorem addServers_grows (services : List (UInt16 × Nat)) :
    (node.addServers links listener services).2.listeners = node.listeners ∧
      (node.addServers links listener services).2.subscriptions.length ≤
        node.subscriptions.length + services.length := by
  induction services generalizing node with
  | nil => exact ⟨rfl, Nat.le_refl _⟩
  | cons service rest ih =>
    have one : (node.addServer links service.1 service.2 listener).2.listeners = node.listeners ∧
        (node.addServer links service.1 service.2 listener).2.subscriptions.length ≤
          node.subscriptions.length + 1 := by
      have longer := @CanardTransport.subscribe_length links node.subscriptions
        .serviceRequest service.1 service.2
      unfold addServer
      split_ifs
      · exact ⟨rfl, Nat.le_succ _⟩
      · exact ⟨rfl, Nat.le_succ _⟩
      · dsimp only
        split <;> exact ⟨rfl, longer⟩
    obtain ⟨listeners, subscriptions⟩ := ih (node.addServer links service.1 service.2 listener).2
    simp only [addServers, List.length_cons]
    exact ⟨listeners.trans one.1, by omega⟩

theorem start_grows (extent : UInt16 → Nat) (nodeId : UInt8) :
    (node.start links extent nodeId).2.listeners = node.listeners ∧
      (node.start links extent nodeId).2.subscriptions.length ≤ node.subscriptions.length + 5 := by
  have grows (ports : List (TransferKind × UInt16)) (so : Bool × List Subscription) :
      (ports.foldl (fun so port =>
        ((CanardTransport.subscribe links so.2 port.1 port.2 (extent port.2)).1 && so.1,
          (CanardTransport.subscribe links so.2 port.1 port.2 (extent port.2)).2)) so).2.length ≤
        so.2.length + ports.length := by
    induction ports generalizing so with
    | nil => exact Nat.le_refl _
    | cons port rest ih =>
      have one := @CanardTransport.subscribe_length links so.2 port.1 port.2 (extent port.2)
      have others := ih ((CanardTransport.subscribe links so.2 port.1 port.2 (extent port.2)).1 && so.1,
        (CanardTransport.subscribe links so.2 port.1 port.2 (extent port.2)).2)
      simp only [List.foldl_cons, List.length_cons] at others ⊢
      omega
  refine ⟨rfl, (grows _ _).trans ?_⟩
  split_ifs <;> simp

end Growth

/-! ### What is accepted while there is room -/

section Accepted

variable {links} (listener : Component) (linked : ∀ kind portId extent, links kind portId extent = true)
include linked

theorem subscribe_accepted {subjectId : UInt16} (extent : Nat) (enabled : subjectId ≠ unsetPortId)
    (room : node.listeners.length < maxListeners) (slots : node.subscriptions.length < maxSubscriptions) :
    (node.subscribe links subjectId extent listener).2.listeners =
        node.listeners ++ [(subjectId, listener)] ∧
      (node.subscribe links subjectId extent listener).2.subscriptions =
        (CanardTransport.subscribe links node.subscriptions .message subjectId extent).2 := by
  have accepted := (CanardTransport.subscribe_linked .message subjectId extent linked slots).1
  unfold subscribe
  rw [if_neg enabled, if_neg (Nat.not_le.mpr room)]
  simp only [accepted, ↓reduceIte, and_self]

theorem subscribeAll_accepted (ports : List (UInt16 × Nat)) (node : NodePorts Component)
    (room : node.listeners.length + ports.length ≤ maxListeners)
    (slots : node.subscriptions.length + ports.length ≤ maxSubscriptions) :
    (node.subscribeAll links listener ports).2.listeners = node.listeners ++
        (ports.filter (·.1 ≠ unsetPortId)).map (fun port => (port.1, listener)) ∧
      (node.subscribeAll links listener ports).2.subscriptions.length ≤
        node.subscriptions.length + ports.length ∧
      ∀ p, CanardTransport.carries (node.subscribeAll links listener ports).2.subscriptions .message p =
        (CanardTransport.carries node.subscriptions .message p ||
          ports.any fun port => port.1 ≠ unsetPortId && port.1 = p) := by
  induction ports generalizing node with
  | nil => simp [subscribeAll]
  | cons port rest ih =>
    obtain ⟨subjectId, extent⟩ := port
    simp only [List.length_cons] at room slots
    simp only [subscribeAll]
    by_cases enabled : subjectId = unsetPortId
    · have skipped : node.subscribe links subjectId extent listener = (true, node) := if_pos enabled
      obtain ⟨table, length, carried⟩ := ih node (by omega) (by omega)
      rw [skipped]
      simp only [List.length_cons]
      exact ⟨by simpa [enabled] using table, by omega, fun p => by simp [carried, enabled]⟩
    · have free : node.subscriptions.length < maxSubscriptions := by omega
      obtain ⟨table, transport⟩ := subscribe_accepted node listener linked extent enabled (by omega) free
      have longer := transport ▸ CanardTransport.subscribe_length .message subjectId extent
      have carriedFirst := (CanardTransport.subscribe_linked .message subjectId extent linked free).2
      rw [← transport] at carriedFirst
      obtain ⟨tables, length, carried⟩ :=
        ih (node.subscribe links subjectId extent listener).2 (by simp [table]; omega) (by omega)
      simp only [List.length_cons]
      refine ⟨?_, by omega, fun p => ?_⟩
      · rw [tables, table]
        simp [enabled]
      · rw [carried, carriedFirst]
        simp [enabled, Bool.or_assoc]

omit linked in
theorem start_keeps (extent : UInt16 → Nat) (nodeId : UInt8) :
    (node.start links extent nodeId).2.listeners = node.listeners ∧
      ∀ p, CanardTransport.carries node.subscriptions .message p = true →
        CanardTransport.carries (node.start links extent nodeId).2.subscriptions .message p = true := by
  refine ⟨rfl, fun p carried => ?_⟩
  have kept (ports : List (TransferKind × UInt16)) (so : Bool × List Subscription)
      (carried : CanardTransport.carries so.2 .message p = true) :
      CanardTransport.carries (ports.foldl (fun so port =>
        ((CanardTransport.subscribe links so.2 port.1 port.2 (extent port.2)).1 && so.1,
          (CanardTransport.subscribe links so.2 port.1 port.2 (extent port.2)).2)) so).2 .message p = true := by
    induction ports generalizing so with
    | nil => exact carried
    | cons port rest ih => exact ih _ (CanardTransport.carries_subscribe _ _ _ carried)
  exact kept _ _ carried

omit linked in
theorem addServer_unset {extent : Nat} :
    node.addServer links unsetPortId extent listener = (true, node) := if_pos rfl

omit linked in
theorem addServer_served {serviceId : UInt16} {extent : Nat}
    (served : servedServices.contains serviceId = true) :
    node.addServer links serviceId extent listener = (false, node) := by
  have enabled : serviceId ≠ unsetPortId := fun unset => absurd (unset ▸ served) (by decide)
  unfold addServer taken
  rw [served, if_neg enabled, Bool.true_or, Bool.or_true, Bool.true_or, if_pos rfl]

theorem addServer_accepted {serviceId : UInt16} (extent : Nat) (enabled : serviceId ≠ unsetPortId)
    (inRange : serviceId ≤ maxServiceId) (free : node.taken serviceId = false)
    (room : node.servers.length < maxServers) (slots : node.subscriptions.length < maxSubscriptions) :
    ∃ subscriptions, subscriptions.length ≤ node.subscriptions.length + 1 ∧
      node.addServer links serviceId extent listener =
        (true, { node with
          subscriptions := subscriptions, servers := node.servers ++ [(serviceId, listener)] }) := by
  have accepted := (CanardTransport.subscribe_linked .serviceRequest serviceId extent linked slots).1
  refine ⟨(CanardTransport.subscribe links node.subscriptions .serviceRequest serviceId extent).2,
    CanardTransport.subscribe_length .serviceRequest serviceId extent, ?_⟩
  unfold addServer
  rw [if_neg enabled, if_neg (by simp [UInt16.not_lt.mpr inRange, free, room])]
  simp only [accepted, ↓reduceIte]

/-- The tables of the node have room for a component's services, the transport for their
subscriptions: only a service of the node or one already served is refused. -/
theorem addServers_accepted (services : List (UInt16 × Nat)) (node : NodePorts Component)
    (room : node.servers.length + services.length ≤ maxServers)
    (slots : node.subscriptions.length + services.length ≤ maxSubscriptions)
    (inRange : ∀ service ∈ services, service.1 ≠ unsetPortId → service.1 ≤ maxServiceId)
    (unserved : ∀ service ∈ services, service.1 ≠ unsetPortId →
      ∀ server ∈ node.servers, server.1 ≠ service.1)
    (distinct : services.Pairwise fun first second => first.1 = unsetPortId ∨ first.1 ≠ second.1) :
    (node.addServers links listener services).1 =
        services.all (fun service => !servedServices.contains service.1) ∧
      (node.addServers links listener services).2.subscriptions.length ≤
        node.subscriptions.length + services.length ∧
      (node.addServers links listener services).2.listeners = node.listeners := by
  induction services generalizing node with
  | nil => simp [addServers]
  | cons service rest ih =>
    obtain ⟨serviceId, extent⟩ := service
    obtain ⟨apart, distinct⟩ := List.pairwise_cons.mp distinct
    simp only [List.length_cons] at room slots
    simp only [addServers, List.all_cons, List.length_cons]
    have restInRange : ∀ service ∈ rest, service.1 ≠ unsetPortId → service.1 ≤ maxServiceId :=
      fun service inside => inRange service (List.mem_cons_of_mem _ inside)
    have restUnserved : ∀ service ∈ rest, service.1 ≠ unsetPortId →
        ∀ server ∈ node.servers, server.1 ≠ service.1 :=
      fun service inside => unserved service (List.mem_cons_of_mem _ inside)
    cases served : servedServices.contains serviceId with
    | true =>
      obtain ⟨-, length, listeners⟩ :=
        ih node (by omega) (by omega) restInRange restUnserved distinct
      rw [addServer_served node listener served]
      exact ⟨rfl, length.trans (by omega), listeners⟩
    | false =>
      by_cases enabled : serviceId = unsetPortId
      · obtain ⟨answer, length, listeners⟩ :=
          ih node (by omega) (by omega) restInRange restUnserved distinct
        rw [enabled, addServer_unset]
        exact ⟨by simpa using answer, length.trans (by omega), listeners⟩
      · have free : node.taken serviceId = false := by
          have others := unserved _ List.mem_cons_self enabled
          rw [taken, served, Bool.false_or]
          simpa using others
        obtain ⟨subscriptions, longer, added⟩ := addServer_accepted node listener linked extent enabled
          (inRange _ List.mem_cons_self enabled) free (by omega) (by omega)
        rw [added]
        have laterUnserved : ∀ service ∈ rest, service.1 ≠ unsetPortId →
            ∀ server ∈ node.servers ++ [(serviceId, listener)], server.1 ≠ service.1 := by
          intro service inside used server present
          rcases List.mem_append.mp present with earlier | this
          · exact restUnserved service inside used server earlier
          · rw [List.mem_singleton.mp this]
            exact (apart service inside).resolve_left enabled
        obtain ⟨answer, length, listeners⟩ := ih { node with
            subscriptions := subscriptions, servers := node.servers ++ [(serviceId, listener)] }
          (by simp; omega) (by simp only; omega) restInRange laterUnserved distinct
        exact ⟨by simpa using answer, length.trans (by simp only; omega), listeners⟩

end Accepted

end NodePorts

/-! ### The subjects the node publishes by itself -/

def heartbeatPeriodUs : UInt64 := 1000000

def portListPeriodUs : UInt64 := 5000000

structure Schedule where
  nextHeartbeatUs : UInt64
  nextPortListUs : UInt64
  nextAllocationUs : UInt64
  allocationSeed : UInt32

namespace Schedule

def start (uniqueIdHash nowUs : UInt64) : Schedule :=
  let seed := (uniqueIdHash ^^^ (uniqueIdHash >>> 32)).toUInt32
  { nextHeartbeatUs := nowUs
    nextPortListUs := nowUs + portListPeriodUs
    nextAllocationUs := nowUs + (seed % 1000000).toUInt64
    allocationSeed := seed }

/-- After a stall there is no burst of heartbeats. -/
def heartbeat (schedule : Schedule) (nowUs : UInt64) : List UInt16 × Schedule :=
  if schedule.nextHeartbeatUs ≤ nowUs then
    let next := schedule.nextHeartbeatUs + heartbeatPeriodUs
    ([portHeartbeat],
      { schedule with nextHeartbeatUs := if next ≤ nowUs then nowUs + heartbeatPeriodUs else next })
  else ([], schedule)

def publishPortList (schedule : Schedule) (nowUs : UInt64) : List UInt16 × Schedule :=
  if schedule.nextPortListUs ≤ nowUs then
    ([portPortList], { schedule with nextPortListUs := nowUs + portListPeriodUs })
  else ([], schedule)

def requestNodeId (schedule : Schedule) (nowUs : UInt64) : List UInt16 × Schedule :=
  if schedule.nextAllocationUs ≤ nowUs then
    let seed := schedule.allocationSeed * 1664525 + 1013904223
    ([nodeIdAllocationPort],
      { schedule with
        allocationSeed := seed, nextAllocationUs := nowUs + 500000 + (seed % 1000000).toUInt64 })
  else ([], schedule)

/-- The subjects one spin publishes. -/
def spin (nodeId : UInt8) (schedule : Schedule) (nowUs : UInt64) : List UInt16 × Schedule :=
  if nodeId = nodeIdUnset then schedule.requestNodeId nowUs
  else
    let (first, schedule) := schedule.heartbeat nowUs
    let (second, schedule) := schedule.publishPortList nowUs
    (first ++ second, schedule)

def run (nodeId : UInt8) : Schedule → List UInt64 → List UInt16
  | _, [] => []
  | schedule, nowUs :: later =>
    (schedule.spin nodeId nowUs).1 ++ run nodeId (schedule.spin nodeId nowUs).2 later

end Schedule

/-- An anonymous node publishes no records. -/
def logSubjects (nodeId : UInt8) : List UInt16 :=
  if nodeId = nodeIdUnset then [] else [portDiagnosticRecord]

/-- Some run of the node publishes on the subject; a configured node-ID stays. -/
def Publishes (uniqueIdHash : UInt64) (nodeId : UInt8) (subject : UInt16) : Prop :=
  subject ∈ logSubjects nodeId ∨
    ∃ startUs times, subject ∈ (Schedule.start uniqueIdHash startUs).run nodeId times

def ownSubjects : List UInt16 := [portHeartbeat, portPortList, portDiagnosticRecord]

theorem Schedule.run_subjects {nodeId : UInt8} (configured : nodeId ≠ nodeIdUnset) {subject : UInt16}
    (times : List UInt64) (schedule : Schedule) (published : subject ∈ schedule.run nodeId times) :
    subject = portHeartbeat ∨ subject = portPortList := by
  induction times generalizing schedule with
  | nil => cases published
  | cons nowUs later ih =>
    rcases List.mem_append.mp published with now | next
    · simp only [spin, if_neg configured] at now
      rcases List.mem_append.mp now with beat | list
      · unfold heartbeat at beat
        split at beat
        · exact .inl (List.mem_singleton.mp beat)
        · cases beat
      · unfold publishPortList at list
        split at list
        · exact .inr (List.mem_singleton.mp list)
        · cases list
    · exact ih _ next

theorem publishes_configured {uniqueIdHash : UInt64} {nodeId : UInt8} (configured : nodeId ≠ nodeIdUnset)
    (subject : UInt16) : Publishes uniqueIdHash nodeId subject ↔ subject ∈ ownSubjects := by
  unfold Publishes logSubjects
  rw [if_neg configured]
  constructor
  · rintro (record | ⟨startUs, times, published⟩)
    · rw [List.mem_singleton.mp record]
      decide
    · rcases Schedule.run_subjects configured times _ published with rfl | rfl <;> decide
  · intro own
    -- five seconds after the start both the heartbeat and the port list are due
    have due : (Schedule.start uniqueIdHash 0).run nodeId [5000000] = [portHeartbeat, portPortList] := by
      unfold Schedule.run Schedule.run Schedule.spin
      rw [if_neg configured]
      rfl
    rcases List.mem_cons.mp own with rfl | own
    · exact .inr ⟨0, [5000000], by rw [due]; decide⟩
    · rcases List.mem_cons.mp own with rfl | own
      · exact .inr ⟨0, [5000000], by rw [due]; decide⟩
      · exact .inl own

end Unimoc.Cyphal
