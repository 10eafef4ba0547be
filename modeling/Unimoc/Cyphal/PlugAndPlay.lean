import Unimoc.Cyphal.Wire

/-! A node without a node-ID: what it sends, and the one way it gets a node-ID. -/
namespace Unimoc.Cyphal.Wire

open Runs

/-! ### The local node-ID along the calls of the transport -/

/-- The transport's local node-ID after the calls. -/
def localNodeId : List TransportCall → UInt8
  | [] => nodeIdUnset
  | .setLocalNodeId nodeId :: _ => if nodeId ≤ nodeIdMax then nodeId else nodeIdUnset
  | .receive _ :: earlier => localNodeId earlier
  | .send _ :: earlier => localNodeId earlier

def idChanges : List TransportCall → Nat
  | [] => 0
  | call :: earlier =>
    idChanges earlier + if localNodeId (call :: earlier) = localNodeId earlier then 0 else 1

structure AllocationRequest (env : Environment) (hash : UInt64) (transfer : Transfer) : Prop where
  kind : transfer.kind = .message
  subject : transfer.portId = nodeIdAllocationPort
  source : transfer.sourceNodeId = nodeIdUnset
  destination : transfer.destinationNodeId = nodeIdUnset
  payload : env.serializeAllocation ⟨hash, []⟩ = some transfer.payload

structure Allocates (env : Environment) (hash : UInt64) (message : Transfer) (nodeId : UInt8) :
    Prop where
  kind : message.kind = .message
  subject : message.portId = nodeIdAllocationPort
  source : message.sourceNodeId ≠ nodeIdUnset
  payload : ∃ allocated : UInt16,
    env.deserializeAllocation message.payload = some ⟨hash, [allocated]⟩ ∧
      allocated ≤ nodeIdMax.toUInt16 ∧ allocated.toUInt8 = nodeId

/-- What a plug-and-play node does with its transport, given the node-ID of its start. -/
structure PlugAndPlay (env : Environment) (hash : UInt64) (startId : UInt8)
    (calls : List TransportCall) : Prop where
  requests : ∀ later transfer earlier, calls = later ++ .send transfer :: earlier →
    localNodeId earlier = nodeIdUnset → AllocationRequest env hash transfer
  once : idChanges calls ≤ 1
  allocated : ∀ later call earlier, calls = later ++ call :: earlier → earlier ≠ [] →
    localNodeId (call :: earlier) ≠ localNodeId earlier →
      localNodeId earlier = nodeIdUnset ∧ localNodeId (call :: earlier) ≤ nodeIdMax ∧
        ∃ message before, earlier = .receive message :: before ∧
          Allocates env hash message (localNodeId (call :: earlier))
  configured : startId ≤ nodeIdMax → ∀ later earlier, calls = later ++ earlier → earlier ≠ [] →
    localNodeId earlier = startId

theorem allocated_valid {nodeId : UInt16} (range : nodeId ≤ nodeIdMax.toUInt16) :
    nodeId.toUInt8 ≤ nodeIdMax := by
  have small : nodeId.toNat ≤ 127 := UInt16.le_iff_toNat_le.mp range
  refine UInt8.le_iff_toNat_le.mpr ?_
  show nodeId.toNat % 256 ≤ 127
  omega

/-- What each call of the transport respects: the first one is that of the start. -/
def Guarded (env : Environment) (hash : UInt64) (startId : UInt8) :
    TransportCall → List TransportCall → Prop
  | call, [] => call = .setLocalNodeId startId
  | .receive _, _ :: _ => True
  | .send transfer, last :: earlier =>
    localNodeId (last :: earlier) = nodeIdUnset → AllocationRequest env hash transfer
  | .setLocalNodeId nodeId, last :: earlier =>
    localNodeId (last :: earlier) = nodeIdUnset ∧ nodeId ≤ nodeIdMax ∧
      ∃ message, last = .receive message ∧ Allocates env hash message nodeId

section Calls

variable {env : Environment} {hash : UInt64} {startId : UInt8} {calls : List TransportCall}

theorem localNodeId_kept {call last : TransportCall} {earlier : List TransportCall}
    (guarded : Guarded env hash startId call (last :: earlier))
    (named : localNodeId (last :: earlier) ≠ nodeIdUnset) :
    localNodeId (call :: last :: earlier) = localNodeId (last :: earlier) := by
  cases call with
  | setLocalNodeId nodeId => exact absurd guarded.1 named
  | receive message => rfl
  | send transfer => rfl

theorem idChanges_bound (guarded : Throughout (Guarded env hash startId) calls) :
    idChanges calls ≤ 1 ∧ (localNodeId calls = nodeIdUnset → idChanges calls = 0) := by
  induction calls with
  | nil => exact ⟨Nat.zero_le _, fun _ => rfl⟩
  | cons call earlier ih =>
    obtain ⟨this, older⟩ := (throughout_cons ..).mp guarded
    obtain ⟨bound, none⟩ := ih older
    by_cases same : localNodeId (call :: earlier) = localNodeId earlier
    · simp only [idChanges, if_pos same, Nat.add_zero]
      exact ⟨bound, fun unset => none (same.symm.trans unset)⟩
    · have unset : localNodeId earlier = nodeIdUnset := by
        cases earlier with
        | nil => rfl
        | cons last earlier =>
          by_contra named
          exact same (localNodeId_kept this named)
      simp only [idChanges, if_neg same, none unset]
      exact ⟨Nat.le_refl _, fun unset' => absurd (unset'.trans unset.symm) same⟩

theorem localNodeId_configured (valid : startId ≤ nodeIdMax)
    (guarded : Throughout (Guarded env hash startId) calls) (began : calls ≠ []) :
    localNodeId calls = startId := by
  induction calls with
  | nil => exact absurd rfl began
  | cons call earlier ih =>
    obtain ⟨this, older⟩ := (throughout_cons ..).mp guarded
    cases earlier with
    | nil =>
      obtain rfl : call = .setLocalNodeId startId := this
      exact if_pos valid
    | cons last earlier =>
      have before := ih older (List.cons_ne_nil _ _)
      have named : localNodeId (last :: earlier) ≠ nodeIdUnset := by
        rw [before]
        rintro rfl
        exact absurd valid (by decide)
      exact (localNodeId_kept this named).trans before

theorem plugAndPlay_of_guarded (guarded : Throughout (Guarded env hash startId) calls) :
    PlugAndPlay env hash startId calls where
  requests := by
    intro later transfer earlier split unset
    obtain ⟨this, -⟩ := (throughout_cons ..).mp (Throughout.older later (split ▸ guarded))
    cases earlier with
    | nil => cases this
    | cons last earlier => exact this unset
  once := (idChanges_bound guarded).1
  allocated := by
    intro later call earlier split began changes
    obtain ⟨this, -⟩ := (throughout_cons ..).mp (Throughout.older later (split ▸ guarded))
    cases earlier with
    | nil => exact absurd rfl began
    | cons last earlier =>
      cases call with
      | receive message => exact absurd rfl changes
      | send transfer => exact absurd rfl changes
      | setLocalNodeId nodeId =>
        obtain ⟨unset, range, message, rfl, allocates⟩ := this
        have named : localNodeId (.setLocalNodeId nodeId :: .receive message :: earlier) = nodeId :=
          if_pos range
        rw [named]
        exact ⟨unset, range, message, earlier, rfl, allocates⟩
  configured := by
    intro valid later earlier split began
    exact localNodeId_configured valid (Throughout.older later (split ▸ guarded)) began

end Calls

/-! ### The node keeps to it -/

section Sound

variable {Component : Type} {env : Environment} {uniqueId : Vector UInt8 16} {startId : UInt8}
  {node : CyphalNode Component}

/-- A started node, between any two of its steps. -/
structure Sound (env : Environment) (uniqueId : Vector UInt8 16) (startId : UInt8)
    (node : CyphalNode Component) : Prop where
  identity : node.uniqueId = uniqueId
  nodeId : node.nodeId = localNodeId node.calls
  allocation : node.allocation.portId = nodeIdAllocationPort
  began : node.calls ≠ []
  guarded : Throughout (Guarded env (uniqueIdHash uniqueId) startId) node.calls

namespace CyphalNode

theorem call_nodeId (node : CyphalNode Component) (c : Call Component) :
    (node.call env c).nodeId = node.nodeId := by
  cases c with
  | publish publisher payload =>
    simp only [call, publish]
    split_ifs <;> rfl
  | log severity text =>
    simp only [call, log]
    split_ifs
    · rfl
    · split <;> rfl
  | subscribe subjectId extent listener =>
    simp only [call, CyphalNode.nodeId, NodePorts.subscribe]
    split_ifs <;> rfl
  | addServer serviceId extent handler =>
    simp only [call, CyphalNode.nodeId, NodePorts.addServer]
    split_ifs <;> rfl
  | addPublisher publisher =>
    simp only [call, addPublisher]
    split_ifs <;> rfl
  | setHealth health => rfl
  | setMode mode => rfl
  | setVendorStatus status => rfl

theorem callAll_nodeId (calls : List (Call Component)) (node : CyphalNode Component) :
    (node.callAll env calls).nodeId = node.nodeId := by
  induction calls generalizing node with
  | nil => rfl
  | cons c calls ih => exact (ih _).trans (call_nodeId node c)

theorem scheduled_nodeId (schedule : Schedule) (node : CyphalNode Component) :
    CyphalNode.nodeId { node with schedule := schedule } = node.nodeId := rfl

theorem heartbeatDue_nodeId (nowUs : UInt64) (node : CyphalNode Component) :
    (node.heartbeatDue env nowUs).nodeId = node.nodeId := by
  have published : (node.publishHeartbeat env nowUs).nodeId = node.nodeId := by
    unfold publishHeartbeat
    split <;> rfl
  unfold heartbeatDue
  split_ifs
  · exact (scheduled_nodeId _ _).trans published
  · rfl

end CyphalNode

namespace Sound

variable (sound : Sound env uniqueId startId node)
include sound

theorem same {other : CyphalNode Component} (identity : other.uniqueId = node.uniqueId)
    (nodeId : other.nodeId = node.nodeId) (allocation : other.allocation.portId = node.allocation.portId)
    (calls : other.calls = node.calls) : Sound env uniqueId startId other where
  identity := identity.trans sound.identity
  nodeId := by rw [nodeId, calls, sound.nodeId]
  allocation := allocation.trans sound.allocation
  began := calls ▸ sound.began
  guarded := calls ▸ sound.guarded

theorem scheduled (schedule : Schedule) :
    Sound env uniqueId startId { node with schedule := schedule } :=
  sound.same rfl rfl rfl rfl

theorem receive (transfer : Transfer) :
    Sound env uniqueId startId { node with calls := .receive transfer :: node.calls } where
  identity := sound.identity
  nodeId := sound.nodeId
  allocation := sound.allocation
  began := List.cons_ne_nil _ _
  guarded := by
    refine (throughout_cons ..).mpr ⟨?_, sound.guarded⟩
    obtain ⟨last, earlier, calls⟩ := List.exists_cons_of_ne_nil sound.began
    rw [calls]
    trivial

theorem send {transfer : Transfer}
    (guard : node.nodeId = nodeIdUnset → AllocationRequest env (uniqueIdHash uniqueId) transfer) :
    Sound env uniqueId startId (node.send env transfer).2 where
  identity := sound.identity
  nodeId := sound.nodeId
  allocation := sound.allocation
  began := List.cons_ne_nil _ _
  guarded := by
    refine (throughout_cons ..).mpr ⟨?_, sound.guarded⟩
    obtain ⟨last, earlier, calls⟩ := List.exists_cons_of_ne_nil sound.began
    have before := sound.nodeId
    rw [calls] at before ⊢
    intro unset
    exact guard (before.trans unset)

theorem sendNamed (named : node.nodeId ≠ nodeIdUnset) (transfer : Transfer) :
    Sound env uniqueId startId (node.send env transfer).2 :=
  sound.send fun unset => absurd unset named

theorem publish (publisher : Publisher) (payload : List UInt8) :
    Sound env uniqueId startId (node.publish env publisher payload).2.2 := by
  unfold CyphalNode.publish
  split_ifs with refused
  · exact sound
  · simp only [Bool.or_eq_true, decide_eq_true_eq, not_or] at refused
    exact sound.sendNamed refused.2 _

theorem log (severity : Severity) (text : List UInt8) :
    Sound env uniqueId startId (node.log env severity text).2 := by
  unfold CyphalNode.log
  split_ifs with unset
  · exact sound
  · split
    · exact sound
    · exact (sound.sendNamed unset _).same rfl rfl rfl rfl

theorem addPublisher (publisher : Publisher) :
    Sound env uniqueId startId (node.addPublisher publisher).2 := by
  unfold CyphalNode.addPublisher
  split_ifs
  · exact sound
  · exact sound
  · exact sound.same rfl rfl rfl rfl

theorem call (c : Call Component) : Sound env uniqueId startId (node.call env c) := by
  have nodeId := @CyphalNode.call_nodeId Component env node c
  cases c with
  | publish publisher payload => exact sound.publish publisher payload
  | log severity text => exact sound.log severity text
  | subscribe subjectId extent listener => exact sound.same rfl nodeId rfl rfl
  | addServer serviceId extent handler => exact sound.same rfl nodeId rfl rfl
  | addPublisher publisher => exact sound.addPublisher publisher
  | setHealth health => exact sound.same rfl rfl rfl rfl
  | setMode mode => exact sound.same rfl rfl rfl rfl
  | setVendorStatus status => exact sound.same rfl rfl rfl rfl

theorem callAll (calls : List (Call Component)) :
    Sound env uniqueId startId (node.callAll env calls) := by
  induction calls generalizing node with
  | nil => exact sound
  | cons c calls ih => exact ih (sound.call c)

/-! The received transfers. -/

theorem handleRequest (named : node.nodeId ≠ nodeIdUnset) (request : Transfer)
    (reaction : Reaction Component) :
    Sound env uniqueId startId (node.handleRequest env request reaction) := by
  have handled := sound.callAll reaction.handler
  unfold CyphalNode.handleRequest
  split
  · exact handled
  · apply handled.sendNamed
    rw [CyphalNode.callAll_nodeId]
    exact named

theorem handleApplicationRequest (named : node.nodeId ≠ nodeIdUnset) (request : Transfer)
    (reaction : Reaction Component) :
    Sound env uniqueId startId (node.handleApplicationRequest env request reaction) := by
  unfold CyphalNode.handleApplicationRequest
  split
  · exact sound
  · exact sound.handleRequest named request _

/-- The one place that sets the node-ID after the start. -/
theorem handleAllocation {message : Transfer} {before : List TransportCall}
    (received : node.calls = .receive message :: before) (kind : message.kind = .message)
    (subject : message.portId = nodeIdAllocationPort) (reaction : Reaction Component) :
    Sound env uniqueId startId (node.handleAllocation env message reaction) := by
  unfold CyphalNode.handleAllocation
  split_ifs with refused
  · exact sound
  · split
    · rename_i hash nodeId response
      split_ifs with foreign
      · exact sound
      · simp only [Bool.or_eq_true, decide_eq_true_eq, not_or, not_not, UInt16.not_lt] at refused foreign
        obtain ⟨unset, source⟩ := refused
        obtain ⟨own, range⟩ := foreign
        have allocates : Allocates env (uniqueIdHash uniqueId) message nodeId.toUInt8 :=
          ⟨kind, subject, source, nodeId, by rw [response, own, sound.identity], range, rfl⟩
        apply callAll
        refine ⟨sound.identity, rfl, sound.allocation, List.cons_ne_nil _ _, ?_⟩
        refine (throughout_cons ..).mpr ⟨?_, sound.guarded⟩
        have anonymous := sound.nodeId.symm.trans unset
        rw [received] at anonymous ⊢
        exact ⟨anonymous, allocated_valid range, message, rfl, allocates⟩
    · exact sound

theorem onMessage (message : Transfer) (reaction : Reaction Component) :
    Sound env uniqueId startId (node.onMessage env message reaction) := by
  unfold CyphalNode.onMessage
  generalize List.range maxListeners = slots
  induction slots generalizing node with
  | nil => exact sound
  | cons slot slots ih =>
    apply ih
    dsimp only
    split
    · split_ifs
      · exact sound.callAll _
      · exact sound
    · exact sound

theorem dispatch {transfer : Transfer} {before : List TransportCall}
    (received : node.calls = .receive transfer :: before) (reaction : Reaction Component) :
    Sound env uniqueId startId (node.dispatch env transfer reaction) := by
  unfold CyphalNode.dispatch
  split
  · split_ifs with unset
    · exact sound
    · exact sound.handleRequest unset transfer reaction
    · exact sound.handleApplicationRequest unset transfer reaction
  · exact sound
  · rename_i kind
    split_ifs with subject
    · exact sound.handleAllocation received kind subject reaction
    · exact sound.onMessage transfer reaction

/-! The end of a spin. -/

theorem requestNodeId (nowUs : UInt64) :
    Sound env uniqueId startId (node.requestNodeId env nowUs) := by
  unfold CyphalNode.requestNodeId
  split
  · exact sound.scheduled _
  · rename_i payload serialized
    have request : node.nodeId = nodeIdUnset →
        AllocationRequest env (uniqueIdHash uniqueId) (node.message node.allocation payload) := by
      intro unset
      exact ⟨rfl, sound.allocation, unset, rfl, sound.identity ▸ serialized⟩
    have sent : Sound env uniqueId startId
        { (node.publishInternal env node.allocation payload).2.2 with
          allocation := node.allocation.advanced } :=
      (sound.send request).same rfl rfl rfl rfl
    exact sent.scheduled _

theorem publishHeartbeat (named : node.nodeId ≠ nodeIdUnset) (nowUs : UInt64) :
    Sound env uniqueId startId (node.publishHeartbeat env nowUs) := by
  unfold CyphalNode.publishHeartbeat
  split
  · exact sound
  · exact (sound.sendNamed named _).same rfl rfl rfl rfl

theorem publishPortList (named : node.nodeId ≠ nodeIdUnset) :
    Sound env uniqueId startId (node.publishPortList env) := by
  unfold CyphalNode.publishPortList
  split_ifs
  · exact (sound.sendNamed named _).same rfl rfl rfl rfl
  · exact sound

theorem heartbeatDue (named : node.nodeId ≠ nodeIdUnset) (nowUs : UInt64) :
    Sound env uniqueId startId (node.heartbeatDue env nowUs) := by
  unfold CyphalNode.heartbeatDue
  split_ifs
  · exact (sound.publishHeartbeat named nowUs).scheduled _
  · exact sound

theorem portListDue (named : node.nodeId ≠ nodeIdUnset) (nowUs : UInt64) :
    Sound env uniqueId startId (node.portListDue env nowUs) := by
  unfold CyphalNode.portListDue
  split_ifs
  · exact (sound.publishPortList named).scheduled _
  · exact sound

theorem publishDue (nowUs : UInt64) : Sound env uniqueId startId (node.publishDue env nowUs) := by
  unfold CyphalNode.publishDue
  split_ifs with unset
  · exact sound.requestNodeId nowUs
  · exact sound
  · apply (sound.heartbeatDue unset nowUs).portListDue
    rw [CyphalNode.heartbeatDue_nodeId]
    exact unset

theorem receiveAll (received : List (Transfer × Reaction Component)) :
    Sound env uniqueId startId
      (received.foldl (fun node transfer => node.receive env transfer.1 transfer.2) node) := by
  induction received generalizing node with
  | nil => exact sound
  | cons transfer received ih => exact ih ((sound.receive transfer.1).dispatch rfl transfer.2)

theorem spin (nowUs : UInt64) (received : List (Transfer × Reaction Component)) :
    Sound env uniqueId startId (node.spin env nowUs received) := by
  unfold CyphalNode.spin
  split_ifs
  · exact sound
  · exact (sound.receiveAll _).publishDue nowUs

theorem next (e : Event Component) : Sound env uniqueId startId (node.next env e) := by
  cases e with
  | call c => exact sound.call c
  | spin nowUs received => exact sound.spin nowUs received

end Sound

/-! ### Before the start -/

structure Fresh (uniqueId : Vector UInt8 16) (node : CyphalNode Component) : Prop where
  identity : node.uniqueId = uniqueId
  nodeId : node.nodeId = nodeIdUnset
  allocation : node.allocation.portId = nodeIdAllocationPort
  started : node.started = false
  calls : node.calls = []

namespace Fresh

variable (fresh : Fresh uniqueId node)
include fresh

theorem next (e : Event Component) : Fresh uniqueId (node.next env e) := by
  cases e with
  | spin nowUs received =>
    have idle : node.next env (.spin nowUs received) = node := by
      simp only [CyphalNode.next, CyphalNode.spin, fresh.started, Bool.not_false, ↓reduceIte]
    rw [idle]
    exact fresh
  | call c =>
    have nodeId := (@CyphalNode.call_nodeId Component env node c).trans fresh.nodeId
    cases c with
    | publish publisher payload =>
      have refused : node.publish env publisher payload = (false, publisher, node) := by
        unfold CyphalNode.publish
        rw [fresh.nodeId, if_pos (by simp)]
      simp only [CyphalNode.next, CyphalNode.call, refused]
      exact fresh
    | log severity text =>
      have refused : node.log env severity text = (false, node) := if_pos fresh.nodeId
      simp only [CyphalNode.next, CyphalNode.call, refused]
      exact fresh
    | subscribe subjectId extent listener =>
      exact ⟨fresh.identity, nodeId, fresh.allocation, fresh.started, fresh.calls⟩
    | addServer serviceId extent handler =>
      exact ⟨fresh.identity, nodeId, fresh.allocation, fresh.started, fresh.calls⟩
    | addPublisher publisher =>
      simp only [CyphalNode.next, CyphalNode.call, CyphalNode.addPublisher]
      split_ifs
      · exact fresh
      · exact fresh
      · exact ⟨fresh.identity, fresh.nodeId, fresh.allocation, fresh.started, fresh.calls⟩
    | setHealth health =>
      exact ⟨fresh.identity, fresh.nodeId, fresh.allocation, fresh.started, fresh.calls⟩
    | setMode mode =>
      exact ⟨fresh.identity, fresh.nodeId, fresh.allocation, fresh.started, fresh.calls⟩
    | setVendorStatus status =>
      exact ⟨fresh.identity, fresh.nodeId, fresh.allocation, fresh.started, fresh.calls⟩

/-- The node-ID of the start: a larger one than the largest leaves the node anonymous. -/
theorem start (nodeId : UInt8) (nowUs : UInt64) :
    Sound env uniqueId (if nodeId ≤ nodeIdMax then nodeId else nodeIdUnset)
      (node.start env nodeId nowUs).2 where
  identity := fresh.identity
  nodeId := by
    show (if nodeId ≤ nodeIdMax then nodeId else nodeIdUnset) = localNodeId (_ :: _)
    unfold localNodeId
    split_ifs <;> rfl
  allocation := fresh.allocation
  began := List.cons_ne_nil _ _
  guarded := by
    refine (throughout_cons ..).mpr ?_
    rw [fresh.calls]
    exact ⟨rfl, throughout_nil _⟩

end Fresh

theorem unstarted_fresh (setup : List (Event Component)) :
    Fresh uniqueId ((unstarted env uniqueId).replay setup) :=
  Machine.stays (Fresh uniqueId) ⟨rfl, rfl, rfl, rfl, rfl⟩ (fun _ e fresh => fresh.next e) setup

theorem started_sound (setup : List (Event Component)) (nodeId : UInt8) (nowUs : UInt64)
    (trace : List (Event Component)) :
    Sound env uniqueId (if nodeId ≤ nodeIdMax then nodeId else nodeIdUnset)
      ((started env uniqueId setup nodeId nowUs).replay trace) :=
  Machine.stays (Sound env uniqueId _) ((unstarted_fresh setup).start nodeId nowUs)
    (fun _ e sound => sound.next e) trace

end Sound

/-! ### The same node in the models of the drive -/

section Views

variable {Component F : Type} {env : Environment} (node : CyphalNode Component)

theorem handleAllocation_allocated {drive : Cyphal.CyphalNode F} {received : Cyphal.Transfer F}
    {message : Transfer} (sameId : drive.nodeId = node.nodeId)
    (sameHash : drive.uniqueIdHash = uniqueIdHash node.uniqueId)
    (source : received.sourceNodeId = message.sourceNodeId)
    (read : received.payload.allocation = env.deserializeAllocation message.payload)
    (reaction : Reaction Component) :
    (node.handleAllocation env message reaction).nodeId =
      (drive.allocated received).getD node.nodeId := by
  unfold CyphalNode.handleAllocation Cyphal.CyphalNode.allocated
  rw [sameId, sameHash, source, read]
  simp only [Bool.or_eq_true, decide_eq_true_eq]
  by_cases refused : node.nodeId ≠ nodeIdUnset ∨ message.sourceNodeId = nodeIdUnset
  · rw [if_pos refused, if_pos refused]
    rfl
  · rw [if_neg refused, if_neg refused]
    cases env.deserializeAllocation message.payload with
    | none => rfl
    | some response =>
      obtain ⟨hash, nodeIds⟩ := response
      rcases nodeIds with _ | ⟨nodeId, _ | ⟨other, more⟩⟩
      · rfl
      · dsimp only
        by_cases foreign : hash ≠ uniqueIdHash node.uniqueId ∨ nodeIdMax.toUInt16 < nodeId
        · rw [if_pos foreign, if_pos foreign]
          rfl
        · rw [if_neg foreign, if_neg foreign, CyphalNode.callAll_nodeId]
          exact if_pos (allocated_valid (UInt16.not_lt.mp (not_or.mp foreign).2))
      · rfl

theorem onMessage_unheard {message : Transfer} (reaction : Reaction Component)
    (unheard : ∀ listener ∈ node.ports.listeners, listener.1 ≠ message.portId) :
    node.onMessage env message reaction = node := by
  unfold CyphalNode.onMessage
  induction List.range maxListeners with
  | nil => rfl
  | cons slot slots ih =>
    rw [List.foldl_cons]
    cases entry : node.ports.listeners[slot]? with
    | none => exact ih
    | some listener =>
      have other := unheard listener (List.mem_of_getElem? entry)
      simp only [if_neg other]
      exact ih

/-- What the tables deliver to nobody leaves the node as it is. -/
theorem dispatch_undelivered {transfer : Transfer} (reaction : Reaction Component)
    (undelivered : node.ports.dispatch transfer.kind transfer.portId = []) :
    node.dispatch env transfer reaction = node := by
  unfold NodePorts.dispatch at undelivered
  unfold CyphalNode.dispatch
  cases kind : transfer.kind with
  | serviceResponse => rfl
  | serviceRequest =>
    rw [kind] at undelivered
    dsimp only at undelivered ⊢
    split_ifs at undelivered with unset getInfo registerList registerAccess executeCommand
    · exact if_pos unset
    · have foreign : servedServices.contains transfer.portId = false := by
        simp [servedServices, getInfo, registerList, registerAccess, executeCommand]
      have unserved : node.ports.servers.find? (·.1 = transfer.portId) = none := by
        simpa using undelivered
      have named : node.nodeId ≠ nodeIdUnset := unset
      rw [if_neg named, foreign, if_neg Bool.false_ne_true]
      unfold CyphalNode.handleApplicationRequest
      rw [unserved]
  | message =>
    rw [kind] at undelivered
    dsimp only at undelivered ⊢
    split_ifs at undelivered with allocation
    rw [if_neg allocation]
    apply onMessage_unheard
    simpa using undelivered

theorem heartbeatDue_schedule (nowUs : UInt64) :
    (node.heartbeatDue env nowUs).schedule = (node.schedule.heartbeat nowUs).2 := by
  have kept : (node.publishHeartbeat env nowUs).schedule = node.schedule := by
    unfold CyphalNode.publishHeartbeat
    split <;> rfl
  unfold CyphalNode.heartbeatDue Schedule.heartbeat
  split_ifs
  · dsimp only
    rw [kept]
  · rfl

theorem portListDue_schedule (nowUs : UInt64) :
    (node.portListDue env nowUs).schedule = (node.schedule.publishPortList nowUs).2 := by
  have kept : (node.publishPortList env).schedule = node.schedule := by
    unfold CyphalNode.publishPortList
    split_ifs <;> rfl
  unfold CyphalNode.portListDue Schedule.publishPortList
  split_ifs
  · dsimp only
    rw [kept]
  · rfl

/-- Whatever the serializers and the transport make of it, the node keeps its schedule. -/
theorem publishDue_schedule (nowUs : UInt64) :
    (node.publishDue env nowUs).schedule = (node.schedule.spin node.nodeId nowUs).2 := by
  unfold CyphalNode.publishDue Schedule.spin
  by_cases unset : node.nodeId = nodeIdUnset
  · rw [if_pos unset, if_pos unset]
    unfold CyphalNode.requestNodeId Schedule.requestNodeId
    split_ifs
    · split <;> rfl
    · rfl
  · rw [if_neg unset, if_neg unset, portListDue_schedule, heartbeatDue_schedule]

end Views

/-- In every run an anonymous node sends allocation requests only, and its node-ID changes at
most once, by an allocation message for its own unique-ID. -/
theorem anonymous_until_allocated {Component : Type} (env : Environment) (uniqueId : Vector UInt8 16)
    (setup : List (Event Component)) (nodeId : UInt8) (nowUs : UInt64) (trace : List (Event Component)) :
    let node := (started env uniqueId setup nodeId nowUs).replay trace
    node.nodeId = localNodeId node.calls ∧
      PlugAndPlay env (uniqueIdHash uniqueId) (if nodeId ≤ nodeIdMax then nodeId else nodeIdUnset)
        node.calls := by
  have sound := @started_sound Component env uniqueId setup nodeId nowUs trace
  exact ⟨sound.nodeId, plugAndPlay_of_guarded sound.guarded⟩

end Unimoc.Cyphal.Wire
