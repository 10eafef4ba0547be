import Unimoc.Drive.CommandSettings
import Unimoc.Drive.Ports
import Unimoc.Settings.NodeId

/-! The callback of a plug-and-play allocation: the node-ID in use, the live settings and the
readiness subject that follows the node-ID. -/
namespace Unimoc.Drive

open Cyphal Firmware Settings

/-! ### The readiness subject of a node-ID -/

/-- The subjects of the settings but the readiness, in the order of the validation. -/
def otherSubjects : List Register := [
  .subCurrentSetpointId, .subTorqueSetpointId, .subSpeedSetpointId, .subPositionSetpointId,
  .subServoSetpointId, .pubTelemetryId, .subWheelCommandId, .subPedalStateId, .subBatteryStatusId,
  .pubDriveStatusId, .pubCommissioningId, .pubHomingStateId]

theorem derived_nat {nodeId : UInt8} (range : nodeId ≤ 127) :
    (subReadinessBase + nodeId.toUInt16).toNat = 1024 + nodeId.toNat := by
  have small : nodeId.toNat ≤ 127 := UInt8.le_iff_toNat_le.mp range
  rw [UInt16.toNat_add, UInt8.toNat_toUInt16]
  exact Nat.mod_eq_of_lt (by show 1024 + nodeId.toNat < 65536; omega)

theorem derived_enabled {nodeId : UInt8} (range : nodeId ≤ 127) :
    subReadinessBase + nodeId.toUInt16 ≠ unsetPortId := by
  have small : nodeId.toNat ≤ 127 := UInt8.le_iff_toNat_le.mp range
  have value := derived_nat range
  intro unset
  rw [unset] at value
  have top : unsetPortId.toNat = 65535 := rfl
  omega

def crowded (s : NvmSettings) (readiness : UInt16) : Bool :=
  let subjects := readiness :: otherSubjects.map s.natural16
  let onSubject (port : UInt16) := port ≠ unsetPortId && subjects.contains port
  hasDuplicatePort subjects || hasDuplicatePort (servicePorts.map s.natural16) ||
    onSubject (s.natural16 .pubCymonTriggerId) || onSubject (s.natural16 .subCymonTriggerId)

theorem collision_crowded (s : NvmSettings) :
    hasPortIdCollision s = crowded s
      (if s.natural8 .nodeId = 0 ∧ s.natural16 .subReadinessId = readinessFollowsNodeId then unsetPortId
      else effectiveReadinessId (s.natural16 .subReadinessId) (s.natural8 .nodeId)) := rfl

theorem crowded_nodeId (s : NvmSettings) (nodeId : UInt8) (readiness : UInt16) :
    crowded (s.set .nodeId nodeId) readiness = crowded s readiness := by
  have same : (s.set .nodeId nodeId).natural16 = s.natural16 :=
    funext fun r => NvmSettings.natural16_nodeId s nodeId r
  unfold crowded
  rw [same]

theorem crowded_iff {s : NvmSettings} {readiness : UInt16} :
    crowded s readiness = false ↔
      (((∀ other ∈ otherSubjects.map s.natural16, Apart readiness other) ∧
        (otherSubjects.map s.natural16).Pairwise Apart) ∧
        (servicePorts.map s.natural16).Pairwise Apart) ∧
        (Apart (s.natural16 .pubCymonTriggerId) readiness ∧
          ∀ other ∈ otherSubjects.map s.natural16, Apart (s.natural16 .pubCymonTriggerId) other) ∧
        Apart (s.natural16 .subCymonTriggerId) readiness ∧
          ∀ other ∈ otherSubjects.map s.natural16, Apart (s.natural16 .subCymonTriggerId) other := by
  unfold crowded
  dsimp only
  rw [Bool.or_eq_false_iff, Bool.or_eq_false_iff, Bool.or_eq_false_iff, apart_pairwise, apart_pairwise,
    apart_iff, apart_iff, List.pairwise_cons, List.forall_mem_cons, List.forall_mem_cons, and_assoc, and_assoc]

def configuredSubjects : List Register := otherSubjects ++ [Register.pubCymonTriggerId, .subCymonTriggerId]

theorem crowded_enabled {s : NvmSettings} {readiness : UInt16} (uncrowded : crowded s unsetPortId = false)
    (enabled : readiness ≠ unsetPortId) :
    crowded s readiness = false ↔ readiness ∉ configuredSubjects.map s.natural16 := by
  rw [crowded_iff] at uncrowded ⊢
  obtain ⟨⟨⟨-, others⟩, services⟩, ⟨-, published⟩, -, subscribed⟩ := uncrowded
  rw [configuredSubjects, List.map_append, List.mem_append, not_or]
  simp only [List.map_cons, List.map_nil, List.mem_cons, List.not_mem_nil, or_false, not_or]
  constructor
  · rintro ⟨⟨⟨apart, -⟩, -⟩, ⟨pub, -⟩, sub, -⟩
    refine ⟨fun inside => ?_, ?_, ?_⟩
    · exact (apart readiness inside).elim enabled fun differ => differ rfl
    · exact fun same => pub.elim (fun unset => enabled (same.trans unset)) fun differ => differ same.symm
    · exact fun same => sub.elim (fun unset => enabled (same.trans unset)) fun differ => differ same.symm
  · rintro ⟨free, pub, sub⟩
    refine ⟨⟨⟨fun other inside => .inr ?_, others⟩, services⟩, ⟨.inr (Ne.symm pub), published⟩,
      .inr (Ne.symm sub), subscribed⟩
    rintro rfl
    exact free inside

/-- The subject a node-ID gives a readiness that follows it is no other subject. -/
def DerivedFree (s : NvmSettings) (nodeId : UInt8) : Prop :=
  s.natural16 .subReadinessId = readinessFollowsNodeId →
    subReadinessBase + nodeId.toUInt16 ∉ configuredSubjects.map s.natural16

theorem collision_set (s : NvmSettings) {nodeId : UInt8} (assigned : nodeId ≠ 0) :
    hasPortIdCollision (s.set .nodeId nodeId) =
      crowded s (effectiveReadinessId (s.natural16 .subReadinessId) nodeId) := by
  rw [collision_crowded, crowded_nodeId, NvmSettings.nodeId_set, NvmSettings.natural16_nodeId,
    if_neg fun waits => assigned waits.1]

theorem crowded_derived {s : NvmSettings} {nodeId : UInt8} (distinct : hasPortIdCollision s = false)
    (anonymous : s.natural8 .nodeId = 0) (range : nodeId ≤ nodeIdMax) :
    crowded s (effectiveReadinessId (s.natural16 .subReadinessId) nodeId) = false ↔ DerivedFree s nodeId := by
  rw [collision_crowded, anonymous] at distinct
  simp only [true_and] at distinct
  unfold effectiveReadinessId at distinct ⊢
  by_cases follows : s.natural16 .subReadinessId = readinessFollowsNodeId
  · have low : nodeId ≤ 127 := range
    simp only [follows, ne_eq, not_true_eq_false, ↓reduceIte, low] at distinct ⊢
    rw [crowded_enabled distinct (derived_enabled range), DerivedFree]
    simp only [follows, true_imp_iff]
  · simp only [follows, ne_eq, not_false_eq_true, ↓reduceIte] at distinct ⊢
    exact iff_of_true distinct fun following => absurd following follows

def nodeSubjects : List UInt16 := nodeIdAllocationPort :: ownSubjects

theorem apart_node (port : UInt16) : (∀ own ∈ nodeSubjects, Apart port own) ↔ port ∉ nodeSubjects := by
  constructor
  · intro apart inside
    rcases apart port inside with unset | differ
    · rw [unset] at inside
      exact absurd inside (by decide)
    · exact differ rfl
  · intro outside own inside
    refine .inr ?_
    rintro rfl
    exact outside inside

theorem effective_node {configured : UInt16} {nodeId : UInt8} (range : nodeId ≤ nodeIdMax) :
    effectiveReadinessId configured nodeId ∉ nodeSubjects ↔ configured ∉ nodeSubjects := by
  unfold effectiveReadinessId
  by_cases follows : configured ≠ readinessFollowsNodeId
  · rw [if_pos follows]
  · have low : nodeId ≤ 127 := range
    have small : nodeId.toNat ≤ 127 := UInt8.le_iff_toNat_le.mp range
    have value := derived_nat range
    rw [not_not.mp follows, if_neg (not_not.mpr rfl), if_pos low]
    refine iff_of_true (fun inside => ?_) (by decide)
    have listed : ∀ own ∈ nodeSubjects, 7000 ≤ own.toNat := by
      intro own inside
      simp only [nodeSubjects, ownSubjects, List.mem_cons, List.not_mem_nil, or_false] at inside
      rcases inside with rfl | rfl | rfl | rfl
      all_goals exact Nat.le_of_ble_eq_true rfl
    have high := listed _ inside
    omega

theorem apart_free {s : NvmSettings} {readiness : UInt16} (uncrowded : crowded s readiness = false) :
    (readiness :: (configuredSubjects.map s.natural16 ++ nodeSubjects)).Pairwise Apart ↔
      Apart (s.natural16 .pubCymonTriggerId) (s.natural16 .subCymonTriggerId) ∧
        readiness ∉ nodeSubjects ∧ ∀ r ∈ configuredSubjects, s.natural16 r ∉ nodeSubjects := by
  obtain ⟨⟨⟨first, others⟩, -⟩, ⟨pubFirst, pub⟩, subFirst, sub⟩ := crowded_iff.mp uncrowded
  have own : nodeSubjects.Pairwise Apart := by
    unfold Apart
    decide
  have triggers : (configuredSubjects.map s.natural16).Pairwise Apart ↔
      Apart (s.natural16 .pubCymonTriggerId) (s.natural16 .subCymonTriggerId) := by
    rw [configuredSubjects, List.map_append, List.pairwise_append]
    simp only [List.map_cons, List.map_nil, List.pairwise_cons, List.mem_cons, List.not_mem_nil, or_false,
      forall_eq, false_imp_iff, implies_true, List.Pairwise.nil, and_true, forall_eq_or_imp]
    constructor
    · exact fun apart => apart.2.1
    · exact fun apart => ⟨others, apart, fun a inside => ⟨(pub a inside).symm, (sub a inside).symm⟩⟩
  have readiness_apart : ∀ a ∈ configuredSubjects.map s.natural16, Apart readiness a := by
    rw [configuredSubjects, List.map_append]
    intro a inside
    rcases List.mem_append.mp inside with other | trigger
    · exact first a other
    · rcases List.mem_cons.mp trigger with rfl | trigger
      · exact pubFirst.symm
      · rw [List.mem_singleton.mp trigger]
        exact subFirst.symm
  rw [List.pairwise_cons, List.pairwise_append, List.forall_mem_append, triggers]
  simp only [apart_node, List.forall_mem_map]
  constructor
  · rintro ⟨⟨-, alone⟩, apart, -, outside⟩
    exact ⟨apart, alone, outside⟩
  · rintro ⟨apart, alone, outside⟩
    exact ⟨⟨List.forall_mem_map.mp readiness_apart, alone⟩, apart, own, outside⟩

/-! ### The tables have room for the readiness -/

theorem bootPorts_room {links : Linking} (linked : ∀ kind portId extent, links kind portId extent = true)
    (extents : Extents) (s : NvmSettings) (subjectId : UInt16) (extent : Nat) :
    ((bootPorts links extents s).subscribe links subjectId extent Component.drive).1 = true := by
  have services := NodePorts.constructed.addServers_grows links Component.trace
    (servicePorts.map fun r => (s.natural16 r, extents.trace r))
  have trigger := (traceServers links extents s .constructed).2.subscribe_grows links
    Component.trace (PortHandler.port s .trigger) (extents.message .trigger)
  change (traceStart links extents s .constructed).2.listeners.length ≤ _ ∧
    (traceStart links extents s .constructed).2.subscriptions.length ≤ _ at trigger
  have subjects := (traceStart links extents s .constructed).2.subscribeAll_grows links
    Component.drive (PortHandler.drive.map fun handler => (handler.port s, extents.message handler))
  have started := ((traceStart links extents s .constructed).2.subscribeAll links .drive
    (PortHandler.drive.map fun handler => (handler.port s, extents.message handler))).2.start_grows
      links extents.standard (startNodeId s)
  change (bootPorts links extents s).listeners = _ ∧ (bootPorts links extents s).subscriptions.length ≤ _ at started
  change (traceServers links extents s .constructed).2.listeners = [] ∧
    (traceServers links extents s .constructed).2.subscriptions.length ≤ 5 at services
  rw [services.1] at trigger
  simp only [List.length_nil, List.length_map] at trigger subjects
  have nine : PortHandler.drive.length = 9 := rfl
  have room : ¬maxListeners ≤ (bootPorts links extents s).listeners.length := by
    rw [started.1]
    simp only [maxListeners]
    omega
  have slots : (bootPorts links extents s).subscriptions.length < maxSubscriptions := by
    simp only [maxSubscriptions]
    omega
  unfold NodePorts.subscribe
  split_ifs
  · rfl
  · dsimp only
    rw [(CanardTransport.subscribe_linked .message subjectId extent linked slots).1]
    rfl

/-! ### The callback -/

namespace System

variable {F E : Type} [Arithmetic F] {s : System F E} {nodeId : UInt8}

/-- The node-ID and the subjects in use, and the live settings. -/
structure Uses (s : System F E) (nodeId : UInt8) (port : PortHandler → UInt16) (listeners : List UInt16)
    (live : NvmSettings) : Prop where
  nodeId : s.node.nodeId = nodeId
  port : s.port = port
  listeners : s.node.listeners = listeners
  live : s.board.store.settings = live

theorem Uses.log {port : PortHandler → UInt16} {listeners : List UInt16} {live : NvmSettings}
    (uses : s.Uses nodeId port listeners live) (severity : Severity) (text : String) :
    (s.log severity text).Uses nodeId port listeners live := by
  obtain ⟨rfl, rfl, rfl, rfl⟩ := uses
  unfold System.log CyphalNode.log
  split <;> exact ⟨rfl, rfl, rfl, rfl⟩

theorem Uses.saveToFlash {port : PortHandler → UInt16} {listeners : List UInt16} {live : NvmSettings}
    (uses : s.Uses nodeId port listeners live) : s.saveToFlash.2.Uses nodeId port listeners live :=
  ⟨uses.nodeId, uses.port, uses.listeners,
    (CommandSettings.saveToFlash_settings s.board).trans uses.live⟩

/-- The live settings take the node-ID where they pass the validation with it. -/
theorem Uses.named {port : PortHandler → UInt16} {listeners : List UInt16} {live : NvmSettings}
    (uses : s.Uses nodeId port listeners live) (allocated : UInt8) :
    { s with board := (s.board.change .nodeId (s.board.store.setNodeId allocated)).2 : System F E }.Uses
      nodeId port listeners
      (if validate (live.set .nodeId allocated) s.board.store.capabilities = .success then
        live.set .nodeId allocated else live) := by
  obtain ⟨rfl, rfl, rfl, rfl⟩ := uses
  refine ⟨rfl, rfl, rfl, ?_⟩
  unfold SettingsStore.setNodeId SettingsStore.update
  obtain committed | ⟨status, refused, unchanged⟩ :=
    SettingsStore.commit_cases s.board.store (s.board.store.settings.set .nodeId allocated)
  · rw [committed, if_pos (SettingsStore.commit_success committed)]
    rfl
  · have rejected : validate (s.board.store.settings.set .nodeId allocated) s.board.store.capabilities ≠
        .success := by
      intro accepted
      unfold SettingsStore.commit at unchanged
      rw [accepted] at unchanged
      exact refused (congrArg Prod.fst unchanged).symm
    rw [unchanged, if_neg rejected]
    cases status with
    | success => exact absurd rfl refused
    | _ => rfl

/-- An anonymous drive uses the ports its start took from the live settings, and the next
subscription is answered from the tables of the node. -/
structure Waiting (s : System F E) (links : Linking) (extents : Extents) : Prop where
  anonymous : s.board.store.settings.natural8 .nodeId = 0
  accepted : validate s.board.store.settings s.board.store.capabilities = .success
  ports : ∀ handler ∈ PortHandler.drive, s.port handler = handler.port s.board.store.settings
  listens : s.readinessPort ≠ unsetPortId → s.readinessPort ∈ s.node.listeners
  answers : ∀ subjectId, s.node.subscriptions.headD true =
    ((bootPorts links extents s.board.store.settings).subscribe links subjectId
      (extents.message .readiness) .drive).1

omit [Arithmetic F] in
theorem allocated_range {node : CyphalNode F} {transfer : Transfer F}
    (allocated : node.allocated transfer = some nodeId) : nodeId ≤ nodeIdMax := by
  unfold CyphalNode.allocated at allocated
  split at allocated
  · cases allocated
  · split at allocated
    · rename_i given _
      split at allocated
      · cases allocated
      · rename_i valid
        obtain rfl := Option.some.inj allocated
        simp only [Bool.or_eq_true, decide_eq_true_eq, not_or] at valid
        have small : given.toNat ≤ 127 := UInt16.le_iff_toNat_le.mp (UInt16.not_lt.mp valid.2)
        rw [UInt8.le_iff_toNat_le, UInt16.toNat_toUInt8]
        exact (Nat.mod_le _ _).trans small
    · cases allocated

omit [Arithmetic F] in
theorem subscribe_taken (node : CyphalNode F) (taken : node.subscriptions.headD true = true)
    (subjectId : UInt16) :
    ∃ listeners subscriptions, node.subscribe subjectId =
        (true, { node with listeners := listeners, subscriptions := subscriptions }) ∧
      (subjectId ≠ unsetPortId → subjectId ∈ listeners) := by
  unfold CyphalNode.subscribe
  by_cases unset : subjectId = unsetPortId
  · rw [if_pos unset]
    exact ⟨node.listeners, node.subscriptions, rfl, fun enabled => absurd unset enabled⟩
  · rw [if_neg unset, taken]
    exact ⟨node.listeners ++ [subjectId], node.subscriptions.tail, rfl, fun _ => by simp⟩

theorem effective_kept {configured : UInt16} (nodeId : UInt8)
    (subscribed : effectiveReadinessId configured nodeIdUnset ≠ unsetPortId) :
    effectiveReadinessId configured nodeId = effectiveReadinessId configured nodeIdUnset := by
  unfold effectiveReadinessId at subscribed ⊢
  by_cases follows : configured ≠ readinessFollowsNodeId
  · rw [if_pos follows, if_pos follows]
  · rw [if_neg follows] at subscribed
    exact absurd rfl subscribed

def portWith (s : System F E) (nodeId : UInt8) : PortHandler → UInt16
  | .readiness => effectiveReadinessId (s.board.store.settings.natural16 .subReadinessId) nodeId
  | handler => s.port handler

variable {links : Linking} {extents : Extents}

theorem Waiting.readiness (waiting : s.Waiting links extents) :
    s.readinessPort = effectiveReadinessId (s.board.store.settings.natural16 .subReadinessId) nodeIdUnset := by
  have port := waiting.ports .readiness (by decide)
  unfold PortHandler.port startNodeId at port
  rwa [if_pos waiting.anonymous] at port

theorem Waiting.subscribes (waiting : s.Waiting links extents)
    (linked : ∀ kind portId extent, links kind portId extent = true) (range : nodeId ≤ nodeIdMax) :
    ∃ listeners,
      (({ s with node := s.node.setNodeId nodeId } : System F E).subscribeReadiness nodeId).Uses nodeId
        (s.portWith nodeId) listeners s.board.store.settings ∧
      (s.portWith nodeId .readiness ≠ unsetPortId → s.portWith nodeId .readiness ∈ listeners) := by
  have taken : s.node.subscriptions.headD true = true :=
    (waiting.answers 0).trans (bootPorts_room linked extents _ _ _)
  have named : (s.node.setNodeId nodeId).nodeId = nodeId := if_pos range
  have merged (readiness : UInt16) (same : s.portWith nodeId .readiness = readiness) :
      ({ s with readinessPort := readiness } : System F E).port = s.portWith nodeId := by
    funext handler
    cases handler with
    | readiness => exact same.symm
    | _ => rfl
  unfold subscribeReadiness
  by_cases waits : s.readinessPort = unsetPortId
  · rw [if_pos waits]
    obtain ⟨listeners, subscriptions, subscribed, listens⟩ :=
      subscribe_taken (s.node.setNodeId nodeId) taken (s.portWith nodeId .readiness)
    refine ⟨listeners, ?_, listens⟩
    have answered : ({ s with node := s.node.setNodeId nodeId } : System F E).node.subscribe
        (effectiveReadinessId (s.board.store.settings.natural16 .subReadinessId) nodeId) = _ := subscribed
    dsimp only at answered ⊢
    rw [answered]
    exact ⟨named, merged _ rfl, rfl, rfl⟩
  · have kept : s.portWith nodeId .readiness = s.readinessPort := by
      rw [waiting.readiness] at waits ⊢
      exact effective_kept nodeId waits
    rw [if_neg waits]
    refine ⟨s.node.listeners, ⟨named, merged s.readinessPort kept, rfl, rfl⟩, fun enabled => ?_⟩
    rw [kept] at enabled ⊢
    exact waiting.listens enabled

theorem subscribeReadiness_board (s : System F E) (nodeId : UInt8) :
    (s.subscribeReadiness nodeId).board = s.board := by
  unfold subscribeReadiness
  split
  · dsimp only
    split <;> rfl
  · rfl

/-- The callback names the node in any case, the live settings only where they stay valid. -/
theorem Waiting.allocates (waiting : s.Waiting links extents)
    (linked : ∀ kind portId extent, links kind portId extent = true) {transfer : Transfer F}
    (allocated : s.node.allocated transfer = some nodeId) :
    ∃ listeners,
      (s.onAllocation transfer).Uses nodeId (s.portWith nodeId) listeners
        (if validate (s.board.store.settings.set .nodeId nodeId) s.board.store.capabilities = .success then
          s.board.store.settings.set .nodeId nodeId else s.board.store.settings) ∧
      (s.portWith nodeId .readiness ≠ unsetPortId → s.portWith nodeId .readiness ∈ listeners) := by
  obtain ⟨listeners, subscribed, listens⟩ := waiting.subscribes linked (allocated_range allocated)
  refine ⟨listeners, ?_, listens⟩
  have store := congrArg (·.store.capabilities) (subscribeReadiness_board
    { s with node := s.node.setNodeId nodeId } nodeId)
  unfold onAllocation
  rw [allocated]
  dsimp only at store ⊢
  unfold onNodeIdAllocated
  generalize ({ s with node := s.node.setNodeId nodeId } : System F E).subscribeReadiness nodeId = t
    at subscribed store
  have named := subscribed.named nodeId
  rw [store] at named
  dsimp only
  generalize t.board.change .nodeId (t.board.store.setNodeId nodeId) = answer at named ⊢
  obtain ⟨status, board⟩ := answer
  dsimp only at named ⊢
  by_cases taken : status = .success
  · rw [if_pos taken]
    have saved := named.saveToFlash
    generalize ({ t with board := board } : System F E).saveToFlash = kept at saved ⊢
    obtain ⟨result, u⟩ := kept
    dsimp only at saved ⊢
    by_cases done : result = .success
    · rw [if_pos done]
      have logged := saved.log .info "node-ID allocated and saved"
      exact ⟨logged.nodeId, logged.port, logged.listeners, logged.live⟩
    · rw [if_neg done]
      exact ⟨saved.nodeId, saved.port, saved.listeners, saved.live⟩
  · rw [if_neg taken]
    dsimp only
    rw [if_neg taken]
    exact ⟨named.nodeId, named.port, named.listeners, named.live⟩

/-! ### What is consistent afterwards -/

/-- The subjects of the ports of a drive, enabled or not: those it was started with, and those
of the node. -/
def subjectsInUse (s : System F E) : List UInt16 :=
  let live := s.board.store.settings
  [s.port .readiness, s.port .currentSetpoint, s.port .torqueSetpoint, s.port .speedSetpoint,
    s.port .positionSetpoint, s.port .servoSetpoint, live.natural16 .pubTelemetryId,
    s.port .wheelCommand, s.port .pedalState, s.port .batteryStatus, live.natural16 .pubDriveStatusId,
    live.natural16 .pubCommissioningId, live.natural16 .pubHomingStateId,
    live.natural16 .pubCymonTriggerId, live.natural16 .subCymonTriggerId] ++ nodeSubjects

structure Consistent (s : System F E) : Prop where
  nodeId : s.node.nodeId = s.board.store.settings.natural8 .nodeId
  /-- What a restart would subscribe. -/
  readiness : s.readinessPort = PortHandler.readiness.port s.board.store.settings
  listens : s.readinessPort ≠ unsetPortId → s.readinessPort ∈ s.node.listeners
  apart : s.subjectsInUse.Pairwise Apart

/-- The subject that the node-ID gives the readiness is free; beyond what the validation asks
for, the trigger is published and subscribed on two subjects and no port is one of the node's. -/
structure PortsFree (live : NvmSettings) (nodeId : UInt8) : Prop where
  derived : DerivedFree live nodeId
  trigger : Apart (live.natural16 .pubCymonTriggerId) (live.natural16 .subCymonTriggerId)
  own : ∀ r ∈ Register.subReadinessId :: configuredSubjects, live.natural16 r ∉ nodeSubjects

theorem Uses.subjectsInUse {live : NvmSettings} {t : System F E} {listeners : List UInt16}
    (uses : t.Uses nodeId (s.portWith nodeId) listeners live)
    (same : live.natural16 = s.board.store.settings.natural16)
    (ports : ∀ handler ∈ PortHandler.drive, s.port handler = handler.port s.board.store.settings) :
    t.subjectsInUse = s.portWith nodeId .readiness ::
      (configuredSubjects.map s.board.store.settings.natural16 ++ nodeSubjects) := by
  have taken (handler : PortHandler) (listed : handler ∈ PortHandler.drive) (other : handler ≠ .readiness) :
      t.port handler = handler.port s.board.store.settings := by
    rw [uses.port, ← ports handler listed]
    cases handler with
    | readiness => exact absurd rfl other
    | _ => rfl
  unfold System.subjectsInUse
  dsimp only
  rw [uses.live, same, congrFun uses.port .readiness, taken .currentSetpoint, taken .torqueSetpoint,
    taken .speedSetpoint, taken .positionSetpoint, taken .servoSetpoint,
    taken .wheelCommand, taken .pedalState, taken .batteryStatus]
  · rfl
  all_goals decide

/-- After an allocation everything is consistent exactly where the subjects are free. -/
theorem allocation_consistent (waiting : s.Waiting links extents)
    (linked : ∀ kind portId extent, links kind portId extent = true) {transfer : Transfer F}
    (allocated : s.node.allocated transfer = some nodeId) (assigned : nodeId ≠ 0) :
    (s.onAllocation transfer).Consistent ↔ PortsFree s.board.store.settings nodeId := by
  have range := allocated_range allocated
  obtain ⟨listeners, uses, listens⟩ := waiting.allocates linked allocated
  have distinct := (validate_accepted waiting.accepted).distinct
  have derived := crowded_derived distinct waiting.anonymous range
  rw [validate_nodeId waiting.accepted range, collision_set _ assigned] at uses
  have same : (s.board.store.settings.set .nodeId nodeId).natural16 = s.board.store.settings.natural16 :=
    funext fun r => NvmSettings.natural16_nodeId _ nodeId r
  by_cases free : DerivedFree s.board.store.settings nodeId
  · have uncrowded := derived.mpr free
    rw [uncrowded] at uses
    have used : (s.onAllocation transfer).Uses nodeId (s.portWith nodeId) listeners
      (s.board.store.settings.set .nodeId nodeId) := uses
    have port : (s.onAllocation transfer).readinessPort = s.portWith nodeId .readiness :=
      congrFun used.port .readiness
    have subjects := used.subjectsInUse same waiting.ports
    have apart := apart_free uncrowded
    rw [effective_node range] at apart
    constructor
    · intro consistent
      obtain ⟨trigger, readiness, outside⟩ := apart.mp (subjects ▸ consistent.apart)
      exact ⟨free, trigger, List.forall_mem_cons.mpr ⟨readiness, outside⟩⟩
    · intro ports
      obtain ⟨readiness, outside⟩ := List.forall_mem_cons.mp ports.own
      refine ⟨?_, ?_, ?_, ?_⟩
      · rw [used.nodeId, used.live, NvmSettings.nodeId_set]
      · rw [port, used.live]
        unfold PortHandler.port startNodeId
        rw [NvmSettings.nodeId_set, if_neg assigned, NvmSettings.natural16_nodeId]
        rfl
      · rw [port, used.listeners]
        exact listens
      · rw [subjects]
        exact apart.mpr ⟨ports.trigger, readiness, outside⟩
  · have crowd : crowded s.board.store.settings
        (effectiveReadinessId (s.board.store.settings.natural16 .subReadinessId) nodeId) = true := by
      rw [← Bool.not_eq_false]
      exact fun uncrowded => free (derived.mp uncrowded)
    rw [crowd] at uses
    refine iff_of_false (fun consistent => ?_) fun ports => free ports.derived
    have named := consistent.nodeId
    rw [uses.nodeId, uses.live] at named
    exact assigned (named.trans waiting.anonymous)

/-! ### The start of an anonymous drive -/

omit [Arithmetic F] in
theorem subscribe_kept (node : CyphalNode F) (answered : ∀ answer ∈ node.subscriptions, answer = true)
    (subjectId : UInt16) :
    (∀ answer ∈ (node.subscribe subjectId).2.subscriptions, answer = true) ∧
      ∀ listened ∈ node.listeners, listened ∈ (node.subscribe subjectId).2.listeners := by
  unfold CyphalNode.subscribe
  split_ifs
  · exact ⟨answered, fun _ inside => inside⟩
  · exact ⟨fun answer inside => answered answer (List.mem_of_mem_tail inside), fun _ inside => inside⟩
  · exact ⟨fun answer inside => answered answer (List.mem_of_mem_tail inside),
      fun _ inside => List.mem_append_left _ inside⟩

omit [Arithmetic F] in
theorem subscribes_kept (ports : List UInt16) {node : CyphalNode F}
    (answered : ∀ answer ∈ node.subscriptions, answer = true) :
    (∀ answer ∈ (ports.foldl (fun node port => (node.subscribe port).2) node).subscriptions, answer = true) ∧
      ∀ listened ∈ node.listeners,
        listened ∈ (ports.foldl (fun node port => (node.subscribe port).2) node).listeners := by
  induction ports generalizing node with
  | nil => exact ⟨answered, fun _ inside => inside⟩
  | cons port rest ih =>
    obtain ⟨still, kept⟩ := subscribe_kept node answered port
    obtain ⟨later, listens⟩ := ih still
    exact ⟨later, fun listened inside => listens listened (kept listened inside)⟩

omit [Arithmetic F] in
theorem answered_head {answers : List Bool} (answered : ∀ answer ∈ answers, answer = true) :
    answers.headD true = true := by
  cases answers with
  | nil => rfl
  | cons answer rest => exact answered answer List.mem_cons_self

theorem waiting_boot [EbikeControl E F] (start : Boot F E)
    (anonymous : start.store.settings.natural8 .nodeId = 0)
    (accepted : validate start.store.settings start.store.capabilities = .success)
    (answered : ∀ answer ∈ start.subscriptions, answer = true)
    (linked : ∀ kind portId extent, links kind portId extent = true) :
    (boot start).Waiting links extents := by
  have store : (boot start).board.store = start.store := rfl
  obtain ⟨later, listens⟩ := subscribes_kept
    [(boot start).currentSetpointPort, (boot start).torqueSetpointPort, (boot start).speedSetpointPort,
      (boot start).positionSetpointPort, (boot start).servoSetpointPort, (boot start).wheelCommandPort,
      (boot start).pedalStatePort, (boot start).batteryStatusPort]
    (subscribe_kept (constructed start).node answered (boot start).readinessPort).1
  have head : (boot start).node.subscriptions.headD true = true := answered_head later
  refine ⟨anonymous, accepted, fun handler listed => start_port (constructed start) start.nowUs listed,
    fun enabled => ?_, fun subjectId => ?_⟩
  · refine listens _ ?_
    obtain ⟨listeners, subscriptions, taken, inside⟩ :=
      subscribe_taken (constructed start).node (answered_head answered) (boot start).readinessPort
    rw [taken]
    exact inside enabled
  · rw [head, bootPorts_room linked]

section Sim

def freshBoot : Boot Binary32 Empty :=
  { simBoot with store := { simStore with settings := .default, stored := .default } }

def allocationMessage (nodeId : UInt16) : Transfer Binary32 :=
  ⟨.message, nodeIdAllocationPort, 1, { Payload.malformed with allocation := some ⟨0, [nodeId]⟩ }⟩

theorem allocation_consistent_fresh : ((boot freshBoot).onAllocation (allocationMessage 10)).Consistent := by
  have linked : ∀ kind portId extent, (fun _ _ _ => true : Linking) kind portId extent = true :=
    fun _ _ _ => rfl
  have waiting : (boot freshBoot).Waiting (fun _ _ _ => true) simExtents :=
    waiting_boot freshBoot (by decide) (by decide) (fun _ inside => by cases inside) linked
  have allocated : (boot freshBoot).node.allocated (allocationMessage 10) = some 10 := by decide
  refine (allocation_consistent waiting linked allocated (by decide)).mpr ⟨?_, ?_, ?_⟩
  · intro _
    decide
  · exact .inl rfl
  · decide

/-- The telemetry goes out on the subject that node-ID 10 gives the readiness. -/
def telemetryOnDerived : NvmSettings := NvmSettings.default.set .pubTelemetryId (1034 : UInt16)

def derivedBoot : Boot Binary32 Empty :=
  { simBoot with store := { simStore with settings := telemetryOnDerived, stored := telemetryOnDerived } }

/-- The node takes the node-ID and the subject, the live settings do not. -/
theorem allocation_splits :
    validate telemetryOnDerived simCapabilities = .success ∧ telemetryOnDerived.natural8 .nodeId = 0 ∧
      ((boot derivedBoot).onAllocation (allocationMessage 10)).node.nodeId = 10 ∧
        ((boot derivedBoot).onAllocation (allocationMessage 10)).board.store.settings.natural8 .nodeId = 0 ∧
          ((boot derivedBoot).onAllocation (allocationMessage 10)).readinessPort =
            telemetryOnDerived.natural16 .pubTelemetryId ∧
              ¬((boot derivedBoot).onAllocation (allocationMessage 10)).Consistent := by
  have named : ((boot derivedBoot).onAllocation (allocationMessage 10)).node.nodeId = 10 := by decide
  have live : ((boot derivedBoot).onAllocation (allocationMessage 10)).board.store.settings.natural8
      .nodeId = 0 := by decide
  refine ⟨by decide, by decide, named, live, by decide, fun consistent => ?_⟩
  have same := consistent.nodeId
  rw [named, live] at same
  exact absurd same (by decide)

end Sim

end System

end Unimoc.Drive
