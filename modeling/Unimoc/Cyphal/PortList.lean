import Unimoc.Cyphal.Wire
import Unimoc.Lib.Bytes

/-! The port list in the standard layout, and what it names when the node wrote it by hand. -/
namespace Unimoc.Cyphal.Wire.PortList

/-! ### The standard layout -/

def readU16 : List UInt8 → Option (UInt16 × List UInt8)
  | low :: high :: rest => some (Bytes.word16 low high, rest)
  | _ => none

def readU32 (bytes : List UInt8) : Option (UInt32 × List UInt8) := do
  let (low, rest) ← readU16 bytes
  let (high, rest) ← readU16 rest
  return (Bytes.word32 low high, rest)

/-- The length of the field, then as many bytes. -/
def readDelimited (bytes : List UInt8) : Option (List UInt8 × List UInt8) := do
  let (size, rest) ← readU32 bytes
  if size.toNat ≤ rest.length then return (rest.take size.toNat, rest.drop size.toNat) else none

/-- Two bytes for each of the 13-bit IDs. -/
def readSubjectIds : Nat → List UInt8 → Option (List UInt16)
  | 0, bytes => if bytes = [] then some [] else none
  | count + 1, bytes => do
    let (subject, rest) ← readU16 bytes
    let others ← readSubjectIds count rest
    return (subject &&& 0x1FFF) :: others

inductive SubjectIdList
  | mask (bits : List UInt8)
  | sparseList (subjects : List UInt16)
  | total
deriving DecidableEq

/-- A tag and the alternative it selects. -/
def readSubjectIdList : List UInt8 → Option SubjectIdList
  | [] => none
  | tag :: field =>
    if tag = 0 then if field.length = 1024 then some (.mask field) else none
    else if tag = 1 then (readSubjectIds (field.headD 0).toNat field.tail).map .sparseList
    else if tag = 2 then some .total
    else none

def readServiceIdList (field : List UInt8) : Option (List UInt8) :=
  if field.length = 64 then some field else none

structure Message where
  publishers : SubjectIdList
  subscribers : SubjectIdList
  clients : List UInt8
  servers : List UInt8
deriving DecidableEq

/-- Four delimited fields and nothing else. -/
def read (bytes : List UInt8) : Option Message := do
  let (publishers, bytes) ← readDelimited bytes
  let (subscribers, bytes) ← readDelimited bytes
  let (clients, bytes) ← readDelimited bytes
  let (servers, bytes) ← readDelimited bytes
  if bytes = [] then
    return {
      publishers := ← readSubjectIdList publishers
      subscribers := ← readSubjectIdList subscribers
      clients := ← readServiceIdList clients
      servers := ← readServiceIdList servers }
  else none

/-- The bit of the ID. -/
def marked (mask : List UInt8) (id : UInt16) : Bool :=
  (mask.getD (id.toNat / 8) 0).toNat.testBit (id.toNat % 8)

def SubjectIdList.names (subject : UInt16) : SubjectIdList → Bool
  | .mask bits => marked bits subject
  | .sparseList subjects => subjects.contains subject
  | .total => subject ≤ 0x1FFF

/-! ### Numbers -/

@[simp] theorem readU16_u16 (value : UInt16) (rest : List UInt8) : readU16 (u16 value ++ rest) = some (value, rest) := by
  have low : (value &&& 0xFF).toUInt8 = value.toUInt8 := by
    apply UInt8.toNat_inj.mp
    simp [Nat.and_two_pow_sub_one_eq_mod _ 8]
  unfold u16
  rw [low]
  exact congrArg (fun word => some (word, rest)) (Bytes.word16_bytes value)

@[simp] theorem readU32_u32 (value : UInt32) (rest : List UInt8) : readU32 (u32 value ++ rest) = some (value, rest) := by
  have low : (value &&& 0xFFFF).toUInt16 = value.toUInt16 := by
    apply UInt16.toNat_inj.mp
    simp [Nat.and_two_pow_sub_one_eq_mod _ 16]
  unfold readU32 u32
  rw [low, List.append_assoc, readU16_u16]
  simp [Bytes.word32_halves]

theorem readDelimited_field {size : UInt32} {field : List UInt8} (length : field.length = size.toNat)
    (rest : List UInt8) : readDelimited (u32 size ++ field ++ rest) = some (field, rest) := by
  unfold readDelimited
  rw [List.append_assoc, readU32_u32]
  simp [← length]

/-! ### Subjects -/

theorem subject_kept {subject : UInt16} (inRange : subject ≤ 8191) : subject &&& 0x1FFF = subject := by
  apply UInt16.toNat_inj.mp
  have small : subject.toNat ≤ 8191 := UInt16.le_iff_toNat_le.mp inRange
  rw [UInt16.toNat_and]
  change subject.toNat &&& (2 ^ 13 - 1) = _
  rw [Nat.and_two_pow_sub_one_eq_mod, Nat.mod_eq_of_lt (by omega)]

theorem readSubjectIds_written {subjects : List UInt16} (inRange : ∀ subject ∈ subjects, subject ≤ 8191) :
    readSubjectIds subjects.length (subjects.flatMap fun subject => u16 (subject &&& 0x1FFF)) = some subjects := by
  induction subjects with
  | nil => rfl
  | cons subject others ih =>
    have rest := ih fun other inside => inRange other (List.mem_cons_of_mem subject inside)
    have kept := subject_kept (inRange subject List.mem_cons_self)
    rw [List.length_cons, List.flatMap_cons, readSubjectIds, readU16_u16]
    simp [rest, kept]

theorem ids_length (subjects : List UInt16) :
    (subjects.flatMap fun subject => u16 (subject &&& 0x1FFF)).length = 2 * subjects.length := by
  induction subjects with
  | nil => rfl
  | cons subject others ih =>
    rw [List.flatMap_cons, List.length_append, ih, List.length_cons]
    simp [u16]
    omega

/-- A list of subjects within the count of its layout. -/
structure Listed (subjects : List UInt16) : Prop where
  few : subjects.length ≤ 255
  inRange : ∀ subject ∈ subjects, subject ≤ 8191

variable {subjects : List UInt16}

def sparseField (subjects : List UInt16) : List UInt8 :=
  [1, UInt8.ofNat subjects.length] ++ subjects.flatMap fun subject => u16 (subject &&& 0x1FFF)

theorem writeSubjectList_field (listed : Listed subjects) :
    writeSubjectList subjects = u32 (2 + 2 * UInt32.ofNat subjects.length) ++ sparseField subjects := by
  unfold writeSubjectList sparseField
  dsimp only
  rw [Nat.min_eq_left listed.few, List.take_length, List.append_assoc]

theorem sparseField_length (listed : Listed subjects) :
    (sparseField subjects).length = (2 + 2 * UInt32.ofNat subjects.length).toNat := by
  have few := listed.few
  unfold sparseField
  rw [List.length_append, ids_length]
  simp
  omega

theorem writeSubjectList_length (listed : Listed subjects) :
    (writeSubjectList subjects).length = 6 + 2 * subjects.length := by
  rw [writeSubjectList_field listed, sparseField, List.length_append, List.length_append, ids_length]
  simp [u32, u16]
  omega

theorem readDelimited_subjects (listed : Listed subjects) (rest : List UInt8) :
    readDelimited (writeSubjectList subjects ++ rest) = some (sparseField subjects, rest) := by
  rw [writeSubjectList_field listed]
  exact readDelimited_field (sparseField_length listed) rest

theorem readSubjectIdList_sparse (listed : Listed subjects) :
    readSubjectIdList (sparseField subjects) = some (.sparseList subjects) := by
  have few := listed.few
  have count : (UInt8.ofNat subjects.length).toNat = subjects.length := by
    simp
    omega
  unfold sparseField readSubjectIdList
  simp [count, readSubjectIds_written listed.inRange]

/-! ### Services -/

def maskByte (services : List UInt16) (byte : Nat) : UInt8 :=
  services.foldl (fun (bits : UInt8) service =>
    if service.toNat / 8 = byte then bits ||| ((1 : UInt8) <<< (service % 8).toUInt8) else bits) 0

theorem bit_toNat (service : UInt16) :
    ((1 : UInt8) <<< (service % 8).toUInt8).toNat = 2 ^ (service.toNat % 8) := by
  have bound : 2 ^ (service.toNat % 8) < 2 ^ 8 :=
    Nat.pow_lt_pow_right (by decide) (Nat.mod_lt _ (by decide))
  have place : service.toNat % 8 % 256 % 8 = service.toNat % 8 := by omega
  rw [UInt8.toNat_shiftLeft]
  simp only [UInt8.toNat_one, UInt16.toNat_toUInt8, UInt16.toNat_mod, Nat.shiftLeft_eq, Nat.one_mul]
  change 2 ^ (service.toNat % 8 % 256 % 8) % 2 ^ 8 = _
  rw [place, Nat.mod_eq_of_lt bound]

theorem maskByte_from (services : List UInt16) (byte : Nat) (bits : UInt8) (i : Nat) :
    (services.foldl (fun (bits : UInt8) service =>
      if service.toNat / 8 = byte then bits ||| ((1 : UInt8) <<< (service % 8).toUInt8) else bits)
        bits).toNat.testBit i =
      (bits.toNat.testBit i || services.any fun service => service.toNat / 8 = byte ∧ service.toNat % 8 = i) := by
  induction services generalizing bits with
  | nil => simp
  | cons service others ih =>
    rw [List.foldl_cons, ih, List.any_cons]
    by_cases here : service.toNat / 8 = byte
    · rw [if_pos here, UInt8.toNat_or, Nat.testBit_lor, bit_toNat, Nat.testBit_two_pow]
      simp [here, Bool.or_assoc]
    · simp [here]

def mask (services : List UInt16) : List UInt8 := (List.range 64).map (maskByte services)

theorem writeServiceList_field (services : List UInt16) :
    writeServiceList services = u32 64 ++ mask services := rfl

theorem mask_length (services : List UInt16) : (mask services).length = (64 : UInt32).toNat := by
  simp [mask]

theorem readDelimited_services (services : List UInt16) (rest : List UInt8) :
    readDelimited (writeServiceList services ++ rest) = some (mask services, rest) := by
  rw [writeServiceList_field]
  exact readDelimited_field (mask_length services) rest

theorem readServiceIdList_mask (services : List UInt16) : readServiceIdList (mask services) = some (mask services) :=
  if_pos (mask_length services)

/-- Exactly the given services are marked. -/
theorem marked_mask {services : List UInt16} (inRange : ∀ service ∈ services, service ≤ maxServiceId) (id : UInt16) :
    marked (mask services) id = services.contains id := by
  have bound {service : UInt16} (small : service ≤ maxServiceId) : service.toNat < 512 :=
    Nat.lt_succ_of_le (UInt16.le_iff_toNat_le.mp small)
  by_cases inside : id.toNat / 8 < 64
  · have byte : (mask services).getD (id.toNat / 8) 0 = maskByte services (id.toNat / 8) := by
      simp [mask, List.getD, inside]
    unfold marked
    rw [byte, maskByte, maskByte_from]
    apply Bool.eq_iff_iff.mpr
    simp only [UInt8.toNat_zero, Nat.zero_testBit, Bool.false_or, List.any_eq_true, decide_eq_true_eq,
      List.contains_iff_mem]
    constructor
    · rintro ⟨service, listed, byte, place⟩
      have same : service = id := UInt16.toNat_inj.mp (by omega)
      exact same ▸ listed
    · intro listed
      exact ⟨id, listed, rfl, rfl⟩
  · have unlisted : services.contains id = false := by
      apply Bool.eq_false_iff.mpr
      intro listed
      have small := bound (inRange id (List.contains_iff_mem.mp listed))
      omega
    have beyond : (mask services).getD (id.toNat / 8) 0 = 0 := by
      apply List.getD_eq_default
      rw [mask_length]
      exact Nat.le_of_not_lt inside
    unfold marked
    rw [beyond, unlisted]
    simp

end Unimoc.Cyphal.Wire.PortList

namespace Unimoc.Cyphal.Wire

/-! ### The list of a node -/

section Node

variable {Component : Type}

/-- The tables of a node, within their sizes and the ranges of their IDs. -/
structure Tables (node : CyphalNode Component) : Prop where
  publishers : node.publishedSubjects.length ≤ maxPublishers
  listeners : node.ports.listeners.length ≤ maxListeners
  servers : node.ports.servers.length ≤ maxServers
  published : ∀ subject ∈ node.publishedSubjects, subject ≤ 8191
  subscribed : ∀ subject ∈ node.ports.listeners.map (·.1), subject ≤ 8191
  served : ∀ service ∈ node.ports.servers.map (·.1), service ≤ maxServiceId

variable {node : CyphalNode Component}

theorem Tables.publishersListed (tables : Tables node) : PortList.Listed (ownSubjects ++ node.publishedSubjects) := by
  have few := tables.publishers
  unfold maxPublishers at few
  constructor
  · rw [List.length_append]
    change 3 + _ ≤ 255
    omega
  · intro subject listed
    rcases List.mem_append.mp listed with own | added
    · have inRange : ∀ subject ∈ ownSubjects, subject ≤ 8191 := by
        simp [ownSubjects, portHeartbeat, portPortList, portDiagnosticRecord]
      exact inRange subject own
    · exact tables.published subject added

theorem Tables.listenersListed (tables : Tables node) : PortList.Listed (node.ports.listeners.map (·.1)) := by
  have few := tables.listeners
  unfold maxListeners at few
  constructor
  · rw [List.length_map]
    omega
  · exact tables.subscribed

open PortList in
theorem read_serialized (tables : Tables node) : PortList.read node.serializedPortList = some {
    publishers := .sparseList (ownSubjects ++ node.publishedSubjects)
    subscribers := .sparseList (node.ports.listeners.map (·.1))
    clients := mask []
    servers := mask (servedServices ++ node.ports.servers.map (·.1)) } := by
  have publishers := tables.publishersListed
  have subscribers := tables.listenersListed
  have last := readDelimited_services (servedServices ++ node.ports.servers.map (·.1)) []
  rw [List.append_nil] at last
  unfold CyphalNode.serializedPortList PortList.read
  change (do
    let (publishers, bytes) ← readDelimited (writeSubjectList (ownSubjects ++ node.publishedSubjects) ++ _ ++ _ ++ _)
    _) = _
  rw [List.append_assoc, List.append_assoc, readDelimited_subjects publishers]
  simp only [Option.bind_eq_bind, Option.bind_some, readDelimited_subjects subscribers, readDelimited_services, last,
    readSubjectIdList_sparse publishers, readSubjectIdList_sparse subscribers, readServiceIdList_mask]
  rfl

open PortList in
theorem serialized_length (tables : Tables node) : node.serializedPortList.length ≤ txBufferSize := by
  have publishers := tables.publishers
  have listeners := tables.listeners
  unfold maxPublishers at publishers
  unfold maxListeners at listeners
  have first := writeSubjectList_length tables.publishersListed
  have second := writeSubjectList_length tables.listenersListed
  rw [List.length_append] at first
  rw [List.length_map] at second
  have own : ownSubjects.length = 3 := rfl
  have header : (u32 64).length = 4 := rfl
  have masks (services : List UInt16) : (mask services).length = 64 := mask_length services
  unfold CyphalNode.serializedPortList txBufferSize
  change (writeSubjectList (ownSubjects ++ node.publishedSubjects) ++ _ ++ _ ++ _).length ≤ _
  simp only [List.length_append, writeServiceList_field, masks, header]
  omega

/-! ### What the application adds -/

/-- The subjects of the calls are in range; the services are checked by the node. -/
def InRange : Call Component → Prop
  | .addPublisher publisher => publisher.portId ≤ 8191 ∨ publisher.portId = unsetPortId
  | .subscribe subjectId _ _ => subjectId ≤ 8191 ∨ subjectId = unsetPortId
  | _ => True

variable {env : Environment}

theorem Tables.alike {other : CyphalNode Component} (tables : Tables node)
    (published : other.publishedSubjects = node.publishedSubjects) (ports : other.ports = node.ports) :
    Tables other := by
  obtain ⟨a, b, c, d, e, f⟩ := tables
  rw [← published] at a d
  rw [← ports] at b c e f
  exact ⟨a, b, c, d, e, f⟩

theorem Tables.subscribe (tables : Tables node) (links : Linking) {subjectId : UInt16} (extent : Nat)
    (listener : Component) (inRange : subjectId ≤ 8191 ∨ subjectId = unsetPortId) :
    Tables { node with ports := (node.ports.subscribe links subjectId extent listener).2 } := by
  obtain ⟨publishers, listeners, servers, published, subscribed, served⟩ := tables
  unfold NodePorts.subscribe
  split
  · exact ⟨publishers, listeners, servers, published, subscribed, served⟩
  · rename_i marked
    split
    · exact ⟨publishers, listeners, servers, published, subscribed, served⟩
    · rename_i room
      dsimp only
      split
      · refine ⟨publishers, ?_, servers, published, ?_, served⟩
        · simp only [List.length_append, List.length_singleton]
          omega
        · intro subject listed
          rw [List.map_append] at listed
          rcases List.mem_append.mp listed with before | added
          · exact subscribed subject before
          · rw [List.mem_singleton.mp added]
            exact inRange.resolve_right marked
      · exact ⟨publishers, listeners, servers, published, subscribed, served⟩

theorem Tables.addServer (tables : Tables node) (links : Linking) (serviceId : UInt16) (extent : Nat)
    (handler : Component) :
    Tables { node with ports := (node.ports.addServer links serviceId extent handler).2 } := by
  obtain ⟨publishers, listeners, servers, published, subscribed, served⟩ := tables
  unfold NodePorts.addServer
  split
  · exact ⟨publishers, listeners, servers, published, subscribed, served⟩
  · split
    · exact ⟨publishers, listeners, servers, published, subscribed, served⟩
    · rename_i accepted
      simp only [Bool.or_eq_true, decide_eq_true_eq, not_or, UInt16.not_lt] at accepted
      dsimp only
      split
      · refine ⟨publishers, listeners, ?_, published, subscribed, ?_⟩
        · simp only [List.length_append, List.length_singleton]
          omega
        · intro service listed
          rw [List.map_append] at listed
          rcases List.mem_append.mp listed with before | added
          · exact served service before
          · rw [List.mem_singleton.mp added]
            exact accepted.1.1
      · exact ⟨publishers, listeners, servers, published, subscribed, served⟩

theorem Tables.addPublisher (tables : Tables node) {publisher : Publisher}
    (inRange : publisher.portId ≤ 8191 ∨ publisher.portId = unsetPortId) :
    Tables (node.addPublisher publisher).2 := by
  obtain ⟨publishers, listeners, servers, published, subscribed, served⟩ := tables
  unfold CyphalNode.addPublisher
  split
  · exact ⟨publishers, listeners, servers, published, subscribed, served⟩
  · rename_i marked
    split
    · exact ⟨publishers, listeners, servers, published, subscribed, served⟩
    · refine ⟨?_, listeners, servers, ?_, subscribed, served⟩
      · simp only [List.length_append, List.length_singleton]
        omega
      · intro subject listed
        rcases List.mem_append.mp listed with before | added
        · exact published subject before
        · rw [List.mem_singleton.mp added]
          exact inRange.resolve_right marked

theorem Tables.call (tables : Tables node) {c : Call Component} (inRange : InRange c) : Tables (node.call env c) := by
  cases c with
  | publish publisher payload =>
    unfold CyphalNode.call CyphalNode.publish
    dsimp only
    split
    · exact tables
    · exact tables.alike rfl rfl
  | log severity text =>
    unfold CyphalNode.call CyphalNode.log
    dsimp only
    split
    · exact tables
    · split
      · exact tables
      · exact tables.alike rfl rfl
  | subscribe subjectId extent listener => exact tables.subscribe env.links extent listener inRange
  | addServer serviceId extent handler => exact tables.addServer env.links serviceId extent handler
  | addPublisher publisher => exact tables.addPublisher inRange
  | setHealth | setMode | setVendorStatus => exact tables.alike rfl rfl

theorem Tables.constructed (uniqueId : Vector UInt8 16) :
    Tables (CyphalNode.constructed uniqueId : CyphalNode Component) := by
  constructor <;> simp [CyphalNode.constructed, NodePorts.constructed]

theorem Tables.callAll (tables : Tables node) {calls : List (Call Component)} (inRange : ∀ c ∈ calls, InRange c) :
    Tables (node.callAll env calls) := by
  unfold CyphalNode.callAll
  induction calls generalizing node with
  | nil => exact tables
  | cons c calls ih =>
    apply ih (tables.call (inRange c List.mem_cons_self))
    intro later inside
    exact inRange later (List.mem_cons_of_mem c inside)

/-- The node sends its port list, which fits its buffer and names its ports and no others. -/
theorem port_list_names (node : CyphalNode Component) (tables : Tables node) :
    node.serializedPortList.length ≤ txBufferSize ∧
    (∀ env, (node.publishPortList env).calls =
      .send (node.message node.portList node.serializedPortList) :: node.calls) ∧
    ∃ message, PortList.read node.serializedPortList = some message ∧
      (∀ subject, message.publishers.names subject = true ↔
        subject ∈ ownSubjects ∨ subject ∈ node.publishedSubjects) ∧
      (∀ subject, message.subscribers.names subject = true ↔
        ∃ listener, (subject, listener) ∈ node.ports.listeners) ∧
      (∀ service, PortList.marked message.clients service = false) ∧
      ∀ service, PortList.marked message.servers service = true ↔
        service ∈ servedServices ∨ ∃ handler, (service, handler) ∈ node.ports.servers := by
  have fits := serialized_length tables
  have served : ∀ service ∈ servedServices ++ node.ports.servers.map (·.1), service ≤ maxServiceId := by
    intro service listed
    rcases List.mem_append.mp listed with own | added
    · have inRange : ∀ service ∈ servedServices, service ≤ maxServiceId := by
        simp [servedServices, portRegisterAccess, portRegisterList, portGetInfo, portExecuteCommand, maxServiceId]
      exact inRange service own
    · exact tables.served service added
  refine ⟨fits, ?_, _, read_serialized tables, ?_, ?_, ?_, ?_⟩
  · intro env
    unfold CyphalNode.publishPortList
    rw [if_pos fits]
    rfl
  · intro subject
    simp [PortList.SubjectIdList.names]
  · intro subject
    simp [PortList.SubjectIdList.names]
  · intro service
    rw [PortList.marked_mask (by simp)]
    rfl
  · intro service
    rw [PortList.marked_mask served]
    simp

end Node

/-- A publisher, a subscription and a server, with the largest IDs. -/
def calledPorts : List (Call Unit) :=
  [.addPublisher ⟨8191, .nominal, 0⟩, .subscribe 8191 64 (), .addServer maxServiceId 64 ()]

theorem port_list_names_called :
    let env : Environment :=
      ⟨fun _ _ _ => true, fun _ => 64, fun _ _ => true, fun _ _ _ _ => none, fun _ _ => none,
        fun _ => none, fun _ => none⟩
    let node := (CyphalNode.constructed (Vector.replicate 16 0)).callAll env calledPorts
    node.serializedPortList.length ≤ txBufferSize := by
  intro env node
  have tables : Tables node := by
    apply (Tables.constructed _).callAll
    simp [calledPorts, InRange]
  exact (port_list_names node tables).1

end Unimoc.Cyphal.Wire
