import Sparkplug.Segments
import Sparkplug.Types

/-! The topic namespace of src/sparkplug/topic.rs and its identifiers. An identifier
carries the proof that its segment passed the check, and a topic carries one for the text
it stores, so the unchecked rewrap in the accessors is a proof obligation here. -/
namespace Sparkplug

def isUsableSegment (value : String) : Bool :=
  !value.isEmpty && !value.toList.any fun c => c == '/' || c == '+' || c == '#'

theorem usable_clean {value : String} (h : isUsableSegment value = true) :
    '/' ∉ value.toList := by
  simp only [isUsableSegment, Bool.and_eq_true, Bool.not_eq_true', List.any_eq_false] at h
  intro member
  have := h.2 '/' member
  simp at this

/-- What the four uses of the `topic_id!` macro differ in. -/
inductive IdKind where
  | group
  | edgeNode
  | device
  | host
  deriving DecidableEq, Repr

def IdKind.label : IdKind → String
  | .group => "group id"
  | .edgeNode => "edge node id"
  | .device => "device id"
  | .host => "host id"

structure TopicId (kind : IdKind) where
  text : String
  usable : isUsableSegment text = true
  deriving DecidableEq

abbrev GroupId := TopicId .group
abbrev EdgeNodeId := TopicId .edgeNode
abbrev DeviceId := TopicId .device
abbrev HostId := TopicId .host

namespace TopicId

def new (kind : IdKind) (value : String) : Except SparkplugError (TopicId kind) :=
  if h : isUsableSegment value = true then .ok ⟨value, h⟩
  else .error (.invalidTopic (.segment kind.label value))

/-- The `debug_assert` of the source is the second argument. -/
def wrapChecked (kind : IdKind) (value : String) (h : isUsableSegment value = true) :
    TopicId kind :=
  ⟨value, h⟩

@[simp] theorem wrapChecked_text (kind : IdKind) (value : String)
    (h : isUsableSegment value = true) : (wrapChecked kind value h).text = value := rfl

theorem new_text {kind : IdKind} (id : TopicId kind) : new kind id.text = .ok id := by
  simp [new, id.usable]

theorem text_injective {kind : IdKind} : Function.Injective (text : TopicId kind → String) := by
  rintro ⟨a, _⟩ ⟨b, _⟩ same
  cases same
  rfl

theorem new_eq_ok {kind : IdKind} {value : String} {id : TopicId kind}
    (h : new kind value = .ok id) : id.text = value := by
  unfold new at h
  split at h
  · cases Except.ok.inj h
    rfl
  · cases h

end TopicId

structure EdgeNode where
  group : GroupId
  edgeNodeId : EdgeNodeId
  deriving DecidableEq

structure Namespace where
  text : String
  usable : isUsableSegment text = true
  deriving DecidableEq

inductive Address where
  | node (groupId nodeId : String)
  | device (groupId nodeId deviceId : String)
  | host (hostId : String)
  deriving DecidableEq, Repr

/-- The identifiers an address stores, in the order of the source's fields. -/
@[simp] def Address.identifiers : Address → List String
  | .node groupId nodeId => [groupId, nodeId]
  | .device groupId nodeId deviceId => [groupId, nodeId, deviceId]
  | .host hostId => [hostId]

structure SparkplugTopic where
  ns : Namespace
  messageType : MessageType
  address : Address
  checked : ∀ id ∈ address.identifiers, isUsableSegment id = true
  deriving DecidableEq

namespace SparkplugTopic

def shape (t : SparkplugTopic) : Shape := t.messageType.shape

def groupId : SparkplugTopic → Option GroupId
  | ⟨_, _, .node g _, h⟩ => some (.wrapChecked _ g (h g (by simp)))
  | ⟨_, _, .device g _ _, h⟩ => some (.wrapChecked _ g (h g (by simp)))
  | ⟨_, _, .host _, _⟩ => none

def nodeId : SparkplugTopic → Option EdgeNodeId
  | ⟨_, _, .node _ n, h⟩ => some (.wrapChecked _ n (h n (by simp)))
  | ⟨_, _, .device _ n _, h⟩ => some (.wrapChecked _ n (h n (by simp)))
  | ⟨_, _, .host _, _⟩ => none

/-- The pair `group_id().zip(node_id())` that `reserve_seq` reads. -/
def edgeNode (t : SparkplugTopic) : Option EdgeNode :=
  match t.groupId, t.nodeId with
  | some group, some node => some ⟨group, node⟩
  | _, _ => none

def deviceId : SparkplugTopic → Option DeviceId
  | ⟨_, _, .device _ _ d, h⟩ => some (.wrapChecked _ d (h d (by simp)))
  | ⟨_, _, .node _ _, _⟩ => none
  | ⟨_, _, .host _, _⟩ => none

def hostId : SparkplugTopic → Option HostId
  | ⟨_, _, .host host, h⟩ => some (.wrapChecked _ host (h host (by simp)))
  | ⟨_, _, .node _ _, _⟩ => none
  | ⟨_, _, .device _ _ _, _⟩ => none

/-- `Display for SparkplugTopic`. -/
def toString (t : SparkplugTopic) : String :=
  let ns := t.ns.text
  let mt := t.messageType.asStr
  match t.address with
  | .node groupId nodeId => ns ++ "/" ++ groupId ++ "/" ++ mt ++ "/" ++ nodeId
  | .device groupId nodeId deviceId =>
    ns ++ "/" ++ groupId ++ "/" ++ mt ++ "/" ++ nodeId ++ "/" ++ deviceId
  | .host hostId => ns ++ "/" ++ mt ++ "/" ++ hostId

end SparkplugTopic

namespace Namespace

def sparkplugB : Namespace := ⟨"spBv1.0", by decide⟩

def new (version : String) : Except SparkplugError Namespace :=
  if h : isUsableSegment version = true then .ok ⟨version, h⟩
  else .error (.invalidNamespace version)

variable (ns : Namespace)

def nodeTopic (messageType : MessageType) (groupId : GroupId) (nodeId : EdgeNodeId) :
    SparkplugTopic where
  ns := ns
  messageType := messageType
  address := .node groupId.text nodeId.text
  checked := by simp [groupId.usable, nodeId.usable]

def deviceTopic (messageType : MessageType) (groupId : GroupId) (nodeId : EdgeNodeId)
    (deviceId : DeviceId) : SparkplugTopic where
  ns := ns
  messageType := messageType
  address := .device groupId.text nodeId.text deviceId.text
  checked := by simp [groupId.usable, nodeId.usable, deviceId.usable]

def nbirth (groupId : GroupId) (nodeId : EdgeNodeId) := ns.nodeTopic .NBIRTH groupId nodeId
def ndata (groupId : GroupId) (nodeId : EdgeNodeId) := ns.nodeTopic .NDATA groupId nodeId
def ndeath (groupId : GroupId) (nodeId : EdgeNodeId) := ns.nodeTopic .NDEATH groupId nodeId
def ncmd (groupId : GroupId) (nodeId : EdgeNodeId) := ns.nodeTopic .NCMD groupId nodeId

def dbirth (groupId : GroupId) (nodeId : EdgeNodeId) (deviceId : DeviceId) :=
  ns.deviceTopic .DBIRTH groupId nodeId deviceId
def ddata (groupId : GroupId) (nodeId : EdgeNodeId) (deviceId : DeviceId) :=
  ns.deviceTopic .DDATA groupId nodeId deviceId
def ddeath (groupId : GroupId) (nodeId : EdgeNodeId) (deviceId : DeviceId) :=
  ns.deviceTopic .DDEATH groupId nodeId deviceId
def dcmd (groupId : GroupId) (nodeId : EdgeNodeId) (deviceId : DeviceId) :=
  ns.deviceTopic .DCMD groupId nodeId deviceId

@[simp] theorem nodeTopic_edgeNode (messageType : MessageType) (groupId : GroupId)
    (nodeId : EdgeNodeId) : (ns.nodeTopic messageType groupId nodeId).edgeNode =
      some ⟨groupId, nodeId⟩ := rfl

@[simp] theorem deviceTopic_edgeNode (messageType : MessageType) (groupId : GroupId)
    (nodeId : EdgeNodeId) (deviceId : DeviceId) :
    (ns.deviceTopic messageType groupId nodeId deviceId).edgeNode =
      some ⟨groupId, nodeId⟩ := rfl

def state (hostId : HostId) : SparkplugTopic where
  ns := ns
  messageType := .STATE
  address := .host hostId.text
  checked := by simp [hostId.usable]

def wrongShape (topic : String) (messageType : MessageType) : SparkplugError :=
  .wrongTopicShape topic messageType

def parse (topic : String) : Except SparkplugError SparkplugTopic :=
  let parts := Segments.split '/' topic
  if parts.head? ≠ some ns.text then .error (.invalidTopic (.unaddressed topic))
  -- STATE carries its message type in the second segment, not the third.
  else if parts[1]? = some MessageType.STATE.asStr then
    match parts with
    | [_, _, host] => do
      let hostId ← TopicId.new .host host
      return ns.state hostId
    | _ => .error (wrongShape topic .STATE)
  else
    match parts[2]? with
    | none => .error (.invalidTopic (.unaddressed topic))
    | some rawType => do
      let messageType ← MessageType.fromStr rawType
      match messageType.shape, parts with
      | .node, [_, group, _, node] => do
        let groupId ← TopicId.new .group group
        let nodeId ← TopicId.new .edgeNode node
        return ns.nodeTopic messageType groupId nodeId
      | .device, [_, group, _, node, device] => do
        let groupId ← TopicId.new .group group
        let nodeId ← TopicId.new .edgeNode node
        let deviceId ← TopicId.new .device device
        return ns.deviceTopic messageType groupId nodeId deviceId
      | _, _ => .error (wrongShape topic messageType)

end Namespace

inductive Constructor where
  | nbirth (groupId : GroupId) (nodeId : EdgeNodeId)
  | ndata (groupId : GroupId) (nodeId : EdgeNodeId)
  | ndeath (groupId : GroupId) (nodeId : EdgeNodeId)
  | ncmd (groupId : GroupId) (nodeId : EdgeNodeId)
  | dbirth (groupId : GroupId) (nodeId : EdgeNodeId) (deviceId : DeviceId)
  | ddata (groupId : GroupId) (nodeId : EdgeNodeId) (deviceId : DeviceId)
  | ddeath (groupId : GroupId) (nodeId : EdgeNodeId) (deviceId : DeviceId)
  | dcmd (groupId : GroupId) (nodeId : EdgeNodeId) (deviceId : DeviceId)
  | state (hostId : HostId)

def Constructor.build (ns : Namespace) : Constructor → SparkplugTopic
  | nbirth g n => ns.nbirth g n
  | ndata g n => ns.ndata g n
  | ndeath g n => ns.ndeath g n
  | ncmd g n => ns.ncmd g n
  | dbirth g n d => ns.dbirth g n d
  | ddata g n d => ns.ddata g n d
  | ddeath g n d => ns.ddeath g n d
  | dcmd g n d => ns.dcmd g n d
  | state h => ns.state h

end Sparkplug
