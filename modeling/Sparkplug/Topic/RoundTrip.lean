import Sparkplug.Topic

/-! Rendering and parsing against each other. A topic is its segments joined at `/`, and
the parser decides on those segments alone. -/
namespace Sparkplug

theorem asStr_usable (m : MessageType) : isUsableSegment m.asStr = true := by
  cases m <;> decide

namespace SparkplugTopic

def segments (t : SparkplugTopic) : List String :=
  match t.address with
  | .node groupId nodeId => [t.ns.text, groupId, t.messageType.asStr, nodeId]
  | .device groupId nodeId deviceId =>
    [t.ns.text, groupId, t.messageType.asStr, nodeId, deviceId]
  | .host hostId => [t.ns.text, t.messageType.asStr, hostId]

theorem toString_eq_join (t : SparkplugTopic) : t.toString = Segments.join '/' t.segments := by
  obtain ⟨ns, messageType, address, checked⟩ := t
  cases address <;> rfl

theorem segments_usable (t : SparkplugTopic) :
    ∀ s ∈ t.segments, isUsableSegment s = true := by
  have hns := t.ns.usable
  have hmt := asStr_usable t.messageType
  have hids := t.checked
  intro s hs
  unfold segments at hs
  split at hs <;> rename_i h <;> rw [h] at hids <;>
    simp only [Address.identifiers, List.mem_cons, List.not_mem_nil, or_false] at hs hids
  · rcases hs with rfl | rfl | rfl | rfl <;> simp_all
  · rcases hs with rfl | rfl | rfl | rfl | rfl <;> simp_all
  · rcases hs with rfl | rfl | rfl <;> simp_all

theorem segments_clean (t : SparkplugTopic) : Segments.Clean '/' t.segments :=
  fun s hs => usable_clean (t.segments_usable s hs)

theorem segments_nonempty (t : SparkplugTopic) : t.segments ≠ [] := by
  obtain ⟨ns, messageType, address, checked⟩ := t
  cases address <;> simp [segments]

@[simp] theorem split_toString (t : SparkplugTopic) :
    Segments.split '/' t.toString = t.segments := by
  rw [toString_eq_join, Segments.split_join t.segments_clean t.segments_nonempty]

end SparkplugTopic

section Parse

variable (ns : Namespace)

theorem split_state (hostId : HostId) :
    Segments.split '/' (ns.state hostId).toString =
      [ns.text, MessageType.STATE.asStr, hostId.text] := by
  rw [SparkplugTopic.split_toString]
  rfl

theorem split_nodeTopic (messageType : MessageType) (groupId : GroupId) (nodeId : EdgeNodeId) :
    Segments.split '/' (ns.nodeTopic messageType groupId nodeId).toString =
      [ns.text, groupId.text, messageType.asStr, nodeId.text] := by
  rw [SparkplugTopic.split_toString]
  rfl

theorem split_deviceTopic (messageType : MessageType) (groupId : GroupId)
    (nodeId : EdgeNodeId) (deviceId : DeviceId) :
    Segments.split '/' (ns.deviceTopic messageType groupId nodeId deviceId).toString =
      [ns.text, groupId.text, messageType.asStr, nodeId.text, deviceId.text] := by
  rw [SparkplugTopic.split_toString]
  rfl

theorem parse_state (hostId : HostId) :
    ns.parse (ns.state hostId).toString = .ok (ns.state hostId) := by
  simp only [Namespace.parse, split_state]
  simp [bind, Except.bind, pure, Except.pure, TopicId.new_text]

/-- The second segment is read as a message type before it is read as a group: a topic of
a group named STATE takes the host branch and has the wrong length there. -/
theorem parse_misaddressed_state {topic : String} {rest : List String}
    (parts : Segments.split '/' topic = ns.text :: MessageType.STATE.asStr :: rest)
    (length : rest.length ≠ 1) :
    ns.parse topic = .error (.wrongTopicShape topic .STATE) := by
  simp only [Namespace.parse, parts]
  simp only [List.head?_cons, ne_eq, not_true_eq_false, if_false, List.getElem?_cons_succ,
    List.getElem?_cons_zero, if_true]
  split
  · rename_i h
    cases h
    exact absurd rfl length
  · rfl

theorem parse_node (messageType : MessageType) (hshape : messageType.shape = .node)
    (groupId : GroupId) (nodeId : EdgeNodeId) (other : groupId.text ≠ MessageType.STATE.asStr) :
    ns.parse (ns.nodeTopic messageType groupId nodeId).toString =
      .ok (ns.nodeTopic messageType groupId nodeId) := by
  simp only [Namespace.parse, split_nodeTopic]
  simp only [List.head?_cons, ne_eq, not_true_eq_false, if_false, List.getElem?_cons_succ,
    List.getElem?_cons_zero, Option.some.injEq, other, MessageType.fromStr_asStr]
  simp [bind, Except.bind, pure, Except.pure, hshape, TopicId.new_text]

theorem parse_device (messageType : MessageType) (hshape : messageType.shape = .device)
    (groupId : GroupId) (nodeId : EdgeNodeId) (deviceId : DeviceId)
    (other : groupId.text ≠ MessageType.STATE.asStr) :
    ns.parse (ns.deviceTopic messageType groupId nodeId deviceId).toString =
      .ok (ns.deviceTopic messageType groupId nodeId deviceId) := by
  simp only [Namespace.parse, split_deviceTopic]
  simp only [List.head?_cons, ne_eq, not_true_eq_false, if_false, List.getElem?_cons_succ,
    List.getElem?_cons_zero, Option.some.injEq, other, MessageType.fromStr_asStr]
  simp [bind, Except.bind, pure, Except.pure, hshape, TopicId.new_text]

theorem node_round_trip_iff (messageType : MessageType) (hshape : messageType.shape = .node)
    (groupId : GroupId) (nodeId : EdgeNodeId) :
    ns.parse (ns.nodeTopic messageType groupId nodeId).toString =
      .ok (ns.nodeTopic messageType groupId nodeId) ↔
      groupId.text ≠ MessageType.STATE.asStr := by
  constructor
  · intro back same
    have parts := split_nodeTopic ns messageType groupId nodeId
    rw [same] at parts
    cases back.symm.trans (parse_misaddressed_state ns parts (by simp))
  · exact parse_node ns messageType hshape groupId nodeId

theorem device_round_trip_iff (messageType : MessageType)
    (hshape : messageType.shape = .device) (groupId : GroupId) (nodeId : EdgeNodeId)
    (deviceId : DeviceId) :
    ns.parse (ns.deviceTopic messageType groupId nodeId deviceId).toString =
      .ok (ns.deviceTopic messageType groupId nodeId deviceId) ↔
      groupId.text ≠ MessageType.STATE.asStr := by
  constructor
  · intro back same
    have parts := split_deviceTopic ns messageType groupId nodeId deviceId
    rw [same] at parts
    cases back.symm.trans (parse_misaddressed_state ns parts (by simp))
  · exact parse_device ns messageType hshape groupId nodeId deviceId

theorem parse_build (call : Constructor) (other : ∀ groupId,
    (call.build ns).groupId = some groupId → groupId.text ≠ MessageType.STATE.asStr) :
    ns.parse (call.build ns).toString = .ok (call.build ns) := by
  cases call with
  | nbirth g n | ndata g n | ndeath g n | ncmd g n => exact parse_node ns _ rfl g n (other g rfl)
  | dbirth g n d | ddata g n d | ddeath g n d | dcmd g n d =>
    exact parse_device ns _ rfl g n d (other g rfl)
  | state h => exact parse_state ns h

theorem other_of_parse_build (call : Constructor) {groupId : GroupId}
    (back : ns.parse (call.build ns).toString = .ok (call.build ns))
    (names : (call.build ns).groupId = some groupId) :
    groupId.text ≠ MessageType.STATE.asStr := by
  cases call with
  | nbirth g n | ndata g n | ndeath g n | ncmd g n =>
    cases names
    exact (node_round_trip_iff ns _ rfl g n).mp back
  | dbirth g n d | ddata g n d | ddeath g n d | dcmd g n d =>
    cases names
    exact (device_round_trip_iff ns _ rfl g n d).mp back
  | state h => cases names

/-- The parser gives a built topic back exactly when no group in it is named STATE. -/
theorem round_trip_iff (call : Constructor) :
    ns.parse (call.build ns).toString = .ok (call.build ns) ↔
      ∀ groupId, (call.build ns).groupId = some groupId →
        groupId.text ≠ MessageType.STATE.asStr := by
  have one (g : GroupId) : (∀ groupId, some g = some groupId →
      groupId.text ≠ MessageType.STATE.asStr) ↔ g.text ≠ MessageType.STATE.asStr :=
    ⟨fun h => h g rfl, fun h _ same => Option.some.inj same ▸ h⟩
  cases call with
  | nbirth g n => exact (node_round_trip_iff ns .NBIRTH rfl g n).trans (one g).symm
  | ndata g n => exact (node_round_trip_iff ns .NDATA rfl g n).trans (one g).symm
  | ndeath g n => exact (node_round_trip_iff ns .NDEATH rfl g n).trans (one g).symm
  | ncmd g n => exact (node_round_trip_iff ns .NCMD rfl g n).trans (one g).symm
  | dbirth g n d => exact (device_round_trip_iff ns .DBIRTH rfl g n d).trans (one g).symm
  | ddata g n d => exact (device_round_trip_iff ns .DDATA rfl g n d).trans (one g).symm
  | ddeath g n d => exact (device_round_trip_iff ns .DDEATH rfl g n d).trans (one g).symm
  | dcmd g n d => exact (device_round_trip_iff ns .DCMD rfl g n d).trans (one g).symm
  | state h => exact ⟨fun _ _ none => (nomatch none), fun _ => parse_state ns h⟩

end Parse

def groupNamedState : GroupId := ⟨"STATE", by decide⟩
def edgeOne : EdgeNodeId := ⟨"edge1", by decide⟩

/-- The NBIRTH of a group that spells STATE is refused by the parser of its own namespace. -/
theorem state_group_is_not_read_back :
    Namespace.sparkplugB.parse (Namespace.sparkplugB.nbirth groupNamedState edgeOne).toString =
        .error (.wrongTopicShape "spBv1.0/STATE/NBIRTH/edge1" .STATE) ∧
      Namespace.sparkplugB.parse
          (Namespace.sparkplugB.nbirth groupNamedState edgeOne).toString ≠
        .ok (Namespace.sparkplugB.nbirth groupNamedState edgeOne) := by
  have parts := split_nodeTopic Namespace.sparkplugB .NBIRTH groupNamedState edgeOne
  rw [Namespace.nbirth, parse_misaddressed_state Namespace.sparkplugB parts (by decide)]
  constructor
  · rfl
  · intro same
    cases same

end Sparkplug
