import Sparkplug.Payload
import Sparkplug.Topic

/-! The public publish operations of src/sparkplug/client.rs and client/publish.rs, up to
the gate they wait for. Each of them is a list of drafts that go out one after another
under one reservation. -/
namespace Sparkplug

inductive Identity where
  | publisher
  | edgeNode (edgeNode : EdgeNode)
  deriving DecidableEq

structure Client where
  ns : Namespace
  identity : Identity
  deriving DecidableEq

/-- One message before its number is drawn. -/
inductive Draft where
  | metrics (topic : SparkplugTopic) (metrics : List Metric) (instant : Timestamp)
  | birthCertificate (topic : SparkplugTopic) (instant : Timestamp)
  | deviceBirthCertificate (topic : SparkplugTopic) (instant : Timestamp)

/-- One message as `publish_message` hands it to `rumqttc`, before the encoding. -/
structure Message where
  topic : SparkplugTopic
  options : WireOptions
  payload : Payload

namespace Draft

def topic : Draft → SparkplugTopic
  | .metrics topic _ _ => topic
  | .birthCertificate topic _ => topic
  | .deviceBirthCertificate topic _ => topic

def payload : Draft → UInt8 → Payload
  | .metrics _ values instant => createPayload values instant
  | .birthCertificate _ instant => createBirthCertificate instant
  | .deviceBirthCertificate _ instant => createDeviceBirthCertificate instant

def message (role : Role) (draft : Draft) (seq : UInt8) : Message where
  topic := draft.topic
  options := wireOptions role draft.topic.messageType
  payload := draft.payload seq

@[simp] theorem message_seq (role : Role) (draft : Draft) (seq : UInt8) :
    (draft.message role seq).payload.seq = some seq.toUInt64 := by
  cases draft <;> rfl

end Draft

/-- What one call publishes under its one reservation. Every draft names the pair of the
reservation, and no draft but the first can restart the count. -/
structure Script where
  pair : EdgeNode
  first : Draft
  rest : List Draft
  named : ∀ draft ∈ first :: rest, draft.topic.edgeNode = some pair
  restarts : ∀ draft ∈ rest, draft.topic.messageType ≠ .NBIRTH

inductive Operation where
  | publishMetric (groupId nodeId deviceId metricName : String) (value : MetricValue)
      (timestampMs : UInt64)
  | publishMetrics (groupId nodeId deviceId : String)
      (metrics : List (String × MetricValue × UInt64)) (now : Timestamp)
  | publishMetricTo (topic : SparkplugTopic) (metricName : String) (value : MetricValue)
      (timestampMs : UInt64)
  | publishMetricsTo (topic : SparkplugTopic)
      (metrics : List (String × MetricValue × UInt64)) (now : Timestamp)
  | publishBirth (device : DeviceId) (now : Timestamp)

def Operation.isBirth : Operation → Bool
  | .publishBirth _ _ => true
  | _ => false

def Operation.topic : Operation → Option SparkplugTopic
  | .publishMetricTo topic _ _ _ => some topic
  | .publishMetricsTo topic _ _ => some topic
  | _ => none

/-- `reserve_seq` on its way to the gate, and the one draft behind it. -/
def publishMetricsOn (topic : SparkplugTopic) (metrics : List Metric) (instant : Timestamp) :
    Except SparkplugError Script :=
  match h : topic.edgeNode with
  | none => .error (.invalidTopic (.noEdgeNode topic.toString))
  | some pair => .ok
    { pair := pair
      first := .metrics topic metrics instant
      rest := []
      named := by simp [Draft.topic, h]
      restarts := by simp }

/-- The pair that two unchecked segments name when both pass their check. -/
def pairOf (groupId nodeId : String) : Option EdgeNode :=
  match TopicId.new .group groupId, TopicId.new .edgeNode nodeId with
  | .ok group, .ok node => some ⟨group, node⟩
  | _, _ => none

namespace Client

variable (client : Client)

def role : Role :=
  match client.identity with
  | .publisher => .publisher
  | .edgeNode _ => .edgeNode

def edgeNode : Option EdgeNode :=
  match client.identity with
  | .publisher => none
  | .edgeNode edgeNode => some edgeNode

def ddataTopic (groupId nodeId deviceId : String) : Except SparkplugError SparkplugTopic := do
  let group ← TopicId.new .group groupId
  let node ← TopicId.new .edgeNode nodeId
  let device ← TopicId.new .device deviceId
  return client.ns.ddata group node device

def publishBirth (device : DeviceId) (instant : Timestamp) : Except SparkplugError Script :=
  match client.edgeNode with
  | none => .error .notAnEdgeNode
  | some pair => .ok
    { pair := pair
      first := .birthCertificate (client.ns.nbirth pair.group pair.edgeNodeId) instant
      rest := [.deviceBirthCertificate (client.ns.dbirth pair.group pair.edgeNodeId device)
        instant]
      named := by simp [Draft.topic, Namespace.nbirth, Namespace.dbirth]
      restarts := by simp [Draft.topic, Namespace.dbirth, Namespace.deviceTopic] }

/-- What a call does before it waits for the gate of its edge node. -/
def script : Operation → Except SparkplugError Script
  | .publishMetric groupId nodeId deviceId metricName value timestampMs => do
    let metric := createMetric metricName value ⟨timestampMs⟩
    let topic ← client.ddataTopic groupId nodeId deviceId
    publishMetricsOn topic [metric] ⟨timestampMs⟩
  | .publishMetrics groupId nodeId deviceId metrics now => do
    let topic ← client.ddataTopic groupId nodeId deviceId
    publishMetricsOn topic (protoMetrics metrics) now
  | .publishMetricTo topic metricName value timestampMs =>
    publishMetricsOn topic [createMetric metricName value ⟨timestampMs⟩] ⟨timestampMs⟩
  | .publishMetricsTo topic metrics now => publishMetricsOn topic (protoMetrics metrics) now
  | .publishBirth device now => client.publishBirth device now

/-- The pair that the arguments of a call name, or the identity of the client for a birth. -/
def named : Operation → Option EdgeNode
  | .publishMetric groupId nodeId _ _ _ _ => pairOf groupId nodeId
  | .publishMetrics groupId nodeId _ _ _ => pairOf groupId nodeId
  | .publishMetricTo topic _ _ _ => topic.edgeNode
  | .publishMetricsTo topic _ _ => topic.edgeNode
  | .publishBirth _ _ => client.edgeNode

end Client

namespace Script

def drafts (script : Script) : List Draft := script.first :: script.rest

/-- `reserve_seq` reads the message type of the first topic. -/
def resets (script : Script) : Bool := script.first.topic.messageType == .NBIRTH

end Script

theorem publishMetricsOn_ok {topic : SparkplugTopic} {metrics : List Metric}
    {instant : Timestamp} {script : Script}
    (built : publishMetricsOn topic metrics instant = .ok script) :
    topic.edgeNode = some script.pair ∧ script.first = .metrics topic metrics instant ∧
    script.rest = [] := by
  unfold publishMetricsOn at built
  split at built
  · cases built
  · rename_i pair h
    cases Except.ok.inj built
    exact ⟨h, rfl, rfl⟩

namespace Client

variable {client : Client} {op : Operation} {script : Script}

theorem ddataTopic_ok {groupId nodeId deviceId : String} {topic : SparkplugTopic}
    (built : client.ddataTopic groupId nodeId deviceId = .ok topic) :
    ∃ group node, TopicId.new .group groupId = .ok group ∧
      TopicId.new .edgeNode nodeId = .ok node ∧ topic.edgeNode = some ⟨group, node⟩ := by
  unfold ddataTopic at built
  cases hgroup : TopicId.new .group groupId with
  | error e => rw [hgroup] at built; cases built
  | ok group =>
    cases hnode : TopicId.new .edgeNode nodeId with
    | error e => rw [hgroup, hnode] at built; cases built
    | ok node =>
      rw [hgroup, hnode] at built
      cases hdevice : TopicId.new .device deviceId with
      | error e => rw [hdevice] at built; cases built
      | ok device =>
        rw [hdevice] at built
        cases Except.ok.inj built
        exact ⟨group, node, rfl, rfl, rfl⟩

theorem script_data (data : op.isBirth = false) (built : client.script op = .ok script) :
    ∃ topic metrics instant, publishMetricsOn topic metrics instant = .ok script ∧
      client.named op = topic.edgeNode := by
  have strings {groupId nodeId deviceId : String} {metrics : List Metric}
      {instant : Timestamp}
      (built : (do
        let topic ← client.ddataTopic groupId nodeId deviceId
        publishMetricsOn topic metrics instant) = .ok script) :
      ∃ topic metrics instant, publishMetricsOn topic metrics instant = .ok script ∧
        pairOf groupId nodeId = topic.edgeNode := by
    cases htopic : client.ddataTopic groupId nodeId deviceId with
    | error e => rw [htopic] at built; cases built
    | ok topic =>
      rw [htopic] at built
      obtain ⟨group, node, hgroup, hnode, names⟩ := ddataTopic_ok htopic
      exact ⟨topic, metrics, instant, built, by rw [names, pairOf, hgroup, hnode]⟩
  cases op with
  | publishMetric groupId nodeId deviceId metricName value timestampMs => exact strings built
  | publishMetrics groupId nodeId deviceId metrics now => exact strings built
  | publishMetricTo topic metricName value timestampMs => exact ⟨topic, _, _, built, rfl⟩
  | publishMetricsTo topic metrics now => exact ⟨topic, _, _, built, rfl⟩
  | publishBirth device now => cases data

theorem script_birth {device : DeviceId} {now : Timestamp}
    (built : client.script (.publishBirth device now) = .ok script) :
    client.edgeNode = some script.pair ∧ script.resets = true ∧ script.rest.length = 1 := by
  change client.publishBirth device now = .ok script at built
  unfold publishBirth at built
  split at built
  · cases built
  · rename_i pair known
    cases Except.ok.inj built
    exact ⟨known, rfl, rfl⟩

theorem rest_of_data (data : op.isBirth = false) (built : client.script op = .ok script) :
    script.rest = [] := by
  obtain ⟨topic, metrics, instant, built, -⟩ := script_data data built
  exact (publishMetricsOn_ok built).2.2

/-- A call that reaches the gate waits at that of the pair it names. -/
theorem pair_of_script (built : client.script op = .ok script) :
    client.named op = some script.pair := by
  cases data : op.isBirth with
  | false =>
    obtain ⟨topic, metrics, instant, built, names⟩ := script_data data built
    rw [names, (publishMetricsOn_ok built).1]
  | true =>
    cases op with
    | publishBirth device now => exact (script_birth built).1
    | _ => cases data

end Client

end Sparkplug
