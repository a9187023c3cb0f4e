import Sparkplug.Client.Naming
import Sparkplug.Client.Tracking
import Sparkplug.Delivery.Losses
import Sparkplug.Topic.Parsing

/-! What `tracks_delivery` says of a client against what its tracker counts. Each message
takes its QoS from the type of its own topic, and a caller can build a topic of any type. -/
namespace Sparkplug

open Transition

namespace Delivery

variable {ι φ : Type}

/-- The counters as they are before the first count, whatever the flushes do beside them. -/
structure Silent (s : Sys ι φ) : Prop where
  unacked : s.tracker.unacked = 0
  lost : s.tracker.lost = 0
  reported : s.tracker.reported = 0
  opened : ∀ f openedAt, (s.flush f).openedAt = some openedAt → openedAt = 0

theorem Silent.drained {s : Sys ι φ} (h : Silent s) : s.tracker.isDrained = true := by
  simp [State.isDrained, h.unacked]

theorem Silent.closes {s : Sys ι φ} {f : φ} {openedAt : UInt64} (h : Silent s)
    (drains : s.flush f = .drained openedAt) : (s.tracker.closeFlush openedAt).1 = .ok () := by
  cases h.opened f openedAt (opened_of_drained drains)
  simp [State.closeFlush, h.lost, h.reported, clampToU32]

variable [DecidableEq ι] [DecidableEq φ] {s t : Sys ι φ} {l : Label ι φ}

end Delivery

variable {κ φ : Type}

/-- A caller can only hand over a topic that exists. -/
def TopicExists (l : Label κ φ) : Prop :=
  ∀ c op topic, l = .start c op → op.topic = some topic → Obtained topic

section Scripts

variable {client : Client} {op : Operation} {script : Script} {draft : Draft}

theorem ddataTopic_built {groupId nodeId deviceId : String} {topic : SparkplugTopic}
    (built : client.ddataTopic groupId nodeId deviceId = .ok topic) :
    ∃ group node device, topic = client.ns.ddata group node device ∧
      group.text = groupId ∧ node.text = nodeId ∧ device.text = deviceId := by
  obtain ⟨group, hgroup, rest⟩ := bind_eq_ok built
  obtain ⟨node, hnode, rest⟩ := bind_eq_ok rest
  obtain ⟨device, hdevice, rest⟩ := bind_eq_ok rest
  cases rest
  exact ⟨group, node, device, rfl, TopicId.new_eq_ok hgroup, TopicId.new_eq_ok hnode,
    TopicId.new_eq_ok hdevice⟩

theorem ddataTopic_type {groupId nodeId deviceId : String} {topic : SparkplugTopic}
    (built : client.ddataTopic groupId nodeId deviceId = .ok topic) :
    topic.messageType = .DDATA := by
  obtain ⟨_, _, _, rfl, -⟩ := ddataTopic_built built
  rfl

theorem draft_of_metrics {topic : SparkplugTopic} {metrics : List Metric} {instant : Timestamp}
    (built : publishMetricsOn topic metrics instant = .ok script)
    (member : draft ∈ script.drafts) : draft.topic = topic := by
  obtain ⟨-, first, rest⟩ := publishMetricsOn_ok built
  rw [Script.drafts, first, rest] at member
  cases List.mem_singleton.mp member
  rfl

theorem draft_built (built : client.script op = .ok script) (member : draft ∈ script.drafts) :
    op.topic = some draft.topic ∨ ∃ call : Constructor, draft.topic = call.build client.ns ∧
      (draft.topic.messageType = .DDATA ∨ draft.topic.messageType = .NBIRTH ∨
        draft.topic.messageType = .DBIRTH) := by
  have data {groupId nodeId deviceId : String} {topic : SparkplugTopic}
      (own : draft.topic = topic) (named : client.ddataTopic groupId nodeId deviceId = .ok topic) :
      ∃ call : Constructor, draft.topic = call.build client.ns ∧
        (draft.topic.messageType = .DDATA ∨ draft.topic.messageType = .NBIRTH ∨
          draft.topic.messageType = .DBIRTH) := by
    obtain ⟨group, node, device, rfl, -⟩ := ddataTopic_built named
    exact ⟨.ddata group node device, own, .inl (by rw [own]; rfl)⟩
  cases op with
  | publishMetric groupId nodeId deviceId metricName value timestampMs =>
    obtain ⟨topic, named, rest⟩ := bind_eq_ok built
    exact .inr (data (draft_of_metrics rest member) named)
  | publishMetrics groupId nodeId deviceId metrics now =>
    obtain ⟨topic, named, rest⟩ := bind_eq_ok built
    exact .inr (data (draft_of_metrics rest member) named)
  | publishMetricTo topic metricName value timestampMs =>
    exact .inl (congrArg some (draft_of_metrics built member).symm)
  | publishMetricsTo topic metrics now =>
    exact .inl (congrArg some (draft_of_metrics built member).symm)
  | publishBirth device now =>
    change client.publishBirth device now = .ok script at built
    unfold Client.publishBirth at built
    split at built
    · cases built
    · rename_i pair _
      cases Except.ok.inj built
      rcases List.mem_pair.mp member with rfl | rfl
      · exact .inr ⟨.nbirth pair.group pair.edgeNodeId, rfl, .inr (.inl rfl)⟩
      · exact .inr ⟨.dbirth pair.group pair.edgeNodeId device, rfl, .inr (.inr rfl)⟩

end Scripts

section Runs

variable [DecidableEq κ] [DecidableEq φ] {client : Client} {s t : Sys κ φ} {l : Label κ φ}
  {ls : List (Label κ φ)}

end Runs

end Sparkplug
