import Sparkplug.Client.Untracked
import Sparkplug.Client.Wire

/-! What a host application makes of a session. It has the topic and the payload of each message
that went out, reads the topic with the parser of its namespace, and checks the numbers of each
edge node on their own. -/
namespace Sparkplug

open Transition

variable {κ φ : Type}

structure Frame where
  topic : String
  payload : Payload

def Message.frame (m : Message) : Frame := ⟨m.topic.toString, m.payload⟩

abbrev Mark := MessageType × Option UInt64

def Message.mark (m : Message) : Mark := (m.topic.messageType, m.payload.seq)

/-- What a host of this namespace hears of the edge node in one frame. -/
def Namespace.hear (ns : Namespace) (pair : EdgeNode) (frame : Frame) : Option Mark :=
  match ns.parse frame.topic with
  | .ok topic => if topic.edgeNode = some pair then some (topic.messageType, frame.payload.seq)
    else none
  | .error _ => none

/-- The check of a host: 0 at an NBIRTH, and one more than before in every other message. -/
def countsOn : UInt8 → List Mark → Bool
  | _, [] => true
  | last, (messageType, seq) :: rest =>
    let next := if messageType = .NBIRTH then 0 else last + 1
    seq == some next.toUInt64 && countsOn next rest

section Counting

theorem next_of_expected (before : List Message) (m : Message) :
    (if m.topic.messageType = .NBIRTH then 0 else UInt8.ofNat (sinceBirth before) + 1) =
      UInt8.ofNat (expected before m) := by
  unfold expected
  split
  · rfl
  · rw [UInt8.ofNat_add]
    rfl

/-- The check reads off the marks alone what the numbering says of the whole stream. -/
theorem countsOn_iff (before later : List Message) :
    countsOn (UInt8.ofNat (sinceBirth before)) (later.map Message.mark) = true ↔
      ∀ early m late, later = early ++ m :: late →
        m.payload.seq = some (UInt64.ofNat (expected (before ++ early) m % 256)) := by
  induction later generalizing before with
  | nil => simp [countsOn]
  | cons m rest ih =>
    have later := ih (before ++ [m])
    rw [sinceBirth_append] at later
    simp only [List.map_cons, Message.mark, countsOn, next_of_expected, toUInt64_ofNat,
      Bool.and_eq_true, beq_iff_eq]
    rw [later]
    constructor
    · rintro ⟨first, behind⟩ early x late split
      cases early with
      | nil =>
        cases split
        rw [List.append_nil]
        exact first
      | cons y early =>
        cases split
        have number := behind early x late rfl
        rwa [List.append_assoc] at number
    · intro all
      refine ⟨?_, fun early x late split => ?_⟩
      · have number := all [] m rest rfl
        rwa [List.append_nil] at number
      · have number := all (m :: early) x late (by rw [split]; rfl)
        rwa [List.append_assoc]

theorem numbered_beginning {early stream : List Message} (first : early <+: stream)
    (h : Numbered stream) : Numbered early := by
  obtain ⟨late, rfl⟩ := first
  intro before m after split
  exact h before m (after ++ late) (by rw [split, List.append_assoc]; rfl)

end Counting

section Hearing

variable {ns : Namespace} {pair : EdgeNode} {topic : SparkplugTopic}

theorem groupId_of_edgeNode (names : topic.edgeNode = some pair) :
    topic.groupId = some pair.group := by
  unfold SparkplugTopic.edgeNode at names
  split at names
  · rename_i group node _
    cases names
    assumption
  · cases names

/-- A host hears the topics of its own namespace, those of a group named STATE apart. -/
theorem parse_obtained_iff (obtained : Obtained topic) (names : topic.edgeNode = some pair)
    {read : SparkplugTopic} : ns.parse topic.toString = .ok read ↔
      read = topic ∧ topic.ns = ns ∧ pair.group.text ≠ MessageType.STATE.asStr := by
  have group := groupId_of_edgeNode names
  obtain ⟨own, call, rfl⟩ := obtained.exists_call
  constructor
  · intro accepted
    obtain rfl := SparkplugTopic.toString_injective (parse_text accepted)
    have same := parse_ns accepted
    rw [Constructor.build_ns] at same
    subst same
    exact ⟨rfl, Constructor.build_ns .., other_of_parse_build _ call accepted group⟩
  · rintro ⟨rfl, same, other⟩
    rw [Constructor.build_ns] at same
    subst same
    refine parse_build _ call fun groupId now => ?_
    cases group.symm.trans now
    exact other

theorem hear_frame {m : Message} {own : EdgeNode} (obtained : Obtained m.topic)
    (names : m.topic.edgeNode = some own) : ns.hear pair m.frame =
      if own = pair ∧ m.topic.ns = ns ∧ pair.group.text ≠ MessageType.STATE.asStr then some m.mark
      else none := by
  unfold Namespace.hear
  cases read : ns.parse m.frame.topic with
  | error error =>
    refine (if_neg ?_).symm
    rintro ⟨rfl, same, other⟩
    cases read.symm.trans ((parse_obtained_iff obtained names).mpr ⟨rfl, same, other⟩)
  | ok topic =>
    obtain ⟨rfl, same, other⟩ := (parse_obtained_iff obtained names).mp read
    by_cases mine : own = pair
    · subst mine
      simp [names, same, other, Message.mark, Message.frame]
    · simp [names, mine]

end Hearing

section Topics

variable [DecidableEq κ] [DecidableEq φ] {client : Client} {s : Sys κ φ} {ls : List (Label κ φ)}

omit [DecidableEq κ] [DecidableEq φ] in
theorem draft_obtained {op : Operation} {script : Script} {draft : Draft}
    (built : client.script op = .ok script) (member : draft ∈ script.drafts)
    (given : ∀ topic, op.topic = some topic → Obtained topic) : Obtained draft.topic := by
  rcases draft_built built member with own | ⟨call, own, -⟩
  · exact given draft.topic own
  · rw [own]
    exact .built client.ns call

theorem sent_obtained {ok : Sys κ φ → Label κ φ → Prop} (run : Run (Sys.step client) ok .new ls s)
    (exist : ∀ l ∈ ls, TopicExists l) : ∀ h ∈ s.sent, Obtained h.2.topic := by
  induction run with
  | start =>
    intro h member
    cases member
  | snoc before promise taken ih =>
    have earlier := fun l member => exist l (List.mem_append_left _ member)
    rintro ⟨c, m⟩ member
    rcases sent_step (Sys.moves_of_step taken) member with sent | ⟨held, -, offers⟩
    · exact ih earlier (c, m) sent
    · obtain ⟨serial, agrees⟩ := serialized_run before
      obtain ⟨draft, current, rfl⟩ :=
        (agrees.held c held (by rw [offers]; rfl)).offered m offers
      have asked := asked_run before
      obtain ⟨op, started⟩ := asked.origin c (by rw [offers]; nofun)
      have built := asked.scripted c op held.script started (by rw [offers]; rfl)
      exact draft_obtained built (draft_mem current) fun topic own =>
        earlier _ started c op topic rfl own

end Topics

namespace Session

variable [DecidableEq κ] [DecidableEq φ] {client : Client} {s : Session κ φ}
  {ls : List (SessionStep κ φ)}

def frames (s : Session κ φ) : List Frame := s.outgoing.map fun h => h.2.frame

def heard (s : Session κ φ) (ns : Namespace) (pair : EdgeNode) : List Mark :=
  s.frames.filterMap (ns.hear pair)

section Heard

variable {ok : Session κ φ → SessionStep κ φ → Prop}

theorem accepted_obtained (run : Run (step client) ok .new ls s)
    (exist : ∀ l, .call l ∈ ls → TopicExists l) :
    ∀ h ∈ s.accepted, Obtained h.2.topic ∧ ∃ pair, h.2.topic.edgeNode = some pair := by
  have bare : Run (step client)
      (Obeys (([] : List (Sys κ φ → Label κ φ → Bool)).map onClient)) .new ls s :=
    run.mono fun s l _ => obeys_nil s l
  obtain ⟨cls, inner, given⟩ := client_run bare
  have exist : ∀ l ∈ cls, TopicExists l := by
    intro l member
    rcases given l member with called | ⟨dl, rfl⟩
    · exact exist l called
    · intro c op topic same
      cases same
  intro h member
  have sent : (h.1.1, h.2) ∈ s.client.sent := by
    rw [← accepted_run run]
    exact List.mem_map_of_mem (f := fun h => (h.1.1, h.2)) member
  exact ⟨sent_obtained inner exist _ sent, (asked_run inner).names _ _ sent⟩

theorem outgoing_obtained (run : Run (step client) ok .new ls s)
    (exist : ∀ l, .call l ∈ ls → TopicExists l) :
    ∀ h ∈ s.outgoing, Obtained h.2.topic ∧ ∃ pair, h.2.topic.edgeNode = some pair := by
  intro h member
  obtain ⟨id, -, found⟩ := List.mem_filterMap.mp member
  exact accepted_obtained run exist h (List.mem_of_find?_eq_some found)

/-- A host hears of an edge node the messages that go out for it under its namespace, as they go
out; of a group named STATE it hears nothing. Where `rumqttc` keeps its channel and its order,
no birth is broken off and all topics are of its namespace, its check of the numbers goes
through. -/
theorem hosts_hear_the_stream (run : Run (step client) ok .new ls s)
    (exist : ∀ l, .call l ∈ ls → TopicExists l) (ns : Namespace) (pair : EdgeNode) :
    (pair.group.text = MessageType.STATE.asStr → s.heard ns pair = []) ∧
    (pair.group.text ≠ MessageType.STATE.asStr →
      s.heard ns pair =
        ((s.wire pair).filter fun h => h.2.topic.ns = ns).map fun h => h.2.mark) ∧
    (Run (step client) (Obeys [onClient wholeBirths, writesInOrder]) .new ls s →
      .poll (.failed true) ∉ ls → (∀ h ∈ s.wire pair, h.2.topic.ns = ns) →
      countsOn 0 (s.heard ns pair) = true) := by
  have known := outgoing_obtained run exist
  have nothing (state : pair.group.text = MessageType.STATE.asStr) : s.heard ns pair = [] := by
    rw [heard, frames, List.filterMap_map, List.filterMap_eq_nil_iff]
    intro h member
    obtain ⟨obtained, own, names⟩ := known h member
    rw [Function.comp_apply, hear_frame obtained names]
    simp [state]
  have stream (other : pair.group.text ≠ MessageType.STATE.asStr) : s.heard ns pair =
      ((s.wire pair).filter fun h => h.2.topic.ns = ns).map fun h => h.2.mark := by
    rw [heard, frames, List.filterMap_map, wire, List.filter_filter, ← List.filterMap_eq_map',
      List.filterMap_filter]
    refine List.filterMap_congr fun h member => ?_
    obtain ⟨obtained, own, names⟩ := known h member
    rw [Function.comp_apply, hear_frame obtained names, names]
    by_cases same : own = pair <;> simp_all
  refine ⟨nothing, stream, fun rules kept own => ?_⟩
  by_cases state : pair.group.text = MessageType.STATE.asStr
  · rw [nothing state]
    rfl
  · obtain ⟨whole, inOrder⟩ := numbering_rules rules
    have all : (s.wire pair).filter (fun h => h.2.topic.ns = ns) = s.wire pair :=
      List.filter_eq_self.mpr fun h member => decide_eq_true (own h member)
    have numbered := numbered_beginning ((wire_begins inOrder kept pair).map Prod.snd)
      (numbered_stream whole pair)
    rw [stream state, all]
    have counted := (countsOn_iff [] ((s.wire pair).map Prod.snd)).mpr numbered
    rwa [List.map_map] at counted

end Heard

theorem hosts_hear_the_stream_small : ∃ s : Session Nat Nat,
    Run (step plantClient) (Obeys [onClient wholeBirths, writesInOrder]) .new
      [.poll .connAck, .apply, .call (.start 0 (.publishBirth plantDevice ⟨0⟩)),
        .call (.start 1 plantData), .call (.acquire 0), .call (.offer 0), .call (.accept 0),
        .call (.next 0), .call (.offer 0), .call (.accept 0), .call (.commit 0),
        .call (.acquire 1), .call (.offer 1), .call (.accept 1), .write 0, .write 0, .write 0] s ∧
    s.heard .sparkplugB plantNode = [(.NBIRTH, some 0), (.DBIRTH, some 1), (.DDATA, some 2)] ∧
    countsOn 0 (s.heard .sparkplugB plantNode) = true := by
  obtain ⟨s, h, own, marks⟩ : ∃ s : Session Nat Nat,
      exec (step plantClient) [onClient wholeBirths, writesInOrder] .new
        [.poll .connAck, .apply, .call (.start 0 (.publishBirth plantDevice ⟨0⟩)),
          .call (.start 1 plantData), .call (.acquire 0), .call (.offer 0), .call (.accept 0),
          .call (.next 0), .call (.offer 0), .call (.accept 0), .call (.commit 0),
          .call (.acquire 1), .call (.offer 1), .call (.accept 1), .write 0, .write 0, .write 0] =
        some s ∧
      (s.wire plantNode).all (fun h => h.2.topic.ns = .sparkplugB) = true ∧
      ((s.wire plantNode).filter fun h => h.2.topic.ns = .sparkplugB).map (fun h => h.2.mark) =
        [(.NBIRTH, some 0), (.DBIRTH, some 1), (.DDATA, some 2)] := ⟨_, rfl, rfl, rfl⟩
  have run := Run.of_exec h
  have exist : ∀ l, .call l ∈ [.poll .connAck, .apply,
      .call (.start 0 (.publishBirth plantDevice ⟨0⟩)),
      .call (.start 1 plantData), .call (.acquire 0), .call (.offer 0), .call (.accept 0),
      .call (.next 0), .call (.offer 0), .call (.accept 0), .call (.commit 0),
      .call (.acquire 1), .call (.offer 1), .call (.accept 1), .write 0, .write 0,
      (.write 0 : SessionStep Nat Nat)] → TopicExists l := by
    intro l member c op topic same given
    subst same
    obtain ⟨-, rfl⟩ | ⟨-, rfl⟩ : (c = 0 ∧ op = .publishBirth plantDevice ⟨0⟩) ∨
        (c = 1 ∧ op = plantData) := by simpa using member
    · cases given
    · cases given
      exact .built .sparkplugB (.ddata plantNode.group plantNode.edgeNodeId plantDevice)
  obtain ⟨-, stream, checked⟩ := hosts_hear_the_stream run exist .sparkplugB plantNode
  refine ⟨s, run, (stream (by decide)).trans marks, checked run (by simp) fun h member => ?_⟩
  exact of_decide_eq_true (List.all_eq_true.mp own h member)

end Session

end Sparkplug
