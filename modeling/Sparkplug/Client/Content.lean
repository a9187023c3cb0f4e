import Sparkplug.Client.Serial
import Sparkplug.Client.Untracked

/-! What a host application reads of the messages of a call, against what the caller said.
The encoding of a payload is generated code, so a host reads the record here. -/
namespace Sparkplug

open Transition

abbrev Reading := String × MetricValue × UInt64

/-- The value of a metric, where the datatype beside it names its kind. -/
def Metric.reading (m : Metric) : Option Reading := do
  let name ← m.name
  let value ← m.value
  let datatype ← m.datatype.bind DataType.fromCode
  let timestamp ← m.timestamp
  match value, datatype with
  | .doubleValue v, .double => some (name, .float v, timestamp)
  | .stringValue v, .string => some (name, .string v, timestamp)
  | .booleanValue v, .boolean => some (name, .bool v, timestamp)
  | .longValue v, .uint64 => some (name, .int v, timestamp)
  | _, _ => none

/-- A message without its number. -/
structure Letter where
  topic : String
  options : WireOptions
  instant : Option UInt64
  readings : Option (List Reading)

def Message.read (m : Message) : Letter :=
  ⟨m.topic.toString, m.options, m.payload.timestamp, m.payload.metrics.mapM Metric.reading⟩

namespace Client

variable (client : Client)

def nodeText (messageType : MessageType) (group node : String) : String :=
  Segments.join '/' [client.ns.text, group, messageType.asStr, node]

def deviceText (messageType : MessageType) (group node device : String) : String :=
  Segments.join '/' [client.ns.text, group, messageType.asStr, node, device]

/-- The messages of a call in the words of its caller, first to last. -/
def letters : Operation → List Letter
  | .publishMetric group node device name value timestampMs =>
    [⟨client.deviceText .DDATA group node device, wireOptions client.role .DDATA, some timestampMs,
      some [(name, value, timestampMs)]⟩]
  | .publishMetrics group node device metrics now =>
    [⟨client.deviceText .DDATA group node device, wireOptions client.role .DDATA,
      some now.millis, some metrics⟩]
  | .publishMetricTo topic name value timestampMs =>
    [⟨topic.toString, wireOptions client.role topic.messageType, some timestampMs,
      some [(name, value, timestampMs)]⟩]
  | .publishMetricsTo topic metrics now =>
    [⟨topic.toString, wireOptions client.role topic.messageType, some now.millis,
      some metrics⟩]
  | .publishBirth device now =>
    match client.edgeNode with
    | none => []
    | some pair =>
      [⟨client.nodeText .NBIRTH pair.group.text pair.edgeNodeId.text,
        wireOptions client.role .NBIRTH, some now.millis,
        some [("Node Control/Rebirth", .float 0.0, now.millis)]⟩,
      ⟨client.deviceText .DBIRTH pair.group.text pair.edgeNodeId.text device.text,
        wireOptions client.role .DBIRTH, some now.millis,
        some [("Device Control/Rebirth", .float 0.0, now.millis)]⟩]

end Client

def Draft.letter (role : Role) (draft : Draft) : Letter := (draft.message role 0).read

section Letters

variable {client : Client} {op : Operation} {script : Script} {topic : SparkplugTopic}

@[simp] theorem read_message (role : Role) (draft : Draft) (seq : UInt8) :
    (draft.message role seq).read = draft.letter role := by
  cases draft <;> rfl

@[simp] theorem reading_createMetric (name : String) (value : MetricValue)
    (timestampMs : Timestamp) : (createMetric name value timestampMs).reading =
      some (name, value, timestampMs.millis) := by
  cases value <;> rfl

theorem readings_protoMetrics (metrics : List Reading) :
    (protoMetrics metrics).mapM Metric.reading = some metrics := by
  induction metrics with
  | nil => rfl
  | cons metric metrics ih =>
    obtain ⟨name, value, timestampMs⟩ := metric
    rw [protoMetrics] at ih ⊢
    simp only [List.map_cons, List.mapM_cons, reading_createMetric, ih]
    rfl

theorem ddataTopic_toString {group node device : String}
    (built : client.ddataTopic group node device = .ok topic) :
    topic.toString = client.deviceText .DDATA group node device := by
  obtain ⟨_, _, _, rfl, rfl, rfl, rfl⟩ := ddataTopic_built built
  rw [SparkplugTopic.toString_eq_join, Client.deviceText]
  rfl

theorem letters_of_metrics {metrics : List Metric} {instant : Timestamp}
    (built : publishMetricsOn topic metrics instant = .ok script) :
    script.drafts.map (Draft.letter client.role) = [⟨topic.toString,
      wireOptions client.role topic.messageType, some instant.millis,
      metrics.mapM Metric.reading⟩] := by
  obtain ⟨-, first, rest⟩ := publishMetricsOn_ok built
  rw [Script.drafts, first, rest]
  rfl

theorem letters_of_script (built : client.script op = .ok script) :
    script.drafts.map (Draft.letter client.role) = client.letters op := by
  cases op with
  | publishMetric group node device name value timestampMs =>
    obtain ⟨topic, data, rest⟩ := bind_eq_ok built
    rw [letters_of_metrics rest, ddataTopic_toString data, ddataTopic_type data]
    simp [Client.letters]
  | publishMetrics group node device metrics now =>
    obtain ⟨topic, data, rest⟩ := bind_eq_ok built
    rw [letters_of_metrics rest, ddataTopic_toString data, ddataTopic_type data,
      readings_protoMetrics]
    rfl
  | publishMetricTo topic name value timestampMs =>
    rw [letters_of_metrics built]
    simp [Client.letters]
  | publishMetricsTo topic metrics now =>
    rw [letters_of_metrics built, readings_protoMetrics]
    rfl
  | publishBirth device now =>
    change client.publishBirth device now = .ok script at built
    unfold Client.publishBirth at built
    split at built
    · cases built
    · rename_i pair known
      cases Except.ok.inj built
      simp only [Client.letters, known]
      rfl

end Letters

section Calls

variable {κ φ : Type} [DecidableEq κ]

def Sys.readings (s : Sys κ φ) (c : κ) : List Letter :=
  (s.sent.filter fun h => h.1 = c).map fun h => h.2.read

/-- A call that has handed over `k` of its drafts is in this phase. -/
def Phase.reached (script : Script) (k : Nat) : Phase → Prop
  | .returned result => k ≤ script.drafts.length ∧ (result = .ok () ↔ k = script.drafts.length)
  | .cancelled => k < script.drafts.length
  | phase => phase.script = some script ∧ k = phase.handed

/-- What was read of a call is the beginning of its script. -/
def Sys.Reads (client : Client) (script : Script) (s : Sys κ φ) (c : κ) : Prop :=
  ∃ k, (s.call c).reached script k ∧
    s.readings c = (script.drafts.take k).map (Draft.letter client.role)

/-- What was read of each call, against the operation it was started with. -/
structure Said (client : Client) (ls : List (Label κ φ)) (s : Sys κ φ) : Prop where
  idle : ∀ c, s.call c = .idle → s.readings c = []
  rejected : ∀ c op error, .start c op ∈ ls → client.script op = .error error →
    s.call c = .returned (.error error) ∧ s.readings c = []
  built : ∀ c op script, .start c op ∈ ls → client.script op = .ok script →
    s.Reads client script c

variable {client : Client} {s t : Sys κ φ} {l : Label κ φ} {ls : List (Label κ φ)} {c : κ}
  {m : Serial κ} {script : Script}

theorem said_initial : Said client [] (.new : Sys κ φ) := by
  refine ⟨fun _ _ => rfl, ?_, ?_⟩
  · intro c op error started
    cases started
  · intro c op script started
    cases started

variable [DecidableEq φ]

theorem readings_step (moves : Sys.Moves client s l t) (c : κ) :
    t.readings c = s.readings c ∨ ∃ held m, l = .accept c ∧ s.call c = .offered held m ∧
      t.call c = .taken held ∧ t.readings c = s.readings c ++ [m.read] := by
  cases moves with
  | @accepted d held m delivery offers kept =>
    unfold Sys.readings
    rw [put_sent, List.filter_append, List.map_append]
    by_cases own : d = c
    · subst own
      exact .inr ⟨held, m, rfl, offers, put_self, by simp⟩
    · exact .inl (by simp [own])
  | _ => exact .inl rfl

theorem readings_of_same (moves : Sys.Moves client s l t) (same : t.call c = s.call c) :
    t.readings c = s.readings c := by
  rcases readings_step moves c with now | ⟨held, m, -, offers, takes, -⟩
  · exact now
  · rw [offers, takes] at same
    cases same

theorem reads_step (serial : Serialized client.role s m) (h : s.Reads client script c)
    (moves : Sys.Moves client s l t) : t.Reads client script c := by
  by_cases own : l.caller = some c
  · obtain ⟨k, reached, reads⟩ := h
    cases moves with
    | rejected idle => cases own; rw [idle] at reached; cases reached.1
    | started idle => cases own; rw [idle] at reached; cases reached.1
    | acquired waits free =>
      cases own
      rw [waits] at reached
      obtain ⟨scripted, rfl⟩ := reached
      exact ⟨0, by rw [put_self]; exact ⟨scripted, rfl⟩, reads⟩
    | offered ready current built counted =>
      cases own
      rw [ready] at reached
      exact ⟨k, by rw [put_self]; exact reached, reads⟩
    | @accepted _ held message delivery offers kept =>
      cases own
      rw [offers] at reached
      obtain ⟨scripted, rfl⟩ := reached
      obtain rfl : held.script = script := Option.some.inj scripted
      obtain ⟨draft, current, rfl⟩ :=
        (serial.held c held (by rw [offers]; rfl)).offered message offers
      refine ⟨held.stage + 1, by rw [put_self]; exact ⟨rfl, rfl⟩, ?_⟩
      have grown : (s.sent ++ [(c, draft.message client.role (s.count held.script.pair))]).filter
          (fun h => h.1 = c) = s.sent.filter (fun h => h.1 = c) ++
            [(c, draft.message client.role (s.count held.script.pair))] := by
        simp [List.filter_append]
      have place : held.script.drafts[held.stage]? = some draft := current
      rw [Sys.readings, put_sent, grown, List.map_append, List.take_add_one, place,
        List.map_append]
      exact congrArg₂ (· ++ ·) reads (congrArg (fun letter => [letter]) (read_message ..))
    | advanced takes more =>
      cases own
      rw [takes] at reached
      exact ⟨k, by rw [put_self]; exact reached, reads⟩
    | committed takes last =>
      cases own
      rw [takes] at reached
      obtain ⟨scripted, rfl⟩ := reached
      cases scripted
      refine ⟨_, ?_, reads⟩
      rw [put_self]
      exact ⟨Nat.le_of_eq last, fun _ => last, fun _ => rfl⟩
    | refused offers =>
      cases own
      rw [offers] at reached
      exact ⟨k, by rw [put_self]; exact reached, reads⟩
    | left waits =>
      cases own
      rw [waits] at reached
      obtain ⟨scripted, rfl⟩ := reached
      exact ⟨0, by rw [put_self]; exact Nat.succ_pos _, reads⟩
    | cancelled offers =>
      cases own
      rw [offers] at reached
      exact ⟨k, by rw [put_self]; exact reached, reads⟩
    | released unwinds rolled =>
      cases own
      rw [unwinds] at reached
      exact ⟨k, by rw [put_self]; exact reached, reads⟩
    | @restored _ held error unwinds =>
      cases own
      have inside := (serial.held c held (by rw [unwinds]; rfl)).inside
      rw [unwinds] at reached
      obtain ⟨scripted, rfl⟩ := reached
      cases scripted
      refine ⟨held.stage, ?_, reads⟩
      rw [put_self]
      cases error with
      | none => exact inside
      | some error => exact ⟨Nat.le_of_lt inside, by simp [Nat.ne_of_lt inside]⟩
    | happened => cases own
  · obtain ⟨k, reached, reads⟩ := h
    have same := call_of_other moves own
    exact ⟨k, by rw [same]; exact reached, by rw [readings_of_same moves same]; exact reads⟩

theorem said_step (serial : Serialized client.role s m) (h : Said client ls s)
    (moves : Sys.Moves client s l t) : Said client (ls ++ [l]) t := by
  have started {c : κ} {op : Operation} (member : .start c op ∈ ls ++ [l]) :
      .start c op ∈ ls ∨ l = .start c op := by
    simpa [eq_comm] using member
  refine ⟨fun c idle => ?_, fun c op error member built => ?_, fun c op script member built => ?_⟩
  · have before : s.call c = .idle := by
      by_contra busy
      exact busy_step busy moves idle
    rw [readings_of_same moves (idle.trans before.symm)]
    exact h.idle c before
  · rcases started member with earlier | rfl
    · obtain ⟨returned, unread⟩ := h.rejected c op error earlier built
      have same := over_step (by rw [returned]; rfl) moves
      rw [same, readings_of_same moves same]
      exact ⟨returned, unread⟩
    · have unread := h.idle c (idle_of_start moves).1
      cases moves with
      | rejected idle found =>
        cases built.symm.trans found
        exact ⟨put_self, unread⟩
      | started idle found => cases built.symm.trans found
  · rcases started member with earlier | rfl
    · exact reads_step serial (h.built c op script earlier built) moves
    · have unread := h.idle c (idle_of_start moves).1
      cases moves with
      | rejected idle found => cases built.symm.trans found
      | started idle found =>
        cases built.symm.trans found
        refine ⟨0, ?_, unread⟩
        rw [put_self]
        exact ⟨rfl, rfl⟩

theorem said_run {ok : Sys κ φ → Label κ φ → Prop} (run : Run (Sys.step client) ok .new ls s) :
    Said client ls s := by
  induction run with
  | start => exact said_initial
  | snoc before promise taken ih =>
    obtain ⟨m, serial⟩ := serialized_run before
    exact said_step serial ih (Sys.moves_of_step taken)

/-- Whatever runs beside a call, a host reads of it the words of its caller, each once and from
the first on, and all of them exactly where the call returns Ok. -/
theorem hosts_read_what_callers_said {ok : Sys κ φ → Label κ φ → Prop}
    (run : Run (Sys.step client) ok .new ls s) :
    (∀ c op, .start c op ∈ ls →
      (∃ error, client.script op = .error error ∧ s.call c = .returned (.error error) ∧
        s.readings c = []) ∨
      ∃ k, s.readings c = (client.letters op).take k ∧ ((s.call c).over = true →
        k ≤ (client.letters op).length ∧
        (s.call c = .returned (.ok ()) ↔ k = (client.letters op).length))) ∧
    ∀ c m, (c, m) ∈ s.sent → ∃ op, .start c op ∈ ls ∧ m.read ∈ client.letters op := by
  have said := said_run run
  have asked := asked_run run
  refine ⟨fun c op started => ?_, fun c m sent => ?_⟩
  · cases built : client.script op with
    | error error =>
      obtain ⟨returned, unread⟩ := said.rejected c op error started built
      exact .inl ⟨error, rfl, returned, unread⟩
    | ok script =>
      obtain ⟨k, reached, reads⟩ := said.built c op script started built
      rw [List.map_take, letters_of_script built] at reads
      refine .inr ⟨k, reads, fun finished => ?_⟩
      rw [← letters_of_script built, List.length_map]
      cases phase : s.call c with
      | returned result =>
        rw [phase] at reached
        rw [Phase.returned.injEq]
        exact reached
      | cancelled =>
        rw [phase] at reached
        refine ⟨Nat.le_of_lt reached, fun now => (by cases now), fun all => ?_⟩
        exact absurd all (Nat.ne_of_lt reached)
      | _ =>
        rw [phase] at finished
        cases finished
  · obtain ⟨op, started⟩ := asked.origin c (asked.sender c m sent)
    have member : m.read ∈ s.readings c :=
      List.mem_map_of_mem (f := fun h => h.2.read) (List.mem_filter.mpr ⟨sent, by simp⟩)
    cases built : client.script op with
    | error error =>
      rw [(said.rejected c op error started built).2] at member
      cases member
    | ok script =>
      obtain ⟨k, -, reads⟩ := said.built c op script started built
      rw [List.map_take, letters_of_script built] at reads
      rw [reads] at member
      exact ⟨op, started, List.mem_of_mem_take member⟩

end Calls

/-- A birth whose second message is refused, beside a publish for the same edge node. -/
theorem hosts_read_what_callers_said_small : ∃ s : Sys Nat Nat,
    Run (Sys.step plantClient) (Obeys []) .new
      [.start 0 (.publishBirth plantDevice ⟨0⟩), .start 1 plantData, .acquire 0, .offer 0,
        .accept 0, .next 0, .offer 0, .refuse 0 .request, .restore 0, .acquire 1, .offer 1,
        .accept 1] s ∧
    s.call 0 = .returned (.error (.publish .request)) ∧
    ∃ k < 2, s.readings 0 = (plantClient.letters (.publishBirth plantDevice ⟨0⟩)).take k := by
  obtain ⟨s, h, returned⟩ : ∃ s : Sys Nat Nat, exec (Sys.step plantClient) [] .new
      [.start 0 (.publishBirth plantDevice ⟨0⟩), .start 1 plantData, .acquire 0, .offer 0,
        .accept 0, .next 0, .offer 0, .refuse 0 .request, .restore 0, .acquire 1, .offer 1,
        .accept 1] = some s ∧
      s.call 0 = .returned (.error (.publish .request)) := ⟨_, rfl, rfl⟩
  have run := Run.of_exec h
  rcases (hosts_read_what_callers_said run).1 0 (.publishBirth plantDevice ⟨0⟩) (by simp) with
    ⟨error, rejected, -⟩ | ⟨k, reads, ends⟩
  · cases rejected
  · obtain ⟨within, whole⟩ := ends (by rw [returned]; rfl)
    have part : k ≠ 2 := fun all => by
      have ok := whole.mpr all
      rw [returned] at ok
      cases ok
    exact ⟨s, run, returned, k, Nat.lt_of_le_of_ne within part, reads⟩

end Sparkplug
