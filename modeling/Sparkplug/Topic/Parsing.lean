import Sparkplug.Topic.RoundTrip

/-! What the parser of src/sparkplug/topic.rs says about any string: what an accepted one
holds, and what a misaddressed one does not promise. -/
namespace Sparkplug

theorem usable_iff {value : String} : isUsableSegment value = true ↔
    value ≠ "" ∧ '/' ∉ value.toList ∧ '+' ∉ value.toList ∧ '#' ∉ value.toList := by
  simp only [isUsableSegment, Bool.and_eq_true, Bool.not_eq_true', List.any_eq_false,
    Bool.or_eq_true, beq_iff_eq, not_or]
  constructor
  · rintro ⟨full, plain⟩
    refine ⟨?_, fun m => (plain _ m).1.1 rfl, fun m => (plain _ m).1.2 rfl,
      fun m => (plain _ m).2 rfl⟩
    rintro rfl
    cases full
  · rintro ⟨full, slash, plus, hash⟩
    constructor
    · simpa [← Bool.not_eq_true, String.isEmpty_iff] using full
    · intro c m
      refine ⟨⟨?_, ?_⟩, ?_⟩ <;> rintro rfl <;> contradiction

theorem MessageType.fromStr_eq_ok {s : String} {m : MessageType} (h : fromStr s = .ok m) :
    s = m.asStr := by
  unfold fromStr at h
  split at h <;> cases h <;> rfl

def Shape.segmentCount : Shape → Nat
  | .node => 4
  | .device => 5
  | .host => 3

/-- The message type a topic of these segments names: STATE in the second segment, any
type in the third one. -/
def namedType (parts : List String) : Option MessageType :=
  if parts[1]? = some MessageType.STATE.asStr then some .STATE
  else parts[2]?.bind fun raw => (MessageType.fromStr raw).toOption

/-- The segments are laid out as a message of type `m` requires. -/
def LaidOut (parts : List String) (m : MessageType) : Prop :=
  parts.length = m.shape.segmentCount ∧
    (m = .STATE → parts[1]? = some MessageType.STATE.asStr)

def Address.shape : Address → Shape
  | .node _ _ => .node
  | .device _ _ _ => .device
  | .host _ => .host

namespace SparkplugTopic

/-- The call of the constructor of `t.messageType` on the accessors of `t`. -/
def call (t : SparkplugTopic) : Option Constructor :=
  match t.messageType with
  | .NBIRTH => do return .nbirth (← t.groupId) (← t.nodeId)
  | .NDATA => do return .ndata (← t.groupId) (← t.nodeId)
  | .NDEATH => do return .ndeath (← t.groupId) (← t.nodeId)
  | .NCMD => do return .ncmd (← t.groupId) (← t.nodeId)
  | .DBIRTH => do return .dbirth (← t.groupId) (← t.nodeId) (← t.deviceId)
  | .DDATA => do return .ddata (← t.groupId) (← t.nodeId) (← t.deviceId)
  | .DDEATH => do return .ddeath (← t.groupId) (← t.nodeId) (← t.deviceId)
  | .DCMD => do return .dcmd (← t.groupId) (← t.nodeId) (← t.deviceId)
  | .STATE => do return .state (← t.hostId)

/-- The shape read from the message type is the one the accessors and the rendered text
have. -/
structure Consistent (t : SparkplugTopic) : Prop where
  groupId : t.groupId.isSome ↔ t.shape = .node ∨ t.shape = .device
  nodeId : t.nodeId.isSome ↔ t.shape = .node ∨ t.shape = .device
  deviceId : t.deviceId.isSome ↔ t.shape = .device
  hostId : t.hostId.isSome ↔ t.shape = .host
  segmentCount : t.segments.length = t.shape.segmentCount

theorem consistent_of_shape {t : SparkplugTopic} (same : t.shape = t.address.shape) :
    t.Consistent := by
  obtain ⟨ns, m, address, checked⟩ := t
  cases address with
  | node g n => constructor <;> simp [same, groupId, nodeId, deviceId, hostId, segments,
      Address.shape, Shape.segmentCount]
  | device g n d => constructor <;> simp [same, groupId, nodeId, deviceId, hostId, segments,
      Address.shape, Shape.segmentCount]
  | host h => constructor <;> simp [same, groupId, nodeId, deviceId, hostId, segments,
      Address.shape, Shape.segmentCount]

end SparkplugTopic

section Build

variable (ns : Namespace)

@[simp] theorem Constructor.call_build (call : Constructor) : (call.build ns).call = some call := by
  cases call <;> rfl

@[simp] theorem Constructor.build_ns (call : Constructor) : (call.build ns).ns = ns := by
  cases call <;> rfl

theorem Constructor.build_consistent (call : Constructor) : (call.build ns).Consistent := by
  cases call <;> exact SparkplugTopic.consistent_of_shape rfl

theorem nodeTopic_built {m : MessageType} (hshape : m.shape = .node) (g : GroupId)
    (n : EdgeNodeId) : ∃ call : Constructor, call.build ns = ns.nodeTopic m g n := by
  cases m with
  | NBIRTH => exact ⟨.nbirth g n, rfl⟩
  | NDATA => exact ⟨.ndata g n, rfl⟩
  | NDEATH => exact ⟨.ndeath g n, rfl⟩
  | NCMD => exact ⟨.ncmd g n, rfl⟩
  | _ => cases hshape

theorem deviceTopic_built {m : MessageType} (hshape : m.shape = .device) (g : GroupId)
    (n : EdgeNodeId) (d : DeviceId) :
    ∃ call : Constructor, call.build ns = ns.deviceTopic m g n d := by
  cases m with
  | DBIRTH => exact ⟨.dbirth g n d, rfl⟩
  | DDATA => exact ⟨.ddata g n d, rfl⟩
  | DDEATH => exact ⟨.ddeath g n d, rfl⟩
  | DCMD => exact ⟨.dcmd g n d, rfl⟩
  | _ => cases hshape

end Build

section Parse

variable {ns : Namespace} {s : String}

theorem bind_eq_ok {ε α β : Type} {x : Except ε α} {f : α → Except ε β} {b : β}
    (h : x >>= f = .ok b) : ∃ a, x = .ok a ∧ f a = .ok b := by
  cases x with
  | error e => cases h
  | ok a => exact ⟨a, rfl, h⟩

theorem bind_eq_error {ε α β : Type} {x : Except ε α} {f : α → Except ε β} {e : ε}
    (h : x >>= f = .error e) : x = .error e ∨ ∃ a, x = .ok a ∧ f a = .error e := by
  cases x with
  | error e' => exact .inl (by cases h; rfl)
  | ok a => exact .inr ⟨a, rfl, h⟩

theorem parse_built {t : SparkplugTopic} (accepted : ns.parse s = .ok t) :
    ∃ call : Constructor, t = call.build ns ∧ Segments.split '/' s = t.segments := by
  simp only [Namespace.parse] at accepted
  generalize Segments.split '/' s = parts at accepted ⊢
  split at accepted
  · cases accepted
  · rename_i own
    replace own : parts.head? = some ns.text := not_not.mp own
    split at accepted
    · rename_i named
      split at accepted
      · obtain ⟨hostId, checked, accepted⟩ := bind_eq_ok accepted
        cases accepted
        have host := TopicId.new_eq_ok checked
        refine ⟨.state hostId, rfl, ?_⟩
        simp_all [SparkplugTopic.segments, Namespace.state]
      · cases accepted
    · rename_i other
      split at accepted
      · cases accepted
      · rename_i rawType third
        obtain ⟨m, typed, read⟩ := bind_eq_ok accepted
        replace typed := MessageType.fromStr_eq_ok typed
        clear accepted
        split at read
        · rename_i hshape
          obtain ⟨g, group, read⟩ := bind_eq_ok read
          obtain ⟨n, node, read⟩ := bind_eq_ok read
          cases read
          obtain ⟨call, built⟩ := nodeTopic_built ns hshape g n
          have group := TopicId.new_eq_ok group
          have node := TopicId.new_eq_ok node
          refine ⟨call, built.symm, ?_⟩
          simp_all [SparkplugTopic.segments, Namespace.nodeTopic]
        · rename_i hshape
          obtain ⟨g, group, read⟩ := bind_eq_ok read
          obtain ⟨n, node, read⟩ := bind_eq_ok read
          obtain ⟨d, device, read⟩ := bind_eq_ok read
          cases read
          obtain ⟨call, built⟩ := deviceTopic_built ns hshape g n d
          have group := TopicId.new_eq_ok group
          have node := TopicId.new_eq_ok node
          have device := TopicId.new_eq_ok device
          refine ⟨call, built.symm, ?_⟩
          simp_all [SparkplugTopic.segments, Namespace.deviceTopic]
        · cases read

theorem parse_text {t : SparkplugTopic} (accepted : ns.parse s = .ok t) : t.toString = s := by
  obtain ⟨call, -, parts⟩ := parse_built accepted
  rw [SparkplugTopic.toString_eq_join, ← parts, Segments.join_split]

theorem parse_ns {t : SparkplugTopic} (accepted : ns.parse s = .ok t) : t.ns = ns := by
  obtain ⟨call, rfl, -⟩ := parse_built accepted
  exact call.build_ns ns

theorem parse_call {t : SparkplugTopic} (accepted : ns.parse s = .ok t) :
    t.call.map (Constructor.build ns) = some t := by
  obtain ⟨call, rfl, -⟩ := parse_built accepted
  rw [Constructor.call_build, Option.map_some]

theorem parse_again {t : SparkplugTopic} (accepted : ns.parse s = .ok t) :
    ns.parse t.toString = .ok t := by
  rw [parse_text accepted, accepted]

theorem parse_usable {t : SparkplugTopic} (accepted : ns.parse s = .ok t) :
    ∀ segment ∈ Segments.split '/' s, isUsableSegment segment = true := by
  obtain ⟨call, -, parts⟩ := parse_built accepted
  rw [parts]
  exact t.segments_usable

theorem namedType_build (call : Constructor) (other : ∀ groupId,
    (call.build ns).groupId = some groupId → groupId.text ≠ MessageType.STATE.asStr) :
    namedType (call.build ns).segments = some (call.build ns).messageType := by
  cases call with
  | state h => rfl
  | _ => exact (if_neg fun same => other _ rfl (Option.some.inj same)).trans rfl

theorem parse_laidOut {t : SparkplugTopic} (accepted : ns.parse s = .ok t) :
    namedType (Segments.split '/' s) = some t.messageType ∧
      (Segments.split '/' s).length = t.shape.segmentCount := by
  obtain ⟨call, rfl, parts⟩ := parse_built accepted
  rw [parts]
  constructor
  · exact namedType_build call fun _ => other_of_parse_build ns call (parse_again accepted)
  · exact (call.build_consistent ns).segmentCount

theorem parse_rejects (none : ∀ t, ns.parse s ≠ .ok t) : ∃ e, ns.parse s = .error e := by
  cases read : ns.parse s with
  | error e => exact ⟨e, rfl⟩
  | ok t => exact absurd read (none t)

/-- Nothing is in an accepted topic that is not in the string, and a string that could
hold no topic is rejected. -/
theorem parse_sound (ns : Namespace) :
    (∀ s t, ns.parse s = .ok t →
      t.ns = ns ∧ t.toString = s ∧ (∀ id ∈ t.address.identifiers, isUsableSegment id = true) ∧
        t.call.map (Constructor.build ns) = some t ∧ ns.parse t.toString = .ok t) ∧
    (∀ s s' t, ns.parse s = .ok t → ns.parse s' = .ok t → s = s') ∧
    (∀ s, (∃ segment ∈ Segments.split '/' s,
        segment = "" ∨ '+' ∈ segment.toList ∨ '#' ∈ segment.toList) →
      ∃ e, ns.parse s = .error e) ∧
    (∀ s, (∀ m, namedType (Segments.split '/' s) = some m →
        (Segments.split '/' s).length ≠ m.shape.segmentCount) →
      ∃ e, ns.parse s = .error e) := by
  refine ⟨?_, ?_, ?_, ?_⟩
  · intro s t accepted
    exact ⟨parse_ns accepted, parse_text accepted, t.checked, parse_call accepted,
      parse_again accepted⟩
  · intro s s' t accepted accepted'
    exact (parse_text accepted).symm.trans (parse_text accepted')
  · intro s ⟨segment, member, unusable⟩
    apply parse_rejects
    intro t accepted
    have ⟨full, _, plus, hash⟩ := usable_iff.mp (parse_usable accepted segment member)
    rcases unusable with empty | wildcard | wildcard
    · exact full empty
    · exact plus wildcard
    · exact hash wildcard
  · intro s miscounted
    apply parse_rejects
    intro t accepted
    have ⟨named, counted⟩ := parse_laidOut accepted
    exact miscounted t.messageType named counted

end Parse

section Consistency

/-- The topics that exist: built by a constructor or read by a parser. -/
inductive Obtained : SparkplugTopic → Prop where
  | built (ns : Namespace) (call : Constructor) : Obtained (call.build ns)
  | parsed (ns : Namespace) (s : String) (t : SparkplugTopic) (accepted : ns.parse s = .ok t) :
      Obtained t

theorem Obtained.exists_call {t : SparkplugTopic} (obtained : Obtained t) :
    ∃ ns, ∃ call : Constructor, t = call.build ns := by
  cases obtained with
  | built ns call => exact ⟨ns, call, rfl⟩
  | parsed ns s t accepted =>
    obtain ⟨call, built, -⟩ := parse_built accepted
    exact ⟨ns, call, built⟩

/-- Each identifier of `t` stands in its own place among the segments. -/
structure Placed (t : SparkplugTopic) (parts : List String) : Prop where
  groupId : ∀ g, t.groupId = some g → parts[1]? = some g.text
  nodeId : ∀ n, t.nodeId = some n → parts[3]? = some n.text
  deviceId : ∀ d, t.deviceId = some d → parts[4]? = some d.text
  hostId : ∀ h, t.hostId = some h → parts[2]? = some h.text

theorem SparkplugTopic.placed_segments (t : SparkplugTopic) : Placed t t.segments := by
  obtain ⟨ns, m, address, checked⟩ := t
  cases address <;> constructor <;> intro id same <;> cases same <;> rfl

theorem parse_placed {ns : Namespace} {s : String} {t : SparkplugTopic}
    (accepted : ns.parse s = .ok t) : Placed t (Segments.split '/' s) := by
  obtain ⟨call, -, parts⟩ := parse_built accepted
  rw [parts]
  exact t.placed_segments

/-- Shape, accessors and rendered text of a topic agree, and its identifiers are the ones
it was built or read from. -/
theorem topic_consistent :
    (∀ (ns : Namespace) (call : Constructor), (call.build ns).call = some call) ∧
    (∀ (ns : Namespace) (s : String) (t : SparkplugTopic), ns.parse s = .ok t →
      Placed t (Segments.split '/' s)) ∧
    (∀ t, Obtained t → t.Consistent ∧
      (∀ id ∈ t.address.identifiers, isUsableSegment id = true) ∧
      Placed t (Segments.split '/' t.toString) ∧
      (Segments.split '/' t.toString).length = t.shape.segmentCount ∧
      ∀ segment ∈ Segments.split '/' t.toString,
        segment ≠ "" ∧ '+' ∉ segment.toList ∧ '#' ∉ segment.toList) := by
  refine ⟨fun ns call => call.call_build ns, fun ns s t => parse_placed, ?_⟩
  intro t obtained
  obtain ⟨ns, call, rfl⟩ := obtained.exists_call
  have consistent := call.build_consistent ns
  rw [SparkplugTopic.split_toString]
  refine ⟨consistent, SparkplugTopic.checked _, SparkplugTopic.placed_segments _,
    consistent.segmentCount, ?_⟩
  intro segment member
  have ⟨full, _, plus, hash⟩ := usable_iff.mp (SparkplugTopic.segments_usable _ segment member)
  exact ⟨full, plus, hash⟩

end Consistency

section Address

theorem Namespace.text_injective : Function.Injective Namespace.text := by
  rintro ⟨a, _⟩ ⟨b, _⟩ same
  cases same
  rfl

/-- The number of segments tells the layout, and the layout where the type stands. -/
theorem SparkplugTopic.segments_injective : Function.Injective SparkplugTopic.segments := by
  rintro ⟨ns, m, address, checked⟩ ⟨ns', m', address', checked'⟩ same
  have parts : ns.text = ns'.text ∧ m.asStr = m'.asStr ∧ address = address' := by
    cases address <;> cases address' <;> simp_all [SparkplugTopic.segments]
  obtain ⟨root, type, rfl⟩ := parts
  cases Namespace.text_injective root
  cases MessageType.asStr_injective type
  rfl

theorem SparkplugTopic.toString_injective : Function.Injective SparkplugTopic.toString := by
  intro t t' same
  apply SparkplugTopic.segments_injective
  rw [← SparkplugTopic.split_toString, ← SparkplugTopic.split_toString, same]

/-- A wire address names one topic, also where an identifier spells a message type. -/
theorem wire_address_unique (t t' : SparkplugTopic) (same : t.toString = t'.toString) :
    t.ns = t'.ns ∧ t.messageType = t'.messageType ∧ t.groupId = t'.groupId ∧
      t.nodeId = t'.nodeId ∧ t.deviceId = t'.deviceId ∧ t.hostId = t'.hostId ∧ t = t' := by
  cases SparkplugTopic.toString_injective same
  exact ⟨rfl, rfl, rfl, rfl, rfl, rfl, rfl⟩

theorem state_group_address_unique :
    Namespace.sparkplugB.nodeTopic .NDATA groupNamedState edgeOne =
      Constructor.build .sparkplugB (.ndata groupNamedState edgeOne) :=
  (wire_address_unique _ _ rfl).2.2.2.2.2.2

end Address

section WrongShape

variable {ns : Namespace} {s : String}

theorem new_ne_wrongTopicShape {kind : IdKind} {value topic : String} {m : MessageType} :
    TopicId.new kind value ≠ .error (.wrongTopicShape topic m) := by
  unfold TopicId.new
  split <;> simp

theorem new_passed {kind : IdKind} {value topic : String} {m : MessageType}
    {f : TopicId kind → Except SparkplugError SparkplugTopic}
    (refused : TopicId.new kind value >>= f = .error (.wrongTopicShape topic m)) :
    ∃ id, f id = .error (.wrongTopicShape topic m) := by
  rcases bind_eq_error refused with bad | ⟨id, _, read⟩
  · exact absurd bad new_ne_wrongTopicShape
  · exact ⟨id, read⟩

theorem fromStr_ne_wrongTopicShape {raw topic : String} {m : MessageType} :
    MessageType.fromStr raw ≠ .error (.wrongTopicShape topic m) := by
  unfold MessageType.fromStr
  split <;> simp

/-- The layout is decided before any segment but the first is checked. -/
theorem parse_wrongTopicShape {topic : String} {m : MessageType}
    (refused : ns.parse s = .error (.wrongTopicShape topic m)) :
    topic = s ∧ (Segments.split '/' s).head? = some ns.text ∧
      namedType (Segments.split '/' s) = some m ∧ ¬LaidOut (Segments.split '/' s) m := by
  simp only [Namespace.parse] at refused
  generalize Segments.split '/' s = parts at refused ⊢
  split at refused
  · cases refused
  · rename_i own
    replace own : parts.head? = some ns.text := not_not.mp own
    split at refused
    · rename_i named
      split at refused
      · obtain ⟨_, read⟩ := new_passed refused
        cases read
      · rename_i uncounted
        cases refused
        refine ⟨rfl, own, if_pos named, fun laidOut => ?_⟩
        obtain ⟨a, b, c, three⟩ := List.length_eq_three.mp laidOut.1
        exact uncounted a b c three
    · rename_i other
      split at refused
      · cases refused
      · rename_i raw third
        rcases bind_eq_error refused with bad | ⟨m', typed, read⟩
        · exact absurd bad fromStr_ne_wrongTopicShape
        · clear refused
          split at read
          · obtain ⟨_, read⟩ := new_passed read
            obtain ⟨_, read⟩ := new_passed read
            cases read
          · obtain ⟨_, read⟩ := new_passed read
            obtain ⟨_, read⟩ := new_passed read
            obtain ⟨_, read⟩ := new_passed read
            cases read
          · rename_i notNode notDevice
            cases read
            refine ⟨rfl, own, ?_, ?_⟩
            · rw [namedType, if_neg other, third, Option.bind_some, typed]
              rfl
            · rintro ⟨counted, host⟩
              cases hshape : m.shape with
              | node =>
                rw [hshape] at counted
                obtain ⟨a, b, c, d, four⟩ := List.length_eq_four.mp counted
                exact notNode a b c d hshape four
              | device =>
                rw [hshape] at counted
                obtain ⟨a, rest, rfl⟩ := List.exists_cons_of_length_eq_add_one counted
                obtain ⟨b, c, d, e, rfl⟩ := List.length_eq_four.mp (Nat.succ.inj counted)
                exact notDevice a b c d e hshape rfl
              | host =>
                cases m with
                | STATE => exact other (host rfl)
                | _ => cases hshape

theorem namedType_third {parts : List String} {m : MessageType}
    (named : namedType parts = some m) (other : parts[1]? ≠ some MessageType.STATE.asStr) :
    ∃ raw, parts[2]? = some raw ∧ MessageType.fromStr raw = .ok m := by
  rw [namedType, if_neg other, Option.bind_eq_some_iff] at named
  obtain ⟨raw, third, typed⟩ := named
  cases read : MessageType.fromStr raw with
  | error e =>
    rw [read] at typed
    cases typed
  | ok m' =>
    rw [read] at typed
    cases typed
    exact ⟨raw, third, read⟩

theorem parse_misaddressed {m : MessageType}
    (own : (Segments.split '/' s).head? = some ns.text)
    (named : namedType (Segments.split '/' s) = some m)
    (misplaced : ¬LaidOut (Segments.split '/' s) m) :
    ns.parse s = .error (.wrongTopicShape s m) := by
  simp only [Namespace.parse]
  generalize Segments.split '/' s = parts at own named misplaced ⊢
  rw [if_neg (not_not.mpr own)]
  by_cases host : parts[1]? = some MessageType.STATE.asStr
  · rw [if_pos host]
    rw [namedType, if_pos host] at named
    cases named
    split
    · exact absurd ⟨rfl, fun _ => host⟩ misplaced
    · rfl
  · obtain ⟨raw, third, typed⟩ := namedType_third named host
    rw [if_neg host, third]
    simp only [typed, bind, Except.bind]
    split
    · rename_i hshape
      refine absurd ⟨by rw [hshape]; rfl, ?_⟩ misplaced
      rintro rfl
      cases hshape
    · rename_i hshape
      refine absurd ⟨by rw [hshape]; rfl, ?_⟩ misplaced
      rintro rfl
      cases hshape
    · rfl

/-- The report of `s`, if it is a wrong shape, is about a well-formed topic of `ns`. -/
def WellReported (ns : Namespace) (s : String) : Prop :=
  ∀ topic m, ns.parse s = .error (.wrongTopicShape topic m) →
    (Segments.split '/' s).head? = some ns.text ∧
      (∀ segment ∈ Segments.split '/' s, isUsableSegment segment = true) ∧
      namedType (Segments.split '/' s) = some m

/-- The segments of `s` name `ns` and a message type, in a layout that is not its own. -/
def Misaddressed (ns : Namespace) (s : String) : Prop :=
  (Segments.split '/' s).head? = some ns.text ∧
    ∃ m, namedType (Segments.split '/' s) = some m ∧ ¬LaidOut (Segments.split '/' s) m

/-- A misaddressed topic is reported as one whatever its other segments hold. -/
theorem wellReported_iff (ns : Namespace) (s : String) :
    WellReported ns s ↔ (Misaddressed ns s →
      ∀ segment ∈ Segments.split '/' s, isUsableSegment segment = true) := by
  constructor
  · intro reported ⟨own, m, named, misplaced⟩
    exact (reported s m (parse_misaddressed own named misplaced)).2.1
  · intro usable topic m refused
    obtain ⟨-, own, named, misplaced⟩ := parse_wrongTopicShape refused
    exact ⟨own, usable ⟨own, m, named, misplaced⟩, named⟩

/-- An empty group is reported as a wrong shape once a device follows an NBIRTH. -/
theorem empty_group_reported_as_wrong_shape :
    Namespace.sparkplugB.parse "spBv1.0//NBIRTH/edge1/pump" =
        .error (.wrongTopicShape "spBv1.0//NBIRTH/edge1/pump" .NBIRTH) ∧
      ¬∀ (ns : Namespace) (s : String), WellReported ns s := by
  have refused : Namespace.sparkplugB.parse "spBv1.0//NBIRTH/edge1/pump" =
      .error (.wrongTopicShape "spBv1.0//NBIRTH/edge1/pump" .NBIRTH) := by decide
  refine ⟨refused, fun all => ?_⟩
  have usable := (all _ _ _ _ refused).2.1 "" (by decide)
  cases usable

end WrongShape

end Sparkplug
