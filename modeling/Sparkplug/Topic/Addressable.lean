import Sparkplug.Topic.Parsing
import Sparkplug.TopicName

/-! Which topics MQTT can carry. The one check of a segment keeps separators and wildcards
out. It lets the null character in, and it knows no length. -/
namespace Sparkplug

open Mqtt

namespace Constructor

def messageType : Constructor → MessageType
  | nbirth _ _ => .NBIRTH
  | ndata _ _ => .NDATA
  | ndeath _ _ => .NDEATH
  | ncmd _ _ => .NCMD
  | dbirth _ _ _ => .DBIRTH
  | ddata _ _ _ => .DDATA
  | ddeath _ _ _ => .DDEATH
  | dcmd _ _ _ => .DCMD
  | state _ => .STATE

def identifiers : Constructor → List String
  | nbirth g n | ndata g n | ndeath g n | ncmd g n => [g.text, n.text]
  | dbirth g n d | ddata g n d | ddeath g n d | dcmd g n d => [g.text, n.text, d.text]
  | state h => [h.text]

/-- The bytes of the namespace, and those of what follows it with a separator ahead of each
text. -/
def bytes (ns : Namespace) (call : Constructor) : Nat :=
  ns.text.utf8ByteSize +
    ((call.messageType.asStr :: call.identifiers).map fun s => s.utf8ByteSize + 1).sum

end Constructor

section Build

variable (ns : Namespace) (call : Constructor)

theorem segments_perm : (call.build ns).segments.Perm
    (ns.text :: call.messageType.asStr :: call.identifiers) := by
  cases call with
  | state h => exact .refl _
  | _ => exact .cons _ (.swap _ _ _)

theorem sum_segments :
    ((call.build ns).segments.map fun s => s.utf8ByteSize + 1).sum = call.bytes ns + 1 := by
  rw [((segments_perm ns call).map _).sum_nat, List.map_cons, List.sum_cons, Constructor.bytes]
  omega

theorem asStr_null (m : MessageType) : '\x00' ∉ m.asStr.toList := by
  cases m <;> decide

theorem segments_null : (∀ s ∈ (call.build ns).segments, '\x00' ∉ s.toList) ↔
    ∀ s ∈ ns.text :: call.identifiers, '\x00' ∉ s.toList := by
  simp only [(segments_perm ns call).mem_iff, List.forall_mem_cons]
  exact ⟨fun h => ⟨h.1, h.2.2⟩, fun h => ⟨h.1, asStr_null _, h.2⟩⟩

end Build

theorem SparkplugTopic.segments_plain (t : SparkplugTopic) : ∀ s ∈ t.segments, Plain s := by
  intro s hs
  obtain ⟨full, -, plus, hash⟩ := usable_iff.mp (t.segments_usable s hs)
  exact ⟨full, plus, hash⟩

theorem SparkplugTopic.toString_plain (t : SparkplugTopic) : Plain t.toString := by
  rw [toString_eq_join]
  exact plain_join t.segments_nonempty t.segments_plain

theorem build_addressable_iff (ns : Namespace) (call : Constructor) :
    IsTopicName (call.build ns).toString ↔
      (∀ s ∈ ns.text :: call.identifiers, '\x00' ∉ s.toList) ∧ call.bytes ns ≤ maxLength := by
  rw [SparkplugTopic.toString_eq_join,
    isTopicName_join (SparkplugTopic.segments_nonempty _) (SparkplugTopic.segments_plain _),
    segments_null, sum_segments, Nat.add_le_add_iff_right]

example : IsTopicName (Namespace.sparkplugB.state ⟨"scada_1", by decide⟩).toString := by decide

theorem parse_addressable_iff {ns : Namespace} {s : String} {t : SparkplugTopic}
    (accepted : ns.parse s = .ok t) :
    IsTopicName t.toString ↔ '\x00' ∉ s.toList ∧ s.utf8ByteSize ≤ maxLength := by
  rw [t.toString_plain.isTopicName_iff, parse_text accepted]

/-- The checks keep the wildcards out. What they let through and MQTT does not carry is the
null character and a text that is too long. -/
theorem topic_addressable_iff (ns : Namespace) :
    (∀ call : Constructor, IsTopicName (call.build ns).toString ↔
      (∀ s ∈ ns.text :: call.identifiers, '\x00' ∉ s.toList) ∧ call.bytes ns ≤ maxLength) ∧
    (∀ (s : String) (t : SparkplugTopic), ns.parse s = .ok t →
      (IsTopicName t.toString ↔ '\x00' ∉ s.toList ∧ s.utf8ByteSize ≤ maxLength)) ∧
    (∀ t, Obtained t → t.toString ≠ "" ∧ '+' ∉ t.toString.toList ∧ '#' ∉ t.toString.toList) :=
  ⟨build_addressable_iff ns, fun _ _ => parse_addressable_iff, fun t _ => t.toString_plain⟩

def groupWithNull : GroupId := ⟨"Plant\x00Floor", by decide⟩

def letters (n : Nat) : String := String.ofList (List.replicate n 'a')

theorem bytes_letters (n : Nat) : (letters n).utf8ByteSize = n := by
  induction n with
  | zero => rfl
  | succ n ih =>
    have more : letters (n + 1) = letters n ++ String.singleton 'a' := by
      rw [letters, List.replicate_succ', String.ofList_append]
      rfl
    rw [more, String.utf8ByteSize_append, ih]
    rfl

theorem usable_letters (n : Nat) : isUsableSegment (letters (n + 1)) = true := by
  rw [usable_iff, letters, String.toList_ofList]
  have only (c : Char) (other : c ≠ 'a') : c ∉ List.replicate (n + 1) 'a' :=
    fun member => other (List.eq_of_mem_replicate member)
  refine ⟨?_, only _ (by decide), only _ (by decide), only _ (by decide)⟩
  rw [ne_eq, String.ofList_eq_empty_iff]
  exact List.cons_ne_nil _ _

theorem long_host (n : Nat) (long : maxLength ≤ n) :
    ∃ host : HostId, TopicId.new .host (letters (n + 1)) = .ok host ∧
      ¬ IsTopicName (Namespace.sparkplugB.state host).toString := by
  let host : HostId := ⟨letters (n + 1), usable_letters n⟩
  refine ⟨host, host.new_text, fun legal => ?_⟩
  have short := ((build_addressable_iff _ (.state host)).mp legal).2
  have size : host.text.utf8ByteSize = n + 1 := bytes_letters (n + 1)
  simp only [Constructor.bytes, Constructor.identifiers, List.map_cons, List.sum_cons, size]
    at short
  omega

/-- Each check passes, the parser takes the first topic back, and MQTT carries neither. -/
theorem unaddressable_topics :
    (TopicId.new .group "Plant\x00Floor" = .ok groupWithNull ∧
      Namespace.sparkplugB.parse (Namespace.sparkplugB.nbirth groupWithNull edgeOne).toString =
        .ok (Namespace.sparkplugB.nbirth groupWithNull edgeOne) ∧
      ¬ IsTopicName (Namespace.sparkplugB.nbirth groupWithNull edgeOne).toString) ∧
    ∃ host : HostId, TopicId.new .host (letters 65536) = .ok host ∧
      ¬ IsTopicName (Namespace.sparkplugB.state host).toString := by
  refine ⟨⟨groupWithNull.new_text, ?_, fun legal => ?_⟩, long_host 65535 (Nat.le_refl _)⟩
  · exact parse_node _ .NBIRTH rfl groupWithNull edgeOne (by decide)
  · have null := ((build_addressable_iff _ (.nbirth groupWithNull edgeOne)).mp legal).1
    exact null groupWithNull.text (by simp [Constructor.identifiers]) (by decide)

end Sparkplug
