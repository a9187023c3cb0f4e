import Mathlib.Tactic.MkIffOfInductiveProp
import Sparkplug.Segments

/-! Topic names of MQTT 3.1.1: what a client may write into the topic field of a publish
packet. A name that is joined from segments is legal by what its segments hold and by the
sum of their sizes. -/
namespace Mqtt

/-- The most that the two bytes ahead of a string can state. -/
def maxLength : Nat := 65535

@[mk_iff] structure IsTopicName (name : String) : Prop where
  nonempty : name ≠ ""
  plus : '+' ∉ name.toList
  hash : '#' ∉ name.toList
  null : '\x00' ∉ name.toList
  length : name.utf8ByteSize ≤ maxLength

instance (name : String) : Decidable (IsTopicName name) :=
  decidable_of_iff _ (isTopicName_iff name).symm

/-- Some text, and none of it is read as a wildcard by a filter. -/
def Plain (s : String) : Prop := s ≠ "" ∧ '+' ∉ s.toList ∧ '#' ∉ s.toList

theorem Plain.isTopicName_iff {name : String} (plain : Plain name) :
    IsTopicName name ↔ '\x00' ∉ name.toList ∧ name.utf8ByteSize ≤ maxLength := by
  obtain ⟨nonempty, plus, hash⟩ := plain
  exact ⟨fun legal => ⟨legal.null, legal.length⟩,
    fun rest => ⟨nonempty, plus, hash, rest.1, rest.2⟩⟩

section Join

variable {parts : List String}

theorem notMem_join {c : Char} (other : c ≠ '/') :
    c ∉ (Segments.join '/' parts).toList ↔ ∀ s ∈ parts, c ∉ s.toList := by
  rw [Segments.mem_join other]
  push Not
  rfl

theorem bytes_join (some : parts ≠ []) : (Segments.join '/' parts).utf8ByteSize + 1 =
    (parts.map fun s => s.utf8ByteSize + 1).sum :=
  Segments.utf8ByteSize_join some

theorem join_nonempty (some : parts ≠ []) (plain : ∀ s ∈ parts, Plain s) :
    Segments.join '/' parts ≠ "" := by
  intro empty
  have size := bytes_join some
  cases parts with
  | nil => exact some rfl
  | cons s parts =>
    have filled : s.utf8ByteSize ≠ 0 := by
      rw [ne_eq, String.utf8ByteSize_eq_zero_iff]
      exact (plain s List.mem_cons_self).1
    rw [empty, String.utf8ByteSize_empty, List.map_cons, List.sum_cons] at size
    omega

theorem plain_join (some : parts ≠ []) (plain : ∀ s ∈ parts, Plain s) :
    Plain (Segments.join '/' parts) := by
  refine ⟨join_nonempty some plain, ?_, ?_⟩
  · exact (notMem_join (by decide)).mpr fun s hs => (plain s hs).2.1
  · exact (notMem_join (by decide)).mpr fun s hs => (plain s hs).2.2

theorem isTopicName_join (some : parts ≠ []) (plain : ∀ s ∈ parts, Plain s) :
    IsTopicName (Segments.join '/' parts) ↔ (∀ s ∈ parts, '\x00' ∉ s.toList) ∧
      (parts.map fun s => s.utf8ByteSize + 1).sum ≤ maxLength + 1 := by
  rw [(plain_join some plain).isTopicName_iff, notMem_join (by decide), ← bytes_join some,
    Nat.add_le_add_iff_right]

end Join

end Mqtt
