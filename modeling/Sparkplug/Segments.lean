import Mathlib.Algebra.GroupWithZero.Nat
import Mathlib.Data.String.Basic

/-! Strings as segments between a separator character. Splitting and joining undo each
other as soon as no segment holds the separator. Nothing is in a joined string, neither a
character nor a byte, but what is in its segments and the separators between them. -/
namespace Segments

/-- The segments of `s` between the separators, empty ones included. -/
def split (sep : Char) (s : String) : List String :=
  (s.toList.splitOn sep).map String.ofList

def join (sep : Char) (parts : List String) : String :=
  (String.singleton sep).intercalate parts

/-- No segment holds the separator. -/
def Clean (sep : Char) (parts : List String) : Prop :=
  ∀ s ∈ parts, sep ∉ s.toList

@[simp] theorem toList_join (sep : Char) (parts : List String) :
    (join sep parts).toList = [sep].intercalate (parts.map String.toList) := by
  simp [join, String.toList_intercalate]

theorem join_split (sep : Char) (s : String) : join sep (split sep s) = s := by
  apply String.toList_injective
  have undo : String.toList ∘ String.ofList = id := by
    funext cs
    exact String.toList_ofList
  rw [toList_join, split, List.map_map, undo, List.map_id, List.intercalate_splitOn]

theorem split_join {sep : Char} {parts : List String} (clean : Clean sep parts)
    (nonempty : parts ≠ []) : split sep (join sep parts) = parts := by
  have undo : String.ofList ∘ String.toList = id := by
    funext s
    exact String.ofList_toList
  have apart : ∀ cs ∈ parts.map String.toList, sep ∉ cs := by
    intro cs hcs
    obtain ⟨s, hs, rfl⟩ := List.mem_map.mp hcs
    exact clean s hs
  rw [split, toList_join, List.splitOn_intercalate sep apart (by simpa using nonempty),
    List.map_map, undo, List.map_id]

theorem join_injective {sep : Char} {as bs : List String} (has : Clean sep as)
    (hbs : Clean sep bs) (na : as ≠ []) (nb : bs ≠ []) (same : join sep as = join sep bs) :
    as = bs := by
  rw [← split_join has na, ← split_join hbs nb, same]

theorem join_cons (sep : Char) (s t : String) (parts : List String) :
    join sep (s :: t :: parts) = s ++ String.singleton sep ++ join sep (t :: parts) :=
  String.intercalate_cons_cons

theorem mem_join {sep c : Char} {parts : List String} (other : c ≠ sep) :
    c ∈ (join sep parts).toList ↔ ∃ s ∈ parts, c ∈ s.toList := by
  induction parts with
  | nil => simp [join]
  | cons s parts ih =>
    cases parts with
    | nil => simp [join]
    | cons t parts =>
      rw [join_cons, String.toList_append, String.toList_append, List.mem_append,
        List.mem_append, ih]
      simp [other]

theorem utf8ByteSize_join {sep : Char} {parts : List String} (nonempty : parts ≠ []) :
    (join sep parts).utf8ByteSize + sep.utf8Size =
      (parts.map fun s => s.utf8ByteSize + sep.utf8Size).sum := by
  induction parts with
  | nil => exact absurd rfl nonempty
  | cons s parts ih =>
    cases parts with
    | nil => simp [join]
    | cons t parts =>
      have rest := ih (by simp)
      rw [join_cons, String.utf8ByteSize_append, String.utf8ByteSize_append,
        String.utf8ByteSize_singleton, List.map_cons, List.sum_cons, ← rest]
      omega

end Segments
