import Mathlib.Logic.Function.Basic
import Sparkplug.Topic

/-! The seq counts of src/sparkplug/seq.rs. Nothing removes an entry of the map or puts
another gate in its place, so every clone of a gate is the entry of its key, and a
reservation names the gate it holds by that key. Each function is one lock of the map or
one stretch under a gate. -/
namespace Sparkplug

/-- The count of one edge node and whether some reservation holds its gate. -/
structure Gate where
  count : UInt8
  locked : Bool
  deriving DecidableEq, Repr

structure SeqCounters where
  gates : String → Option Gate

structure SeqReservation where
  key : String
  /-- The count to write back, until a commit clears it. -/
  restoreTo : Option UInt8
  deriving DecidableEq, Repr

def keyOf (edgeNode : EdgeNode) : String :=
  edgeNode.group.text ++ "/" ++ edgeNode.edgeNodeId.text

namespace SeqCounters

def new : SeqCounters := ⟨fun _ => none⟩

variable (counters : SeqCounters)

/-- The gate of this key, where an absent entry reads as a free gate at 0. -/
def gate (key : String) : Gate := (counters.gates key).getD ⟨0, false⟩

def write (key : String) (gate : Gate) : SeqCounters :=
  ⟨Function.update counters.gates key (some gate)⟩

/-- The entry of this pair, added at its default when the map does not hold it. -/
def gateOf (pair : EdgeNode) : SeqCounters :=
  counters.write (keyOf pair) (counters.gate (keyOf pair))

/-- What `reserve_with` does once it has the gate. It waits while another holds it. -/
def reserveWith (pair : EdgeNode) (step : UInt8 → UInt8) :
    Option (SeqReservation × SeqCounters) :=
  let held := counters.gate (keyOf pair)
  if held.locked then none
  else some (⟨keyOf pair, some held.count⟩, counters.write (keyOf pair) ⟨step held.count, true⟩)

def reserveReset (pair : EdgeNode) : Option (SeqReservation × SeqCounters) :=
  counters.reserveWith pair fun _ => 0

def reserve (pair : EdgeNode) : Option (SeqReservation × SeqCounters) :=
  counters.reserveWith pair fun current => current + 1

variable (reservation : SeqReservation)

def number : UInt8 := (counters.gate reservation.key).count

def next : SeqCounters :=
  counters.write reservation.key ⟨counters.number reservation + 1, true⟩

/-- The drop of a reservation: the count goes back before the gate opens. -/
def drop : SeqCounters :=
  counters.write reservation.key
    ⟨reservation.restoreTo.getD (counters.number reservation), false⟩

def commit : SeqCounters := counters.drop { reservation with restoreTo := none }

end SeqCounters

/-- No identifier holds the separator, so two pairs with one key are one pair. -/
theorem keyOf_injective : Function.Injective keyOf := by
  intro a b same
  have clean (e : EdgeNode) : Segments.Clean '/' [e.group.text, e.edgeNodeId.text] := by
    intro value member
    rcases List.mem_pair.mp member with rfl | rfl
    · exact usable_clean e.group.usable
    · exact usable_clean e.edgeNodeId.usable
  have joined (e : EdgeNode) :
      keyOf e = Segments.join '/' [e.group.text, e.edgeNodeId.text] := rfl
  rw [joined a, joined b] at same
  have parts := Segments.join_injective (clean a) (clean b) (by simp) (by simp) same
  obtain ⟨group, node⟩ : a.group = b.group ∧ a.edgeNodeId = b.edgeNodeId := by
    simpa [TopicId.text_injective.eq_iff] using parts
  cases a
  cases b
  cases group
  cases node
  rfl

section Gates

variable {counters : SeqCounters} {reservation : SeqReservation} {pair : EdgeNode}
  {key : String}

@[simp] theorem gate_new : SeqCounters.new.gate key = ⟨0, false⟩ := rfl

@[simp] theorem gate_write_self {gate : Gate} : (counters.write key gate).gate key = gate := by
  simp [SeqCounters.gate, SeqCounters.write]

theorem gate_write_of_ne {gate : Gate} {other : String} (apart : other ≠ key) :
    (counters.write key gate).gate other = counters.gate other := by
  simp [SeqCounters.gate, SeqCounters.write, apart]

@[simp] theorem gate_gateOf : (counters.gateOf pair).gate key = counters.gate key := by
  unfold SeqCounters.gateOf
  by_cases same : key = keyOf pair
  · rw [same, gate_write_self]
  · rw [gate_write_of_ne same]

theorem next_of_key (keyed : reservation.key = keyOf pair) : counters.next reservation =
    counters.write (keyOf pair) ⟨(counters.gate (keyOf pair)).count + 1, true⟩ := by
  rw [SeqCounters.next, SeqCounters.number, keyed]

theorem drop_of_key {found : UInt8} (keyed : reservation.key = keyOf pair)
    (saved : reservation.restoreTo = some found) : counters.drop reservation =
    counters.write (keyOf pair) ⟨found, false⟩ := by
  rw [SeqCounters.drop, keyed, saved, Option.getD_some]

theorem commit_of_key (keyed : reservation.key = keyOf pair) : counters.commit reservation =
    counters.write (keyOf pair) ⟨(counters.gate (keyOf pair)).count, false⟩ := by
  simp [SeqCounters.commit, SeqCounters.drop, SeqCounters.number, keyed]

theorem reserveWith_iff {step : UInt8 → UInt8} {out : SeqReservation × SeqCounters} :
    counters.reserveWith pair step = some out ↔
      (counters.gate (keyOf pair)).locked = false ∧
      out = (⟨keyOf pair, some (counters.gate (keyOf pair)).count⟩,
        counters.write (keyOf pair) ⟨step (counters.gate (keyOf pair)).count, true⟩) := by
  unfold SeqCounters.reserveWith
  cases free : (counters.gate (keyOf pair)).locked with
  | true => simp [free]
  | false =>
    simp only [free, Bool.false_eq_true, if_false, Option.some.injEq, true_and]
    exact eq_comm

end Gates

end Sparkplug
