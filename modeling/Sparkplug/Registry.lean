import Mathlib.Logic.Function.Basic

/-! A map that is filled on first use. Each key has a cell of its own, and who has looked a
cell up keeps reading the cell of that key. Nothing here names a particular program. -/

structure Registry (K V : Type*) where
  slot : K → Option Nat
  cell : Nat → V
  size : Nat
  bounded : ∀ key i, slot key = some i → i < size
  apart : ∀ key other i, slot key = some i → slot other = some i → key = other

namespace Registry

variable {K V : Type*}

def new (default : V) : Registry K V where
  slot := fun _ => none
  cell := fun _ => default
  size := 0
  bounded := nofun
  apart := nofun

def write (r : Registry K V) (i : Nat) (value : V) : Registry K V :=
  { r with cell := Function.update r.cell i value }

def read (r : Registry K V) (key : K) : Option V := (r.slot key).map r.cell

variable [DecidableEq K]

theorem slot_push {r : Registry K V} {key other : K} {i : Nat}
    (found : Function.update r.slot key (some r.size) other = some i) :
    (other = key ∧ i = r.size) ∨ (other ≠ key ∧ r.slot other = some i) := by
  by_cases same : other = key
  · subst same
    rw [Function.update_self] at found
    exact .inl ⟨rfl, (Option.some.inj found).symm⟩
  · rw [Function.update_of_ne same] at found
    exact .inr ⟨same, found⟩

def push (r : Registry K V) (key : K) (value : V) : Registry K V where
  slot := Function.update r.slot key (some r.size)
  cell := Function.update r.cell r.size value
  size := r.size + 1
  bounded := by
    intro other i found
    rcases slot_push found with ⟨-, rfl⟩ | ⟨-, before⟩
    · exact Nat.lt_succ_self _
    · exact Nat.lt_succ_of_lt (r.bounded other i before)
  apart := by
    intro one two i first second
    rcases slot_push first with ⟨rfl, rfl⟩ | ⟨-, before⟩
    · rcases slot_push second with ⟨rfl, -⟩ | ⟨-, before⟩
      · rfl
      · exact absurd (r.bounded two _ before) (Nat.lt_irrefl _)
    · rcases slot_push second with ⟨rfl, rfl⟩ | ⟨-, before'⟩
      · exact absurd (r.bounded one _ before) (Nat.lt_irrefl _)
      · exact r.apart one two i before before'

/-- The cell of this key, added at the given value where there is none yet. -/
def entry (r : Registry K V) (key : K) (default : V) : Nat × Registry K V :=
  match r.slot key with
  | some i => (i, r)
  | none => (r.size, r.push key default)

section Lookup

variable {r : Registry K V} {key other : K} {default value : V} {i : Nat}

theorem entry_of_some (found : r.slot key = some i) : r.entry key default = (i, r) := by
  simp [entry, found]

theorem slot_entry : (r.entry key default).2.slot key = some (r.entry key default).1 := by
  unfold entry
  split
  · rename_i found
    exact found
  · exact Function.update_self ..

/-- No key ever moves to another cell. -/
theorem slot_entry_of_some (found : r.slot other = some i) :
    (r.entry key default).2.slot other = some i := by
  unfold entry
  split
  · exact found
  · rename_i absent
    have apart : other ≠ key := by
      rintro rfl
      cases absent.symm.trans found
    exact (Function.update_of_ne apart ..).trans found

theorem cell_entry_of_some (found : r.slot other = some i) :
    (r.entry key default).2.cell i = r.cell i := by
  unfold entry
  split
  · rfl
  · exact Function.update_of_ne (Nat.ne_of_lt (r.bounded other i found)) ..

theorem cell_entry (key : K) (default : V) (j : Nat) : (r.entry key default).2.cell j = r.cell j ∨
    (r.entry key default).2.cell j = default := by
  unfold entry
  split
  · exact .inl rfl
  · by_cases last : j = r.size
    · subst last
      exact .inr (Function.update_self ..)
    · exact .inl (Function.update_of_ne last ..)

theorem read_entry_self :
    (r.entry key default).2.read key = some ((r.read key).getD default) := by
  unfold entry read
  split
  · rename_i found
    simp [found]
  · rename_i absent
    simp [push, absent]

theorem read_entry_of_ne (apart : other ≠ key) :
    (r.entry key default).2.read other = r.read other := by
  unfold read
  cases found : r.slot other with
  | some j =>
    rw [slot_entry_of_some found]
    exact congrArg some (cell_entry_of_some found)
  | none =>
    unfold entry
    split
    · simp [found]
    · simp [push, apart, found]

omit [DecidableEq K] in
theorem read_write_self (found : r.slot key = some i) :
    (r.write i value).read key = some value := by
  simp [read, write, found]

omit [DecidableEq K] in
theorem read_write_of_ne (found : r.slot key = some i) (apart : other ≠ key) :
    (r.write i value).read other = r.read other := by
  unfold read
  cases elsewhere : r.slot other with
  | none => simp [write, elsewhere]
  | some j =>
    have distinct : j ≠ i := by
      rintro rfl
      exact apart (r.apart other key j elsewhere found)
    simp [write, elsewhere, distinct]

end Lookup

end Registry
