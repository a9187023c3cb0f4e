import Mathlib.Logic.Relation
import Sparkplug.Registry
import Sparkplug.Seq
import Sparkplug.Transition

/-! Tasks that reserve numbers for any edge nodes, with the gates as the shared objects
they are: a task keeps the gate that `gate_of` handed it, whatever the map holds later. Each
task has one reservation at a time, as the publish calls have. -/
namespace Sparkplug

open Transition

variable {τ : Type}

inductive TaskPhase where
  | idle
  /-- In `lock_owned().await`, with the gate that `gate_of` returned. -/
  | waiting (pair : EdgeNode) (gate : Nat) (resets : Bool)
  | holding (pair : EdgeNode) (gate : Nat) (restoreTo : Option UInt8)
  deriving DecidableEq

def TaskPhase.place : TaskPhase → Option (EdgeNode × Nat)
  | .idle => none
  | .waiting pair gate _ => some (pair, gate)
  | .holding pair gate _ => some (pair, gate)

structure Tasks (τ : Type) where
  gates : Registry String Gate
  task : τ → TaskPhase

inductive TaskStep (τ : Type) where
  /-- `reserve` or `reserve_reset` up to the gate. -/
  | request (t : τ) (pair : EdgeNode) (resets : Bool)
  | acquire (t : τ)
  | leave (t : τ)
  | next (t : τ)
  | commit (t : τ)
  | drop (t : τ)

namespace Tasks

/-- The `step` argument of `reserve_with`. -/
def stepOf (resets : Bool) (current : UInt8) : UInt8 := if resets then 0 else current + 1

variable [DecidableEq τ]

def new : Tasks τ := ⟨.new ⟨0, false⟩, fun _ => .idle⟩

def gateOf (s : Tasks τ) (pair : EdgeNode) : Nat × Registry String Gate :=
  s.gates.entry (keyOf pair) ⟨0, false⟩

def put (s : Tasks τ) (t : τ) (phase : TaskPhase) : Tasks τ :=
  { s with task := Function.update s.task t phase }

def write (s : Tasks τ) (gate : Nat) (value : Gate) : Tasks τ :=
  { s with gates := s.gates.write gate value }

def step (s : Tasks τ) : TaskStep τ → Option (Tasks τ)
  | .request t pair resets =>
    match s.task t with
    | .idle =>
      let (gate, gates) := s.gateOf pair
      some ({ s with gates := gates }.put t (.waiting pair gate resets))
    | _ => none
  | .acquire t =>
    match s.task t with
    | .waiting pair gate resets =>
      let held := s.gates.cell gate
      if held.locked then none
      else some ((s.write gate ⟨stepOf resets held.count, true⟩).put t
        (.holding pair gate (some held.count)))
    | _ => none
  | .leave t =>
    match s.task t with
    | .waiting _ _ _ => some (s.put t .idle)
    | _ => none
  | .next t =>
    match s.task t with
    | .holding pair gate restoreTo =>
      some ((s.write gate ⟨(s.gates.cell gate).count + 1, true⟩).put t
        (.holding pair gate restoreTo))
    | _ => none
  | .commit t =>
    match s.task t with
    | .holding _ gate _ =>
      some ((s.write gate ⟨(s.gates.cell gate).count, false⟩).put t .idle)
    | _ => none
  | .drop t =>
    match s.task t with
    | .holding _ gate restoreTo =>
      some ((s.write gate ⟨restoreTo.getD (s.gates.cell gate).count, false⟩).put t .idle)
    | _ => none

/-- The counts by their keys, with nothing left of the gates as objects. -/
def counters (s : Tasks τ) : SeqCounters := ⟨s.gates.read⟩

def pairOf (s : Tasks τ) : TaskStep τ → Option EdgeNode
  | .request _ pair _ => some pair
  | .acquire t | .leave t | .next t | .commit t | .drop t => (s.task t).place.map Prod.fst

def WaitsFor (s : Tasks τ) (t u : τ) : Prop := ∃ pair other gate resets restoreTo,
  s.task t = .waiting pair gate resets ∧ s.task u = .holding other gate restoreTo

/-- The same step on counts that know their gates by key only. -/
def keyed (s : Tasks τ) (counters : SeqCounters) : TaskStep τ → Option SeqCounters
  | .request _ pair _ => some (counters.gateOf pair)
  | .acquire t =>
    match s.task t with
    | .waiting pair _ resets =>
      (if resets then counters.reserveReset pair else counters.reserve pair).map Prod.snd
    | _ => none
  | .leave _ => some counters
  | .next t =>
    match s.task t with
    | .holding pair _ restoreTo => some (counters.next ⟨keyOf pair, restoreTo⟩)
    | _ => none
  | .commit t =>
    match s.task t with
    | .holding pair _ restoreTo => some (counters.commit ⟨keyOf pair, restoreTo⟩)
    | _ => none
  | .drop t =>
    match s.task t with
    | .holding pair _ restoreTo => some (counters.drop ⟨keyOf pair, restoreTo⟩)
    | _ => none

/-- The transitions, one for each way a step ends. -/
inductive Moves (s : Tasks τ) : TaskStep τ → Tasks τ → Prop where
  | requested {t pair resets} (idle : s.task t = .idle) :
      Moves s (.request t pair resets)
        ({ s with gates := (s.gateOf pair).2 }.put t (.waiting pair (s.gateOf pair).1 resets))
  | acquired {t pair gate resets} (waits : s.task t = .waiting pair gate resets)
      (free : (s.gates.cell gate).locked = false) :
      Moves s (.acquire t)
        ((s.write gate ⟨stepOf resets (s.gates.cell gate).count, true⟩).put t
          (.holding pair gate (some (s.gates.cell gate).count)))
  | left {t pair gate resets} (waits : s.task t = .waiting pair gate resets) :
      Moves s (.leave t) (s.put t .idle)
  | advanced {t pair gate restoreTo} (holds : s.task t = .holding pair gate restoreTo) :
      Moves s (.next t)
        ((s.write gate ⟨(s.gates.cell gate).count + 1, true⟩).put t
          (.holding pair gate restoreTo))
  | committed {t pair gate restoreTo} (holds : s.task t = .holding pair gate restoreTo) :
      Moves s (.commit t)
        ((s.write gate ⟨(s.gates.cell gate).count, false⟩).put t .idle)
  | dropped {t pair gate restoreTo} (holds : s.task t = .holding pair gate restoreTo) :
      Moves s (.drop t)
        ((s.write gate ⟨restoreTo.getD (s.gates.cell gate).count, false⟩).put t .idle)

theorem moves_of_step {s u : Tasks τ} {l : TaskStep τ} (taken : s.step l = some u) :
    Moves s l u := by
  cases l with
  | request t pair resets =>
    simp only [step] at taken
    split at taken
    · rename_i idle
      cases taken
      exact .requested idle
    · cases taken
  | acquire t =>
    simp only [step] at taken
    split at taken
    · rename_i waits
      split at taken
      · cases taken
      · rename_i free
        cases taken
        exact .acquired waits (by simpa using free)
    · cases taken
  | leave t =>
    simp only [step] at taken
    split at taken
    · rename_i waits
      cases taken
      exact .left waits
    · cases taken
  | next t =>
    simp only [step] at taken
    split at taken
    · rename_i holds
      cases taken
      exact .advanced holds
    · cases taken
  | commit t =>
    simp only [step] at taken
    split at taken
    · rename_i holds
      cases taken
      exact .committed holds
    · cases taken
  | drop t =>
    simp only [step] at taken
    split at taken
    · rename_i holds
      cases taken
      exact .dropped holds
    · cases taken

end Tasks

/-- Each task has the gate of its own edge node, and a locked gate has one holder. -/
structure Held (s : Tasks τ) : Prop where
  placed : ∀ t pair gate, (s.task t).place = some (pair, gate) →
    s.gates.slot (keyOf pair) = some gate
  locked : ∀ t pair gate restoreTo, s.task t = .holding pair gate restoreTo →
    (s.gates.cell gate).locked = true
  owned : ∀ gate, (s.gates.cell gate).locked = true →
    ∃ t pair restoreTo, s.task t = .holding pair gate restoreTo
  exclusive : ∀ t u pair other gate one two, s.task t = .holding pair gate one →
    s.task u = .holding other gate two → t = u

section Invariant

variable {s : Tasks τ} {t u : τ} {phase : TaskPhase} {pair other : EdgeNode} {gate : Nat}
  {restoreTo : Option UInt8} {value : Gate}

theorem held_initial [DecidableEq τ] : Held (Tasks.new : Tasks τ) := by
  constructor
  · intro t pair gate place
    cases place
  · intro t pair gate restoreTo holds
    cases holds
  · intro gate locked
    cases locked
  · intro t u pair other gate one two holds
    cases holds

theorem Held.same_pair (h : Held s) (mine : (s.task t).place = some (pair, gate))
    (theirs : (s.task u).place = some (other, gate)) : pair = other :=
  keyOf_injective (s.gates.apart _ _ gate (h.placed t pair gate mine)
    (h.placed u other gate theirs))

theorem Held.same_gate {gate' : Nat} (h : Held s) (mine : (s.task t).place = some (pair, gate))
    (theirs : (s.task u).place = some (pair, gate')) : gate = gate' :=
  Option.some.inj ((h.placed t pair gate mine).symm.trans (h.placed u pair gate' theirs))

variable [DecidableEq τ]

theorem task_put (phase : TaskPhase) (u : τ) : (u = t ∧ (s.put t phase).task u = phase) ∨
    (u ≠ t ∧ (s.put t phase).task u = s.task u) := by
  by_cases same : u = t
  · subst same
    exact .inl ⟨rfl, Function.update_self ..⟩
  · exact .inr ⟨same, Function.update_of_ne same ..⟩

theorem held_request {resets : Bool} (h : Held s) (idle : s.task t = .idle) :
    Held ({ s with gates := (s.gateOf pair).2 }.put t
      (.waiting pair (s.gateOf pair).1 resets)) := by
  set s' : Tasks τ := { s with gates := (s.gateOf pair).2 }
  have cell {u : τ} {other : EdgeNode} {gate : Nat}
      (place : (s.task u).place = some (other, gate)) : s'.gates.cell gate = s.gates.cell gate :=
    Registry.cell_entry_of_some (h.placed u other gate place)
  constructor
  · intro u other gate place
    rcases task_put (s := s') (t := t) _ u with ⟨-, now⟩ | ⟨-, before⟩
    · rw [now] at place
      cases place
      exact Registry.slot_entry
    · rw [before] at place
      exact Registry.slot_entry_of_some (h.placed u other gate place)
  · intro u other gate restoreTo holds
    rcases task_put (s := s') (t := t) _ u with ⟨-, now⟩ | ⟨-, before⟩
    · cases now.symm.trans holds
    · rw [before] at holds
      have place : (s.task u).place = some (other, gate) := by rw [holds]; rfl
      change (s'.gates.cell gate).locked = true
      rw [cell place]
      exact h.locked u other gate restoreTo holds
  · intro gate locked
    rcases s.gates.cell_entry (keyOf pair) ⟨0, false⟩ gate with old | new
    · obtain ⟨u, other, restoreTo, holds⟩ := h.owned gate (by rw [← old]; exact locked)
      have apart : u ≠ t := by
        rintro rfl
        cases idle.symm.trans holds
      exact ⟨u, other, restoreTo, (Function.update_of_ne apart ..).trans holds⟩
    · have unlocked : (s'.gates.cell gate).locked = false := congrArg Gate.locked new
      cases unlocked.symm.trans locked
  · intro u v one two gate r r' first second
    rcases task_put (s := s') (t := t) _ u with ⟨-, now⟩ | ⟨-, before⟩
    · cases now.symm.trans first
    · rcases task_put (s := s') (t := t) _ v with ⟨-, now⟩ | ⟨-, before'⟩
      · cases now.symm.trans second
      · exact h.exclusive u v one two gate r r' (before.symm.trans first)
          (before'.symm.trans second)

theorem held_write (h : Held s) (mine : (s.task t).place = some (pair, gate))
    (alone : ∀ u other r, s.task u = .holding other gate r → u = t)
    (place : ∀ at_, phase.place = some at_ → at_ = (pair, gate))
    (fits : value.locked = true ↔ ∃ restoreTo, phase = .holding pair gate restoreTo) :
    Held ((s.write gate value).put t phase) := by
  have elsewhere {i : Nat} (apart : i ≠ gate) :
      (s.write gate value).gates.cell i = s.gates.cell i := Function.update_of_ne apart ..
  have here : (s.write gate value).gates.cell gate = value := Function.update_self ..
  have own {other : EdgeNode} {i : Nat} {r : Option UInt8}
      (now : phase = .holding other i r) : i = gate :=
    congrArg Prod.snd (place (other, i) (by rw [now]; rfl))
  constructor
  · intro u other i found
    rcases task_put (s := s.write gate value) (t := t) phase u with
      ⟨-, now⟩ | ⟨-, before⟩
    · rw [now] at found
      cases place _ found
      exact h.placed t pair gate mine
    · rw [before] at found
      exact h.placed u other i found
  · intro u other i r holds
    rcases task_put (s := s.write gate value) (t := t) phase u with
      ⟨-, now⟩ | ⟨apart, before⟩
    · rw [now] at holds
      cases place _ (congrArg TaskPhase.place holds)
      change ((s.write gate value).gates.cell gate).locked = true
      rw [here]
      exact fits.mpr ⟨r, holds⟩
    · rw [before] at holds
      have other_gate : i ≠ gate := by
        rintro rfl
        exact apart (alone u other r holds)
      change ((s.write gate value).gates.cell i).locked = true
      rw [elsewhere other_gate]
      exact h.locked u other i r holds
  · intro i locked
    change ((s.write gate value).gates.cell i).locked = true at locked
    by_cases same : i = gate
    · subst same
      rw [here] at locked
      obtain ⟨r, holds⟩ := fits.mp locked
      exact ⟨t, pair, r, (Function.update_self ..).trans holds⟩
    · rw [elsewhere same] at locked
      obtain ⟨u, other, r, holds⟩ := h.owned i locked
      have apart : u ≠ t := by
        rintro rfl
        rw [holds] at mine
        cases mine
        exact same rfl
      exact ⟨u, other, r, (Function.update_of_ne apart ..).trans holds⟩
  · intro u v one two i r r' first second
    rcases task_put (s := s.write gate value) (t := t) phase u with
      ⟨rfl, now⟩ | ⟨-, before⟩
    · rcases task_put (s := s.write gate value) (t := u) phase v with
        ⟨rfl, -⟩ | ⟨-, before'⟩
      · rfl
      · cases own (now.symm.trans first)
        exact (alone v two r' (before'.symm.trans second)).symm
    · rcases task_put (s := s.write gate value) (t := t) phase v with
        ⟨rfl, now⟩ | ⟨-, before'⟩
      · cases own (now.symm.trans second)
        exact alone u one r (before.symm.trans first)
      · exact h.exclusive u v one two i r r' (before.symm.trans first)
          (before'.symm.trans second)

theorem held_leave {resets : Bool} (h : Held s) (waits : s.task t = .waiting pair gate resets) :
    Held (s.put t .idle) := by
  have still {u : τ} {other : EdgeNode} {i : Nat} {r : Option UInt8}
      (holds : (s.put t .idle).task u = .holding other i r) :
      s.task u = .holding other i r := by
    rcases task_put (s := s) (t := t) .idle u with ⟨-, now⟩ | ⟨-, before⟩
    · cases now.symm.trans holds
    · exact before.symm.trans holds
  constructor
  · intro u other i found
    rcases task_put (s := s) (t := t) .idle u with ⟨-, now⟩ | ⟨-, before⟩
    · rw [now] at found
      cases found
    · rw [before] at found
      exact h.placed u other i found
  · intro u other i r holds
    exact h.locked u other i r (still holds)
  · intro i locked
    obtain ⟨u, other, r, holds⟩ := h.owned i locked
    have apart : u ≠ t := by
      rintro rfl
      cases waits.symm.trans holds
    exact ⟨u, other, r, (Function.update_of_ne apart ..).trans holds⟩
  · intro u v one two i r r' first second
    exact h.exclusive u v one two i r r' (still first) (still second)

theorem held_step {v : Tasks τ} {l : TaskStep τ} (h : Held s) (moves : s.Moves l v) :
    Held v := by
  cases moves with
  | requested idle => exact held_request h idle
  | @acquired t pair gate resets waits free =>
    have mine : (s.task t).place = some (pair, gate) := by rw [waits]; rfl
    refine held_write h mine ?_ ?_ ?_
    · intro u other r holds
      have locked := h.locked u other gate r holds
      rw [free] at locked
      cases locked
    · rintro _ ⟨⟩
      rfl
    · exact ⟨fun _ => ⟨_, rfl⟩, fun _ => rfl⟩
  | left waits => exact held_leave h waits
  | @advanced t pair gate restoreTo holds =>
    have mine : (s.task t).place = some (pair, gate) := by rw [holds]; rfl
    refine held_write h mine ?_ ?_ ?_
    · intro u other r also
      exact h.exclusive u t other pair gate r restoreTo also holds
    · rintro _ ⟨⟩
      rfl
    · exact ⟨fun _ => ⟨_, rfl⟩, fun _ => rfl⟩
  | @committed t pair gate restoreTo holds =>
    have mine : (s.task t).place = some (pair, gate) := by rw [holds]; rfl
    refine held_write h mine ?_ nofun ?_
    · intro u other r also
      exact h.exclusive u t other pair gate r restoreTo also holds
    · exact ⟨nofun, nofun⟩
  | @dropped t pair gate restoreTo holds =>
    have mine : (s.task t).place = some (pair, gate) := by rw [holds]; rfl
    refine held_write h mine ?_ nofun ?_
    · intro u other r also
      exact h.exclusive u t other pair gate r restoreTo also holds
    · exact ⟨nofun, nofun⟩

theorem held_run {ok : Tasks τ → TaskStep τ → Prop} {ls : List (TaskStep τ)}
    (run : Run Tasks.step ok .new ls s) : Held s :=
  run.invariant held_initial fun _ _ _ _ h _ taken => held_step h (Tasks.moves_of_step taken)

end Invariant

section Keyed

variable {s v : Tasks τ} {t : τ} {l : TaskStep τ} {pair : EdgeNode} {gate : Nat} {value : Gate}

theorem gate_of_slot (found : s.gates.slot (keyOf pair) = some gate) :
    s.counters.gate (keyOf pair) = s.gates.cell gate := by
  simp [Tasks.counters, SeqCounters.gate, Registry.read, found]

theorem counters_write (found : s.gates.slot (keyOf pair) = some gate) :
    (s.write gate value).counters = s.counters.write (keyOf pair) value := by
  refine congrArg SeqCounters.mk (funext fun key => ?_)
  by_cases same : key = keyOf pair
  · subst same
    rw [Function.update_self]
    exact Registry.read_write_self found
  · rw [Function.update_of_ne same]
    exact Registry.read_write_of_ne found same

theorem counters_request :
    (⟨(s.gateOf pair).2.read⟩ : SeqCounters) = s.counters.gateOf pair := by
  refine congrArg SeqCounters.mk (funext fun key => ?_)
  by_cases same : key = keyOf pair
  · subst same
    rw [Function.update_self]
    exact Registry.read_entry_self
  · rw [Function.update_of_ne same]
    exact Registry.read_entry_of_ne same

theorem keyed_elsewhere {counters counters' : SeqCounters} {other : EdgeNode}
    (taken : s.keyed counters l = some counters') (apart : s.pairOf l ≠ some other) :
    counters'.gate (keyOf other) = counters.gate (keyOf other) := by
  have distinct {pair : EdgeNode} (named : s.pairOf l = some pair) :
      keyOf other ≠ keyOf pair := by
    intro same
    exact apart (named.trans (congrArg some (keyOf_injective same).symm))
  cases l with
  | request t pair resets =>
    cases taken
    exact gate_write_of_ne (distinct rfl)
  | leave t =>
    cases taken
    rfl
  | acquire t =>
    simp only [Tasks.keyed] at taken
    split at taken
    · rename_i pair gate resets waits
      have named : s.pairOf (.acquire t) = some pair := by
        simp [Tasks.pairOf, waits, TaskPhase.place]
      have apart := distinct named
      split at taken
      · obtain ⟨out, free, rfl⟩ := Option.map_eq_some_iff.mp taken
        obtain ⟨-, rfl⟩ := reserveWith_iff.mp free
        exact gate_write_of_ne apart
      · obtain ⟨out, free, rfl⟩ := Option.map_eq_some_iff.mp taken
        obtain ⟨-, rfl⟩ := reserveWith_iff.mp free
        exact gate_write_of_ne apart
    · cases taken
  | next t =>
    simp only [Tasks.keyed] at taken
    split at taken
    · rename_i holds
      cases taken
      exact gate_write_of_ne (distinct (by simp [Tasks.pairOf, holds, TaskPhase.place]))
    · cases taken
  | commit t =>
    simp only [Tasks.keyed] at taken
    split at taken
    · rename_i holds
      cases taken
      exact gate_write_of_ne (distinct (by simp [Tasks.pairOf, holds, TaskPhase.place]))
    · cases taken
  | drop t =>
    simp only [Tasks.keyed] at taken
    split at taken
    · rename_i holds
      cases taken
      exact gate_write_of_ne (distinct (by simp [Tasks.pairOf, holds, TaskPhase.place]))
    · cases taken

variable [DecidableEq τ]

/-- Gates as shared objects do what counts known by their keys do. -/
theorem counters_step (h : Held s) (moves : s.Moves l v) :
    s.keyed s.counters l = some v.counters := by
  have placed {t : τ} {pair : EdgeNode} {gate : Nat} {phase : TaskPhase}
      (at_ : s.task t = phase) (place : phase.place = some (pair, gate)) :
      s.gates.slot (keyOf pair) = some gate := h.placed t pair gate (by rw [at_]; exact place)
  cases moves with
  | requested idle => exact congrArg some counters_request.symm
  | @acquired t pair gate resets waits free =>
    have found := placed waits rfl
    have cell := gate_of_slot found
    have open_ : (s.counters.gate (keyOf pair)).locked = false := by rw [cell]; exact free
    simp only [Tasks.keyed, waits]
    change _ = some (s.write gate _).counters
    rw [counters_write found, ← cell]
    cases resets with
    | true =>
      rw [if_pos rfl, SeqCounters.reserveReset, reserveWith_iff.mpr ⟨open_, rfl⟩]
      rfl
    | false =>
      rw [if_neg Bool.false_ne_true, SeqCounters.reserve, reserveWith_iff.mpr ⟨open_, rfl⟩]
      rfl
  | left waits => rfl
  | @advanced t pair gate restoreTo holds =>
    have found := placed holds rfl
    simp only [Tasks.keyed, holds]
    change _ = some (s.write gate _).counters
    rw [counters_write found, ← gate_of_slot found, next_of_key rfl]
  | @committed t pair gate restoreTo holds =>
    have found := placed holds rfl
    simp only [Tasks.keyed, holds]
    change _ = some (s.write gate _).counters
    rw [counters_write found, ← gate_of_slot found, commit_of_key rfl]
  | @dropped t pair gate restoreTo holds =>
    have found := placed holds rfl
    simp only [Tasks.keyed, holds]
    change _ = some (s.write gate _).counters
    rw [counters_write found, ← gate_of_slot found]
    rfl

end Keyed

section Isolation

variable [DecidableEq τ] {s u : Tasks τ} {t : τ} {l : TaskStep τ} {pair : EdgeNode}
  {gate : Nat}

theorem slot_step {v : Tasks τ} (moves : s.Moves l v)
    (found : s.gates.slot (keyOf pair) = some gate) :
    v.gates.slot (keyOf pair) = some gate := by
  cases moves with
  | requested idle => exact Registry.slot_entry_of_some found
  | _ => exact found

theorem acquire_iff {resets : Bool} (h : Held s) (waits : s.task t = .waiting pair gate resets) :
    (s.step (.acquire t)).isSome ↔
      ∀ u other i restoreTo, s.task u = .holding other i restoreTo → other ≠ pair := by
  have mine : (s.task t).place = some (pair, gate) := by rw [waits]; rfl
  constructor
  · rintro enabled u other i restoreTo holds rfl
    have place : (s.task u).place = some (other, i) := by rw [holds]; rfl
    cases h.same_gate mine place
    have locked := h.locked u other gate restoreTo holds
    simp [Tasks.step, waits, locked] at enabled
  · intro nobody
    have free : (s.gates.cell gate).locked = false := by
      by_contra locked
      obtain ⟨u, other, restoreTo, holds⟩ := h.owned gate (by simpa using locked)
      have place : (s.task u).place = some (other, gate) := by rw [holds]; rfl
      exact nobody u other gate restoreTo holds (h.same_pair place mine)
    simp [Tasks.step, waits, free]

omit [DecidableEq τ] in
theorem no_waiting_cycle (s : Tasks τ) (t : τ) : ¬Relation.TransGen s.WaitsFor t t := by
  intro cycle
  obtain ⟨u, ⟨pair, -, gate, resets, -, waits, -⟩, -⟩ := Relation.TransGen.head'_iff.mp cycle
  obtain ⟨v, -, ⟨-, other, i, -, restoreTo, -, holds⟩⟩ := Relation.TransGen.tail'_iff.mp cycle
  cases waits.symm.trans holds

theorem slot_run {v : Tasks τ} {ok : Tasks τ → TaskStep τ → Prop} {ls : List (TaskStep τ)}
    (run : Run Tasks.step ok s ls v) (found : s.gates.slot (keyOf pair) = some gate) :
    v.gates.slot (keyOf pair) = some gate :=
  run.invariant (P := fun v => v.gates.slot (keyOf pair) = some gate) found
    fun _ _ _ _ h _ taken => slot_step (Tasks.moves_of_step taken) h

/-- The count and the gate of an edge node are moved by its own steps alone, a step waits
only for a holder of its own edge node, every task has the one gate of the pair it names,
and no tasks wait for each other in a cycle. -/
theorem edge_nodes_count_in_isolation {ok : Tasks τ → TaskStep τ → Prop}
    {ls : List (TaskStep τ)} (run : Run Tasks.step ok .new ls s) :
    (∀ l v other, s.step l = some v → s.pairOf l ≠ some other →
      v.counters.gate (keyOf other) = s.counters.gate (keyOf other)) ∧
    (∀ t pair gate resets, s.task t = .waiting pair gate resets →
      ((s.step (.acquire t)).isSome ↔
        ∀ u other i restoreTo, s.task u = .holding other i restoreTo → other ≠ pair) ∧
      (s.step (.leave t)).isSome) ∧
    (∀ t pair resets, s.task t = .idle → (s.step (.request t pair resets)).isSome) ∧
    (∀ t pair gate restoreTo, s.task t = .holding pair gate restoreTo →
      (s.step (.next t)).isSome ∧ (s.step (.commit t)).isSome ∧ (s.step (.drop t)).isSome) ∧
    (∀ t pair gate later v, (s.task t).place = some (pair, gate) →
      Run Tasks.step ok s later v → (v.gateOf pair).1 = gate) ∧
    (∀ t u pair other gate, (s.task t).place = some (pair, gate) →
      (s.task u).place = some (other, gate) → pair = other) ∧
    (∀ t, ¬Relation.TransGen s.WaitsFor t t) ∧ Function.Injective keyOf := by
  have held := held_run run
  refine ⟨?_, ?_, ?_, ?_, ?_, ?_, no_waiting_cycle s, keyOf_injective⟩
  · intro l v other taken apart
    exact keyed_elsewhere (counters_step held (Tasks.moves_of_step taken)) apart
  · intro t pair gate resets waits
    exact ⟨acquire_iff held waits, by simp [Tasks.step, waits]⟩
  · intro t pair resets idle
    simp [Tasks.step, idle]
  · intro t pair gate restoreTo holds
    simp [Tasks.step, holds]
  · intro t pair gate later v place rest
    have found := slot_run rest (held.placed t pair gate place)
    rw [Tasks.gateOf, Registry.entry_of_some found]
  · intro t u pair other gate mine theirs
    exact held.same_pair mine theirs

end Isolation

def sharedNodeId : EdgeNodeId := ⟨"node7", by decide⟩

def tankNode : EdgeNode := ⟨⟨"Tank", by decide⟩, sharedNodeId⟩

def millNode : EdgeNode := ⟨⟨"Mill", by decide⟩, sharedNodeId⟩

/-- One node id in two groups: the second task does not wait behind the first. -/
theorem edge_nodes_count_in_isolation_small : ∃ s : Tasks Nat,
    Run Tasks.step (Obeys []) .new
      [.request 0 tankNode false, .request 1 millNode true, .acquire 0] s ∧
    (s.step (.acquire 1)).isSome ∧
    (∀ u i restoreTo, s.task u ≠ .holding millNode i restoreTo) ∧
    ¬Relation.TransGen s.WaitsFor 0 0 := by
  obtain ⟨s, h, waits, enabled⟩ : ∃ s : Tasks Nat, exec Tasks.step [] .new
      [.request 0 tankNode false, .request 1 millNode true, .acquire 0] = some s ∧
      s.task 1 = .waiting millNode 1 true ∧ (s.step (.acquire 1)).isSome = true :=
    ⟨_, rfl, rfl, rfl⟩
  have run := Run.of_exec h
  obtain ⟨-, blocked, -, -, -, -, acyclic, -⟩ := edge_nodes_count_in_isolation run
  refine ⟨s, run, enabled, fun u i restoreTo holds => ?_, acyclic 0⟩
  exact (blocked 1 millNode 1 true waits).1.mp enabled u millNode i restoreTo holds rfl

end Sparkplug
