import Mathlib.Data.List.Basic

/-! Runs of a system that takes one labelled step after another. A step function
returns none where its label is not enabled, and `ok` states what the surroundings
promise about a label in the state before it. Nothing here names a particular system. -/
namespace Transition

/-- A run from `s` over the labels in order, every step of which meets `ok`. -/
inductive Run {S A : Type*} (step : S → A → Option S) (ok : S → A → Prop) :
    S → List A → S → Prop where
  | start (s : S) : Run step ok s [] s
  | snoc {s t u : S} {as : List A} {a : A} :
      Run step ok s as t → ok t a → step t a = some u → Run step ok s (as ++ [a]) u

/-- The labels that every rule allows in the state before them. -/
def Obeys {S A : Type*} (rules : List (S → A → Bool)) (s : S) (a : A) : Prop :=
  ∀ rule ∈ rules, rule s a = true

/-- The executable form of a run under rules that compute. -/
def exec {S A : Type*} (step : S → A → Option S) (rules : List (S → A → Bool)) :
    S → List A → Option S
  | s, [] => some s
  | s, a :: as =>
    if rules.all fun rule => rule s a then (step s a).bind fun t => exec step rules t as
    else none

/-- The system with a record beside it that no step reads. -/
def observe {S A G : Type*} (step : S → A → Option S) (note : S → A → G → G) :
    S × G → A → Option (S × G)
  | (s, g), a => (step s a).map fun t => (t, note s a g)

@[simp] theorem obeys_nil {S A : Type*} (s : S) (a : A) : Obeys [] s a := by
  simp [Obeys]

@[simp] theorem obeys_cons {S A : Type*} (rule : S → A → Bool) (rules : List (S → A → Bool))
    (s : S) (a : A) : Obeys (rule :: rules) s a ↔ rule s a = true ∧ Obeys rules s a := by
  simp [Obeys]

section Rules

variable {S T A B : Type*} {step : S → A → Option S} {ok : S → A → Prop}

theorem Run.one {s t : S} {a : A} (promise : ok s a) (taken : step s a = some t) :
    Run step ok s [a] t :=
  .snoc (.start s) promise taken

theorem Run.append {s t u : S} {as bs : List A} (first : Run step ok s as t)
    (second : Run step ok t bs u) : Run step ok s (as ++ bs) u := by
  induction second with
  | start => simpa using first
  | snoc _ promise taken ih =>
    rw [← List.append_assoc]
    exact .snoc ih promise taken

theorem Run.split {s u : S} {as bs : List A} (whole : Run step ok s (as ++ bs) u) :
    ∃ t, Run step ok s as t ∧ Run step ok t bs u := by
  generalize hcs : as ++ bs = cs at whole
  induction whole generalizing bs with
  | start =>
    obtain ⟨rfl, rfl⟩ := List.append_eq_nil_iff.mp hcs
    exact ⟨_, .start _, .start _⟩
  | @snoc _ u cs c before promise taken ih =>
    rcases List.eq_nil_or_concat bs with rfl | ⟨ds, d, rfl⟩
    · refine ⟨u, ?_, .start u⟩
      rw [List.append_nil] at hcs
      exact hcs ▸ .snoc before promise taken
    · rw [List.concat_eq_append, ← List.append_assoc] at hcs
      obtain ⟨hc, hd⟩ := List.append_inj' hcs rfl
      obtain ⟨t, h₁, h₂⟩ := ih hc
      cases (List.cons.inj hd).1
      exact ⟨t, h₁, by rw [List.concat_eq_append]; exact .snoc h₂ promise taken⟩

theorem Run.of_nil {s t : S} (run : Run step ok s [] t) : t = s := by
  generalize hcs : ([] : List A) = cs at run
  cases run with
  | start => rfl
  | snoc => simp at hcs

theorem Run.of_cons {s u : S} {a : A} {as : List A} (run : Run step ok s (a :: as) u) :
    ∃ t, ok s a ∧ step s a = some t ∧ Run step ok t as u := by
  obtain ⟨t, h₁, h₂⟩ := (show Run step ok s ([a] ++ as) u from run).split
  generalize hcs : [a] = cs at h₁
  cases h₁ with
  | start => simp at hcs
  | @snoc _ _ bs b before promise taken =>
    obtain ⟨h, hb⟩ := List.append_inj' (show [] ++ [a] = bs ++ [b] from hcs) rfl
    cases h
    cases (List.cons.inj hb).1
    cases before.of_nil
    exact ⟨t, promise, taken, h₂⟩

/-- What a step preserves, a run preserves. The step may use that its label is in the run. -/
theorem Run.invariant {P : S → Prop} {s t : S} {as : List A} (run : Run step ok s as t)
    (initial : P s)
    (preserves : ∀ t a u, a ∈ as → P t → ok t a → step t a = some u → P u) : P t := by
  induction run with
  | start => exact initial
  | @snoc t u as a _ promise taken ih =>
    refine preserves _ a _ (by simp) (ih fun t b u hb => ?_) promise taken
    exact preserves t b u (List.mem_append_left _ hb)

/-- Where each own step lowers the rank and no other raises it, the rank bounds the own steps. -/
theorem Run.ranked {P : S → Prop} (rank : S → Nat) (own : A → Bool) {s t : S} {as : List A}
    (run : Run step ok s as t) (initial : P s)
    (lowers : ∀ t a u, P t → ok t a → step t a = some u →
      P u ∧ rank u + (if own a then 1 else 0) ≤ rank t) :
    P t ∧ (as.filter own).length + rank t ≤ rank s := by
  induction run with
  | start => exact ⟨initial, by simp⟩
  | @snoc t u as a _ promise taken ih =>
    obtain ⟨holds, bound⟩ := ih
    obtain ⟨now, step⟩ := lowers t a u holds promise taken
    refine ⟨now, ?_⟩
    rw [List.filter_append, List.length_append]
    cases mine : own a with
    | true =>
      rw [mine, if_pos rfl] at step
      rw [List.filter_cons_of_pos mine, List.filter_nil, List.length_singleton]
      omega
    | false =>
      rw [List.filter_cons_of_neg (by simp [mine]), List.filter_nil, List.length_nil]
      omega

theorem Run.promised {s t : S} {as : List A} (run : Run step ok s as t) {a : A}
    (member : a ∈ as) : ∃ u, ok u a := by
  induction run with
  | start => cases member
  | @snoc t u as b _ promise _ ih =>
    rcases List.mem_append.mp member with earlier | last
    · exact ih earlier
    · cases List.mem_singleton.mp last
      exact ⟨t, promise⟩

theorem Run.strengthen {P : S → Prop} {ok' : S → A → Prop} {s t : S} {as : List A}
    (run : Run step ok s as t) (initial : P s)
    (preserves : ∀ t a u, P t → ok t a → step t a = some u → P u)
    (implies : ∀ t a u, P t → ok t a → step t a = some u → ok' t a) :
    Run step ok' s as t ∧ P t := by
  induction run with
  | start => exact ⟨.start _, initial⟩
  | snoc _ promise taken ih =>
    obtain ⟨before, hP⟩ := ih
    exact ⟨.snoc before (implies _ _ _ hP promise taken) taken, preserves _ _ _ hP promise taken⟩

theorem Run.mono {ok' : S → A → Prop} {s t : S} {as : List A} (run : Run step ok s as t)
    (implies : ∀ t a, ok t a → ok' t a) : Run step ok' s as t :=
  (run.strengthen (P := fun _ => True) trivial (fun _ _ _ _ _ _ => trivial)
    (fun t a _ _ promise _ => implies t a promise)).1

theorem Run.follow {follow : T → A → T} {R : S → T → Prop} {s t : S} {as : List A}
    (run : Run step ok s as t) {r : T} (initial : R s r)
    (preserves : ∀ t a u r, R t r → ok t a → step t a = some u → R u (follow r a)) :
    R t (as.foldl follow r) := by
  induction run with
  | start => exact initial
  | snoc _ promise taken ih =>
    rw [List.foldl_append]
    exact preserves _ _ _ _ ih promise taken

/-- Every label of a run is answered by a run of the other system, possibly an empty one. -/
theorem Run.simulate {other : T → B → Option T} {ok' : T → B → Prop} {R : S → T → Prop}
    {s t : S} {as : List A} (run : Run step ok s as t) {r : T} (initial : R s r)
    (answers : ∀ t a u r, R t r → ok t a → step t a = some u →
      ∃ bs r', Run other ok' r bs r' ∧ R u r') :
    ∃ bs r', Run other ok' r bs r' ∧ R t r' := by
  induction run with
  | start => exact ⟨[], r, .start r, initial⟩
  | snoc _ promise taken ih =>
    obtain ⟨bs, r₁, h₁, hR⟩ := ih
    obtain ⟨cs, r₂, h₂, hR'⟩ := answers _ _ _ _ hR promise taken
    exact ⟨bs ++ cs, r₂, h₁.append h₂, hR'⟩

/-- A run seen through a coarser state and coarser labels. A label without a coarser one leaves
the coarser state alone. -/
theorem Run.project {other : T → B → Option T} {ok' : T → B → Prop} (view : S → T)
    (name : A → Option B) {s t : S} {as : List A} (run : Run step ok s as t)
    (seen : ∀ t a u b, name a = some b → ok t a → step t a = some u →
      ok' (view t) b ∧ other (view t) b = some (view u))
    (unseen : ∀ t a u, name a = none → ok t a → step t a = some u → view u = view t) :
    Run other ok' (view s) (as.filterMap name) (view t) := by
  induction run with
  | start => exact .start _
  | @snoc t u as a _ promise taken ih =>
    rw [List.filterMap_append]
    cases named : name a with
    | none =>
      rw [unseen t a u named promise taken, List.filterMap_cons_none named, List.filterMap_nil,
        List.append_nil]
      exact ih
    | some b =>
      rw [List.filterMap_cons_some named, List.filterMap_nil]
      obtain ⟨allowed, moved⟩ := seen t a u b named promise taken
      exact ih.snoc allowed moved

/-- Labels that `keep` rejects leave the related state alone; the others are taken in both
systems. The related run then carries exactly the labels that `keep` accepts. The relation
may read the labels so far. -/
theorem Run.erase {other : T → A → Option T} {ok' : T → A → Prop} {R : List A → S → T → Prop}
    (keep : A → Bool) {s t : S} {as : List A} (run : Run step ok s as t) {r : T}
    (initial : R [] s r)
    (shared : ∀ bs t a u r, Run step ok s bs t → a ∈ as → keep a = true → R bs t r → ok t a →
      step t a = some u → ∃ r', ok' r a ∧ other r a = some r' ∧ R (bs ++ [a]) u r')
    (erased : ∀ bs t a u r, Run step ok s bs t → a ∈ as → keep a = false → R bs t r → ok t a →
      step t a = some u → R (bs ++ [a]) u r) :
    ∃ r', Run other ok' r (as.filter keep) r' ∧ R as t r' := by
  induction run with
  | start => exact ⟨r, .start r, initial⟩
  | @snoc t u as a prior promise taken ih =>
    obtain ⟨r₁, before, hR⟩ := ih
      (fun bs t b u r run hb => shared bs t b u r run (List.mem_append_left _ hb))
      (fun bs t b u r run hb => erased bs t b u r run (List.mem_append_left _ hb))
    have member : a ∈ as ++ [a] := by simp
    cases hk : keep a with
    | true =>
      obtain ⟨r₂, promise', taken', hR'⟩ :=
        shared as _ a _ r₁ prior member hk hR promise taken
      refine ⟨r₂, ?_, hR'⟩
      rw [List.filter_append, List.filter_cons_of_pos hk, List.filter_nil]
      exact .snoc before promise' taken'
    | false =>
      refine ⟨r₁, ?_, erased as _ a _ r₁ prior member hk hR promise taken⟩
      rw [List.filter_append, List.filter_cons_of_neg (by simp [hk]), List.filter_nil,
        List.append_nil]
      exact before

theorem Run.unique {ok' : S → A → Prop} {s t u : S} {as : List A}
    (one : Run step ok s as t) (two : Run step ok' s as u) : t = u := by
  induction one generalizing u with
  | start => exact two.of_nil.symm
  | snoc before _ taken ih =>
    obtain ⟨v, before', last⟩ := two.split
    cases ih before'
    obtain ⟨w, -, taken', rest⟩ := last.of_cons
    cases rest.of_nil
    exact Option.some.inj (taken.symm.trans taken')

theorem Run.both {ok' : S → A → Prop} {s t u : S} {as : List A} (one : Run step ok s as t)
    (two : Run step ok' s as u) : Run step (fun s a => ok s a ∧ ok' s a) s as t := by
  induction one generalizing u with
  | start => exact .start _
  | snoc before promise taken ih =>
    obtain ⟨v, before', last⟩ := two.split
    obtain ⟨w, promise', -, -⟩ := last.of_cons
    cases before.unique before'
    exact .snoc (ih before') ⟨promise, promise'⟩ taken

theorem Run.of_exec {rules : List (S → A → Bool)} {s t : S} {as : List A}
    (h : exec step rules s as = some t) : Run step (Obeys rules) s as t := by
  induction as generalizing s with
  | nil => cases Option.some.inj h; exact .start _
  | cons a as ih =>
    simp only [exec] at h
    split at h
    · rename_i allowed
      obtain ⟨u, taken, rest⟩ := Option.bind_eq_some_iff.mp h
      have promise : Obeys rules s a := List.all_eq_true.mp allowed
      exact (Run.one promise taken).append (ih rest)
    · contradiction

variable {G : Type*} {note : S → A → G → G}

theorem observe_iff {p q : S × G} {a : A} : observe step note p a = some q ↔
    step p.1 a = some q.1 ∧ q.2 = note p.1 a p.2 := by
  obtain ⟨s, g⟩ := p
  obtain ⟨t, g'⟩ := q
  simp only [observe, Option.map_eq_some_iff, Prod.mk.injEq]
  constructor
  · rintro ⟨_, taken, rfl, rfl⟩
    exact ⟨taken, rfl⟩
  · rintro ⟨taken, rfl⟩
    exact ⟨t, taken, rfl, rfl⟩

theorem Run.observed {s t : S} {as : List A} (run : Run step ok s as t) (g : G) :
    ∃ g', Run (observe step note) (fun p a => ok p.1 a) (s, g) as (t, g') := by
  induction run with
  | start => exact ⟨g, .start _⟩
  | @snoc t u as a _ promise taken ih =>
    obtain ⟨g', before⟩ := ih
    exact ⟨note t a g', before.snoc promise (observe_iff.mpr ⟨taken, rfl⟩)⟩

theorem Run.unobserved {p q : S × G} {as : List A}
    (run : Run (observe step note) (fun p a => ok p.1 a) p as q) : Run step ok p.1 as q.1 := by
  induction run with
  | start => exact .start _
  | snoc _ promise taken ih => exact ih.snoc promise (observe_iff.mp taken).1

end Rules

end Transition
