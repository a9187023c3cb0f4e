import Sparkplug.Client.Progress

/-! Publish calls for different edge nodes, one set of which is taken out of a run. The rest
runs on as it did: it finds its gates as before, and the tracker stops no call. -/
namespace Sparkplug

open Transition

variable {κ φ : Type}

/-- A run on the left, and on the right the steps of the calls that `mine` keeps. The edge
nodes that `named` holds of are named by those calls alone. -/
structure Beside (mine : κ → Bool) (named : EdgeNode → Prop) (s r : Sys κ φ) : Prop where
  calls : ∀ c, mine c = true → r.call c = s.call c
  sent : r.sent = s.sent.filter fun p => mine p.1
  gates : ∀ pair, named pair → r.seq.gate (keyOf pair) = s.seq.gate (keyOf pair)
  gated : Gated r
  opened : Open r

theorem beside_initial (mine : κ → Bool) (named : EdgeNode → Prop) :
    Beside mine named (.new : Sys κ φ) .new :=
  ⟨fun _ _ => rfl, rfl, fun _ _ => rfl, gated_initial, open_initial⟩

section Steps

variable [DecidableEq κ] [DecidableEq φ] {client : Client} {s t r u v : Sys κ φ}
  {l : Label κ φ} {mine : κ → Bool} {named : EdgeNode → Prop} {c : κ} {pair : EdgeNode}
  {phase : Phase}

theorem gate_step (gated : Gated s) (moves : Sys.Moves client s l t) (pair : EdgeNode) :
    t.seq.gate (keyOf pair) = s.seq.gate (keyOf pair) ∨
    ∃ c script, l.caller = some c ∧ (s.call c).script = some script ∧ script.pair = pair := by
  have written {c : κ} {script : Script} {gate : Gate} (own : l.caller = some c)
      (scripted : (s.call c).script = some script) :
      (s.seq.write (keyOf script.pair) gate).gate (keyOf pair) = s.seq.gate (keyOf pair) ∨
      ∃ c script, l.caller = some c ∧ (s.call c).script = some script ∧ script.pair = pair := by
    by_cases same : script.pair = pair
    · exact .inr ⟨c, script, own, scripted, same⟩
    · exact .inl (gate_write_of_ne (keyOf_injective.ne (Ne.symm same)))
  cases moves with
  | started idle built => exact .inl gate_gateOf
  | @acquired c script out waits free =>
    obtain ⟨-, rfl⟩ := Script.reserve_iff.mp free
    exact written rfl (by rw [waits]; rfl)
  | @advanced c held takes more =>
    rw [next_of_key (gated.keyed c held (by rw [takes]; rfl))]
    exact written rfl (by rw [takes]; rfl)
  | @committed c held takes last =>
    rw [commit_of_key (gated.keyed c held (by rw [takes]; rfl))]
    exact written rfl (by rw [takes]; rfl)
  | @restored c held error unwinds =>
    have holds : (s.call c).holding = some held := by rw [unwinds]; rfl
    obtain ⟨found, saved⟩ := gated.saved c held holds
    rw [drop_of_key (gated.keyed c held holds) saved]
    exact written rfl (by rw [unwinds]; rfl)
  | _ => exact .inl rfl

theorem beside_without (h : Beside mine named s r) (gated : Gated s)
    (other : l.caller.any mine = false)
    (apart : ∀ c script, l.caller = some c → (s.call c).script = some script → ¬named script.pair)
    (moves : Sys.Moves client s l t) : Beside mine named t r := by
  refine ⟨fun c kept => ?_, ?_, fun pair names => ?_, h.gated, h.opened⟩
  · rw [h.calls c kept]
    refine (call_of_other moves fun own => ?_).symm
    rw [own, Option.any_some, kept] at other
    cases other
  · cases moves with
    | accepted offers kept =>
      have gone : mine _ = false := other
      rw [put_sent, List.filter_append, h.sent, List.filter_cons_of_neg (by simp [gone]),
        List.filter_nil, List.append_nil]
    | _ => exact h.sent
  · rw [h.gates pair names]
    rcases gate_step gated moves pair with same | ⟨c, script, own, scripted, rfl⟩
    · exact same.symm
    · exact absurd names (apart c script own scripted)

theorem beside_both (h : Beside mine named s r) (moves : Sys.Moves client r l (v.put c phase))
    (calls : u.call = s.call) (same : v.call = r.call)
    (sent : v.sent = u.sent.filter fun p => mine p.1)
    (gates : ∀ pair, named pair → v.seq.gate (keyOf pair) = u.seq.gate (keyOf pair)) :
    Sys.Moves client r l (v.put c phase) ∧ Beside mine named (u.put c phase) (v.put c phase) := by
  refine ⟨moves, fun d kept => ?_, sent, gates, gated_step h.gated moves,
    open_step h.gated h.opened moves⟩
  by_cases own : d = c
  · subst own
    rw [put_self, put_self]
  · rw [put_of_ne own, put_of_ne own, calls, same, h.calls d kept]

omit [DecidableEq κ] [DecidableEq φ] in
theorem gates_write {key : String} {gate : Gate} (h : Beside mine named s r) :
    ∀ pair, named pair → (r.seq.write key gate).gate (keyOf pair) =
      (s.seq.write key gate).gate (keyOf pair) := by
  intro pair names
  by_cases same : keyOf pair = key
  · rw [same, gate_write_self, gate_write_self]
  · rw [gate_write_of_ne same, gate_write_of_ne same, h.gates pair names]

theorem beside_shared (h : Beside mine named s r) (gated : Gated s) (own : l.caller = some c)
    (kept : mine c = true) (names : ∀ script, (s.call c).script = some script → named script.pair)
    (moves : Sys.Moves client s l t) :
    ∃ r', Sys.Moves client r l r' ∧ Beside mine named t r' := by
  have call := h.calls c kept
  have sent {message : Message} : r.sent ++ [(c, message)] =
      (s.sent ++ [(c, message)]).filter fun p => mine p.1 := by
    rw [List.filter_append, h.sent, List.filter_cons_of_pos (by exact kept), List.filter_nil]
  cases moves with
  | rejected idle built =>
    cases own
    rw [idle] at call
    exact ⟨_, beside_both h (.rejected call built) rfl rfl h.sent h.gates⟩
  | started idle built =>
    cases own
    rw [idle] at call
    refine ⟨_, beside_both h (.started call built) rfl rfl h.sent fun pair names => ?_⟩
    exact gate_gateOf.trans ((h.gates pair names).trans gate_gateOf.symm)
  | @acquired _ script out waits free =>
    cases own
    obtain ⟨unlocked, rfl⟩ := Script.reserve_iff.mp free
    have gate := h.gates script.pair (names script (by rw [waits]; rfl))
    rw [waits] at call
    rw [← gate] at unlocked ⊢
    have moves' : Sys.Moves client r (.acquire c) _ :=
      .acquired call (Script.reserve_iff.mpr ⟨unlocked, rfl⟩)
    exact ⟨_, beside_both h moves' rfl rfl h.sent (gates_write h)⟩
  | @offered _ held draft message delivery ready current built counted =>
    cases own
    have gate := h.gates held.script.pair (names _ (by rw [ready]; rfl))
    have number : s.seq.number held.reservation = r.seq.number held.reservation := by
      simp only [SeqCounters.number, gated.keyed c held (by rw [ready]; rfl), gate]
    rw [ready] at call
    rw [number] at built
    obtain ⟨delivery', counted'⟩ := offer_total h.opened call message.options.tracked
    exact ⟨_, beside_both h (.offered call current built counted') rfl rfl h.sent h.gates⟩
  | accepted offers kept =>
    cases own
    rw [offers] at call
    obtain ⟨delivery', kept'⟩ := accept_total h.opened call
    exact ⟨_, beside_both h (.accepted call kept') rfl rfl sent h.gates⟩
  | @advanced _ held takes more =>
    cases own
    have keyed := gated.keyed c held (by rw [takes]; rfl)
    have gate := h.gates held.script.pair (names _ (by rw [takes]; rfl))
    rw [takes] at call
    refine ⟨_, beside_both h (.advanced call more) rfl rfl h.sent ?_⟩
    rw [next_of_key keyed, next_of_key keyed, gate]
    exact gates_write h
  | @committed _ held takes last =>
    cases own
    have keyed := gated.keyed c held (by rw [takes]; rfl)
    have gate := h.gates held.script.pair (names _ (by rw [takes]; rfl))
    rw [takes] at call
    refine ⟨_, beside_both h (.committed call last) rfl rfl h.sent ?_⟩
    rw [commit_of_key keyed, commit_of_key keyed, gate]
    exact gates_write h
  | refused offers =>
    cases own
    rw [offers] at call
    exact ⟨_, beside_both h (.refused call) rfl rfl h.sent h.gates⟩
  | left waits =>
    cases own
    rw [waits] at call
    exact ⟨_, beside_both h (.left call) rfl rfl h.sent h.gates⟩
  | cancelled offers =>
    cases own
    rw [offers] at call
    exact ⟨_, beside_both h (.cancelled call) rfl rfl h.sent h.gates⟩
  | released unwinds rolled =>
    cases own
    rw [unwinds] at call
    obtain ⟨delivery', rolled'⟩ := release_total h.opened call
    exact ⟨_, beside_both h (.released call rolled') rfl rfl h.sent h.gates⟩
  | @restored _ held error unwinds =>
    cases own
    have holds : (s.call c).holding = some held := by rw [unwinds]; rfl
    obtain ⟨found, saved⟩ := gated.saved c held holds
    have keyed := gated.keyed c held holds
    rw [unwinds] at call
    refine ⟨_, beside_both h (.restored call) rfl rfl h.sent ?_⟩
    rw [drop_of_key keyed saved, drop_of_key keyed saved]
    exact gates_write h
  | happened outside taken => cases own

variable {ok : Sys κ φ → Label κ φ → Prop} {ls : List (Label κ φ)}

def NamedBy (client : Client) (mine : κ → Bool) (ls : List (Label κ φ)) (pair : EdgeNode) : Prop :=
  ∃ c op, .start c op ∈ ls ∧ mine c = true ∧ client.named op = some pair

/-- Take out of a run all calls for other edge nodes, and every flush and event: what is left is
a run in which each call stands as before, and hands over the same messages in the same order. -/
theorem edge_nodes_do_not_interfere (mine : κ → Bool) (run : Run (Sys.step client) ok .new ls s)
    (apart : ∀ d op pair, .start d op ∈ ls → mine d = false → NamedBy client mine ls pair →
      client.named op ≠ some pair) :
    ∃ r, Run (Sys.step client) (fun _ _ => True) .new (ls.filter fun l => l.caller.any mine) r ∧
      (∀ c, mine c = true → r.call c = s.call c) ∧
      (r.sent = s.sent.filter fun p => mine p.1) ∧
      ∀ pair, NamedBy client mine ls pair → r.count pair = s.count pair := by
  have known {bs : List (Label κ φ)} {t : Sys κ φ} {c : κ} {script : Script}
      (before : Run (Sys.step client) ok .new bs t)
      (asked : ∀ c op, .start c op ∈ bs → .start c op ∈ ls)
      (scripted : (t.call c).script = some script) :
      ∃ op, .start c op ∈ ls ∧ client.named op = some script.pair := by
    have busy : t.call c ≠ .idle := by
      intro idle
      rw [idle] at scripted
      cases scripted
    obtain ⟨op, started⟩ := (asked_run before).origin c busy
    have built := (asked_run before).scripted c op script started scripted
    exact ⟨op, asked c op started, Client.pair_of_script built⟩
  have extend {bs : List (Label κ φ)} {l : Label κ φ} (member : l ∈ ls)
      (asked : ∀ c op, .start c op ∈ bs → .start c op ∈ ls) (c : κ) (op : Operation)
      (now : .start c op ∈ bs ++ [l]) : .start c op ∈ ls := by
    rcases List.mem_append.mp now with earlier | last
    · exact asked c op earlier
    · rw [List.mem_singleton.mp last]
      exact member
  obtain ⟨r, rest, -, beside⟩ : ∃ r, Run (Sys.step client) (fun _ _ => True) .new
      (ls.filter fun l => l.caller.any mine) r ∧
      (∀ c op, .start c op ∈ ls → .start c op ∈ ls) ∧
      Beside mine (NamedBy client mine ls) s r := by
    refine run.erase (R := fun bs s r => (∀ c op, .start c op ∈ bs → .start c op ∈ ls) ∧
      Beside mine (NamedBy client mine ls) s r) _ ⟨by simp, beside_initial _ _⟩ ?_ ?_
    · intro bs t l u r before member kept h _ taken
      obtain ⟨asked, beside⟩ := h
      obtain ⟨c, own, kept⟩ := (Option.any_eq_true _ _).mp kept
      have names (script : Script) (scripted : (t.call c).script = some script) :
          NamedBy client mine ls script.pair := by
        obtain ⟨op, started, names⟩ := known before asked scripted
        exact ⟨c, op, started, kept, names⟩
      obtain ⟨r', moves', beside'⟩ := beside_shared beside (atPair_run before).1 own kept names
        (Sys.moves_of_step taken)
      exact ⟨r', trivial, Sys.step_of_moves moves', extend member asked, beside'⟩
    · intro bs t l u r before member gone h _ taken
      obtain ⟨asked, beside⟩ := h
      refine ⟨extend member asked, beside_without beside (atPair_run before).1 gone ?_
        (Sys.moves_of_step taken)⟩
      intro d script own scripted names
      obtain ⟨op, started, other⟩ := known before asked scripted
      rw [own] at gone
      exact apart d op script.pair started gone names other
  exact ⟨r, rest, beside.calls, beside.sent,
    fun pair names => congrArg Gate.count (beside.gates pair names)⟩

end Steps

/-- A publish for a boiler in the middle of a birth, which is cancelled and leaves the birth as
it would have been alone. -/
theorem edge_nodes_do_not_interfere_small : ∃ s r : Sys Nat Nat,
    Run (Sys.step plantClient) (Obeys []) .new
      [.start 0 (.publishBirth plantDevice ⟨0⟩), .acquire 0, .offer 0,
        .start 1 (.publishMetric "Boiler" "edge2" "valve" "open" (.bool true) 0), .acquire 1,
        .accept 0, .offer 1, .next 0, .offer 0, .cancel 1, .restore 1, .accept 0, .commit 0] s ∧
    Run (Sys.step plantClient) (fun _ _ => True) .new
      [.start 0 (.publishBirth plantDevice ⟨0⟩), .acquire 0, .offer 0, .accept 0, .next 0,
        .offer 0, .accept 0, .commit 0] r ∧
    r.sent = s.sent := by
  obtain ⟨s, h, senders⟩ : ∃ s : Sys Nat Nat, exec (Sys.step plantClient) [] .new
      [.start 0 (.publishBirth plantDevice ⟨0⟩), .acquire 0, .offer 0,
        .start 1 (.publishMetric "Boiler" "edge2" "valve" "open" (.bool true) 0), .acquire 1,
        .accept 0, .offer 1, .next 0, .offer 0, .cancel 1, .restore 1, .accept 0,
        .commit 0] = some s ∧ (s.sent.filter fun p => p.1 == 0) = s.sent := ⟨_, rfl, rfl⟩
  have run := Run.of_exec h
  obtain ⟨r, alone, -, sent, -⟩ := edge_nodes_do_not_interfere (· == 0) run (by
    rintro d op pair started gone ⟨c, other, asked, kept, names⟩
    have boiler : pairOf "Boiler" "edge2" ≠ some plantNode := by decide
    simp only [List.mem_cons, Label.start.injEq, reduceCtorEq, List.not_mem_nil, or_false,
      false_or] at started asked
    rcases started with ⟨rfl, rfl⟩ | ⟨rfl, rfl⟩
    · cases gone
    · rcases asked with ⟨rfl, rfl⟩ | ⟨rfl, rfl⟩
      · cases names
        exact boiler
      · cases kept)
  rw [senders] at sent
  exact ⟨s, r, run, alone, sent⟩

end Sparkplug
