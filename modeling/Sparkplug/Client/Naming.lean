import Sparkplug.Client.Stream

/-! Which edge node a message names, and which count a call can move. Both follow the
operation the call was started with. -/
namespace Sparkplug

open Transition

variable {κ φ : Type}

def Phase.script : Phase → Option Script
  | .waiting script => some script
  | phase => phase.holding.map Holding.script

/-- What the labels of a run say about its calls and its messages. -/
structure Asked (client : Client) (ls : List (Label κ φ)) (s : Sys κ φ) : Prop where
  started : ∀ c op, .start c op ∈ ls → s.call c ≠ .idle
  origin : ∀ c, s.call c ≠ .idle → ∃ op, .start c op ∈ ls
  scripted : ∀ c op script, .start c op ∈ ls → (s.call c).script = some script →
    client.script op = .ok script
  sender : ∀ c m, (c, m) ∈ s.sent → s.call c ≠ .idle
  names : ∀ c m, (c, m) ∈ s.sent → ∃ pair, m.topic.edgeNode = some pair
  named : ∀ c op m, .start c op ∈ ls → (c, m) ∈ s.sent →
    m.topic.edgeNode = client.named op

theorem asked_initial (client : Client) : Asked client [] (.new : Sys κ φ) := by
  refine ⟨by simp, ?_, by simp, ?_, ?_, by simp⟩
  · intro c busy
    exact absurd rfl busy
  · intro c m member
    cases member
  · intro c m member
    cases member

section Steps

variable [DecidableEq κ] [DecidableEq φ] {client : Client} {s t : Sys κ φ} {l : Label κ φ}
  {ls : List (Label κ φ)} {c : κ}

theorem busy_step (busy : s.call c ≠ .idle) (moves : Sys.Moves client s l t) :
    t.call c ≠ .idle := by
  rcases phase_step moves c with same | ⟨before, after, found, left, own⟩
  · rw [same]
    exact busy
  · rw [left]
    intro idle
    cases own with
    | @restored _ error => cases error <;> cases idle
    | _ => cases idle

theorem script_step {script : Script} (moves : Sys.Moves client s l t)
    (now : (t.call c).script = some script) : (s.call c).script = some script ∨
      ∃ op, l = .start c op ∧ s.call c = .idle ∧ client.script op = .ok script := by
  rcases phase_step moves c with same | ⟨before, after, found, left, own⟩
  · rw [same] at now
    exact .inl now
  · rw [left] at now
    rw [found]
    cases own with
    | started built => cases now; exact .inr ⟨_, rfl, rfl, built⟩
    | rejected built => cases now
    | committed => cases now
    | left => cases now
    | @restored _ error => cases error <;> cases now
    | _ => exact .inl now

theorem start_step (moves : Sys.Moves client s l t) (idle : s.call c = .idle)
    (busy : t.call c ≠ .idle) : ∃ op, l = .start c op := by
  rcases phase_step moves c with same | ⟨before, after, found, -, own⟩
  · rw [same] at busy
    exact absurd idle busy
  · cases idle.symm.trans found
    cases own with
    | rejected built => exact ⟨_, rfl⟩
    | started built => exact ⟨_, rfl⟩

theorem idle_of_start {op : Operation} (moves : Sys.Moves client s (.start c op) t) :
    s.call c = .idle ∧ t.call c ≠ .idle := by
  cases moves with
  | rejected idle built =>
    refine ⟨idle, ?_⟩
    rw [put_self]
    nofun
  | started idle built =>
    refine ⟨idle, ?_⟩
    rw [put_self]
    nofun

theorem sent_step {m : Message} (moves : Sys.Moves client s l t) (member : (c, m) ∈ t.sent) :
    (c, m) ∈ s.sent ∨ ∃ held, l = .accept c ∧ s.call c = .offered held m := by
  cases moves with
  | accepted offers kept =>
    rcases List.mem_append.mp member with before | now
    · exact .inl before
    · cases List.mem_singleton.mp now
      exact .inr ⟨_, rfl, offers⟩
  | _ => exact .inl member

theorem asked_step (h : Asked client ls s)
    (names : ∀ c held m, s.call c = .offered held m →
      m.topic.edgeNode = some held.script.pair)
    (moves : Sys.Moves client s l t) : Asked client (ls ++ [l]) t := by
  have asked {c : κ} {op : Operation} (member : .start c op ∈ ls ++ [l]) :
      .start c op ∈ ls ∨ l = .start c op := by
    simpa [eq_comm] using member
  constructor
  · intro c op member
    rcases asked member with before | rfl
    · exact busy_step (h.started c op before) moves
    · exact (idle_of_start moves).2
  · intro c busy
    by_cases idle : s.call c = .idle
    · obtain ⟨op, rfl⟩ := start_step moves idle busy
      exact ⟨op, by simp⟩
    · obtain ⟨op, member⟩ := h.origin c idle
      exact ⟨op, List.mem_append_left _ member⟩
  · intro c op script member now
    rcases script_step moves now with before | ⟨op', rfl, idle, built⟩
    · rcases asked member with earlier | rfl
      · exact h.scripted c op script earlier before
      · rw [(idle_of_start moves).1] at before
        cases before
    · rcases asked member with earlier | same
      · exact absurd idle (h.started c op earlier)
      · cases same
        exact built
  · intro c m member
    rcases sent_step moves member with before | ⟨held, -, offers⟩
    · exact busy_step (h.sender c m before) moves
    · refine busy_step ?_ moves
      rw [offers]
      nofun
  · intro c m member
    rcases sent_step moves member with before | ⟨held, -, offers⟩
    · exact h.names c m before
    · exact ⟨_, names c held m offers⟩
  · intro c op m member sent
    rcases sent_step moves sent with before | ⟨held, rfl, offers⟩
    · rcases asked member with earlier | rfl
      · exact h.named c op m earlier before
      · exact absurd (idle_of_start moves).1 (h.sender c m before)
    · rcases asked member with earlier | same
      · have scripted := h.scripted c op held.script earlier (by rw [offers]; rfl)
        rw [names c held m offers, Client.pair_of_script scripted]
      · cases same

theorem count_step {pair : EdgeNode} (gated : Gated s) (moves : Sys.Moves client s l t)
    (moved : t.count pair ≠ s.count pair) :
    ∃ c script, l.caller = some c ∧ (s.call c).script = some script ∧ script.pair = pair := by
  have written {script : Script} {gate : Gate}
      (moved : (s.seq.write (keyOf script.pair) gate |>.gate (keyOf pair)).count ≠
        s.count pair) : script.pair = pair := by
    by_contra apart
    exact moved (count_write_of_ne (Ne.symm apart))
  cases moves with
  | started idle built =>
    exact absurd (congrArg Gate.count gate_gateOf) moved
  | @acquired c script out waits free =>
    obtain ⟨-, rfl⟩ := Script.reserve_iff.mp free
    exact ⟨c, script, rfl, by rw [waits]; rfl, written moved⟩
  | @advanced c held takes more =>
    have holds : (s.call c).holding = some held := by rw [takes]; rfl
    rw [next_of_key (gated.keyed c held holds)] at moved
    exact ⟨c, held.script, rfl, by rw [takes]; rfl, written moved⟩
  | @committed c held takes last =>
    have holds : (s.call c).holding = some held := by rw [takes]; rfl
    rw [commit_of_key (gated.keyed c held holds)] at moved
    exact ⟨c, held.script, rfl, by rw [takes]; rfl, written moved⟩
  | @restored c held error unwinds =>
    have holds : (s.call c).holding = some held := by rw [unwinds]; rfl
    obtain ⟨found, saved⟩ := gated.saved c held holds
    rw [drop_of_key (gated.keyed c held holds) saved] at moved
    exact ⟨c, held.script, rfl, by rw [unwinds]; rfl, written moved⟩
  | _ => exact absurd rfl moved

theorem asked_run {ok : Sys κ φ → Label κ φ → Prop}
    (run : Run (Sys.step client) ok .new ls s) : Asked client ls s := by
  induction run with
  | start => exact asked_initial client
  | @snoc t u ls l before _ taken ih =>
    refine asked_step ih (fun c held m offers => ?_) (Sys.moves_of_step taken)
    exact (offer_run before offers).1

/-- A message names the pair its call names and carries the one count of that pair; a call
moves no other count; and a call that names no pair ends at once and moves none. -/
theorem messages_name_their_call {ok : Sys κ φ → Label κ φ → Prop}
    (run : Run (Sys.step client) ok .new ls s) :
    (∀ c m, (c, m) ∈ s.sent → ∃ op pair, .start c op ∈ ls ∧
      client.named op = some pair ∧ m.topic.edgeNode = some pair) ∧
    (∀ c m op, (c, m) ∈ s.sent → .start c op ∈ ls →
      m.topic.edgeNode = client.named op) ∧
    (∀ c m edgeNode device now, client.identity = .edgeNode edgeNode → (c, m) ∈ s.sent →
      .start c (.publishBirth device now) ∈ ls → m.topic.edgeNode = some edgeNode) ∧
    (∀ c t, Sys.step client s (.accept c) = some t → ∃ m pair, t.sent = s.sent ++ [(c, m)] ∧
      m.topic.edgeNode = some pair ∧ m.payload.seq = some (s.count pair).toUInt64) ∧
    (∀ l t pair, Sys.step client s l = some t → t.count pair ≠ s.count pair →
      ∃ c op, l.caller = some c ∧ .start c op ∈ ls ∧ client.named op = some pair) ∧
    (∀ c op t, client.named op = none → Sys.step client s (.start c op) = some t →
      ∃ e, t = s.put c (.returned (.error e))) ∧
    (client.identity = .publisher → ∀ device now,
      client.script (.publishBirth device now) = .error .notAnEdgeNode) := by
  have asked := asked_run run
  have gated := (atPair_run run).1
  refine ⟨fun c m sent => ?_, fun c m op sent started => asked.named c op m started sent,
    fun c m edgeNode device now identity sent started => ?_, fun c t taken => ?_,
    fun l t pair taken moved => ?_, fun c op t unnamed taken => ?_, fun identity device now => ?_⟩
  · obtain ⟨op, started⟩ := asked.origin c (asked.sender c m sent)
    obtain ⟨pair, names⟩ := asked.names c m sent
    exact ⟨op, pair, started, (asked.named c op m started sent).symm.trans names, names⟩
  · rw [asked.named c _ m started sent]
    simp [Client.named, Client.edgeNode, identity]
  · have moves := Sys.moves_of_step taken
    cases moves with
    | @accepted c held message delivery offers kept =>
      obtain ⟨names, seq⟩ := offer_run run offers
      exact ⟨message, held.script.pair, rfl, names, seq⟩
  · obtain ⟨c, script, own, scripted, rfl⟩ :=
      count_step gated (Sys.moves_of_step taken) moved
    have busy : s.call c ≠ .idle := by
      intro idle
      rw [idle] at scripted
      cases scripted
    obtain ⟨op, started⟩ := asked.origin c busy
    exact ⟨c, op, own, started, Client.pair_of_script (asked.scripted c op script started scripted)⟩
  · cases Sys.moves_of_step taken with
    | rejected idle built => exact ⟨_, rfl⟩
    | started idle built =>
      have names := Client.pair_of_script built
      rw [unnamed] at names
      cases names
  · simp [Client.script, Client.publishBirth, Client.edgeNode, identity]

end Steps

theorem messages_name_their_call_small : ∃ (s : Sys Nat Nat) (m₀ m₁ m₂ : Message),
    Run (Sys.step plantClient) (Obeys []) .new
      [.start 0 (.publishBirth plantDevice ⟨0⟩), .acquire 0, .offer 0, .accept 0, .next 0,
        .offer 0, .accept 0, .commit 0,
        .start 1 (.publishMetric "Boiler" "edge2" "valve" "open" (.bool true) 0), .acquire 1,
        .offer 1, .accept 1] s ∧
    s.sent = [(0, m₀), (0, m₁), (1, m₂)] ∧ m₀.topic.edgeNode = some plantNode ∧
    m₁.topic.edgeNode = some plantNode ∧
    m₂.topic.edgeNode = pairOf "Boiler" "edge2" := by
  obtain ⟨s, m₀, m₁, m₂, h, sent⟩ : ∃ (s : Sys Nat Nat) (m₀ m₁ m₂ : Message),
      exec (Sys.step plantClient) [] .new
        [.start 0 (.publishBirth plantDevice ⟨0⟩), .acquire 0, .offer 0, .accept 0, .next 0,
          .offer 0, .accept 0, .commit 0,
          .start 1 (.publishMetric "Boiler" "edge2" "valve" "open" (.bool true) 0), .acquire 1,
          .offer 1, .accept 1] = some s ∧
      s.sent = [(0, m₀), (0, m₁), (1, m₂)] := ⟨_, _, _, _, rfl, rfl⟩
  have run := Run.of_exec h
  obtain ⟨-, named, births, -⟩ := messages_name_their_call run
  refine ⟨s, m₀, m₁, m₂, run, sent, ?_, ?_, ?_⟩
  · exact births 0 m₀ plantNode plantDevice ⟨0⟩ rfl (by simp [sent]) (by simp)
  · exact births 0 m₁ plantNode plantDevice ⟨0⟩ rfl (by simp [sent]) (by simp)
  · exact named 1 m₂ (.publishMetric "Boiler" "edge2" "valve" "open" (.bool true) 0)
      (by simp [sent]) (by simp)

theorem edge_node_names_another : ∃ (s : Sys Nat Nat) (m : Message),
    plantClient.identity = .edgeNode plantNode ∧
    Run (Sys.step plantClient) (Obeys []) .new
      [.start 0 (.publishMetric "Boiler" "edge2" "valve" "open" (.bool true) 0), .acquire 0,
        .offer 0, .accept 0] s ∧
    s.sent = [(0, m)] ∧ m.topic.edgeNode ≠ some plantNode := by
  obtain ⟨s, m, h, sent, other⟩ : ∃ (s : Sys Nat Nat) (m : Message),
      exec (Sys.step plantClient) [] .new
        [.start 0 (.publishMetric "Boiler" "edge2" "valve" "open" (.bool true) 0), .acquire 0,
          .offer 0, .accept 0] = some s ∧
      s.sent = [(0, m)] ∧ m.topic.edgeNode ≠ some plantNode :=
    ⟨_, _, rfl, rfl, by decide⟩
  exact ⟨s, m, rfl, Run.of_exec h, sent, other⟩

end Sparkplug
