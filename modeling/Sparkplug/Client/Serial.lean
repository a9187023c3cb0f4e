import Sparkplug.Client.Birth

/-! The publish calls against a model without gates, in which a call is one step. That model
takes the calls in the order in which they let their gates go. -/
namespace Sparkplug

open Transition

variable {κ φ : Type}

/-- One stay at a gate, from its end: the client took this many drafts of the script. -/
structure Turn (κ : Type) where
  call : κ
  script : Script
  handed : Nat

structure Serial (κ : Type) where
  count : EdgeNode → UInt8
  stream : EdgeNode → List (κ × Message)

namespace Turn

def whole (turn : Turn κ) : Bool := turn.handed == turn.script.drafts.length

/-- The messages of a turn that found the count of its edge node at `found`. -/
def block (role : Role) (turn : Turn κ) (found : UInt8) : List (κ × Message) :=
  (turn.script.messages role (turn.script.drawn found) turn.handed).map (Prod.mk turn.call)

/-- Only a whole turn moves the count. -/
def leaves (turn : Turn κ) (found : UInt8) : UInt8 :=
  if turn.whole then turn.script.reached found turn.handed else found

end Turn

namespace Serial

def new : Serial κ := ⟨fun _ => 0, fun _ => []⟩

def publish (role : Role) (m : Serial κ) (turn : Turn κ) : Serial κ :=
  let pair := turn.script.pair
  { count := Function.update m.count pair (turn.leaves (m.count pair))
    stream := Function.update m.stream pair (m.stream pair ++ turn.block role (m.count pair)) }

def run (role : Role) (turns : List (Turn κ)) : Serial κ := turns.foldl (publish role) new

section Publish

variable (role : Role) (m : Serial κ) (turn : Turn κ)

@[simp] theorem publish_count : (m.publish role turn).count turn.script.pair =
    turn.leaves (m.count turn.script.pair) := Function.update_self ..

@[simp] theorem publish_stream : (m.publish role turn).stream turn.script.pair =
    m.stream turn.script.pair ++ turn.block role (m.count turn.script.pair) :=
  Function.update_self ..

theorem publish_elsewhere {pair : EdgeNode} (apart : pair ≠ turn.script.pair) :
    (m.publish role turn).count pair = m.count pair ∧
    (m.publish role turn).stream pair = m.stream pair :=
  ⟨Function.update_of_ne apart .., Function.update_of_ne apart ..⟩

theorem run_concat (turns : List (Turn κ)) :
    run role (turns ++ [turn]) = (run role turns).publish role turn := List.foldl_append

end Publish

end Serial

def Phase.handed : Phase → Nat
  | .taken held => held.stage + 1
  | phase => (phase.holding.map Holding.stage).getD 0

/-- The gate this step lets go, if it does, with what was handed over behind it. -/
def Sys.turnOf (s : Sys κ φ) : Label κ φ → Option (Turn κ)
  | .commit c =>
    match s.call c with
    | .taken held => some ⟨c, held.script, held.stage + 1⟩
    | _ => none
  | .restore c =>
    match s.call c with
    | .unwinding held _ _ => some ⟨c, held.script, held.stage⟩
    | _ => none
  | _ => none

def noteTurn (s : Sys κ φ) (l : Label κ φ) (turns : List (Turn κ)) : List (Turn κ) :=
  turns ++ (s.turnOf l).toList

/-- A call inside its stay, against the model that has not seen the stay yet. -/
structure Within (role : Role) (s : Sys κ φ) (m : Serial κ) (c : κ) (held : Holding) : Prop where
  inside : held.stage < held.script.drafts.length
  found : held.reservation.restoreTo = some (m.count held.script.pair)
  count : s.count held.script.pair =
    held.script.drawn (m.count held.script.pair) + UInt8.ofNat held.stage
  stream : sentFor held.script.pair s.sent = m.stream held.script.pair ++
    Turn.block role ⟨c, held.script, (s.call c).handed⟩ (m.count held.script.pair)
  offered : ∀ message, s.call c = .offered held message → ∃ draft, held.draft = some draft ∧
    message = draft.message role (s.count held.script.pair)

/-- Behind every gate that is free the model and the client agree. -/
structure Serialized (role : Role) (s : Sys κ φ) (m : Serial κ) : Prop where
  free : ∀ pair, (∀ c held, (s.call c).holding = some held → held.script.pair ≠ pair) →
    s.count pair = m.count pair ∧ sentFor pair s.sent = m.stream pair
  held : ∀ c held, (s.call c).holding = some held → Within role s m c held

def Turn.Ends (turn : Turn κ) (phase : Phase) : Prop :=
  if turn.whole then phase = .returned (.ok ())
  else phase = .cancelled ∨ ∃ error, phase = .returned (.error (.publish error))

/-- The turns of a run against its calls. -/
structure Settled (client : Client) (ls : List (Label κ φ)) (s : Sys κ φ)
    (turns : List (Turn κ)) : Prop where
  asked : ∀ turn ∈ turns, ∃ op, .start turn.call op ∈ ls ∧ client.script op = .ok turn.script
  ended : ∀ turn ∈ turns, turn.Ends (s.call turn.call)
  once : (turns.map Turn.call).Nodup
  every : ∀ c result, s.call c = .returned result → c ∈ turns.map Turn.call ∨
    ∃ op error, .start c op ∈ ls ∧ client.script op = .error error ∧ result = .error error

section Frame

variable {role : Role} {s t : Sys κ φ} {m n : Serial κ} {c : κ} {pair : EdgeNode}

theorem serialized_initial : Serialized role (.new : Sys κ φ) .new := by
  refine ⟨fun pair _ => ⟨rfl, rfl⟩, fun c held holds => ?_⟩
  cases (holding_new c).symm.trans holds

def SameAt (pair : EdgeNode) (s t : Sys κ φ) (m n : Serial κ) : Prop :=
  t.count pair = s.count pair ∧ sentFor pair t.sent = sentFor pair s.sent ∧
  n.count pair = m.count pair ∧ n.stream pair = m.stream pair

theorem within_same {held : Holding} (h : Within role s m c held) (call : t.call c = s.call c)
    (same : SameAt held.script.pair s t m n) : Within role t n c held := by
  obtain ⟨count, sent, found, stream⟩ := same
  refine ⟨h.inside, ?_, ?_, ?_, fun message offers => ?_⟩
  · rw [found, h.found]
  · rw [count, found, h.count]
  · rw [sent, stream, found, call, h.stream]
  · rw [call] at offers
    rw [count]
    exact h.offered message offers

theorem serialized_outside (h : Serialized role s m)
    (same : ∀ pair, SameAt pair s t m n)
    (calls : ∀ d held, (t.call d).holding = some held ∨ (s.call d).holding = some held →
      t.call d = s.call d) : Serialized role t n := by
  constructor
  · intro pair nobody
    obtain ⟨count, sent, found, stream⟩ := same pair
    rw [count, sent, found, stream]
    refine h.free pair fun c held holds => nobody c held ?_
    rw [calls c held (.inr holds)]
    exact holds
  · intro c held holds
    have call := calls c held (.inl holds)
    exact within_same (h.held c held (by rw [← call]; exact holds)) call (same _)

theorem serialized_at (pair : EdgeNode) (h : Serialized role s m)
    (calls : ∀ d, d ≠ c → t.call d = s.call d)
    (alone : ∀ d held, d ≠ c → (s.call d).holding = some held → held.script.pair ≠ pair)
    (elsewhere : ∀ other, other ≠ pair → SameAt other s t m n)
    (before : ∀ held, (s.call c).holding = some held → held.script.pair = pair)
    (stays : ∀ held, (t.call c).holding = some held →
      held.script.pair = pair ∧ Within role t n c held)
    (leaves : (t.call c).holding = none →
      t.count pair = n.count pair ∧ sentFor pair t.sent = n.stream pair) :
    Serialized role t n := by
  constructor
  · intro other nobody
    by_cases own : other = pair
    · subst own
      refine leaves (Option.eq_none_iff_forall_ne_some.mpr fun held holds => ?_)
      exact nobody c held holds (stays held holds).1
    · obtain ⟨count, sent, found, stream⟩ := elsewhere other own
      rw [count, sent, found, stream]
      refine h.free other fun d held holds => ?_
      by_cases mine : d = c
      · subst mine
        rw [before held holds]
        exact Ne.symm own
      · exact nobody d held (by rw [calls d mine]; exact holds)
  · intro d held holds
    by_cases mine : d = c
    · subst mine
      exact (stays held holds).2
    · rw [calls d mine] at holds
      exact within_same (h.held d held holds) (calls d mine)
        (elsewhere _ (alone d held mine holds))

end Frame

section Blocks

variable {role : Role} {s : Sys κ φ} {c : κ} {pair : EdgeNode} {script : Script} {found : UInt8}
  {k : Nat}

theorem block_succ {draft : Draft} (current : script.drafts[k]? = some draft) :
    Turn.block role ⟨c, script, k + 1⟩ found = Turn.block role ⟨c, script, k⟩ found ++
      [(c, draft.message role (script.drawn found + UInt8.ofNat k))] := by
  simp only [Turn.block]
  rw [messages_succ current, List.map_append]
  rfl

theorem leaves_of_whole (done : k + 1 = script.drafts.length) :
    Turn.leaves (κ := κ) ⟨c, script, k + 1⟩ found = script.drawn found + UInt8.ofNat k := by
  unfold Turn.leaves Turn.whole
  rw [if_pos (beq_iff_eq.mpr done)]
  exact reached_succ

theorem leaves_of_part (more : k < script.drafts.length) :
    Turn.leaves (κ := κ) ⟨c, script, k⟩ found = found := by
  unfold Turn.leaves Turn.whole
  rw [if_neg (by simp [Nat.ne_of_lt more])]

end Blocks

section Steps

variable [DecidableEq κ] {client : Client} {s t : Sys κ φ} {l : Label κ φ}
  {m : Serial κ} {c : κ} {pair : EdgeNode} {held : Holding}

/-- The model behind a step: it takes the turn that the step ends, if it ends one. -/
def Serial.after (role : Role) (m : Serial κ) (turn : Option (Turn κ)) : Serial κ :=
  turn.elim m (m.publish role)

theorem within_keeps {phase : Phase} {u : Sys κ φ} {role : Role} (h : Within role s m c held)
    (seq : u.seq = s.seq) (sent : u.sent = s.sent) (handed : phase.handed = (s.call c).handed)
    (offered : ∀ message, phase = .offered held message → ∃ draft, held.draft = some draft ∧
      message = draft.message role (s.count held.script.pair)) :
    Within role (u.put c phase) m c held := by
  have count : (u.put c phase).count held.script.pair = s.count held.script.pair := by
    unfold Sys.count
    rw [put_seq, seq]
  refine ⟨h.inside, h.found, count.trans h.count, ?_, fun message offers => ?_⟩
  · rw [put_sent, sent, put_self, handed]
    exact h.stream
  · rw [put_self] at offers
    rw [count]
    exact offered message offers

theorem serialized_idle {phase : Phase} {u : Sys κ φ} (h : Serialized client.role s m)
    (calls : u.call = s.call) (counts : ∀ pair, u.count pair = s.count pair)
    (sent : u.sent = s.sent) (before : (s.call c).holding = none)
    (after : phase.holding = none) : Serialized client.role (u.put c phase) m := by
  refine serialized_outside h (fun pair => ⟨counts pair, by rw [put_sent, sent], rfl, rfl⟩) ?_
  intro d held either
  by_cases mine : d = c
  · subst mine
    rw [put_self, before, after] at either
    rcases either with now | now <;> cases now
  · rw [put_of_ne mine, calls]

theorem serialized_stays {phase : Phase} {u : Sys κ φ} {next : Holding} (gated : Gated s)
    (h : Serialized client.role s m) (calls : u.call = s.call)
    (holds : (s.call c).holding = some held) (keeps : phase.holding = some next)
    (same : next.script.pair = held.script.pair)
    (elsewhere : ∀ other, other ≠ held.script.pair →
      u.count other = s.count other ∧ sentFor other u.sent = sentFor other s.sent)
    (within : Within client.role (u.put c phase) m c next) :
    Serialized client.role (u.put c phase) m := by
  refine serialized_at held.script.pair h (fun d other => ?_)
    (fun d other apart => gated.alone holds d other apart) (fun other apart => ?_)
    (fun other now => ?_) (fun other now => ?_) fun none => ?_
  · rw [put_of_ne other, calls]
  · obtain ⟨count, sent⟩ := elsewhere other apart
    exact ⟨count, sent, rfl, rfl⟩
  · cases holds.symm.trans now
    rfl
  · rw [put_self] at now
    cases keeps.symm.trans now
    exact ⟨same, within⟩
  · rw [put_self, keeps] at none
    cases none

/-- The step that ends a stay, and with which the model takes the whole turn. -/
theorem serialized_ends {phase : Phase} {u : Sys κ φ} {turn : Turn κ} (gated : Gated s)
    (h : Serialized client.role s m) (calls : u.call = s.call) (sent : u.sent = s.sent)
    (holds : (s.call c).holding = some held) (drops : phase.holding = none)
    (ends : turn = ⟨c, held.script, (s.call c).handed⟩)
    (count : u.count held.script.pair = turn.leaves (m.count held.script.pair))
    (elsewhere : ∀ other, other ≠ held.script.pair → u.count other = s.count other) :
    Serialized client.role (u.put c phase) (m.publish client.role turn) := by
  have owner : turn.script = held.script := by rw [ends]
  refine serialized_at held.script.pair h (fun d other => ?_)
    (fun d other apart => gated.alone holds d other apart) (fun other apart => ?_)
    (fun other now => ?_) (fun other now => ?_) fun _ => ⟨?_, ?_⟩
  · rw [put_of_ne other, calls]
  · rw [← owner] at apart
    obtain ⟨found, stream⟩ := m.publish_elsewhere client.role turn apart
    rw [owner] at apart
    exact ⟨elsewhere other apart, by rw [put_sent, sent], found, stream⟩
  · cases holds.symm.trans now
    rfl
  · rw [put_self, drops] at now
    cases now
  · rw [← owner] at count ⊢
    exact count.trans (m.publish_count client.role turn).symm
  · rw [put_sent, sent, (h.held c held holds).stream, ← ends, ← owner]
    exact (m.publish_stream client.role turn).symm

variable [DecidableEq φ]

theorem serialized_step (gated : Gated s) (h : Serialized client.role s m)
    (moves : Sys.Moves client s l t) :
    Serialized client.role t (m.after client.role (s.turnOf l)) := by
  cases moves with
  | rejected idle built =>
    exact serialized_idle h rfl (fun _ => rfl) rfl (by rw [idle]; rfl) rfl
  | started idle built =>
    refine serialized_idle h rfl (fun pair => ?_) rfl (by rw [idle]; rfl) rfl
    exact congrArg Gate.count gate_gateOf
  | @acquired c script out waits free =>
    obtain ⟨unlocked, rfl⟩ := Script.reserve_iff.mp free
    have nobody := gated.free unlocked
    obtain ⟨count, stream⟩ := h.free script.pair nobody
    have waiting : (s.call c).holding = none := by rw [waits]; rfl
    refine serialized_at script.pair h (fun d other => put_of_ne other)
      (fun d other _ hd => nobody d other hd)
      (fun other apart => ⟨count_write_of_ne apart, rfl, rfl, rfl⟩)
      (fun other now => by cases waiting.symm.trans now) (fun held now => ?_) fun none => ?_
    · rw [put_self] at now
      cases now
      refine ⟨rfl, Nat.succ_pos _, ?_, ?_, ?_, ?_⟩
      · exact congrArg some count
      · change (SeqCounters.gate _ (keyOf script.pair)).count = _
        rw [put_seq, gate_write_self]
        change script.drawn (s.count script.pair) = _
        rw [count]
        exact (UInt8.add_zero _).symm
      · rw [put_sent, stream, put_self]
        exact (List.append_nil _).symm
      · intro message offers
        rw [put_self] at offers
        cases offers
    · rw [put_self] at none
      cases none
  | @offered c held draft message delivery ready current built counted =>
    have holds : (s.call c).holding = some held := by rw [ready]; rfl
    refine serialized_stays gated h rfl holds rfl rfl (fun _ _ => ⟨rfl, rfl⟩)
      (within_keeps (h.held c held holds) rfl rfl (by rw [ready]; rfl) fun other offers => ?_)
    cases offers
    refine ⟨draft, current, ?_⟩
    rw [built, SeqCounters.number, gated.keyed c held holds]
    rfl
  | @accepted c held message delivery offers kept =>
    have holds : (s.call c).holding = some held := by rw [offers]; rfl
    have within := h.held c held holds
    obtain ⟨draft, current, built⟩ := within.offered message offers
    have names : message.topic.edgeNode = some held.script.pair := by
      rw [built]
      exact held.script.named draft (draft_mem current)
    have stream := within.stream
    rw [offers] at stream
    refine serialized_stays gated h rfl holds rfl rfl
      (fun other apart => ⟨rfl, sentFor_append_of_ne names apart⟩)
      ⟨within.inside, within.found, within.count, ?_, fun other offers => ?_⟩
    · rw [put_sent, sentFor_append_self names, stream, put_self, List.append_assoc]
      congr 1
      change _ = Turn.block client.role ⟨c, held.script, held.stage + 1⟩ _
      rw [block_succ current, built, within.count]
      rfl
    · rw [put_self] at offers
      cases offers
  | @advanced c held takes more =>
    have holds : (s.call c).holding = some held := by rw [takes]; rfl
    have within := h.held c held holds
    rw [next_of_key (gated.keyed c held holds)]
    refine serialized_stays gated h rfl holds rfl rfl
      (fun other apart => ⟨count_write_of_ne apart, rfl⟩)
      ⟨more, within.found, ?_, ?_, fun other offers => ?_⟩
    · change (SeqCounters.gate _ (keyOf held.script.pair)).count = _
      rw [put_seq, gate_write_self]
      change s.count held.script.pair + 1 = _
      rw [within.count, UInt8.ofNat_add, UInt8.add_assoc]
      rfl
    · have stream := within.stream
      rw [takes] at stream
      rw [put_sent, put_self]
      exact stream
    · rw [put_self] at offers
      cases offers
  | @committed c held takes last =>
    have holds : (s.call c).holding = some held := by rw [takes]; rfl
    rw [commit_of_key (gated.keyed c held holds)]
    simp only [Sys.turnOf, takes, Serial.after, Option.elim_some]
    refine serialized_ends gated h rfl rfl holds rfl (by rw [takes]; rfl) ?_
      fun other apart => count_write_of_ne apart
    rw [leaves_of_whole last, count_write_self]
    exact (h.held c held holds).count
  | @refused c error held message offers =>
    have holds : (s.call c).holding = some held := by rw [offers]; rfl
    have within := h.held c held holds
    exact serialized_stays gated h rfl holds rfl rfl (fun _ _ => ⟨rfl, rfl⟩)
      (within_keeps within rfl rfl (by rw [offers]; rfl) fun _ now => by cases now)
  | left waits =>
    exact serialized_idle h rfl (fun _ => rfl) rfl (by rw [waits]; rfl) rfl
  | @cancelled c held message offers =>
    have holds : (s.call c).holding = some held := by rw [offers]; rfl
    have within := h.held c held holds
    exact serialized_stays gated h rfl holds rfl rfl (fun _ _ => ⟨rfl, rfl⟩)
      (within_keeps within rfl rfl (by rw [offers]; rfl) fun _ now => by cases now)
  | @released c held error delivery unwinds rolled =>
    have holds : (s.call c).holding = some held := by rw [unwinds]; rfl
    have within := h.held c held holds
    exact serialized_stays gated h rfl holds rfl rfl (fun _ _ => ⟨rfl, rfl⟩)
      (within_keeps within rfl rfl (by rw [unwinds]; rfl) fun _ now => by cases now)
  | @restored c held error unwinds =>
    have holds : (s.call c).holding = some held := by rw [unwinds]; rfl
    have within := h.held c held holds
    rw [drop_of_key (gated.keyed c held holds) within.found]
    simp only [Sys.turnOf, unwinds, Serial.after, Option.elim_some]
    refine serialized_ends gated h rfl rfl holds (holding_ended error) (by rw [unwinds]; rfl) ?_
      fun other apart => count_write_of_ne apart
    rw [leaves_of_part within.inside, count_write_self]
  | happened outside taken =>
    exact serialized_outside h (fun _ => ⟨rfl, rfl, rfl, rfl⟩) fun _ _ _ => rfl

omit [DecidableEq κ] [DecidableEq φ] in
theorem over_of_ends {turn : Turn κ} {phase : Phase} (ends : turn.Ends phase) :
    phase.over = true := by
  unfold Turn.Ends at ends
  split at ends
  · rw [ends]
    rfl
  · rcases ends with rfl | ⟨error, rfl⟩
    · rfl
    · rfl

theorem ends_of_turn {turn : Turn κ} (h : Serialized client.role s m)
    (moves : Sys.Moves client s l t) (ends : s.turnOf l = some turn) :
    (s.call turn.call).over = false ∧ (s.call turn.call).script = some turn.script ∧
    turn.Ends (t.call turn.call) := by
  cases moves with
  | @committed c held takes last =>
    simp only [Sys.turnOf, takes, Option.some.injEq] at ends
    subst ends
    rw [takes, put_self]
    refine ⟨rfl, rfl, ?_⟩
    unfold Turn.Ends Turn.whole
    rw [if_pos (beq_iff_eq.mpr last)]
  | @restored c held error unwinds =>
    have inside := (h.held c held (by rw [unwinds]; rfl)).inside
    simp only [Sys.turnOf, unwinds, Option.some.injEq] at ends
    subst ends
    rw [unwinds, put_self]
    refine ⟨rfl, rfl, ?_⟩
    unfold Turn.Ends Turn.whole
    rw [if_neg (by simp [Nat.ne_of_lt inside])]
    cases error with
    | none => exact .inl rfl
    | some error => exact .inr ⟨error, rfl⟩
  | _ => cases ends

theorem turn_of_return {result : Except SparkplugError Unit} (moves : Sys.Moves client s l t)
    (now : t.call c = .returned result) : s.call c = .returned result ∨
      (∃ turn, s.turnOf l = some turn ∧ turn.call = c) ∨
      ∃ op error, l = .start c op ∧ client.script op = .error error ∧ result = .error error := by
  rcases phase_step moves c with same | ⟨before, after, found, left, own⟩
  · exact .inl (same.symm.trans now)
  · rw [left] at now
    cases own with
    | rejected built =>
      cases now
      exact .inr (.inr ⟨_, _, rfl, built, rfl⟩)
    | @committed held =>
      exact .inr (.inl ⟨⟨c, held.script, held.stage + 1⟩, by simp [Sys.turnOf, found], rfl⟩)
    | @restored held error =>
      exact .inr (.inl ⟨⟨c, held.script, held.stage⟩, by simp [Sys.turnOf, found], rfl⟩)
    | _ => cases now

theorem settled_step {ls : List (Label κ φ)} {turns : List (Turn κ)} (asked : Asked client ls s)
    (serial : Serialized client.role s m) (h : Settled client ls s turns)
    (moves : Sys.Moves client s l t) :
    Settled client (ls ++ [l]) t (noteTurn s l turns) := by
  have kept (turn : Turn κ) (member : turn ∈ turns) : t.call turn.call = s.call turn.call :=
    over_step (over_of_ends (h.ended turn member)) moves
  have noted {turn : Turn κ} (member : turn ∈ noteTurn s l turns) :
      turn ∈ turns ∨ s.turnOf l = some turn := by
    simpa [noteTurn] using member
  constructor
  · intro turn member
    rcases noted member with before | now
    · obtain ⟨op, started, built⟩ := h.asked turn before
      exact ⟨op, List.mem_append_left _ started, built⟩
    · obtain ⟨running, scripted, -⟩ := ends_of_turn serial moves now
      have busy : s.call turn.call ≠ .idle := by
        intro idle
        rw [idle] at scripted
        cases scripted
      obtain ⟨op, started⟩ := asked.origin turn.call busy
      exact ⟨op, List.mem_append_left _ started, asked.scripted _ op _ started scripted⟩
  · intro turn member
    rcases noted member with before | now
    · rw [kept turn before]
      exact h.ended turn before
    · exact (ends_of_turn serial moves now).2.2
  · unfold noteTurn
    rw [List.map_append, List.nodup_append]
    refine ⟨h.once, ?_, fun c before d now => ?_⟩
    · cases s.turnOf l with
      | none => exact List.nodup_nil
      | some turn => exact List.pairwise_singleton ..
    · rintro rfl
      obtain ⟨early, member, rfl⟩ := List.mem_map.mp before
      obtain ⟨late, ends, same⟩ := List.mem_map.mp now
      have running := (ends_of_turn serial moves (Option.mem_toList.mp ends)).1
      rw [same, over_of_ends (h.ended early member)] at running
      cases running
  · intro c result now
    rcases turn_of_return moves now with before | ⟨turn, ends, rfl⟩ | ⟨op, error, rfl, built, rfl⟩
    · rcases h.every c result before with turn | ⟨op, error, started, built, rfl⟩
      · refine .inl ?_
        unfold noteTurn
        rw [List.map_append]
        exact List.mem_append_left _ turn
      · exact .inr ⟨op, error, List.mem_append_left _ started, built, rfl⟩
    · exact .inl (List.mem_map_of_mem (by simp [noteTurn, ends]))
    · exact .inr ⟨op, error, by simp, built, rfl⟩

abbrev turning (client : Client) : Sys κ φ × List (Turn κ) → Label κ φ →
    Option (Sys κ φ × List (Turn κ)) := observe (Sys.step client) noteTurn

variable {ok : Sys κ φ → Label κ φ → Prop} {ls es : List (Label κ φ)}
  {p q : Sys κ φ × List (Turn κ)}

theorem turns_run (run : Run (turning client) (fun p a => ok p.1 a) (.new, []) ls q) :
    Serialized client.role q.1 (.run client.role q.2) ∧ Settled client ls q.1 q.2 := by
  induction run with
  | start =>
    refine ⟨serialized_initial, by simp, by simp, List.nodup_nil, fun c result now => ?_⟩
    cases now
  | @snoc q q' ls l before promise taken ih =>
    obtain ⟨serial, settled⟩ := ih
    have plain := before.unobserved
    obtain ⟨taken, note⟩ := observe_iff.mp taken
    have moves := Sys.moves_of_step taken
    rw [note]
    refine ⟨?_, settled_step (asked_run plain) serial settled moves⟩
    have step := serialized_step (atPair_run plain).1 serial moves
    unfold noteTurn
    cases ends : q.1.turnOf l with
    | none =>
      rw [ends] at step
      rw [Option.toList_none, List.append_nil]
      exact step
    | some turn =>
      rw [ends] at step
      rw [Option.toList_some, Serial.run_concat]
      exact step

theorem serialized_run (run : Run (Sys.step client) ok .new ls s) :
    ∃ m, Serialized client.role s m := by
  obtain ⟨turns, observed⟩ : ∃ turns,
      Run (turning client) (fun p a => ok p.1 a) (.new, []) ls (s, turns) := run.observed []
  exact ⟨_, (turns_run observed).1⟩

theorem turns_after (reach : Run (turning client) (fun p a => ok p.1 a) (.new, []) es p)
    (run : Run (turning client) (fun p a => ok p.1 a) p ls q) :
    (∀ c, (p.1.call c).over = true → q.1.call c = p.1.call c) ∧ ∃ late, q.2 = p.2 ++ late ∧
      ∀ turn ∈ late, (p.1.call turn.call).over = false := by
  induction run with
  | start => exact ⟨fun _ _ => rfl, [], (List.append_nil _).symm, by simp⟩
  | @snoc q q' ls l before promise taken ih =>
    obtain ⟨kept, late, split, fresh⟩ := ih
    obtain ⟨taken, note⟩ := observe_iff.mp taken
    have moves := Sys.moves_of_step taken
    refine ⟨fun c finished => ?_, late ++ (q.1.turnOf l).toList, ?_, fun turn member => ?_⟩
    · have before := kept c finished
      rw [← before] at finished
      exact (over_step finished moves).trans before
    · rw [← List.append_assoc, ← split]
      exact note
    · rcases List.mem_append.mp member with earlier | now
      · exact fresh turn earlier
      · have serial := (turns_run (reach.append before)).1
        have running := (ends_of_turn serial moves (Option.mem_toList.mp now)).1
        by_contra finished
        rw [Bool.not_eq_false] at finished
        rw [kept _ finished, finished] at running
        cases running

/-- Every interleaving of publish calls hands over what the calls would as one step each, in
the order of their turns, and a call that is over before another starts has its turn first. -/
theorem publish_calls_are_serial (run : Run (Sys.step client) ok .new ls s) :
    ∃ turns, Serialized client.role s (.run client.role turns) ∧ Settled client ls s turns ∧
      ∀ before after t, ls = before ++ after → Run (Sys.step client) ok .new before t →
        ∃ early late, turns = early ++ late ∧
          (∀ turn ∈ early, (t.call turn.call).over = true) ∧
          ∀ turn ∈ late, (t.call turn.call).over = false := by
  obtain ⟨turns, observed⟩ : ∃ turns,
      Run (turning client) (fun p a => ok p.1 a) (.new, []) ls (s, turns) := run.observed []
  obtain ⟨serial, settled⟩ := turns_run observed
  refine ⟨turns, serial, settled, ?_⟩
  rintro before after t rfl reached
  obtain ⟨⟨u, early⟩, first, second⟩ := observed.split
  obtain rfl : u = t := first.unobserved.unique reached
  obtain ⟨-, late, split, fresh⟩ := turns_after first second
  exact ⟨early, late, split, fun turn member =>
    over_of_ends ((turns_run first).2.ended turn member), fresh⟩

end Steps

theorem publish_calls_are_serial_small : ∃ (s : Sys Nat Nat) (turns : List (Turn Nat)),
    Run (Sys.step plantClient) (Obeys []) .new
      [.start 0 (.publishBirth plantDevice ⟨0⟩), .start 1 plantData, .acquire 0, .offer 0,
        .accept 0, .next 0, .offer 0, .accept 0, .commit 0, .start 2 plantData, .acquire 2,
        .offer 2, .cancel 2, .restore 2, .acquire 1, .offer 1, .accept 1, .commit 1] s ∧
    Serialized plantClient.role s (.run plantClient.role turns) ∧
    (turns.map Turn.call).Nodup := by
  obtain ⟨s, h⟩ : ∃ s : Sys Nat Nat, exec (Sys.step plantClient) [] .new
      [.start 0 (.publishBirth plantDevice ⟨0⟩), .start 1 plantData, .acquire 0, .offer 0,
        .accept 0, .next 0, .offer 0, .accept 0, .commit 0, .start 2 plantData, .acquire 2,
        .offer 2, .cancel 2, .restore 2, .acquire 1, .offer 1, .accept 1, .commit 1] = some s :=
    ⟨_, rfl⟩
  have run := Run.of_exec h
  obtain ⟨turns, serial, settled, -⟩ := publish_calls_are_serial run
  exact ⟨s, turns, run, serial, settled.once⟩

end Sparkplug
