import Sparkplug.Client.Naming
import Sparkplug.Client.Restart

/-! What one call puts on the stream of its edge node. It holds the gate from its first draft
to its last, so its messages stand next to each other there, numbered from where the gate was
taken. A birth is the one call with two of them. -/
namespace Sparkplug

open Transition

variable {κ φ : Type}

/-- The messages of one edge node, each with the call that handed it over. -/
def sentFor (pair : EdgeNode) (sent : List (κ × Message)) : List (κ × Message) :=
  sent.filter fun p => p.2.topic.edgeNode = some pair

theorem sentFor_append_self {pair : EdgeNode} {sent : List (κ × Message)} {c : κ}
    {message : Message} (names : message.topic.edgeNode = some pair) :
    sentFor pair (sent ++ [(c, message)]) = sentFor pair sent ++ [(c, message)] := by
  simp [sentFor, List.filter_append, names]

theorem sentFor_append_of_ne {pair other : EdgeNode} {sent : List (κ × Message)} {c : κ}
    {message : Message} (names : message.topic.edgeNode = some pair) (apart : other ≠ pair) :
    sentFor other (sent ++ [(c, message)]) = sentFor other sent := by
  simp [sentFor, List.filter_append, names, Ne.symm apart]

namespace Script

variable (script : Script)

/-- The messages of the first `k` drafts, numbered on from `first`. -/
def messages (role : Role) (first : UInt8) (k : Nat) : List Message :=
  (script.drafts.take k).mapIdx fun i draft => draft.message role (first + UInt8.ofNat i)

def reached (found : UInt8) (k : Nat) : UInt8 :=
  if k = 0 then found else script.drawn found + UInt8.ofNat (k - 1)

end Script

/-- The last messages on the stream of the pair are the first `k` of this call. -/
structure Block (client : Client) (s : Sys κ φ) (c : κ) (script : Script) (found : UInt8)
    (k : Nat) : Prop where
  atPair : AtPair s script.pair (script.reached found k)
  stream : ∃ before, sentFor script.pair s.sent =
    before ++ (script.messages client.role (script.drawn found) k).map (Prod.mk c)

/-- All messages of this call stand together on the stream of the pair, and the one behind
them counts on. -/
def Complete (client : Client) (s : Sys κ φ) (c : κ) (script : Script) : Prop :=
  ∃ found before after, sentFor script.pair s.sent = before ++
      (script.messages client.role (script.drawn found) script.drafts.length).map (Prod.mk c) ++
      after ∧
    (after = [] → Others s c script.pair ∧
      AtPair s script.pair (script.reached found script.drafts.length)) ∧
    ∀ d m rest, after = (d, m) :: rest → m.payload.seq = some
      (if m.topic.messageType = .NBIRTH then (0 : UInt8)
        else script.reached found script.drafts.length + 1).toUInt64

def Phase.Stands (phase : Phase) (client : Client) (s : Sys κ φ) (c : κ) (script : Script) :
    Prop :=
  match phase with
  | .ready held => ∃ found, Block client s c script found held.stage
  | .offered held message => ∃ found, Block client s c script found held.stage ∧
    ∃ draft, held.draft = some draft ∧
      message = draft.message client.role (script.drawn found + UInt8.ofNat held.stage)
  | .taken held => ∃ found, Block client s c script found (held.stage + 1)
  | .returned (.ok ()) => Complete client s c script
  | _ => True

section Lists

variable {held : Holding} {script : Script} {draft : Draft} {found : UInt8} {k : Nat}

theorem messages_succ {role : Role} {first : UInt8} (current : script.drafts[k]? = some draft) :
    script.messages role first (k + 1) =
      script.messages role first k ++ [draft.message role (first + UInt8.ofNat k)] := by
  obtain ⟨inside, -⟩ := List.getElem?_eq_some_iff.mp current
  unfold Script.messages
  rw [List.take_add_one, current, Option.toList_some, List.mapIdx_append]
  simp [Nat.min_eq_left (Nat.le_of_lt inside)]

theorem reached_succ : script.reached found (k + 1) = script.drawn found + UInt8.ofNat k := by
  simp [Script.reached]

theorem draws_reached : held.draws (held.script.reached found held.stage) =
    held.script.drawn found + UInt8.ofNat held.stage := by
  unfold Holding.draws
  cases held.stage with
  | zero => simp [Script.reached]
  | succ n => simp [reached_succ, UInt8.ofNat_add, UInt8.add_assoc]

end Lists

theorem birth_script {client : Client} {pair : EdgeNode} (device : DeviceId) (now : Timestamp)
    (identity : client.identity = .edgeNode pair) : ∃ script,
      client.script (.publishBirth device now) = .ok script ∧ script.pair = pair ∧
      script.drafts = [.birthCertificate (client.ns.nbirth pair.group pair.edgeNodeId) now,
        .deviceBirthCertificate (client.ns.dbirth pair.group pair.edgeNodeId device) now] := by
  simp [Client.script, Client.publishBirth, Client.edgeNode, identity, Script.drafts]

theorem birth_messages {script : Script} (role : Role) (found : UInt8)
    {ns : Namespace} {pair : EdgeNode} {device : DeviceId} {now : Timestamp}
    (drafts : script.drafts = [.birthCertificate (ns.nbirth pair.group pair.edgeNodeId) now,
      .deviceBirthCertificate (ns.dbirth pair.group pair.edgeNodeId device) now]) :
    script.messages role (script.drawn found) script.drafts.length =
        [Draft.message role (.birthCertificate (ns.nbirth pair.group pair.edgeNodeId) now) 0,
          Draft.message role
            (.deviceBirthCertificate (ns.dbirth pair.group pair.edgeNodeId device) now) 1] ∧
      script.reached found script.drafts.length = 1 := by
  have first : script.drawn found = 0 := by
    unfold Script.drafts at drafts
    have nbirth := (List.cons.inj drafts).1
    simp [Script.drawn, Script.resets, nbirth, Draft.topic, Namespace.nbirth,
      Namespace.nodeTopic]
  refine ⟨?_, ?_⟩
  · rw [Script.messages, drafts, first]
    rfl
  · rw [drafts, Script.reached, first]
    rfl

section Steps

variable [DecidableEq κ] [DecidableEq φ] {client : Client} {s t : Sys κ φ} {l : Label κ φ}
  {ls : List (Label κ φ)} {c : κ} {pair : EdgeNode} {held : Holding} {script : Script}
  {found last : UInt8} {k : Nat}

theorem sentFor_of_quiet (calm : quiet pair s l = true) (moves : Sys.Moves client s l t) :
    sentFor pair t.sent = sentFor pair s.sent := by
  cases moves with
  | @accepted d other message delivery offers kept =>
    have apart : message.topic.edgeNode ≠ some pair := by
      simpa [quiet, offers] using calm
    simp [sentFor, apart]
  | _ => rfl

theorem next_of_unquiet (tracked : ∀ pair, ∃ last, AtPair s pair last) (h : AtPair s pair last)
    (loud : quiet pair s l = false) (moves : Sys.Moves client s l t) :
    ∃ d m, sentFor pair t.sent = sentFor pair s.sent ++ [(d, m)] ∧ m.payload.seq = some
      (if m.topic.messageType = .NBIRTH then (0 : UInt8) else last + 1).toUInt64 := by
  cases moves with
  | @accepted d other message delivery offers kept =>
    have names : message.topic.edgeNode = some pair := by
      simpa [quiet, offers] using loud
    obtain ⟨_, own⟩ := tracked other.script.pair
    obtain rfl : other.script.pair = pair := Option.some.inj ((own.names offers).1.symm.trans names)
    obtain ⟨-, seq, count⟩ := h.names offers
    exact ⟨d, message, by simp [sentFor, names], by rw [seq, count]⟩
  | _ => simp [quiet] at loud

theorem block_of_other (tracked : ∀ pair, ∃ last, AtPair s pair last) (gated : Gated s)
    (holds : (s.call c).holding = some held) (h : Block client s c held.script found k)
    (other : l.caller ≠ some c) (moves : Sys.Moves client s l t) :
    Block client t c held.script found k := by
  have others := others_of_holder gated holds rfl
  have calm : quiet held.script.pair s l = true := by
    cases moves with
    | @accepted d theirs message delivery offers kept =>
      have apart : d ≠ c := by
        rintro rfl
        exact other rfl
      have distinct := gated.alone holds d theirs apart (by rw [offers]; rfl)
      obtain ⟨_, own⟩ := tracked theirs.script.pair
      simpa [quiet, offers, (own.names offers).1] using distinct
    | _ => rfl
  refine ⟨?_, ?_⟩
  · rw [← carried_of_other others h.atPair calm moves other]
    exact atPair_step gated h.atPair moves
  · rw [sentFor_of_quiet calm moves]
    exact h.stream

theorem block_accepted {draft : Draft} (gated : Gated s)
    (h : Block client s c held.script found held.stage) (current : held.draft = some draft)
    (offers : s.call c = .offered held
      (draft.message client.role (held.script.drawn found + UInt8.ofNat held.stage)))
    (moves : Sys.Moves client s (.accept c) t) :
    Block client t c held.script found (held.stage + 1) := by
  have holds : (s.call c).holding = some held := by rw [offers]; rfl
  have tracks := h.atPair.held c held holds rfl
  rw [offers] at tracks
  have reached : s.carried held.script.pair (held.script.reached found held.stage)
      (.accept c) = held.script.reached found (held.stage + 1) := by
    rw [reached_succ, ← draws_reached, ← tracks.1]
    simp [Sys.carried, offers]
  have atPair := atPair_step gated h.atPair moves
  rw [reached] at atPair
  obtain ⟨before, stream⟩ := h.stream
  have names := held.script.named draft (draft_mem current)
  cases moves with
  | accepted offers' kept =>
    cases offers.symm.trans offers'
    refine ⟨atPair, before, ?_⟩
    rw [messages_succ current, List.map_append, ← List.append_assoc, ← stream]
    simp [sentFor, Draft.message, names]

theorem complete_of_block (gated : Gated s) (takes : s.call c = .taken held)
    (h : Block client s c held.script found held.script.drafts.length)
    (moves : Sys.Moves client s (.commit c) t) : Complete client t c held.script := by
  have holds : (s.call c).holding = some held := by rw [takes]; rfl
  obtain ⟨before, stream⟩ := h.stream
  refine ⟨found, before, [], ?_, fun _ => ⟨?_, atPair_step gated h.atPair moves⟩, ?_⟩
  · rw [sentFor_of_quiet rfl moves, List.append_nil]
    exact stream
  · exact others_step (others_of_holder gated holds rfl) h.atPair rfl moves
  · intro d m rest none
    cases none

theorem complete_step (tracked : ∀ pair, ∃ last, AtPair s pair last) (gated : Gated s)
    (h : Complete client s c script)
    (moves : Sys.Moves client s l t) (other : l.caller ≠ some c) :
    Complete client t c script := by
  obtain ⟨found, before, after, stream, open_, next⟩ := h
  cases calm : quiet script.pair s l with
  | true =>
    refine ⟨found, before, after, (sentFor_of_quiet calm moves).trans stream, fun last => ?_, next⟩
    obtain ⟨others, atPair⟩ := open_ last
    refine ⟨others_step others atPair calm moves, ?_⟩
    rw [← carried_of_other others atPair calm moves other]
    exact atPair_step gated atPair moves
  | false =>
    obtain ⟨_, at_⟩ := tracked script.pair
    obtain ⟨d, m, sent, seq⟩ := next_of_unquiet tracked at_ calm moves
    refine ⟨found, before, after ++ [(d, m)], by rw [sent, stream, List.append_assoc], by simp, ?_⟩
    intro e n rest split
    cases after with
    | cons head tail =>
      cases split
      exact next _ _ tail rfl
    | nil =>
      cases split
      obtain ⟨d', m', sent', seq'⟩ := next_of_unquiet tracked (open_ rfl).2 calm moves
      cases (List.append_cancel_left (sent.symm.trans sent'))
      exact seq'

theorem stands_of_other (tracked : ∀ pair, ∃ last, AtPair s pair last) (gated : Gated s)
    (own : ∀ other, (s.call c).script = some other → other = script)
    (h : (s.call c).Stands client s c script) (other : l.caller ≠ some c)
    (moves : Sys.Moves client s l t) : (t.call c).Stands client t c script := by
  rw [call_of_other moves other]
  cases phase : s.call c with
  | ready held =>
    rw [phase] at h own
    obtain ⟨found, block⟩ := h
    obtain rfl := own held.script rfl
    exact ⟨found, block_of_other tracked gated (by rw [phase]; rfl) block other moves⟩
  | offered held message =>
    rw [phase] at h own
    obtain ⟨found, block, draws⟩ := h
    obtain rfl := own held.script rfl
    exact ⟨found, block_of_other tracked gated (by rw [phase]; rfl) block other moves, draws⟩
  | taken held =>
    rw [phase] at h own
    obtain ⟨found, block⟩ := h
    obtain rfl := own held.script rfl
    exact ⟨found, block_of_other tracked gated (by rw [phase]; rfl) block other moves⟩
  | returned result =>
    rw [phase] at h
    cases result with
    | error e => trivial
    | ok _ => exact complete_step tracked gated h moves other
  | _ => trivial

theorem stands_step (tracked : ∀ pair, ∃ last, AtPair s pair last) (gated : Gated s)
    (own : ∀ other, (s.call c).script = some other → other = script)
    (h : (s.call c).Stands client s c script) (moves : Sys.Moves client s l t) :
    (t.call c).Stands client t c script := by
  by_cases other : l.caller = some c
  · have gated' := gated_step gated moves
    have tracked' (pair last) (at_ : AtPair s pair last) := atPair_step gated at_ moves
    cases step : moves with
    | rejected idle built => cases other; rw [put_self]; trivial
    | started idle built => cases other; rw [put_self]; trivial
    | @acquired c script out waits free =>
      cases other
      rw [waits] at own
      obtain rfl := own script rfl
      obtain ⟨found, at_⟩ := tracked script.pair
      rw [put_self]
      exact ⟨found, tracked' _ _ at_, _, (List.append_nil _).symm⟩
    | @offered c held draft message delivery ready current built counted =>
      cases other
      rw [ready] at own h
      obtain rfl := own held.script rfl
      obtain ⟨found, block⟩ := h
      have holds : (s.call c).holding = some held := by rw [ready]; rfl
      have tracks := block.atPair.held c held holds rfl
      rw [ready] at tracks
      rw [put_self]
      refine ⟨found, ⟨tracked' _ _ block.atPair, block.stream⟩, draft, current, ?_⟩
      rw [← draws_reached, ← tracks.1, built, SeqCounters.number, gated.keyed c held holds]
      rfl
    | @accepted c held message delivery offers kept =>
      cases other
      rw [offers] at own h
      obtain rfl := own held.script rfl
      obtain ⟨found, block, draft, current, rfl⟩ := h
      rw [put_self]
      exact ⟨found, block_accepted gated block current offers moves⟩
    | @advanced c held takes more =>
      cases other
      rw [takes] at own h
      obtain rfl := own held.script rfl
      obtain ⟨found, block⟩ := h
      rw [put_self]
      exact ⟨found, tracked' _ _ block.atPair, block.stream⟩
    | @committed c held takes done =>
      cases other
      rw [takes] at own h
      obtain rfl := own held.script rfl
      obtain ⟨found, block⟩ := h
      rw [done] at block
      rw [put_self]
      exact complete_of_block gated takes block moves
    | refused offers => cases other; rw [put_self]; trivial
    | left waits => cases other; rw [put_self]; trivial
    | cancelled offers => cases other; rw [put_self]; trivial
    | released unwinds rolled => cases other; rw [put_self]; trivial
    | @restored c held error unwinds => cases other; rw [put_self]; cases error <;> trivial
    | happened outside taken => cases other
  · exact stands_of_other tracked gated own h other moves

theorem stands_run {ok : Sys κ φ → Label κ φ → Prop} (run : Run (Sys.step client) ok .new ls s) :
    ∀ c op script, .start c op ∈ ls → client.script op = .ok script →
      (s.call c).Stands client s c script := by
  induction run with
  | start =>
    intro c op script asked
    cases asked
  | @snoc t u ls l before _ taken ih =>
    intro c op script asked built
    have moves := Sys.moves_of_step taken
    obtain ⟨gated, tracked⟩ := atPair_run before
    rcases List.mem_append.mp asked with earlier | now
    · have own (other : Script) (scripted : (t.call c).script = some other) : other = script :=
        Except.ok.inj (((asked_run before).scripted c op other earlier scripted).symm.trans built)
      exact stands_step tracked gated own (ih c op script earlier built) moves
    · cases List.mem_singleton.mp now
      cases moves with
      | rejected idle built => rw [put_self]; trivial
      | started idle built => rw [put_self]; trivial

/-- The NBIRTH and the DBIRTH of one call stand next to each other on the stream of their edge
node, with 0 and 1 and one timestamp, and the message behind them carries 2 or is an NBIRTH. -/
theorem birth_pair_is_indivisible {ok : Sys κ φ → Label κ φ → Prop} {device : DeviceId}
    {now : Timestamp} (identity : client.identity = .edgeNode pair)
    (run : Run (Sys.step client) ok .new ls s) (asked : .start c (.publishBirth device now) ∈ ls)
    (returned : s.call c = .returned (.ok ())) :
    ∃ before nbirth dbirth after,
      sentFor pair s.sent = before ++ (c, nbirth) :: (c, dbirth) :: after ∧
      nbirth.topic = client.ns.nbirth pair.group pair.edgeNodeId ∧
      dbirth.topic = client.ns.dbirth pair.group pair.edgeNodeId device ∧
      nbirth.payload.seq = some 0 ∧ dbirth.payload.seq = some 1 ∧
      nbirth.payload.timestamp = some now.millis ∧ dbirth.payload.timestamp = some now.millis ∧
      ∀ d m rest, after = (d, m) :: rest →
        m.payload.seq = some (if m.topic.messageType = .NBIRTH then 0 else 2) := by
  obtain ⟨script, built, rfl, drafts⟩ := birth_script device now identity
  have complete := stands_run run c _ script asked built
  rw [returned] at complete
  obtain ⟨found, before, after, stream, -, next⟩ := complete
  obtain ⟨messages, reached⟩ := birth_messages client.role found drafts
  rw [messages, List.append_assoc] at stream
  rw [reached] at next
  refine ⟨before, _, _, after, stream, rfl, rfl, rfl, rfl, rfl, rfl, fun d m rest split => ?_⟩
  rw [next d m rest split]
  split
  · rfl
  · rfl

end Steps

/-- A birth behind a count of 1, with a second publish waiting for the same gate. -/
theorem birth_pair_is_indivisible_small : ∃ (s : Sys Nat Nat) (m₀ m₁ m₂ m₃ : Message),
    Run (Sys.step plantClient) (Obeys []) .new
      [.start 0 plantData, .acquire 0, .offer 0, .accept 0, .commit 0,
        .start 1 (.publishBirth plantDevice ⟨0⟩), .start 2 plantData, .acquire 1, .offer 1,
        .accept 1, .next 1, .offer 1, .accept 1, .commit 1, .acquire 2, .offer 2, .accept 2] s ∧
    s.sent = [(0, m₀), (1, m₁), (1, m₂), (2, m₃)] ∧ m₁.payload.seq = some 0 ∧
    m₂.payload.seq = some 1 ∧ m₃.payload.seq = some 2 := by
  obtain ⟨s, m₀, m₁, m₂, m₃, h, sent, mine, ends, data⟩ : ∃ (s : Sys Nat Nat)
      (m₀ m₁ m₂ m₃ : Message),
      exec (Sys.step plantClient) [] .new
        [.start 0 plantData, .acquire 0, .offer 0, .accept 0, .commit 0,
          .start 1 (.publishBirth plantDevice ⟨0⟩), .start 2 plantData, .acquire 1, .offer 1,
          .accept 1, .next 1, .offer 1, .accept 1, .commit 1, .acquire 2, .offer 2,
          .accept 2] = some s ∧
      s.sent = [(0, m₀), (1, m₁), (1, m₂), (2, m₃)] ∧ sentFor plantNode s.sent = s.sent ∧
      s.call 1 = .returned (.ok ()) ∧ m₃.topic.messageType = .DDATA :=
    ⟨_, _, _, _, _, rfl, rfl, rfl, rfl, rfl⟩
  have run := Run.of_exec h
  have asked : .start 1 (.publishBirth plantDevice ⟨0⟩) ∈ ([.start 0 plantData, .acquire 0,
      .offer 0, .accept 0, .commit 0, .start 1 (.publishBirth plantDevice ⟨0⟩),
      .start 2 plantData, .acquire 1, .offer 1, .accept 1, .next 1, .offer 1, .accept 1,
      .commit 1, .acquire 2, .offer 2, .accept 2] : List (Label Nat Nat)) := by simp
  obtain ⟨before, nbirth, dbirth, after, stream, -, -, first, second, -, -, next⟩ :=
    birth_pair_is_indivisible rfl run asked ends
  rw [mine, sent] at stream
  obtain ⟨rfl, rfl, rfl⟩ : m₁ = nbirth ∧ m₂ = dbirth ∧ after = [(2, m₃)] := by
    rcases before with _ | ⟨x, _ | ⟨y, _ | ⟨z, rest⟩⟩⟩
    · simp at stream
    · simp only [List.cons_append, List.nil_append, List.cons.injEq, Prod.mk.injEq,
        true_and] at stream
      exact ⟨stream.2.1, stream.2.2.1, stream.2.2.2.symm⟩
    · simp at stream
    · have size := congrArg List.length stream
      simp only [List.length_append, List.length_cons, List.length_nil] at size
      omega
  have number := next 2 m₃ [] rfl
  rw [data] at number
  exact ⟨s, m₀, m₁, m₂, m₃, run, sent, first, second, number⟩

end Sparkplug
