import Sparkplug.Client.Gates

/-! The numbers on the stream of one edge node. Everything a call knows of the count it
holds follows from the number that the last message of the pair carried, so that number is
the one quantity the step lemma follows. -/
namespace Sparkplug

open Transition

variable {κ φ : Type}

/-- The number of the draft at hand when the message before it carried `last`. -/
def Holding.draws (held : Holding) (last : UInt8) : UInt8 :=
  if held.stage = 0 then held.script.drawn last else last + 1

/-- How the count of a pair and its last number stand while this call holds the gate. Only
the guard of a first draft still remembers the last number. -/
def Phase.Tracks (phase : Phase) (count last : UInt8) : Prop :=
  match phase with
  | .ready held =>
    count = held.draws last ∧ (held.stage = 0 → held.reservation.restoreTo = some last)
  | .offered held message =>
    count = held.draws last ∧ (held.stage = 0 → held.reservation.restoreTo = some last) ∧
    ∃ draft role, held.draft = some draft ∧ message = draft.message role count
  | .taken _ => count = last
  | .unwinding held _ _ => held.stage = 0 → held.reservation.restoreTo = some last
  | _ => True

namespace Sys

/-- The count of one edge node, where an absent entry reads as 0. -/
def count (s : Sys κ φ) (pair : EdgeNode) : UInt8 := (s.seq.gate (keyOf pair)).count

/-- The last number after a step. A message that goes out brings its own, and a birth that
ends between its two messages brings back the one from before the first. -/
def carried (s : Sys κ φ) (pair : EdgeNode) (last : UInt8) : Label κ φ → UInt8
  | .accept c =>
    match s.call c with
    | .offered held _ => if held.script.pair = pair then s.count pair else last
    | _ => last
  | .restore c =>
    match s.call c with
    | .unwinding held _ _ =>
      if held.script.pair = pair ∧ held.stage ≠ 0 then held.reservation.restoreTo.getD last
      else last
    | _ => last
  | _ => last

end Sys

structure AtPair (s : Sys κ φ) (pair : EdgeNode) (last : UInt8) : Prop where
  resting : (∀ c held, (s.call c).holding = some held → held.script.pair ≠ pair) →
    s.count pair = last
  held : ∀ c held, (s.call c).holding = some held → held.script.pair = pair →
    (s.call c).Tracks (s.count pair) last

theorem atPair_initial (pair : EdgeNode) : AtPair (.new : Sys κ φ) pair 0 := by
  constructor
  · intro _
    rfl
  · intro c held holds
    cases (holding_new c).symm.trans holds

section Frame

variable {s u : Sys κ φ} {c : κ} {phase : Phase} {pair : EdgeNode} {last : UInt8}
  {held : Holding}

theorem count_write_self {gate : Gate} :
    ({ s with seq := s.seq.write (keyOf pair) gate } : Sys κ φ).count pair = gate.count := by
  unfold Sys.count
  rw [gate_write_self]

theorem count_write_of_ne {gate : Gate} {other : EdgeNode} (apart : pair ≠ other) :
    ({ s with seq := s.seq.write (keyOf other) gate } : Sys κ φ).count pair =
      s.count pair := by
  unfold Sys.count
  rw [gate_write_of_ne (keyOf_injective.ne apart)]

variable [DecidableEq κ]

theorem atPair_elsewhere (h : AtPair s pair last) (calls : u.call = s.call)
    (count : u.count pair = s.count pair)
    (before : ∀ held, (s.call c).holding = some held → held.script.pair ≠ pair)
    (after : ∀ held, phase.holding = some held → held.script.pair ≠ pair) :
    AtPair (u.put c phase) pair last := by
  have reading : (u.put c phase).count pair = s.count pair := count
  constructor
  · intro nobody
    rw [reading]
    refine h.resting fun d other hd => ?_
    by_cases same : d = c
    · subst same
      exact before other hd
    · exact nobody d other (by rw [put_of_ne same, calls]; exact hd)
  · intro d other hd names
    rw [reading]
    rcases holding_of_put hd with ⟨-, now⟩ | ⟨apart, still⟩
    · exact absurd names (after other now)
    · rw [put_of_ne apart, calls]
      rw [calls] at still
      exact h.held d other still names

theorem atPair_holder
    (alone : ∀ d other, d ≠ c → (u.call d).holding = some other → other.script.pair ≠ pair)
    (holds : phase.holding = some held) (same : held.script.pair = pair)
    (tracks : phase.Tracks (u.count pair) last) : AtPair (u.put c phase) pair last := by
  constructor
  · intro nobody
    exact absurd same (nobody c held (by rw [put_self]; exact holds))
  · intro d other hd names
    rcases holding_of_put hd with ⟨rfl, -⟩ | ⟨apart, still⟩
    · rw [put_self]
      exact tracks
    · exact absurd names (alone d other apart still)

theorem atPair_free
    (alone : ∀ d other, d ≠ c → (u.call d).holding = some other → other.script.pair ≠ pair)
    (dropped : phase.holding = none) (count : u.count pair = last) :
    AtPair (u.put c phase) pair last := by
  constructor
  · intro _
    exact count
  · intro d other hd names
    rcases holding_of_put hd with ⟨-, now⟩ | ⟨apart, still⟩
    · cases dropped.symm.trans now
    · exact absurd names (alone d other apart still)

theorem atPair_keeps {next : Holding} {now : UInt8} (gated : Gated s) (h : AtPair s pair last)
    (calls : u.call = s.call) (holds : (s.call c).holding = some held)
    (keeps : phase.holding = some next) (same : next.script.pair = held.script.pair)
    (elsewhere : held.script.pair ≠ pair → u.count pair = s.count pair ∧ now = last)
    (tracks : held.script.pair = pair → phase.Tracks (u.count pair) now) :
    AtPair (u.put c phase) pair now := by
  by_cases own : held.script.pair = pair
  · refine atPair_holder (fun d other apart hd => ?_) keeps (same.trans own) (tracks own)
    rw [calls] at hd
    exact own ▸ gated.alone holds d other apart hd
  · obtain ⟨count, rfl⟩ := elsewhere own
    refine atPair_elsewhere h calls count (fun other hc => ?_) fun other hp => ?_
    · cases holds.symm.trans hc
      exact own
    · cases keeps.symm.trans hp
      rw [same]
      exact own

theorem atPair_drops {now : UInt8} (gated : Gated s) (h : AtPair s pair last)
    (calls : u.call = s.call) (holds : (s.call c).holding = some held)
    (drops : phase.holding = none)
    (elsewhere : held.script.pair ≠ pair → u.count pair = s.count pair ∧ now = last)
    (rests : held.script.pair = pair → u.count pair = now) :
    AtPair (u.put c phase) pair now := by
  by_cases own : held.script.pair = pair
  · refine atPair_free (fun d other apart hd => ?_) drops (rests own)
    rw [calls] at hd
    exact own ▸ gated.alone holds d other apart hd
  · obtain ⟨count, rfl⟩ := elsewhere own
    refine atPair_elsewhere h calls count (fun other hc => ?_) fun other hp => ?_
    · cases holds.symm.trans hc
      exact own
    · cases drops.symm.trans hp

theorem atPair_step [DecidableEq φ] {client : Client} {t : Sys κ φ} {l : Label κ φ}
    (gated : Gated s) (h : AtPair s pair last) (moves : Sys.Moves client s l t) :
    AtPair t pair (s.carried pair last l) := by
  have silent {phase : Phase} (none : phase.holding = none) (held : Holding)
      (holds : phase.holding = some held) : held.script.pair ≠ pair := by
    cases none.symm.trans holds
  have tracks {c : κ} {held : Holding} (holds : (s.call c).holding = some held)
      (own : held.script.pair = pair) : (s.call c).Tracks (s.count pair) last :=
    h.held c held holds own
  cases moves with
  | rejected idle built =>
    exact atPair_elsewhere h rfl rfl (silent (by rw [idle]; rfl)) (silent rfl)
  | started idle built =>
    refine atPair_elsewhere h rfl ?_ (silent (by rw [idle]; rfl)) (silent rfl)
    exact congrArg Gate.count gate_gateOf
  | @acquired c script out waits free =>
    obtain ⟨unlocked, rfl⟩ := Script.reserve_iff.mp free
    by_cases same : script.pair = pair
    · subst same
      have resting : s.count script.pair = last := h.resting (gated.free unlocked)
      refine atPair_holder (fun d other _ hd => gated.free unlocked d other hd) rfl rfl ?_
      rw [count_write_self]
      change (s.seq.gate (keyOf script.pair)).count = last at resting
      rw [resting]
      exact ⟨by simp [Holding.draws, Sys.carried], fun _ => rfl⟩
    · refine atPair_elsewhere h rfl (count_write_of_ne (Ne.symm same))
        (silent (by rw [waits]; rfl)) fun held now => ?_
      cases Option.some.inj now
      exact same
  | @offered c held draft message delivery ready current built counted =>
    have holds : (s.call c).holding = some held := by rw [ready]; rfl
    refine atPair_keeps gated h rfl holds rfl rfl (fun _ => ⟨rfl, rfl⟩) fun own => ?_
    subst own
    have before := tracks holds rfl
    rw [ready] at before
    refine ⟨before.1, before.2, draft, client.role, current, ?_⟩
    rw [built, SeqCounters.number, gated.keyed c held holds]
    rfl
  | @accepted c held message delivery offers kept =>
    have holds : (s.call c).holding = some held := by rw [offers]; rfl
    refine atPair_keeps gated h rfl holds rfl rfl (fun other => ?_) fun own => ?_
    · simp [Sys.carried, offers, other, Sys.count]
    · simp only [Sys.carried, offers, own, if_true]
      rfl
  | @advanced c held takes more =>
    have holds : (s.call c).holding = some held := by rw [takes]; rfl
    rw [next_of_key (gated.keyed c held holds)]
    refine atPair_keeps gated h rfl holds rfl rfl
      (fun other => ⟨count_write_of_ne (Ne.symm other), rfl⟩) fun own => ?_
    subst own
    have before := tracks holds rfl
    rw [takes] at before
    refine ⟨?_, fun first => absurd first (Nat.succ_ne_zero _)⟩
    rw [count_write_self]
    exact congrArg (· + 1) before
  | @committed c held takes done =>
    have holds : (s.call c).holding = some held := by rw [takes]; rfl
    rw [commit_of_key (gated.keyed c held holds)]
    refine atPair_drops gated h rfl holds rfl
      (fun other => ⟨count_write_of_ne (Ne.symm other), rfl⟩) fun own => ?_
    subst own
    have before := tracks holds rfl
    rw [takes] at before
    rw [count_write_self]
    exact before
  | @refused c error held message offers =>
    have holds : (s.call c).holding = some held := by rw [offers]; rfl
    refine atPair_keeps gated h rfl holds rfl rfl (fun _ => ⟨rfl, rfl⟩) fun own => ?_
    have before := tracks holds own
    rw [offers] at before
    exact before.2.1
  | left waits =>
    exact atPair_elsewhere h rfl rfl (silent (by rw [waits]; rfl)) (silent rfl)
  | @cancelled c held message offers =>
    have holds : (s.call c).holding = some held := by rw [offers]; rfl
    refine atPair_keeps gated h rfl holds rfl rfl (fun _ => ⟨rfl, rfl⟩) fun own => ?_
    have before := tracks holds own
    rw [offers] at before
    exact before.2.1
  | @released c held error delivery unwinds rolled =>
    have holds : (s.call c).holding = some held := by rw [unwinds]; rfl
    refine atPair_keeps gated h rfl holds rfl rfl (fun _ => ⟨rfl, rfl⟩) fun own => ?_
    have before := tracks holds own
    rw [unwinds] at before
    exact before
  | @restored c held error unwinds =>
    have holds : (s.call c).holding = some held := by rw [unwinds]; rfl
    obtain ⟨found, saved⟩ := gated.saved c held holds
    rw [drop_of_key (gated.keyed c held holds) saved]
    refine atPair_drops gated h rfl holds (holding_ended error) (fun other => ?_) fun own => ?_
    · exact ⟨count_write_of_ne (Ne.symm other), by simp [Sys.carried, unwinds, other]⟩
    · subst own
      have before := tracks holds rfl
      rw [unwinds] at before
      rw [count_write_self]
      simp only [Sys.carried, unwinds, saved, Option.getD_some, true_and]
      split <;> rename_i first
      · rfl
      · exact Option.some.inj (saved.symm.trans (before (by simpa using first)))
  | happened outside taken => exact ⟨h.resting, h.held⟩

end Frame

section Numbers

/-- The messages of one edge node in the order the client took them. -/
def streamOf (pair : EdgeNode) (sent : List (κ × Message)) : List Message :=
  (sent.map Prod.snd).filter fun m => m.topic.edgeNode = some pair

/-- How many messages came after the latest NBIRTH, or after the start when there is none. -/
def sinceBirth (before : List Message) : Nat :=
  (before.reverse.takeWhile fun m => m.topic.messageType ≠ .NBIRTH).length

def expected (before : List Message) (m : Message) : Nat :=
  if m.topic.messageType = .NBIRTH then 0 else sinceBirth before + 1

/-- Each message carries the number its place behind the latest NBIRTH gives, in one byte. -/
def Numbered (stream : List Message) : Prop := ∀ before m after,
  stream = before ++ m :: after → m.payload.seq = some (UInt64.ofNat (expected before m % 256))

/-- No call is refused or cancelled between the two messages of a birth. -/
def wholeBirths (s : Sys κ φ) : Label κ φ → Bool
  | .refuse c _ | .cancel c =>
    match s.call c with
    | .offered held _ => held.stage == 0
    | _ => true
  | _ => true

theorem streamOf_append (pair : EdgeNode) (sent : List (κ × Message)) (c : κ) (m : Message) :
    streamOf pair (sent ++ [(c, m)]) =
      streamOf pair sent ++ if m.topic.edgeNode = some pair then [m] else [] := by
  unfold streamOf
  rw [List.map_append, List.filter_append]
  by_cases names : m.topic.edgeNode = some pair
  · simp [names]
  · simp [names]

theorem sinceBirth_append (before : List Message) (m : Message) :
    sinceBirth (before ++ [m]) = expected before m := by
  unfold sinceBirth expected
  by_cases birth : m.topic.messageType = .NBIRTH
  · simp [birth]
  · simp [birth, sinceBirth]

theorem numbered_append {stream : List Message} {m : Message} (h : Numbered stream)
    (next : m.payload.seq = some (UInt64.ofNat (expected stream m % 256))) :
    Numbered (stream ++ [m]) := by
  intro before x after split
  rcases List.eq_nil_or_concat after with rfl | ⟨ys, y, rfl⟩
  · obtain ⟨rfl, same⟩ := List.append_inj' split rfl
    cases (List.cons.inj same).1
    exact next
  · rw [List.concat_eq_append, ← List.cons_append, ← List.append_assoc] at split
    obtain ⟨rfl, -⟩ := List.append_inj' split rfl
    exact h before x ys rfl

theorem toUInt64_ofNat (n : Nat) : (UInt8.ofNat n).toUInt64 = UInt64.ofNat (n % 256) := by
  apply UInt64.toNat_inj.mp
  rw [UInt8.toNat_toUInt64, UInt8.toNat_ofNat', UInt64.toNat_ofNat']
  omega

variable {held : Holding} {draft : Draft} {last : UInt8}

theorem draft_mem (current : held.draft = some draft) : draft ∈ held.script.drafts :=
  List.mem_of_getElem? current

/-- The type of the topic alone decides the number, at every stage of a script. -/
theorem draws_of_draft (current : held.draft = some draft) : held.draws last =
    if draft.topic.messageType = .NBIRTH then 0 else last + 1 := by
  unfold Holding.draws
  unfold Holding.draft Script.drafts at current
  cases stage : held.stage with
  | zero =>
    rw [stage] at current
    cases Option.some.inj current
    simp [Script.drawn, Script.resets]
  | succ n =>
    rw [stage, List.getElem?_cons_succ] at current
    have later := held.script.restarts draft (List.mem_of_getElem? current)
    simp [later]

theorem AtPair.names {s : Sys κ φ} {c : κ} {message : Message}
    (h : AtPair s held.script.pair last) (offers : s.call c = .offered held message) :
    message.topic.edgeNode = some held.script.pair ∧
    message.payload.seq = some (s.count held.script.pair).toUInt64 ∧
    s.count held.script.pair =
      if message.topic.messageType = .NBIRTH then 0 else last + 1 := by
  have holds : (s.call c).holding = some held := by rw [offers]; rfl
  have tracks := h.held c held holds rfl
  rw [offers] at tracks
  obtain ⟨count, -, draft, role, current, rfl⟩ := tracks
  refine ⟨held.script.named draft (draft_mem current), Draft.message_seq .., ?_⟩
  rw [count, draws_of_draft current]
  rfl

end Numbers

section Streams

variable [DecidableEq κ] [DecidableEq φ] {client : Client} {s t : Sys κ φ} {l : Label κ φ}

theorem atPair_run {ok : Sys κ φ → Label κ φ → Prop} {ls : List (Label κ φ)}
    (run : Run (Sys.step client) ok .new ls s) :
    Gated s ∧ ∀ pair, ∃ last, AtPair s pair last := by
  refine run.invariant (P := fun s => Gated s ∧ ∀ pair, ∃ last, AtPair s pair last)
    ⟨gated_initial, fun pair => ⟨0, atPair_initial pair⟩⟩ fun u l v _ h _ taken => ?_
  have moves := Sys.moves_of_step taken
  refine ⟨gated_step h.1 moves, fun pair => ?_⟩
  obtain ⟨last, before⟩ := h.2 pair
  exact ⟨_, atPair_step h.1 before moves⟩

theorem offer_run {ok : Sys κ φ → Label κ φ → Prop} {ls : List (Label κ φ)} {c : κ}
    {held : Holding} {message : Message} (run : Run (Sys.step client) ok .new ls s)
    (offers : s.call c = .offered held message) :
    message.topic.edgeNode = some held.script.pair ∧
    message.payload.seq = some (s.count held.script.pair).toUInt64 := by
  obtain ⟨last, h⟩ := (atPair_run run).2 held.script.pair
  obtain ⟨names, seq, -⟩ := h.names offers
  exact ⟨names, seq⟩

def lastOf (s : Sys κ φ) (pair : EdgeNode) : UInt8 :=
  UInt8.ofNat (sinceBirth (streamOf pair s.sent))

/-- What every run keeps in which no birth ends between its two messages. -/
structure Streams (s : Sys κ φ) : Prop where
  gated : Gated s
  atPair : ∀ pair, AtPair s pair (lastOf s pair)
  whole : ∀ c held guarded error, s.call c = .unwinding held guarded error → held.stage = 0
  numbered : ∀ pair, Numbered (streamOf pair s.sent)

omit [DecidableEq κ] [DecidableEq φ] in
theorem streams_initial : Streams (.new : Sys κ φ) := by
  refine ⟨gated_initial, atPair_initial, ?_, ?_⟩
  · intro c held guarded error unwinds
    cases unwinds
  · intro pair before m after split
    simp [streamOf, Sys.new] at split

omit [DecidableEq κ] [DecidableEq φ] in
theorem Streams.accepts {c : κ} {held : Holding} {message : Message} (h : Streams s)
    (offers : s.call c = .offered held message) :
    message.topic.edgeNode = some held.script.pair ∧
    s.count held.script.pair =
      UInt8.ofNat (expected (streamOf held.script.pair s.sent) message) ∧
    message.payload.seq = some (s.count held.script.pair).toUInt64 := by
  obtain ⟨names, seq, count⟩ := (h.atPair held.script.pair).names offers
  refine ⟨names, ?_, seq⟩
  rw [count, expected]
  split
  · rfl
  · rw [UInt8.ofNat_add]
    rfl

theorem whole_step (whole : ∀ c held guarded error,
      s.call c = .unwinding held guarded error → held.stage = 0)
    (promise : wholeBirths s l = true) (moves : Sys.Moves client s l t) :
    ∀ c held guarded error, t.call c = .unwinding held guarded error → held.stage = 0 := by
  intro c held guarded error unwinds
  rcases unwinding_of_step moves unwinds with ⟨_, before⟩ | ⟨message, offers, ends⟩
  · exact whole c held _ error before
  · rcases ends with ⟨e, rfl⟩ | rfl
    · simpa [wholeBirths, offers] using promise
    · simpa [wholeBirths, offers] using promise

theorem carried_eq (h : Streams s) (moves : Sys.Moves client s l t) (pair : EdgeNode) :
    s.carried pair (lastOf s pair) l = lastOf t pair := by
  cases moves with
  | @accepted c held message delivery offers kept =>
    obtain ⟨names, count, -⟩ := h.accepts offers
    unfold lastOf
    simp only [Sys.carried, offers, put_sent, streamOf_append, names, Option.some.injEq]
    split <;> rename_i same
    · subst same
      rw [sinceBirth_append, count]
    · rw [List.append_nil]
  | @restored c held error unwinds =>
    have first := h.whole c held _ error unwinds
    simp [Sys.carried, unwinds, first, lastOf]
  | _ => rfl

theorem streams_step (h : Streams s) (promise : wholeBirths s l = true)
    (moves : Sys.Moves client s l t) : Streams t := by
  refine ⟨gated_step h.gated moves, fun pair => ?_, whole_step h.whole promise moves,
    fun pair => ?_⟩
  · have step := atPair_step h.gated (h.atPair pair) moves
    rwa [carried_eq h moves] at step
  · cases moves with
    | @accepted c held message delivery offers kept =>
      obtain ⟨names, count, seq⟩ := h.accepts offers
      simp only [put_sent, streamOf_append, names, Option.some.injEq]
      split <;> rename_i same
      · subst same
        apply numbered_append (h.numbered _)
        rw [seq, count, toUInt64_ofNat]
      · rw [List.append_nil]
        exact h.numbered pair
    | _ => exact h.numbered pair

/-- The stream of every edge node counts on from its latest NBIRTH without a gap, a repeat
or a message out of order. -/
theorem streams_have_no_gap {ls : List (Label κ φ)}
    (run : Run (Sys.step client) (Obeys [wholeBirths]) .new ls s) (pair : EdgeNode) :
    ∀ before m after, streamOf pair s.sent = before ++ m :: after →
      m.payload.seq = some (UInt64.ofNat
        (if m.topic.messageType = .NBIRTH then 0 else (sinceBirth before + 1) % 256)) := by
  have streams : Streams s := by
    refine run.invariant streams_initial fun u l v _ h promise taken => ?_
    exact streams_step h (promise _ (by simp)) (Sys.moves_of_step taken)
  intro before m after split
  rw [streams.numbered pair before m after split, expected]
  split
  · rfl
  · rfl

end Streams

def plantNode : EdgeNode := ⟨⟨"Plant", by decide⟩, ⟨"line4", by decide⟩⟩

def plantDevice : DeviceId := ⟨"pump", by decide⟩

def plantClient : Client := ⟨.sparkplugB, .edgeNode plantNode⟩

def plantData : Operation := .publishMetricTo
  (Namespace.sparkplugB.ddata plantNode.group plantNode.edgeNodeId plantDevice) "rpm" (.int 7) 0

/-- A birth, a cancelled publish that waited behind it, and the publish after both. -/
theorem streams_have_no_gap_small : ∃ (s : Sys Nat Nat) (m₀ m₁ m₂ : Message),
    Run (Sys.step plantClient) (Obeys [wholeBirths]) .new
      [.start 0 (.publishBirth plantDevice ⟨0⟩), .start 1 plantData, .start 2 plantData,
        .acquire 0, .offer 0, .accept 0, .next 0, .offer 0, .accept 0, .commit 0, .acquire 1,
        .offer 1, .cancel 1, .restore 1, .acquire 2, .offer 2, .accept 2] s ∧
    streamOf plantNode s.sent = [m₀, m₁, m₂] ∧ m₂.payload.seq = some 2 := by
  obtain ⟨s, m₀, m₁, m₂, h, stream, since, data⟩ : ∃ (s : Sys Nat Nat) (m₀ m₁ m₂ : Message),
      exec (Sys.step plantClient) [wholeBirths] .new
        [.start 0 (.publishBirth plantDevice ⟨0⟩), .start 1 plantData, .start 2 plantData,
          .acquire 0, .offer 0, .accept 0, .next 0, .offer 0, .accept 0, .commit 0, .acquire 1,
          .offer 1, .cancel 1, .restore 1, .acquire 2, .offer 2, .accept 2] = some s ∧
      streamOf plantNode s.sent = [m₀, m₁, m₂] ∧ sinceBirth [m₀, m₁] = 1 ∧
      m₂.topic.messageType = .DDATA := ⟨_, _, _, _, rfl, rfl, rfl, rfl⟩
  have run := Run.of_exec h
  have number := streams_have_no_gap run plantNode [m₀, m₁] m₂ [] stream
  rw [since, data] at number
  exact ⟨s, m₀, m₁, m₂, run, stream, number⟩

end Sparkplug
