import Sparkplug.Client.Serial
import Sparkplug.Client.Shutdown

/-! What a host application reads of a session. The messages go out in the order in which the
client took them, and what a failed poll drops leaves a gap in the numbers of its edge node. -/
namespace Sparkplug

open Transition

variable {κ φ : Type}

def Request.message? : Request κ → Option (κ × Nat)
  | .publish id _ => some id
  | .disconnect => none

@[simp] theorem message_publish (id : κ × Nat) (tracked : Bool) :
    (Request.publish id tracked).message? = some id := rfl

@[simp] theorem message_disconnect : (.disconnect : Request κ).message? = none := rfl

theorem queued_handed (messages : List ((κ × Nat) × Message)) :
    (messages.map requestOf).filterMap Request.message? = messages.map Prod.fst := by
  rw [List.filterMap_map, ← List.filterMap_eq_map]
  rfl

section Lists

variable {α β : Type*} {name : α → β} {xs ys : List α}

/-- A sublist is what its names filter, where no name occurs twice. -/
theorem filter_of_sublist [BEq β] [LawfulBEq β] (inside : xs.Sublist ys) (once : (ys.map name).Nodup) :
    ys.filter (fun y => (xs.map name).contains (name y)) = xs := by
  induction inside with
  | slnil => rfl
  | @cons xs ys a inside ih =>
    obtain ⟨fresh, once⟩ := List.nodup_cons.mp once
    have absent : name a ∉ xs.map name := fun member => fresh ((inside.map name).subset member)
    rw [List.filter_cons_of_neg (by simpa using absent)]
    exact ih once
  | @cons_cons xs ys a inside ih =>
    obtain ⟨fresh, once⟩ := List.nodup_cons.mp once
    rw [List.filter_cons_of_pos (by simp), List.cons.injEq]
    refine ⟨rfl, Eq.trans (List.filter_congr fun y member => ?_) (ih once)⟩
    have apart : name y ≠ name a := fun same => fresh (same ▸ List.mem_map_of_mem member)
    simp [apart]

variable [DecidableEq β]

theorem find_named {x : α} (once : (xs.map name).Nodup) (member : x ∈ xs) :
    xs.find? (fun y => name y = name x) = some x := by
  induction xs with
  | nil => cases member
  | cons y xs ih =>
    obtain ⟨fresh, once⟩ := List.nodup_cons.mp once
    rcases List.mem_cons.mp member with rfl | later
    · simp
    · have apart : name y ≠ name x := fun same => fresh (same ▸ List.mem_map_of_mem later)
      rw [List.find?_cons_of_neg (by simpa using apart)]
      exact ih once later

theorem find_of_sublist (inside : xs.Sublist ys) (once : (ys.map name).Nodup) :
    (xs.map name).filterMap (fun id => ys.find? fun y => name y = id) = xs := by
  rw [List.filterMap_map]
  refine (List.filterMap_congr fun x member => ?_).trans List.filterMap_some
  exact find_named once (inside.subset member)

end Lists

namespace Session

def queued (s : Session κ φ) : List (κ × Nat) := s.channel.filterMap Request.message?

variable [DecidableEq κ]

/-- The messages that went out, first to last, each as often as it went out. -/
def outgoing (s : Session κ φ) : List ((κ × Nat) × Message) :=
  s.written.filterMap fun id => s.accepted.find? fun h => h.1 = id

def stream (s : Session κ φ) (pair : EdgeNode) : List ((κ × Nat) × Message) :=
  s.accepted.filter fun h => h.2.topic.edgeNode = some pair

def wire (s : Session κ φ) (pair : EdgeNode) : List ((κ × Nat) × Message) :=
  s.outgoing.filter fun h => h.2.topic.edgeNode = some pair

/-- What is in the channel or out of it came from a call, which handed its drafts over in
their order and each once. -/
structure Entered (s : Session κ φ) : Prop where
  known : ∀ id, id ∈ s.written ∨ id ∈ s.queued → id ∈ s.accepted.map Prod.fst
  once : (s.accepted.map Prod.fst).Nodup
  behind : ∀ h ∈ s.accepted,
    (s.client.call h.1.1).over = true ∨ h.1.2 < (s.client.call h.1.1).handed
  turns : ∀ c, ((s.accepted.filter fun h => h.1.1 = c).map fun h => h.1.2).Pairwise (· < ·)

section Order

variable [DecidableEq φ] {client : Client} {s t : Session κ φ} {l : SessionStep κ φ}
  {ls : List (SessionStep κ φ)}

omit [DecidableEq φ] in
theorem entered_initial : Entered (.new : Session κ φ) := by
  refine ⟨fun id member => ?_, List.nodup_nil, fun h member => ?_, fun c => List.Pairwise.nil⟩
  · rcases member with out | waits
    · cases out
    · cases waits
  · cases member

theorem behind_step {s t : Sys κ φ} {l : Label κ φ} {c : κ} {k : Nat}
    (moves : Sys.Moves client s l t) (behind : (s.call c).over = true ∨ k < (s.call c).handed) :
    (t.call c).over = true ∨ k < (t.call c).handed := by
  rcases behind with finished | handed
  · rw [over_step finished moves]
    exact .inl finished
  · rcases phase_step moves c with same | ⟨before, after, found, left, own⟩
    · rw [same]
      exact .inr handed
    · rw [found] at handed
      rw [left]
      cases own with
      | accepted => exact .inr (Nat.lt_succ_of_lt handed)
      | committed => exact .inl rfl
      | @restored _ error => cases error <;> exact .inl rfl
      | rejected => exact .inl rfl
      | left => exact .inl rfl
      | started => exact absurd handed (Nat.not_lt_zero k)
      | acquired => exact absurd handed (Nat.not_lt_zero k)
      | _ => exact .inr handed

theorem handed_step {s t : Sys κ φ} {l : Label κ φ} (moves : Sys.Moves client s l t) :
    s.handed l = [] ∨ ∃ c k message, s.handed l = [((c, k), message)] ∧
      (s.call c).over = false ∧ (s.call c).handed = k ∧ k < (t.call c).handed := by
  cases moves with
  | accepted offers kept =>
    refine .inr ⟨_, _, _, by rw [Sys.handed, offers], ?_⟩
    rw [offers, put_self]
    exact ⟨rfl, rfl, Nat.lt_succ_self _⟩
  | _ => exact .inl rfl

omit [DecidableEq φ] in
theorem entered_same (h : Entered s) (accepted : t.accepted = s.accepted)
    (calls : t.client.call = s.client.call)
    (left : ∀ id, id ∈ t.written ∨ id ∈ t.queued → id ∈ s.written ∨ id ∈ s.queued) :
    Entered t := by
  refine ⟨fun id member => ?_, ?_, ?_, ?_⟩
  · rw [accepted]
    exact h.known id (left id member)
  · rw [accepted]
    exact h.once
  · rw [accepted, calls]
    exact h.behind
  · rw [accepted]
    exact h.turns

theorem entered_call {l : Label κ φ} {next : Sys κ φ} (h : Entered s)
    (taken : Sys.step client s.client l = some next) : Entered { s with
      client := next
      channel := s.channel ++ (s.client.handed l).map requestOf
      accepted := s.accepted ++ s.client.handed l
      told := s.tells client l } := by
  have moves := Sys.moves_of_step taken
  have behind (m : (κ × Nat) × Message) (member : m ∈ s.accepted) :
      (next.call m.1.1).over = true ∨ m.1.2 < (next.call m.1.1).handed :=
    behind_step moves (h.behind m member)
  rcases handed_step moves with nothing | ⟨c, k, message, one, running, at_, later⟩
  · rw [nothing, List.append_nil, List.map_nil, List.append_nil]
    exact ⟨h.known, h.once, behind, h.turns⟩
  · have earlier (m : (κ × Nat) × Message) (member : m ∈ s.accepted) (own : m.1.1 = c) :
        m.1.2 < k := by
      rcases h.behind m member with finished | handed
      · rw [own, running] at finished
        cases finished
      · rwa [own, at_] at handed
    rw [one]
    refine ⟨fun id member => ?_, ?_, fun m member => ?_, fun d => ?_⟩
    · rw [List.map_append, List.mem_append]
      simp only [queued, List.filterMap_append, queued_handed, List.mem_append] at member
      rcases member with out | waits | now
      · exact .inl (h.known id (.inl out))
      · exact .inl (h.known id (.inr waits))
      · exact .inr now
    · rw [List.map_append, List.nodup_append]
      refine ⟨h.once, List.nodup_singleton _, ?_⟩
      rintro id before id' now rfl
      obtain ⟨⟨id, _⟩, member, rfl⟩ := List.mem_map.mp before
      cases List.mem_singleton.mp now
      exact Nat.lt_irrefl _ (earlier _ member rfl)
    · rcases List.mem_append.mp member with before | now
      · exact behind m before
      · cases List.mem_singleton.mp now
        exact .inr later
    · rw [List.filter_append, List.map_append, List.pairwise_append]
      refine ⟨h.turns d, ?_, fun k' before k'' now => ?_⟩
      · by_cases own : c = d <;> simp [own]
      · obtain ⟨m, member, rfl⟩ := List.mem_map.mp before
        obtain ⟨inside, own⟩ := List.mem_filter.mp member
        by_cases same : c = d
        · subst same
          cases (by simpa using now : k'' = k)
          exact earlier m inside (of_decide_eq_true own)
        · simp [same] at now

theorem entered_step (h : Entered s) (moves : Moves client s l t) : Entered t := by
  have less {channel : List (Request κ)} (inside : channel ⊆ s.channel) {id : κ × Nat}
      (waits : id ∈ channel.filterMap Request.message?) : id ∈ s.queued := by
    obtain ⟨request, member, same⟩ := List.mem_filterMap.mp waits
    exact List.mem_filterMap.mpr ⟨request, inside member, same⟩
  cases moves with
  | called admitted taken => exact entered_call h taken
  | wrote waits =>
    refine entered_same h rfl rfl fun id member => ?_
    rcases member with out | waiting
    · rcases List.mem_append.mp out with before | now
      · exact .inl before
      · cases List.mem_singleton.mp now
        exact .inr (List.mem_filterMap.mpr ⟨_, List.mem_of_getElem? waits, rfl⟩)
    · exact .inr (less (List.eraseIdx_subset) waiting)
  | closed waits =>
    refine entered_same h rfl rfl fun id member => member.imp_right ?_
    exact less (List.eraseIdx_subset)
  | resent before =>
    refine entered_same h rfl rfl fun id member => member.imp_left fun out => ?_
    rcases List.mem_append.mp out with earlier | now
    · exact earlier
    · cases List.mem_singleton.mp now
      exact before
  | @polled event =>
    cases event with
    | failed drops =>
      refine entered_same h rfl rfl fun id member => member.imp_right (less ?_)
      cases drops with
      | false => exact List.Subset.refl _
      | true => exact List.nil_subset _
    | _ => exact entered_same h rfl rfl fun _ member => member
  | requested requests =>
    refine entered_same h rfl rfl fun id member => ?_
    simpa [queued, List.filterMap_cons] using member
  | _ => exact entered_same h rfl rfl fun _ member => member

theorem entered_run {ok : Session κ φ → SessionStep κ φ → Prop}
    (run : Run (step client) ok .new ls s) : Entered s :=
  run.invariant entered_initial fun _ _ _ _ h _ taken => entered_step h (moves_of_step taken)

/-- A channel that keeps its order: what went out and what waits is in the order in which the
client took it. -/
def Ordered (s : Session κ φ) : Prop :=
  (s.written ++ s.queued).Sublist (s.accepted.map Prod.fst)

omit [DecidableEq κ] [DecidableEq φ] in
theorem queued_publish {id : κ × Nat} {tracked : Bool} {rest : List (Request κ)}
    (first : s.channel = .publish id tracked :: rest) :
    s.queued = id :: rest.filterMap Request.message? := by
  simp [queued, first]

omit [DecidableEq κ] [DecidableEq φ] in
theorem queued_disconnect {rest : List (Request κ)} (first : s.channel = .disconnect :: rest) :
    s.queued = rest.filterMap Request.message? := by
  simp [queued, first, List.filterMap_cons]

/-- In order, what went out and what waits is extended by a call, and cut by a failed poll
that drops the channel. -/
theorem sequence_step (inOrder : writesInOrder s l = true) (moves : Moves client s l t) :
    (∃ more, t.written ++ t.queued = s.written ++ s.queued ++ more.map Prod.fst ∧
      t.accepted = s.accepted ++ more) ∨
    (l = .poll (.failed true) ∧ t.written ++ t.queued = s.written ∧ t.accepted = s.accepted) := by
  have same (sequence : t.written ++ t.queued = s.written ++ s.queued)
      (accepted : t.accepted = s.accepted) :
      ∃ more, t.written ++ t.queued = s.written ++ s.queued ++ more.map Prod.fst ∧
        t.accepted = s.accepted ++ more :=
    ⟨[], by rw [sequence, List.map_nil, List.append_nil], by rw [accepted, List.append_nil]⟩
  cases moves with
  | @called l next admitted inner =>
    refine .inl ⟨s.client.handed l, ?_, rfl⟩
    simp only [queued, List.filterMap_append, queued_handed, List.append_assoc]
  | wrote waits =>
    obtain ⟨rest, first, left⟩ := first_of_order inOrder waits
    refine .inl (same ?_ rfl)
    rw [queued_publish first, queued, left]
    simp
  | closed waits =>
    obtain ⟨rest, first, left⟩ := first_of_order inOrder waits
    refine .inl (same ?_ rfl)
    rw [queued_disconnect first, queued, left]
  | resent => cases inOrder
  | @polled event =>
    cases event with
    | failed drops =>
      cases drops with
      | false => exact .inl (same rfl rfl)
      | true => exact .inr ⟨rfl, List.append_nil _, rfl⟩
    | _ => exact .inl (same rfl rfl)
  | requested requests =>
    refine .inl (same ?_ rfl)
    simp [queued, List.filterMap_cons]
  | _ => exact .inl (same rfl rfl)

theorem ordered_step (h : Ordered s) (inOrder : writesInOrder s l = true)
    (moves : Moves client s l t) : Ordered t := by
  rcases sequence_step inOrder moves with ⟨more, sequence, accepted⟩ | ⟨-, sequence, accepted⟩
  · rw [Ordered, sequence, accepted, List.map_append]
    exact h.append_right _
  · rw [Ordered, sequence, accepted]
    exact (List.sublist_append_left ..).trans h

omit [DecidableEq κ] [DecidableEq φ] in
theorem order_of_rules (promise : Obeys [writesInOrder] s l) : writesInOrder s l = true :=
  promise _ (List.mem_singleton_self _)

theorem ordered_run (run : Run (step client) (Obeys [writesInOrder]) .new ls s) : Ordered s :=
  run.invariant (P := Ordered) (List.nil_sublist _) fun _ _ _ _ h promise taken =>
    ordered_step h (order_of_rules promise) (moves_of_step taken)

theorem nothing_skipped (run : Run (step client) (Obeys [writesInOrder]) .new ls s)
    (kept : .poll (.failed true) ∉ ls) : s.written ++ s.queued = s.accepted.map Prod.fst := by
  refine run.invariant (P := fun s => s.written ++ s.queued = s.accepted.map Prod.fst) rfl
    fun s l t member h promise taken => ?_
  rcases sequence_step (order_of_rules promise) (moves_of_step taken) with
    ⟨more, sequence, accepted⟩ | ⟨rfl, -⟩
  · rw [sequence, accepted, h, List.map_append]
  · exact absurd member kept

omit [DecidableEq φ] in
theorem outgoing_of_ordered (entered : Entered s) (ordered : Ordered s) :
    s.outgoing = s.accepted.filter (fun h => s.written.contains h.1) ∧
    s.outgoing.map Prod.fst = s.written := by
  obtain ⟨out, inside, names⟩ :=
    List.sublist_map_iff.mp ((List.sublist_append_left ..).trans ordered)
  have found : s.outgoing = out := by
    rw [outgoing, names]
    exact find_of_sublist inside entered.once
  rw [found, names]
  exact ⟨(filter_of_sublist inside entered.once).symm, rfl⟩

/-- Where `rumqttc` keeps the order of its channel, the messages go out in the order in which
the client took them and those of one call in the order of its drafts, none twice, and none is
skipped as long as no failed poll drops the channel. -/
theorem messages_go_out_in_order
    (run : Run (step client) (Obeys [writesInOrder]) .new ls s) :
    (s.outgoing.map Prod.fst = s.written ∧ s.written.Nodup ∧ s.outgoing.Sublist s.accepted) ∧
    (∀ c, ((s.outgoing.filter fun h => h.1.1 = c).map fun h => h.1.2).Pairwise (· < ·)) ∧
    (.poll (.failed true) ∉ ls → s.written ++ s.queued = s.accepted.map Prod.fst) := by
  have entered := entered_run run
  have ordered := ordered_run run
  obtain ⟨filtered, names⟩ := outgoing_of_ordered entered ordered
  have inside : s.outgoing.Sublist s.accepted := filtered ▸ List.filter_sublist
  refine ⟨⟨names, ?_, inside⟩, fun c => ?_, nothing_skipped run⟩
  · exact ((List.sublist_append_left ..).trans ordered).nodup entered.once
  · exact (entered.turns c).sublist ((inside.filter _).map _)

omit [DecidableEq φ] in
theorem wire_of_ordered (entered : Entered s) (ordered : Ordered s) (pair : EdgeNode) :
    s.wire pair = (s.stream pair).filter fun h => s.written.contains h.1 := by
  rw [wire, (outgoing_of_ordered entered ordered).1, stream, List.filter_filter,
    List.filter_filter]
  exact List.filter_congr fun _ _ => Bool.and_comm _ _

theorem wire_begins (run : Run (step client) (Obeys [writesInOrder]) .new ls s)
    (kept : .poll (.failed true) ∉ ls) (pair : EdgeNode) : s.wire pair <+: s.stream pair := by
  have entered := entered_run run
  have all := nothing_skipped run kept
  have once := entered.once
  rw [← all] at once
  obtain ⟨out, left, split, went, waits⟩ := List.map_eq_append_iff.mp all.symm
  have first : out.filter (fun h => s.written.contains h.1) = out := by
    refine List.filter_eq_self.mpr fun h member => ?_
    rw [← went]
    simpa using ⟨h.2, member⟩
  have second : left.filter (fun h => s.written.contains h.1) = [] := by
    refine List.filter_eq_nil_iff.mpr fun h member => ?_
    have later : h.1 ∈ s.queued := waits ▸ List.mem_map_of_mem member
    have unwritten : h.1 ∉ s.written := fun early =>
      (List.nodup_append.mp once).2.2 h.1 early h.1 later rfl
    simpa using unwritten
  refine ⟨left.filter fun h => h.2.topic.edgeNode = some pair, ?_⟩
  rw [wire, (outgoing_of_ordered entered (ordered_run run)).1, stream, split, List.filter_append,
    first, second, List.append_nil, List.filter_append]

end Order

section Gap

variable [DecidableEq φ] {client : Client} {s : Session κ φ}

omit [DecidableEq κ] in
theorem sinceBirth_later {before later : List Message}
    (data : ∀ m ∈ later, m.topic.messageType ≠ .NBIRTH) :
    sinceBirth (before ++ later) = sinceBirth before + later.length := by
  unfold sinceBirth
  rw [List.reverse_append, List.takeWhile_append_of_pos fun m member => ?_, List.length_append,
    List.length_reverse, Nat.add_comm]
  exact decide_eq_true (data m (List.mem_reverse.mp member))

theorem numbers_apart {stream early lost late : List Message} {m n : Message}
    (numbered : Numbered stream) (split : stream = early ++ m :: (lost ++ n :: late))
    (data : ∀ x ∈ lost ++ [n], x.topic.messageType ≠ .NBIRTH) :
    ∃ a b : UInt64, m.payload.seq = some a ∧ n.payload.seq = some b ∧
      b.toNat = (a.toNat + 1 + lost.length) % 256 := by
  have first := numbered early m (lost ++ n :: late) split
  have second := numbered (early ++ [m] ++ lost) n late (by simp [split])
  have last : n.topic.messageType ≠ .NBIRTH := data n (by simp)
  have place : expected (early ++ [m] ++ lost) n = expected early m + lost.length + 1 := by
    rw [expected, if_neg last, sinceBirth_later fun x member => data x (by simp [member]),
      sinceBirth_append]
  refine ⟨_, _, first, second, ?_⟩
  rw [place, UInt64.toNat_ofNat', UInt64.toNat_ofNat']
  omega

theorem stream_client {ok : Session κ φ → SessionStep κ φ → Prop} {ls : List (SessionStep κ φ)}
    (run : Run (step client) ok .new ls s) (pair : EdgeNode) :
    (s.stream pair).map Prod.snd = streamOf pair s.client.sent := by
  rw [← accepted_run run, streamOf, List.map_map, List.filter_map]
  rfl

theorem numbering_rules {ls : List (SessionStep κ φ)}
    (run : Run (step client) (Obeys [onClient wholeBirths, writesInOrder]) .new ls s) :
    Run (step client) (Obeys [onClient wholeBirths]) .new ls s ∧
    Run (step client) (Obeys [writesInOrder]) .new ls s := by
  refine ⟨run.mono fun s l promise rule member => promise rule ?_,
    run.mono fun s l promise rule member => promise rule ?_⟩
  · exact List.mem_cons.mpr (.inl (List.mem_singleton.mp member))
  · exact List.mem_cons_of_mem _ member

theorem numbered_stream {ls : List (SessionStep κ φ)}
    (run : Run (step client) (Obeys [onClient wholeBirths]) .new ls s) (pair : EdgeNode) :
    Numbered ((s.stream pair).map Prod.snd) := by
  have whole : Run (step client)
      (Obeys (([wholeBirths] : List (Sys κ φ → Label κ φ → Bool)).map onClient)) .new ls s := run
  obtain ⟨cls, inner, -⟩ := client_run whole
  have streams : Streams s.client := inner.invariant streams_initial fun _ _ _ _ h promise taken =>
    streams_step h (promise _ (List.mem_singleton_self _)) (Sys.moves_of_step taken)
  rw [stream_client run]
  exact streams.numbered pair

/-- Between two messages that a host application reads one behind the other, the numbers are
apart by those that were lost, unless an NBIRTH is among them: the gap is there to be read
where not a multiple of 256 was lost. -/
theorem losses_show_as_gaps {ls : List (SessionStep κ φ)}
    (run : Run (step client) (Obeys [onClient wholeBirths, writesInOrder]) .new ls s)
    (pair : EdgeNode) {before after : List ((κ × Nat) × Message)} {m n : (κ × Nat) × Message}
    (reads : s.wire pair = before ++ m :: n :: after) :
    ∃ early lost late, s.stream pair = early ++ m :: (lost ++ n :: late) ∧
      (∀ x ∈ lost, x.1 ∉ s.written) ∧
      ((∀ x ∈ lost ++ [n], x.2.topic.messageType ≠ .NBIRTH) →
        ∃ a b : UInt64, m.2.payload.seq = some a ∧ n.2.payload.seq = some b ∧
          b.toNat = (a.toNat + 1 + lost.length) % 256 ∧
          (b.toNat = (a.toNat + 1) % 256 ↔ 256 ∣ lost.length)) := by
  obtain ⟨whole, inOrder⟩ := numbering_rules run
  rw [wire_of_ordered (entered_run inOrder) (ordered_run inOrder)] at reads
  obtain ⟨early, rest, split, -, reads⟩ := List.filter_eq_append_iff.mp reads
  obtain ⟨skipped, rest, rfl, -, -, reads⟩ := List.filter_eq_cons_iff.mp reads
  obtain ⟨lost, late, rfl, unwritten, -, -⟩ := List.filter_eq_cons_iff.mp reads
  refine ⟨early ++ skipped, lost, late, by simp [split], fun x member => ?_, fun data => ?_⟩
  · simpa using unwritten x member
  · have messages : (s.stream pair).map Prod.snd = (early ++ skipped).map Prod.snd ++
        m.2 :: (lost.map Prod.snd ++ n.2 :: late.map Prod.snd) := by simp [split]
    have later : ∀ x ∈ lost.map Prod.snd ++ [n.2], x.topic.messageType ≠ .NBIRTH := by
      rw [← List.map_singleton, ← List.map_append]
      exact List.forall_mem_map.mpr data
    obtain ⟨a, b, first, second, apart⟩ :=
      numbers_apart (numbered_stream whole pair) messages later
    rw [List.length_map] at apart
    refine ⟨a, b, first, second, apart, ?_⟩
    rw [apart]
    omega

end Gap

theorem messages_go_out_in_order_small : ∃ s : Session Nat Nat,
    Run (step plantClient) (Obeys [writesInOrder]) .new
      [.poll .connAck, .apply, .call (.start 0 plantData), .call (.acquire 0), .call (.offer 0),
        .call (.accept 0), .call (.start 1 plantData), .write 0, .call (.commit 0),
        .call (.acquire 1), .call (.offer 1), .call (.accept 1)] s ∧
    s.written = [(0, 0)] ∧ s.written ++ s.queued = s.accepted.map Prod.fst := by
  obtain ⟨s, h, written⟩ : ∃ s : Session Nat Nat, exec (step plantClient) [writesInOrder] .new
      [.poll .connAck, .apply, .call (.start 0 plantData), .call (.acquire 0), .call (.offer 0),
        .call (.accept 0), .call (.start 1 plantData), .write 0, .call (.commit 0),
        .call (.acquire 1), .call (.offer 1), .call (.accept 1)] = some s ∧
      s.written = [(0, 0)] := ⟨_, rfl, rfl⟩
  have run := Run.of_exec h
  exact ⟨s, run, written, (messages_go_out_in_order run).2.2 (by simp)⟩

theorem losses_show_as_gaps_small : ∃ (s : Session Nat Nat) (m n : (Nat × Nat) × Message),
    Run (step plantClient) (Obeys [onClient wholeBirths, writesInOrder]) .new
      [.poll .connAck, .apply, .call (.start 0 plantData), .call (.acquire 0), .call (.offer 0),
        .call (.accept 0), .call (.commit 0), .write 0, .call (.start 1 plantData),
        .call (.acquire 1), .call (.offer 1), .call (.accept 1), .call (.commit 1),
        .poll (.failed true), .apply, .apply, .poll .connAck, .apply,
        .call (.start 2 plantData), .call (.acquire 2), .call (.offer 2), .call (.accept 2),
        .write 0] s ∧
    s.wire plantNode = [m, n] ∧ (s.stream plantNode).length = 3 ∧
    ∃ a b : UInt64, m.2.payload.seq = some a ∧ n.2.payload.seq = some b ∧
      ∃ lost, b.toNat = (a.toNat + 1 + lost) % 256 := by
  obtain ⟨s, m, n, h, reads, data, stream⟩ : ∃ (s : Session Nat Nat) (m n : (Nat × Nat) × Message),
      exec (step plantClient) [onClient wholeBirths, writesInOrder] .new
        [.poll .connAck, .apply, .call (.start 0 plantData), .call (.acquire 0),
          .call (.offer 0), .call (.accept 0), .call (.commit 0), .write 0,
          .call (.start 1 plantData), .call (.acquire 1), .call (.offer 1), .call (.accept 1),
          .call (.commit 1), .poll (.failed true), .apply, .apply, .poll .connAck, .apply,
          .call (.start 2 plantData), .call (.acquire 2), .call (.offer 2), .call (.accept 2),
          .write 0] = some s ∧
      s.wire plantNode = [m, n] ∧
      (s.stream plantNode).all (fun x => x.2.topic.messageType ≠ .NBIRTH) = true ∧
      (s.stream plantNode).length = 3 := ⟨_, _, _, rfl, rfl, rfl, rfl⟩
  have run := Run.of_exec h
  obtain ⟨early, lost, late, split, -, numbers⟩ :=
    losses_show_as_gaps run plantNode (show s.wire plantNode = [] ++ m :: n :: [] from reads)
  obtain ⟨a, b, first, second, apart, -⟩ := numbers fun x member => by
    have among : x ∈ s.stream plantNode := by
      rw [split]
      rcases List.mem_append.mp member with before | last
      · simp [before]
      · simp [List.mem_singleton.mp last]
    simpa using List.all_eq_true.mp data x among
  exact ⟨s, m, n, run, reads, stream, a, b, first, second, lost.length, apart⟩

end Session

end Sparkplug
