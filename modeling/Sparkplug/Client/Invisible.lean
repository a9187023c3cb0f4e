import Sparkplug.Client.Erasure
import Sparkplug.Client.Naming
import Sparkplug.Client.Restart

/-! A data call that does not return Ok changes nothing that the other calls, the broker or a
flush can see, apart from the one loss of a disconnect that falls while it is counted. -/
namespace Sparkplug

open Transition

variable {κ φ : Type}

section Run

variable [DecidableEq κ] [DecidableEq φ] {client : Client} {s : Sys κ φ}
  {ls : List (Label κ φ)} {c : κ}

theorem accepted_returns {ok : Sys κ φ → Label κ φ → Prop}
    (run : Run (Sys.step client) ok .new ls s)
    (data : ∀ op, .start c op ∈ ls → op.isBirth = false) (accepted : .accept c ∈ ls) :
    (∃ held, s.call c = .taken held ∧ held.script.rest = []) ∨
      s.call c = .returned (.ok ()) := by
  obtain ⟨before, after, rfl⟩ := List.append_of_mem accepted
  obtain ⟨u, first, rest⟩ := run.split
  obtain ⟨v, -, taken, rest⟩ := rest.of_cons
  have single : ∀ script, (u.call c).script = some script → script.rest = [] := by
    refine first.invariant (P := fun u => ∀ script, (u.call c).script = some script →
      script.rest = []) (fun _ idle => by cases idle) fun x l y member h _ taken script now => ?_
    rcases script_step (Sys.moves_of_step taken) now with earlier | ⟨op, rfl, -, built⟩
    · exact h script earlier
    · exact Client.rest_of_data (data op (List.mem_append_left _ member)) built
  have handed : ∃ held, v.call c = .taken held ∧ held.script.rest = [] := by
    cases Sys.moves_of_step taken with
    | @accepted c held message delivery offers kept =>
      exact ⟨held, put_self, single held.script (by rw [offers]; rfl)⟩
  refine rest.invariant (P := fun u => (∃ held, u.call c = .taken held ∧
    held.script.rest = []) ∨ u.call c = .returned (.ok ())) (.inl handed)
    fun x l y _ h _ taken => ?_
  rcases phase_step (Sys.moves_of_step taken) c with same | ⟨before, after, found, left, own⟩
  · rw [same]
    exact h
  · rw [left]
    rw [found] at h
    rcases h with ⟨held, rfl, single⟩ | rfl
    · cases own with
      | advanced more => simp [Script.drafts, single] at more
      | committed => exact .inr rfl
    · cases own

/-- A data call that ends without Ok leaves the messages, the numbers, the counts and the
tracker as the run without its steps leaves them. Only a disconnect that falls between its
count and its release tells the two apart, by one loss. -/
theorem failed_publish_is_invisible
    (run : Run (Sys.step client) (Obeys (Delivery.answering.map (onTracker client))) .new ls s)
    (data : ∀ op, .start c op ∈ ls → op.isBirth = false)
    (failed : (s.call c).endedWithoutOk = true) :
    ∃ r, Run (Sys.step client) (Obeys (Delivery.answering.map (onTracker client))) .new
        (ls.filter fun l => l.caller ≠ some c) r ∧
      r.sent = s.sent ∧ (∀ d, d ≠ c → r.call d = s.call d) ∧
      (∀ pair, r.count pair = s.count pair) ∧
      r.delivery.tracker.unacked = s.delivery.tracker.unacked ∧
      r.delivery.tracker.generation = s.delivery.tracker.generation ∧
      (¬FellWithin client c ls → r.delivery.tracker.lost = s.delivery.tracker.lost ∧
        r.delivery.tracker.reported = s.delivery.tracker.reported) ∧
      (FellWithin client c ls →
        Run (Sys.step client) (Obeys [onTracker client Delivery.roomToReport]) .new ls s →
        s.delivery.tracker.lost.toNat + s.delivery.tracker.reported.toNat =
          r.delivery.tracker.lost.toNat + r.delivery.tracker.reported.toNat + 1) := by
  have unaccepted : .accept c ∉ ls := by
    intro accepted
    rcases accepted_returns run data accepted with ⟨held, takes, -⟩ | done
    · rw [takes] at failed
      cases failed
    · rw [done] at failed
      cases failed
  obtain ⟨holding, counting⟩ : (s.call c).holding = none ∧ (s.call c).counting = false := by
    cases phase : s.call c with
    | cancelled => exact ⟨rfl, rfl⟩
    | returned result => exact ⟨rfl, rfl⟩
    | _ => rw [phase] at failed; cases failed
  -- The losses need room that nothing else needs, so the run is followed once without it.
  have narrow : Run (Sys.step client)
      (fun t l => Obeys (Delivery.answering.map (onTracker client)) t l ∧
        (False → onTracker client Delivery.roomToReport t l = true)) .new ls s :=
    run.mono fun _ _ promise => ⟨promise, False.elim⟩
  obtain ⟨r, run', h⟩ := unseen_run narrow unaccepted
  refine ⟨r, run', h.sent, h.calls, fun pair => ?_, ?_, h.delivery.generation,
    h.delivery.losses.same, fun fell wide => ?_⟩
  · have same := h.seq.elsewhere (keyOf pair)
    rw [Phase.reservation_of_none holding] at same
    exact congrArg Gate.count (same nofun)
  · -- Both guards of the call have dropped, so nothing of it is outstanding.
    have released : s.delivery.live (c, 0) = false := by
      by_contra live
      have holds := (h.delivery.live_iff.mp (by simpa using live)).1
      rw [h.counting, counting] at holds
      cases holds
    have size := h.delivery.unacked
    rw [released, if_neg Bool.false_ne_true] at size
    exact UInt32.toNat_inj.mp size.symm
  · have both : Run (Sys.step client)
        (fun t l => Obeys (Delivery.answering.map (onTracker client)) t l ∧
          (True → onTracker client Delivery.roomToReport t l = true)) .new ls s :=
      (run.both wide).mono fun _ _ promise => ⟨promise.1, fun _ => promise.2 _ (by simp)⟩
    obtain ⟨r₂, run₂, h₂⟩ := unseen_run both unaccepted
    cases run'.unique run₂
    exact (h₂.delivery.losses.more fell trivial).1

end Run

def plantPublisher : Client := ⟨.sparkplugB, .publisher⟩

/-- A publish that the client refuses after a disconnect, between two that it takes. -/
def refusedBetween : List (Label Nat Nat) :=
  [.start 0 plantData, .acquire 0, .offer 0, .accept 0, .commit 0,
    .start 1 plantData, .acquire 1, .offer 1, .event (.ack (0, 0)), .event .disconnect,
    .refuse 1 .request, .release 1, .restore 1,
    .start 2 plantData, .acquire 2, .offer 2, .accept 2, .commit 2]

theorem failed_publish_is_invisible_small : ∃ s r : Sys Nat Nat,
    Run (Sys.step plantPublisher) (Obeys (Delivery.answering.map (onTracker plantPublisher))) .new
      refusedBetween s ∧
    Run (Sys.step plantPublisher) (Obeys (Delivery.answering.map (onTracker plantPublisher))) .new
      (refusedBetween.filter fun l => l.caller ≠ some 1) r ∧
    s.sent.length = 2 ∧ r.sent = s.sent ∧ r.count plantNode = 2 ∧
    s.delivery.tracker.lost.toNat + s.delivery.tracker.reported.toNat =
      r.delivery.tracker.lost.toNat + r.delivery.tracker.reported.toNat + 1 := by
  obtain ⟨u, s, first, whole, wide, counting, failed, length, count⟩ : ∃ u s : Sys Nat Nat,
      exec (Sys.step plantPublisher) [] .new (refusedBetween.take 9) = some u ∧
      exec (Sys.step plantPublisher) (Delivery.answering.map (onTracker plantPublisher)) .new
        refusedBetween = some s ∧
      exec (Sys.step plantPublisher) [onTracker plantPublisher Delivery.roomToReport] .new
        refusedBetween = some s ∧
      (u.call 1).counting = true ∧ (s.call 1).endedWithoutOk = true ∧ s.sent.length = 2 ∧
      s.count plantNode = 2 :=
    ⟨_, _, rfl, rfl, rfl, rfl, rfl, rfl, rfl⟩
  have run := Run.of_exec whole
  obtain ⟨r, run', sent, -, counts, -, -, -, losses⟩ :=
    failed_publish_is_invisible run (c := 1)
      (by simp [refusedBetween, plantData, Operation.isBirth]) failed
  have fell : FellWithin plantPublisher 1 refusedBetween :=
    ⟨_, _, u, rfl, Run.of_exec first, counting⟩
  exact ⟨s, r, run, run', length, sent, (counts plantNode).trans count,
    losses fell (Run.of_exec wide)⟩

section Wrap

variable {s : Sys Nat Nat} {n : Nat}

/-- Only the loop answers, so no step of a call breaks a promise about the answers. -/
theorem acksTaken_of_call {client : Client} {l : Label Nat Nat} {c : Nat}
    (own : l.caller = some c) : Obeys [onTracker client Delivery.acksTaken] s l := by
  have quiet : ∀ dl, s.trackerLabel client l = some dl →
      Delivery.acksTaken s.delivery dl = true := by
    intro dl label
    cases dl with
    | ack p =>
      cases l with
      | event l => cases own
      | offer d =>
        simp only [Sys.trackerLabel] at label
        split at label
        · obtain ⟨draft, -, label⟩ := Option.bind_eq_some_iff.mp label
          split at label <;> cases label
        · cases label
      | accept d =>
        simp only [Sys.trackerLabel] at label
        split at label
        · split at label <;> cases label
        · cases label
      | release d =>
        simp only [Sys.trackerLabel] at label
        split at label <;> cases label
      | _ => cases label
    | _ => rfl
  simp only [obeys_cons, obeys_nil, and_true, onTracker]
  cases label : s.trackerLabel client l with
  | none => rfl
  | some dl => exact quiet dl label

theorem run_call {u t : Sys Nat Nat} {ls : List (Label Nat Nat)} {l : Label Nat Nat} {c : Nat}
    (run : Run (Sys.step plantPublisher) (Obeys [onTracker plantPublisher Delivery.acksTaken])
      u ls s) (own : l.caller = some c) (moves : Sys.Moves plantPublisher s l t) :
    Run (Sys.step plantPublisher) (Obeys [onTracker plantPublisher Delivery.acksTaken])
      u (ls ++ [l]) t :=
  run.snoc (acksTaken_of_call own) (Sys.step_of_moves moves)

structure Resting (n : Nat) (s : Sys Nat Nat) : Prop where
  idle : ∀ c, n ≤ c → s.call c = .idle
  fresh : ∀ c, n ≤ c → s.delivery.publish (c, 0) = none
  free : (s.seq.gate (keyOf plantNode)).locked = false
  unacked : s.delivery.tracker.unacked.toNat = n % 2 ^ 32

theorem offered_run (h : Resting n s) : ∃ t held message ticket,
    Run (Sys.step plantPublisher) (Obeys [onTracker plantPublisher Delivery.acksTaken]) s
      [.start n plantData, .acquire n, .offer n] t ∧
    t.call n = .offered held message ∧ held.stage = 0 ∧ held.script.drafts.length = 1 ∧
    held.reservation.key = keyOf plantNode ∧ message.options.tracked = true ∧
    t.delivery.tracker = s.delivery.tracker.recordPublish.2 ∧
    ticket = s.delivery.tracker.recordPublish.1 ∧
    t.delivery.publish (n, 0) = some ⟨some ticket, s.delivery.epoch, none, false⟩ ∧
    (∀ c, c ≠ n → t.call c = s.call c) ∧
    ∀ c, c ≠ n → t.delivery.publish (c, 0) = s.delivery.publish (c, 0) := by
  obtain ⟨script, draft, built, pair, first, single, tracked⟩ : ∃ script draft,
      plantPublisher.script plantData = .ok script ∧ script.pair = plantNode ∧
      script.drafts[0]? = some draft ∧ script.drafts.length = 1 ∧
      ∀ seq, (draft.message plantPublisher.role seq).options.tracked = true :=
    ⟨_, _, rfl, rfl, rfl, rfl, fun _ => rfl⟩
  have started := run_call (.start s) rfl (.started (h.idle n le_rfl) built)
  set u := ({ s with seq := s.seq.gateOf script.pair } : Sys Nat Nat).put n (.waiting script)
    with hu
  have free : (u.seq.gate (keyOf script.pair)).locked = false := by
    rw [hu, put_seq, gate_gateOf, pair]
    exact h.free
  obtain ⟨held, v, acquired, ready, stage, scripted, key, calls, delivery⟩ :
      ∃ held v, Sys.Moves plantPublisher u (.acquire n) v ∧ v.call n = .ready held ∧
        held.stage = 0 ∧ held.script = script ∧ held.reservation.key = keyOf plantNode ∧
        (∀ c, c ≠ n → v.call c = s.call c) ∧ v.delivery = s.delivery := by
    refine ⟨_, _, .acquired put_self (Script.reserve_iff.mpr ⟨free, rfl⟩), put_self, rfl, rfl,
      congrArg keyOf pair, fun c other => ?_, rfl⟩
    rw [put_of_ne other, hu]
    exact put_of_ne other
  have current : held.draft = some draft := by rw [Holding.draft, stage, scripted, first]
  have fresh : v.delivery.publish (n, held.stage) = none := by
    rw [stage, delivery]
    exact h.fresh n le_rfl
  have counted := Delivery.Sys.step_count.mpr ⟨fresh, rfl⟩
  have deliver := deliver_of_tracked (tracked (v.seq.number held.reservation)) counted
  have run := run_call (run_call started rfl acquired) rfl (.offered ready current rfl deliver)
  refine ⟨_, held, _, _, run, put_self, stage, by rw [scripted, single], key, tracked _, ?_, rfl,
    ?_, fun c other => ?_, fun c other => ?_⟩
  · rw [put_delivery, delivery]
  · rw [put_delivery, delivery, stage]
    exact Function.update_self ..
  · rw [put_of_ne other]
    exact calls c other
  · rw [put_delivery, delivery, stage]
    exact Function.update_of_ne (by simp [other]) _ _

theorem accepted_run (h : Resting n s) : ∃ t,
    Run (Sys.step plantPublisher) (Obeys [onTracker plantPublisher Delivery.acksTaken]) s
      [.start n plantData, .acquire n, .offer n, .accept n, .commit n] t ∧
    Resting (n + 1) t := by
  obtain ⟨t, held, message, ticket, run, offers, stage, single, key, tracked, tracker, -, entry,
    calls, others⟩ := offered_run h
  have kept := Delivery.Sys.step_keep.mpr ⟨_, _, _, _, stage.symm ▸ entry, rfl⟩
  have accepted := run_call run rfl (.accepted offers (deliver_of_tracked tracked kept))
  have committed := run_call accepted rfl (.committed put_self (by rw [stage, single]))
  refine ⟨_, committed, ?_⟩
  constructor
  · intro c later
    have other : c ≠ n := by omega
    rw [put_of_ne other]
    exact (put_of_ne other).trans ((calls c other).trans (h.idle c (by omega)))
  · intro c later
    have other : c ≠ n := by omega
    refine (Function.update_of_ne ?_ _ _).trans ((others c other).trans (h.fresh c (by omega)))
    simp [other]
  · change ((t.seq.commit held.reservation).gate (keyOf plantNode)).locked = false
    rw [commit_of_key key, gate_write_self]
  · change t.delivery.tracker.unacked.toNat = _
    rw [tracker]
    change (s.delivery.tracker.unacked + 1).toNat = _
    rw [UInt32.toNat_add, h.unacked]
    change (n % 2 ^ 32 + 1) % 2 ^ 32 = _
    omega

theorem refused_run (h : Resting n s) : ∃ t,
    Run (Sys.step plantPublisher) (Obeys [onTracker plantPublisher Delivery.acksTaken]) s
      [.start n plantData, .acquire n, .offer n, .refuse n .request, .release n, .restore n] t ∧
    (t.call n).endedWithoutOk = true ∧
    t.delivery.tracker = s.delivery.tracker.recordPublish.2.recordAck := by
  obtain ⟨t, held, message, ticket, run, offers, stage, single, key, tracked, tracker, same, entry,
    calls, others⟩ := offered_run h
  have moves : Sys.Moves plantPublisher t (.refuse n .request) _ := .refused offers
  have refused := run_call run rfl moves
  have rolled := Delivery.Sys.step_release.mpr ⟨_, _, _, _, stage.symm ▸ entry, rfl⟩
  have released := run_call refused rfl (.released (by rw [put_self, tracked]) rolled)
  have restored := run_call released rfl (.restored put_self)
  refine ⟨_, restored, ?_, ?_⟩
  · rw [put_self]
    rfl
  · change t.delivery.tracker.recordPublishFailed ticket = _
    rw [tracker, same]
    exact Delivery.State.recordPublishFailed_live _ rfl

def taken (n : Nat) : List (Label Nat Nat) :=
  (List.range n).flatMap fun c => [.start c plantData, .acquire c, .offer c, .accept c, .commit c]

theorem taken_run (n : Nat) : ∃ s,
    Run (Sys.step plantPublisher) (Obeys [onTracker plantPublisher Delivery.acksTaken]) .new
      (taken n) s ∧ Resting n s := by
  induction n with
  | zero => exact ⟨.new, .start _, fun _ _ => rfl, fun _ _ => rfl, rfl, rfl⟩
  | succ n ih =>
    obtain ⟨s, before, resting⟩ := ih
    obtain ⟨t, next, resting'⟩ := accepted_run resting
    refine ⟨t, ?_, resting'⟩
    rw [taken, List.range_succ, List.flatMap_append, List.flatMap_singleton]
    exact before.append next

theorem taken_labels {l : Label Nat Nat} (member : l ∈ taken n) :
    (∃ c, c < n ∧ l.caller = some c) ∧ ∀ c op, l = .start c op → op = plantData := by
  obtain ⟨c, earlier, member⟩ := List.mem_flatMap.mp member
  have below : c < n := List.mem_range.mp earlier
  simp only [List.mem_cons, List.not_mem_nil, or_false] at member
  rcases member with rfl | rfl | rfl | rfl | rfl
  all_goals
    refine ⟨⟨c, below, rfl⟩, ?_⟩
    intro d op same
    cases same
  rfl

theorem taken_filter (n : Nat) :
    (taken n).filter (fun l => l.caller ≠ some n) = taken n := by
  rw [List.filter_eq_self]
  intro l member
  obtain ⟨⟨c, below, own⟩, -⟩ := taken_labels member
  simp [own, below.ne]

/-- With 2^32 - 1 publishes outstanding, one that is refused leaves the count at 0. -/
theorem refused_publish_wraps_the_count : ∃ (ls : List (Label Nat Nat)) (s r : Sys Nat Nat)
    (c : Nat),
    Run (Sys.step plantPublisher) (Obeys [onTracker plantPublisher Delivery.acksTaken]) .new ls s ∧
    (∀ op, .start c op ∈ ls → op.isBirth = false) ∧ (s.call c).endedWithoutOk = true ∧
    .event .disconnect ∉ ls ∧
    Run (Sys.step plantPublisher) (Obeys [onTracker plantPublisher Delivery.acksTaken]) .new
      (ls.filter fun l => l.caller ≠ some c) r ∧
    r.delivery.tracker.unacked.toNat = 2 ^ 32 - 1 ∧ s.delivery.tracker.unacked.toNat = 0 := by
  obtain ⟨n, full⟩ : ∃ n, n = 2 ^ 32 - 1 := ⟨_, rfl⟩
  obtain ⟨r, before, resting⟩ := taken_run n
  obtain ⟨s, refused, failed, tracker⟩ := refused_run resting
  have unacked : r.delivery.tracker.unacked.toNat = 2 ^ 32 - 1 := by
    have size := resting.unacked
    omega
  refine ⟨_, s, r, n, before.append refused, ?_, failed, ?_, ?_, unacked, ?_⟩
  · intro op member
    have data : op = plantData := by
      rcases List.mem_append.mp member with earlier | last
      · exact (taken_labels earlier).2 n op rfl
      · simpa using last
    rw [data]
    rfl
  · intro member
    rcases List.mem_append.mp member with earlier | last
    · obtain ⟨⟨c, -, own⟩, -⟩ := taken_labels earlier
      cases own
    · simp at last
  · rw [List.filter_append, taken_filter]
    simpa [Label.caller] using before
  · rw [tracker, Delivery.State.toNat_recordAck]
    change (r.delivery.tracker.unacked + 1).toNat - 1 = 0
    rw [UInt32.toNat_add, unacked]
    rfl

end Wrap

end Sparkplug
