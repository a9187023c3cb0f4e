import Sparkplug.Client.Tracking
import Sparkplug.Client.Window
import Sparkplug.Delivery.Strays

/-! What the window costs a flush. The guard of a cancelled call gives its count back although
the message went out, so the answer to that message takes the count of another. -/
namespace Sparkplug

open Transition

namespace Delivery

variable {ι φ : Type} [DecidableEq ι] [DecidableEq φ]

/-- The stray steps of this epoch, each with a message that went out behind its guard. -/
structure Withdrawn (s : Sys ι φ) (r : Reference ι) (n : Nat) (gone : Finset ι) : Prop
    extends Strayed s r n where
  spent : ∃ used ⊆ gone, n ≤ used.card ∧ ∀ p ∈ used, ∃ pub,
    s.publish p = some pub ∧ pub.ticket = none ∧ pub.answered = true
  owned : ∀ p pub, s.publish p = some pub → pub.counted = s.epoch → pub.answered = true →
    pub.taken.isSome = true ∨ p ∈ gone

/-- The broker answers a message that the client took, in the epoch of its count and once. -/
def answersOnce (s : Sys ι φ) (gone : Finset ι) : Label ι φ → Bool
  | .ack p => (s.publish p).any fun pub =>
    pub.counted == s.epoch && !pub.answered && (pub.taken.isSome || decide (p ∈ gone))
  | _ => true

section Steps

variable {s t : Sys ι φ} {r : Reference ι} {l : Label ι φ} {n : Nat} {gone more : Finset ι}
  {p : ι}

omit [DecidableEq ι] [DecidableEq φ] in
theorem withdrawn_initial : Withdrawn (.new : Sys ι φ) .empty 0 ∅ := by
  refine ⟨strayed_initial, ⟨∅, Finset.Subset.refl _, le_rfl, ?_⟩, ?_⟩
  · simp
  · intro p pub held
    cases held

omit [DecidableEq ι] [DecidableEq φ] in
theorem withdrawn_more (h : Withdrawn s r n gone) (grows : gone ⊆ more) :
    Withdrawn s r n more := by
  obtain ⟨used, inside, bound, each⟩ := h.spent
  refine ⟨h.toStrayed, ⟨used, inside.trans grows, bound, each⟩, fun p pub held now answer => ?_⟩
  exact (h.owned p pub held now answer).imp_right fun member => grows member

omit [DecidableEq φ] in
theorem answersOnce_ack (promise : answersOnce s gone (.ack p : Label ι φ) = true) : ∃ pub,
    s.publish p = some pub ∧ pub.counted = s.epoch ∧ pub.answered = false ∧
    (pub.taken.isSome = true ∨ p ∈ gone) := by
  cases held : s.publish p with
  | none => simp [answersOnce, held] at promise
  | some pub =>
    simp only [answersOnce, held, Option.any_some, Bool.and_eq_true, beq_iff_eq,
      Bool.not_eq_true', Bool.or_eq_true, decide_eq_true_eq] at promise
    exact ⟨pub, rfl, promise.1.1, promise.1.2, promise.2⟩

/-- A stray step is about a message that went out behind its guard, and the first one there. -/
theorem stray_withdrawn (h : Withdrawn s r n gone) (own : ownTickets s l = true)
    (answers : answersOnce s gone l = true) (taken : s.step l = some t)
    (strays : stray s l = true) : ∃ p ∈ gone,
      (∀ pub, s.publish p = some pub → pub.ticket = none → pub.answered = false) ∧
      ∃ pub, t.publish p = some pub ∧ pub.ticket = none ∧ pub.answered = true := by
  cases l with
  | ack p =>
    obtain ⟨pub, held, now, silent, source⟩ := answersOnce_ack answers
    have dead : pub.outstanding s.epoch = false := by
      simpa [stray, live_of_publish held] using strays
    simp only [Publish.outstanding, now, silent, beq_self_eq_true, Bool.true_and, Bool.not_false,
      Bool.and_true, Bool.or_eq_false_iff] at dead
    have member : p ∈ gone := by
      rcases source with took | member
      · rw [dead.2] at took
        cases took
      · exact member
    cases Option.some.inj taken
    refine ⟨p, member, fun other known _ => ?_, { pub with answered := true }, by simp [held],
      by simpa using dead.1, rfl⟩
    cases held.symm.trans known
    exact silent
  | release p =>
    obtain ⟨ticket, counted, before, answered, held, rfl⟩ := Sys.step_release.mp taken
    simp only [stray, live_of_publish held, held, Option.any_some, Bool.and_eq_true,
      beq_iff_eq, Bool.not_eq_true'] at strays
    obtain ⟨dead, now⟩ := strays
    have answer : answered = true := by
      simpa [Publish.outstanding, now] using dead
    have free : before = none := h.untaken p _ held (by simp)
    have member : p ∈ gone := by
      rcases h.owned p _ held now answer with took | member
      · rw [free] at took
        cases took
      · exact member
    refine ⟨p, member, fun other known none => ?_, _, Function.update_self .., rfl, answer⟩
    cases held.symm.trans known
    cases none
  | releaseForeign ticket => cases own
  | _ => cases strays

theorem used_step (taken : s.step l = some t)
    (held : ∃ pub, s.publish p = some pub ∧ pub.ticket = none ∧ pub.answered = true) :
    ∃ pub, t.publish p = some pub ∧ pub.ticket = none ∧ pub.answered = true := by
  obtain ⟨pub, held, free, answer⟩ := held
  rcases Sys.step_publish taken p with same | ⟨-, fresh, -⟩ | ⟨before, known, moved⟩
  · exact ⟨pub, same.trans held, free, answer⟩
  · cases held.symm.trans fresh
  · cases held.symm.trans known
    rcases moved with ⟨-, ticketed, -⟩ | ⟨-, ticketed, -⟩ | ⟨-, now⟩
    · exact absurd free ticketed
    · exact absurd free ticketed
    · exact ⟨_, now, free, rfl⟩

theorem withdrawn_step (h : Withdrawn s r n gone) (room : roomToCount s l = true)
    (own : ownTickets s l = true) (answers : answersOnce s gone l = true)
    (taken : s.step l = some t) :
    Withdrawn t (r.record l) (strays s l n) (if l = .disconnect then ∅ else gone) := by
  have strayed := strayed_step h.toStrayed room taken
  by_cases cut : l = .disconnect
  · subst cut
    rw [if_pos rfl]
    refine ⟨strayed, ⟨∅, Finset.Subset.refl _, le_rfl, by simp⟩, fun p pub held now _ => ?_⟩
    cases Option.some.inj taken
    have older := h.counted p pub held
    change pub.counted = s.epoch + 1 at now
    omega
  · rw [if_neg cut]
    refine ⟨strayed, ?_, fun p pub held now answer => ?_⟩
    · obtain ⟨used, inside, bound, each⟩ := h.spent
      unfold strays
      rw [if_neg cut]
      split
      · rename_i strays
        obtain ⟨p, member, first, after⟩ := stray_withdrawn h own answers taken strays
        have fresh : p ∉ used := by
          intro already
          obtain ⟨pub, held, free, answer⟩ := each p already
          rw [first pub held free] at answer
          cases answer
        refine ⟨insert p used, Finset.insert_subset member inside, ?_, fun q there => ?_⟩
        · rw [Finset.card_insert_of_notMem fresh]
          omega
        · rcases Finset.mem_insert.mp there with rfl | before
          · exact after
          · exact used_step taken (each q before)
      · exact ⟨used, inside, bound, fun q there => used_step taken (each q there)⟩
    · have epoch : t.epoch = s.epoch := by
        rw [Sys.step_epoch taken, List.count_eq_zero.mpr (by simpa using Ne.symm cut)]
        rfl
      rw [epoch] at now
      rcases Sys.step_publish taken p with same | ⟨-, -, after⟩ | ⟨before, known, moved⟩
      · exact h.owned p pub (same.symm.trans held) now answer
      · cases held.symm.trans after
        cases answer
      · rcases moved with ⟨-, -, after⟩ | ⟨-, -, after⟩ | ⟨rfl, after⟩
        · cases held.symm.trans after
          exact .inl rfl
        · cases held.symm.trans after
          exact h.owned p before known now answer
        · cases held.symm.trans after
          obtain ⟨found, known', -, -, source⟩ := answersOnce_ack answers
          cases known.symm.trans known'
          exact source

end Steps

end Delivery

variable {κ φ : Type} [DecidableEq κ] [DecidableEq φ]

/-- The tracked messages that left in the window since the last disconnect. -/
def noteSlip (w : Window κ φ) (l : Instant κ φ) (slips : Finset (κ × Nat)) : Finset (κ × Nat) :=
  match l with
  | .slip c =>
    match w.client.call c with
    | .offered held message =>
      if message.options.tracked then insert (c, held.stage) slips else slips
    | _ => slips
  | .plain (.event .disconnect) => ∅
  | _ => slips

/-- A promise about the tracker, with the messages that left in the window beside it. -/
def onWindow (client : Client)
    (rule : Delivery.Sys (κ × Nat) φ → Finset (κ × Nat) → Delivery.Label (κ × Nat) φ → Bool)
    (p : Window κ φ × Finset (κ × Nat)) (l : Instant κ φ) : Bool :=
  (p.1.client.trackerLabel client l.seen).all (rule p.1.client.delivery p.2)

section Runs

variable {client : Client} {w u : Window κ φ} {l : Instant κ φ} {slips : Finset (κ × Nat)}
  {r : Delivery.Reference (κ × Nat)} {n : Nat}

omit [DecidableEq φ] in
theorem noteSlip_grows (other : l ≠ .plain (.event .disconnect)) :
    slips ⊆ noteSlip w l slips := by
  unfold noteSlip
  split
  · split
    · split
      · exact Finset.subset_insert ..
      · exact Finset.Subset.refl _
    · exact Finset.Subset.refl _
  · exact absurd rfl other
  · exact Finset.Subset.refl _

theorem own_tickets {s t : Sys κ φ} {l : Label κ φ} {dl : Delivery.Label (κ × Nat) φ}
    (moves : Sys.Moves client s l t) (label : s.trackerLabel client l = some dl) :
    Delivery.ownTickets s.delivery dl = true := by
  cases moves with
  | offered ready current built counted =>
    rw [label_of_offer ready current 0] at label
    obtain ⟨-, same⟩ := Option.ite_none_right_eq_some.mp label
    cases same
    rfl
  | accepted offers kept =>
    rw [label_of_accept offers] at label
    obtain ⟨-, same⟩ := Option.ite_none_right_eq_some.mp label
    cases same
    rfl
  | released unwinds rolled =>
    rw [label_of_release unwinds] at label
    cases label
    rfl
  | happened outside taken =>
    cases label
    cases dl with
    | releaseForeign ticket => cases outside
    | _ => rfl
  | _ => cases label

theorem withdrawn_window (h : Delivery.Withdrawn w.client.delivery r n slips)
    (room : onWindow client (fun s _ => Delivery.roomToCount s) (w, slips) l = true)
    (answers : onWindow client Delivery.answersOnce (w, slips) l = true)
    (taken : Window.step client w l = some u) :
    ∃ r n, Delivery.Withdrawn u.client.delivery r n (noteSlip w l slips) := by
  obtain ⟨moves, -, -⟩ := window_step taken
  rcases tracker_of_moves moves with ⟨none, same⟩ | ⟨dl, label, inner⟩
  · rw [same]
    refine ⟨r, n, Delivery.withdrawn_more h (noteSlip_grows ?_)⟩
    rintro rfl
    cases none
  · simp only [onWindow, label, Option.all_some] at room answers
    have next := Delivery.withdrawn_step h room (own_tickets moves label) answers inner
    refine ⟨_, _, Delivery.withdrawn_more next ?_⟩
    split
    · exact Finset.empty_subset _
    · rename_i other
      refine noteSlip_grows ?_
      rintro rfl
      exact other (Option.some.inj label).symm

theorem withdrawn_run {ok : Window κ φ × Finset (κ × Nat) → Instant κ φ → Prop}
    {ls : List (Instant κ φ)}
    (run : Run (observe (Window.step client) noteSlip) ok (.new, ∅) ls (w, slips))
    (promises : ∀ p l, ok p l → onWindow client (fun s _ => Delivery.roomToCount s) p l = true ∧
      onWindow client Delivery.answersOnce p l = true) :
    ∃ r n, Delivery.Withdrawn w.client.delivery r n slips := by
  refine run.invariant
    (P := fun p => ∃ r n, Delivery.Withdrawn p.1.client.delivery r n p.2)
    ⟨_, _, Delivery.withdrawn_initial⟩ fun p l q _ h promise taken => ?_
  obtain ⟨r, n, h⟩ := h
  obtain ⟨room, answers⟩ := promises p l promise
  obtain ⟨taken, noted⟩ := observe_iff.mp taken
  rw [noted]
  exact withdrawn_window h room answers taken

/-- Where the broker answers each message that the client took at most once, in the epoch of its
count, the count falls short of the outstanding publishes by no more than the tracked messages
that left in the window since the last disconnect. So a flush drains with at most that many left,
and with none where none left so. -/
theorem a_slip_hides_at_most_one {ls : List (Instant κ φ)}
    (run : Run (observe (Window.step client) noteSlip)
      (Obeys [onWindow client fun s _ => Delivery.roomToCount s,
        onWindow client Delivery.answersOnce]) (.new, ∅) ls (w, slips)) :
    ∃ live : Finset (κ × Nat), (∀ i, i ∈ live ↔ w.client.delivery.live i = true) ∧
      w.client.delivery.tracker.unacked.toNat ≤ live.card ∧
      live.card ≤ w.client.delivery.tracker.unacked.toNat + slips.card ∧
      ∀ f u, Window.step client w (.plain (.event (.drain f))) = some u →
        live.card ≤ slips.card := by
  obtain ⟨r, n, h⟩ := withdrawn_run run fun p l promise =>
    ⟨promise _ (by simp), promise _ (by simp)⟩
  obtain ⟨used, inside, bound, -⟩ := h.spent
  have fewer := Finset.card_le_card inside
  have below := h.below
  refine ⟨r.live, h.live, h.above, by omega, fun f u drains => ?_⟩
  obtain ⟨moves, -, -⟩ := window_step drains
  obtain ⟨u, ws⟩ := u
  dsimp only [Instant.seen] at moves
  cases moves with
  | happened outside taken =>
    obtain ⟨_, _, -, drained, -⟩ := Delivery.Sys.step_drain.mp taken
    have empty := w.client.delivery.tracker.isDrained_iff.mp drained
    omega

end Runs

/-- The answer to a message that left in the window drains a flush over the next message. -/
theorem a_slip_hides_at_most_one_small : ∃ (w u : Window Nat Nat) (slips : Finset (Nat × Nat)),
    Run (observe (Window.step ⟨.sparkplugB, .publisher⟩) noteSlip)
      (Obeys [onWindow ⟨.sparkplugB, .publisher⟩ fun s _ => Delivery.roomToCount s,
        onWindow ⟨.sparkplugB, .publisher⟩ Delivery.answersOnce]) (.new, ∅)
      ([.start 0 plantData, .acquire 0, .offer 0].map .plain ++ [.slip 0] ++
        [.release 0, .restore 0, .start 1 plantData, .acquire 1, .offer 1, .accept 1, .commit 1,
          .event (.ack (0, 0)), .event (.openFlush 0 5)].map .plain) (w, slips) ∧
    Window.step ⟨.sparkplugB, .publisher⟩ w (.plain (.event (.drain 0))) = some u ∧
    w.client.delivery.live (1, 0) = true ∧
    ∃ live : Finset (Nat × Nat), (∀ i, i ∈ live ↔ w.client.delivery.live i = true) ∧
      live.card ≤ 1 := by
  obtain ⟨w, u, slips, h, drains, alive, one⟩ : ∃ (w u : Window Nat Nat)
      (slips : Finset (Nat × Nat)),
      exec (observe (Window.step ⟨.sparkplugB, .publisher⟩) noteSlip)
        [onWindow ⟨.sparkplugB, .publisher⟩ fun s _ => Delivery.roomToCount s,
          onWindow ⟨.sparkplugB, .publisher⟩ Delivery.answersOnce] (.new, ∅)
        ([.start 0 plantData, .acquire 0, .offer 0].map .plain ++ [.slip 0] ++
          [.release 0, .restore 0, .start 1 plantData, .acquire 1, .offer 1, .accept 1,
            .commit 1, .event (.ack (0, 0)), .event (.openFlush 0 5)].map .plain) =
        some (w, slips) ∧
      Window.step ⟨.sparkplugB, .publisher⟩ w (.plain (.event (.drain 0))) = some u ∧
      w.client.delivery.live (1, 0) = true ∧ slips.card = 1 :=
    ⟨_, _, _, rfl, rfl, rfl, rfl⟩
  have run := Run.of_exec h
  obtain ⟨live, reads, -, -, hidden⟩ := a_slip_hides_at_most_one run
  exact ⟨w, u, slips, run, drains, alive, live, reads, one ▸ hidden 0 u drains⟩

end Sparkplug
