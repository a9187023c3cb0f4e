import Mathlib.Data.Finset.Card
import Sparkplug.Delivery.System

/-! The tracker against one that knows each publish by its identity. The reference keeps
the set of outstanding publishes and never looks at a ticket or at a generation; the code
keeps one anonymous count and a generation. -/
namespace Sparkplug.Delivery

open Transition

variable {ι φ : Type}

structure Reference (ι : Type) where
  live : Finset ι
  counted : Nat
  acknowledged : Nat
  rolledBack : Nat

namespace Reference

def empty : Reference ι := ⟨∅, 0, 0, 0⟩

def record [DecidableEq ι] (r : Reference ι) : Label ι φ → Reference ι
  | .count p => { r with live := insert p r.live, counted := r.counted + 1 }
  | .release p =>
    if p ∈ r.live then { r with live := r.live.erase p, rolledBack := r.rolledBack + 1 }
    else r
  | .ack p => { r with live := r.live.erase p, acknowledged := r.acknowledged + 1 }
  | .disconnect => { r with live := ∅ }
  | _ => r

end Reference

/-! What the callers and the broker promise, and the room the counters need. -/

def ownTickets (_ : Sys ι φ) : Label ι φ → Bool
  | .releaseForeign _ => false
  | _ => true

def acksOutstanding (s : Sys ι φ) : Label ι φ → Bool
  | .ack p => s.live p
  | _ => true

def releasesUnanswered (s : Sys ι φ) : Label ι φ → Bool
  | .release p => (s.publish p).all fun pub => !pub.answered
  | _ => true

def roomToCount (s : Sys ι φ) : Label ι φ → Bool
  | .count _ => s.tracker.unacked.toNat + 1 < 2 ^ 32
  | .disconnect => s.tracker.generation.toNat + 1 < 2 ^ 64
  | _ => true

def roomToReport (s : Sys ι φ) : Label ι φ → Bool
  | .disconnect => s.tracker.lost.toNat + s.tracker.unacked.toNat < 2 ^ 32
  | .close _ => s.tracker.reported.toNat + s.tracker.lost.toNat < 2 ^ 64
  | _ => true

/-- The set the reference keeps is the set the labels leave outstanding. -/
structure Follows (s : Sys ι φ) (r : Reference ι) : Prop where
  live : ∀ p, p ∈ r.live ↔ s.live p = true
  counted : ∀ p pub, s.publish p = some pub → pub.counted ≤ s.epoch
  untaken : ∀ p pub, s.publish p = some pub → pub.ticket ≠ none → pub.taken = none

/-- The words of the tracker agree with that set, and each ticket with its epoch. -/
structure Agrees (s : Sys ι φ) (r : Reference ι) : Prop extends Follows s r where
  size : s.tracker.unacked.toNat = r.live.card
  generation : s.tracker.generation.toNat = s.epoch
  stamp : ∀ p pub ticket, s.publish p = some pub → pub.ticket = some ticket →
    ticket.generation.toNat = pub.counted

theorem live_of_publish {s : Sys ι φ} {p : ι} {pub : Publish} (h : s.publish p = some pub) :
    s.live p = pub.outstanding s.epoch := by
  simp [Sys.live, h]

theorem follows_initial : Follows (.new : Sys ι φ) .empty :=
  ⟨by simp [Reference.empty, Sys.live, Sys.new], nofun, nofun⟩

theorem agrees_initial : Agrees (.new : Sys ι φ) .empty :=
  ⟨follows_initial, rfl, rfl, nofun⟩

theorem follows_same {s t : Sys ι φ} {r : Reference ι} (h : Follows s r)
    (epoch : t.epoch = s.epoch) (publish : t.publish = s.publish) : Follows t r := by
  refine ⟨fun p => ?_, ?_, ?_⟩
  · rw [h.live]
    simp only [Sys.live, epoch, publish]
  · rw [epoch, publish]
    exact h.counted
  · rw [publish]
    exact h.untaken

variable [DecidableEq ι]

theorem follows_update {s t : Sys ι φ} {r r' : Reference ι} (h : Follows s r) {p : ι}
    {pub : Publish} (epoch : t.epoch = s.epoch)
    (publish : t.publish = Function.update s.publish p (some pub))
    (member : p ∈ r'.live ↔ pub.outstanding s.epoch = true)
    (others : ∀ q, q ≠ p → (q ∈ r'.live ↔ q ∈ r.live))
    (counted : pub.counted ≤ s.epoch) (untaken : pub.ticket ≠ none → pub.taken = none) :
    Follows t r' := by
  refine ⟨fun q => ?_, fun q entry hq => ?_, fun q entry hq => ?_⟩
  · simp only [Sys.live, epoch, publish]
    by_cases same : q = p
    · subst same
      simpa using member
    · simpa [same, Sys.live] using (others q same).trans (h.live q)
  · rw [publish, Function.update_apply] at hq
    rw [epoch]
    split at hq
    · cases Option.some.inj hq
      exact counted
    · exact h.counted q entry hq
  · rw [publish, Function.update_apply] at hq
    split at hq
    · cases Option.some.inj hq
      exact untaken
    · exact h.untaken q entry hq

section Step

variable [DecidableEq φ] {s t : Sys ι φ} {r : Reference ι}

theorem follows_step (h : Follows s r) {l : Label ι φ} (taken : s.step l = some t) :
    Follows t (r.record l) := by
  cases l with
  | count p =>
    obtain ⟨-, rfl⟩ := Sys.step_count.mp taken
    exact follows_update h rfl rfl (by simp [Reference.record, Publish.outstanding])
      (fun q hq => by simp [Reference.record, hq]) le_rfl fun _ => rfl
  | keep p =>
    obtain ⟨ticket, counted, before, answered, held, rfl⟩ := Sys.step_keep.mp taken
    have older : counted ≤ s.epoch := h.counted p _ held
    refine follows_update h rfl rfl ?_ (fun q hq => Iff.rfl) older (by simp)
    change p ∈ r.live ↔ _
    rw [h.live, live_of_publish held]
    simp [Publish.outstanding]
  | release p =>
    obtain ⟨ticket, counted, before, answered, held, rfl⟩ := Sys.step_release.mp taken
    have gone : before = none := h.untaken p _ held nofun
    have older : counted ≤ s.epoch := h.counted p _ held
    refine follows_update h rfl rfl ?_ (fun q hq => ?_) older (by simp)
    · simp only [Reference.record, Publish.outstanding, gone]
      split <;> simp_all
    · simp only [Reference.record]
      split <;> simp [hq]
  | ack p =>
    cases Option.some.inj taken
    cases known : s.publish p with
    | none =>
      have outside : p ∉ r.live := by simp [h.live, Sys.live, known]
      have kept : (r.record (.ack p : Label ι φ)).live = r.live :=
        Finset.erase_eq_of_notMem outside
      have alone : Function.update s.publish p none = s.publish := by
        rw [← known, Function.update_eq_self]
      have same := follows_same (t := { s with tracker := s.tracker.recordAck }) h rfl rfl
      refine ⟨?_, ?_, ?_⟩
      · simpa [kept, alone, Sys.live] using same.live
      · simpa [alone] using same.counted
      · simpa [alone] using same.untaken
    | some pub =>
      refine follows_update (p := p) h rfl rfl ?_ (fun q hq => ?_) (h.counted p pub known)
        (h.untaken p pub known)
      · simp [Reference.record, Publish.outstanding]
      · simp [Reference.record, hq]
  | disconnect =>
    cases Option.some.inj taken
    refine ⟨fun q => ?_, fun p pub hpub => Nat.le_succ_of_le (h.counted p pub hpub), h.untaken⟩
    -- Every publish was counted in an earlier epoch, so none is outstanding in the new one.
    cases known : s.publish q with
    | none => simp [Reference.record, Sys.live, known]
    | some pub =>
      have older := h.counted q pub known
      have : pub.counted ≠ s.epoch + 1 := by omega
      simp [Reference.record, Sys.live, known, Publish.outstanding, this]
  | releaseForeign ticket => cases Option.some.inj taken; exact follows_same h rfl rfl
  | openFlush f timeout =>
    obtain ⟨-, rfl⟩ := Sys.step_openFlush.mp taken
    exact follows_same h rfl rfl
  | drain f =>
    obtain ⟨_, _, -, -, rfl⟩ := Sys.step_drain.mp taken
    exact follows_same h rfl rfl
  | close f =>
    obtain ⟨_, -, rfl⟩ := Sys.step_close.mp taken
    exact follows_same h rfl rfl
  | timeOut f =>
    obtain ⟨_, _, -, rfl⟩ := Sys.step_timeOut.mp taken
    exact follows_same h rfl rfl
  | cancel f =>
    obtain ⟨-, rfl⟩ := Sys.step_cancel.mp taken
    exact follows_same h rfl rfl

theorem run_follows {ok : Sys ι φ → Label ι φ → Prop} {ls : List (Label ι φ)}
    (run : Run Sys.step ok .new ls s) : Follows s (ls.foldl Reference.record .empty) :=
  run.follow follows_initial fun _ _ _ _ h _ taken => follows_step h taken

/-- The generation decides alone whether a rollback finds its own publish outstanding. -/
theorem release_tracker (h : Agrees s r) {p : ι}
    (unanswered : releasesUnanswered s (.release p) = true)
    (taken : s.step (.release p) = some t) :
    t.tracker = if p ∈ r.live then s.tracker.recordAck else s.tracker := by
  obtain ⟨ticket, counted, before, answered, held, rfl⟩ := Sys.step_release.mp taken
  have stamp : ticket.generation.toNat = counted := h.stamp p _ ticket held rfl
  have silent : answered = false := by simpa [releasesUnanswered, held] using unanswered
  have current : p ∈ r.live ↔ counted = s.epoch := by
    rw [h.live, live_of_publish held]
    simp [Publish.outstanding, silent]
  have generation := h.generation
  split <;> rename_i hp <;> rw [current] at hp
  · exact State.recordPublishFailed_live _ (UInt64.toNat_inj.mp (by omega))
  · refine State.recordPublishFailed_stale _ fun same => hp ?_
    have := congrArg UInt64.toNat same
    omega

theorem stamp_step (stamp : ∀ p pub ticket, s.publish p = some pub →
      pub.ticket = some ticket → ticket.generation.toNat = pub.counted)
    (generation : s.tracker.generation.toNat = s.epoch) {l : Label ι φ}
    (taken : s.step l = some t) : ∀ p pub ticket, t.publish p = some pub →
      pub.ticket = some ticket → ticket.generation.toNat = pub.counted := by
  intro p pub ticket hpub hticket
  rcases Sys.step_publish taken p with same | ⟨-, -, now⟩ | ⟨before, held, moved⟩
  · exact stamp p pub ticket (same.symm.trans hpub) hticket
  · cases hpub.symm.trans now
    cases hticket
    exact generation
  · rcases moved with ⟨-, -, now⟩ | ⟨-, -, now⟩ | ⟨-, now⟩
    · cases hpub.symm.trans now
      cases hticket
    · cases hpub.symm.trans now
      cases hticket
    · cases hpub.symm.trans now
      exact stamp p before ticket held hticket

theorem generation_step (generation : s.tracker.generation.toNat = s.epoch)
    (counts : roomToCount s l = true) (taken : s.step l = some t) :
    t.tracker.generation.toNat = t.epoch := by
  cases l with
  | disconnect =>
    cases Option.some.inj taken
    have raised := s.tracker.toNat_recordDisconnect_generation (of_decide_eq_true counts)
    exact raised.trans (congrArg (· + 1) generation)
  | count p => obtain ⟨-, rfl⟩ := Sys.step_count.mp taken; exact generation
  | release p =>
    obtain ⟨ticket, _, _, _, -, rfl⟩ := Sys.step_release.mp taken
    rw [State.recordPublishFailed_generation]
    exact generation
  | releaseForeign ticket =>
    cases Option.some.inj taken
    rw [State.recordPublishFailed_generation]
    exact generation
  | ack p => cases Option.some.inj taken; exact generation
  | close f => obtain ⟨_, -, rfl⟩ := Sys.step_close.mp taken; exact generation
  | _ => rw [Sys.step_quiet taken rfl, Sys.step_epoch taken]; exact generation

theorem agrees_step (h : Agrees s r) {l : Label ι φ}
    (promise : Obeys [ownTickets, acksOutstanding, releasesUnanswered, roomToCount] s l)
    (taken : s.step l = some t) : Agrees t (r.record l) := by
  obtain ⟨own, acks, unanswered, room, -⟩ := by simpa only [obeys_cons] using promise
  refine ⟨follows_step h.toFollows taken, ?_, generation_step h.generation room taken,
    stamp_step h.stamp h.generation taken⟩
  cases l with
  | count p =>
    obtain ⟨fresh, rfl⟩ := Sys.step_count.mp taken
    have outside : p ∉ r.live := by simp [h.live, Sys.live, fresh]
    have raised := s.tracker.toNat_recordPublish (of_decide_eq_true room)
    simp only [Reference.record, Finset.card_insert_of_notMem outside, raised, h.size]
  | release p =>
    rw [release_tracker h unanswered taken]
    simp only [Reference.record]
    split <;> rename_i hp
    · rw [State.toNat_recordAck, Finset.card_erase_of_mem hp, h.size]
    · exact h.size
  | releaseForeign ticket => cases own
  | ack p =>
    cases Option.some.inj taken
    have member : p ∈ r.live := (h.live p).mpr acks
    simp only [Reference.record, State.toNat_recordAck, Finset.card_erase_of_mem member, h.size]
  | disconnect => cases Option.some.inj taken; rfl
  | close f => obtain ⟨_, -, rfl⟩ := Sys.step_close.mp taken; exact h.size
  | _ => rw [Sys.step_quiet taken rfl]; exact h.size

theorem run_agrees {ls : List (Label ι φ)}
    (run : Run Sys.step
      (Obeys [ownTickets, acksOutstanding, releasesUnanswered, roomToCount]) .new ls s) :
    Agrees s (ls.foldl Reference.record .empty) :=
  run.follow agrees_initial fun _ _ _ _ h promise taken => agrees_step h promise taken

/-- Every publish ever counted is in exactly one place. -/
def Balanced (s : Sys ι φ) (r : Reference ι) : Prop :=
  r.counted = r.acknowledged + r.rolledBack + s.tracker.unacked.toNat +
    s.tracker.lost.toNat + s.tracker.reported.toNat

theorem balanced_step (h : Agrees s r) (balanced : Balanced s r) {l : Label ι φ}
    (promise : Obeys [ownTickets, acksOutstanding, releasesUnanswered, roomToCount] s l)
    (report : roomToReport s l = true) (taken : s.step l = some t) :
    Balanced t (r.record l) := by
  obtain ⟨own, acks, unanswered, room, -⟩ := by simpa only [obeys_cons] using promise
  have size := h.size
  unfold Balanced at balanced ⊢
  cases l with
  | count p =>
    obtain ⟨-, rfl⟩ := Sys.step_count.mp taken
    have raised := s.tracker.toNat_recordPublish (of_decide_eq_true room)
    simp only [Reference.record, raised, State.recordPublish_lost, State.recordPublish_reported]
    omega
  | release p =>
    rw [release_tracker h unanswered taken]
    simp only [Reference.record]
    split <;> rename_i hp
    · have some_left : 0 < r.live.card := Finset.card_pos.mpr ⟨p, hp⟩
      simp only [State.toNat_recordAck, State.recordAck_lost, State.recordAck_reported]
      omega
    · exact balanced
  | releaseForeign ticket => cases own
  | ack p =>
    cases Option.some.inj taken
    have some_left : 0 < r.live.card := Finset.card_pos.mpr ⟨p, (h.live p).mpr acks⟩
    simp only [Reference.record, State.toNat_recordAck, State.recordAck_lost,
      State.recordAck_reported]
    omega
  | disconnect =>
    cases Option.some.inj taken
    have moved := s.tracker.toNat_recordDisconnect_lost (of_decide_eq_true report)
    simp only [Reference.record, moved, State.recordDisconnect_unacked, UInt32.toNat_zero,
      State.recordDisconnect_reported]
    omega
  | close f =>
    obtain ⟨openedAt, -, rfl⟩ := Sys.step_close.mp taken
    have moved := s.tracker.toNat_closeFlush_reported openedAt (of_decide_eq_true report)
    simp only [Reference.record, moved, State.closeFlush_unacked, State.closeFlush_lost,
      UInt32.toNat_zero]
    omega
  | _ => rw [Sys.step_quiet taken rfl]; exact balanced

end Step

section History

variable [DecidableEq φ] {ok : Sys ι φ → Label ι φ → Prop} {s t : Sys ι φ} {p : ι}

theorem epoch_run {ls : List (Label ι φ)} (run : Run Sys.step ok s ls t) :
    t.epoch = s.epoch + ls.count .disconnect := by
  induction run with
  | start => simp
  | snoc _ _ taken ih => rw [Sys.step_epoch taken, ih, List.count_append]; omega

theorem counted_step {l : Label ι φ} {counted : Nat}
    (known : ∃ pub, s.publish p = some pub ∧ pub.counted = counted)
    (taken : s.step l = some t) : ∃ pub, t.publish p = some pub ∧ pub.counted = counted := by
  obtain ⟨pub, hpub, rfl⟩ := known
  rcases Sys.step_publish taken p with same | ⟨-, fresh, -⟩ | ⟨pub', held, moved⟩
  · exact ⟨pub, same.trans hpub, rfl⟩
  · cases hpub.symm.trans fresh
  · cases hpub.symm.trans held
    rcases moved with ⟨-, -, now⟩ | ⟨-, -, now⟩ | ⟨-, now⟩
    all_goals exact ⟨_, now, rfl⟩

theorem counted_run {before after : List (Label ι φ)}
    (run : Run Sys.step ok s (before ++ .count p :: after) t) :
    ∃ pub, t.publish p = some pub ∧ t.epoch = pub.counted + after.count .disconnect := by
  obtain ⟨u, -, rest⟩ := run.split
  obtain ⟨v, -, taken, rest⟩ := rest.of_cons
  obtain ⟨-, rfl⟩ := Sys.step_count.mp taken
  obtain ⟨pub, hpub, hcounted⟩ := rest.invariant
    (P := fun w => ∃ pub, w.publish p = some pub ∧ pub.counted = u.epoch)
    ⟨_, Function.update_self .., rfl⟩ fun _ _ _ _ known _ taken => counted_step known taken
  refine ⟨pub, hpub, ?_⟩
  rw [epoch_run rest, hcounted]

end History

section Refinement

variable [DecidableEq φ]

/-- What the callers of a tracker and the broker behind it promise. -/
def disciplined : List (Sys ι φ → Label ι φ → Bool) :=
  [ownTickets, acksOutstanding, releasesUnanswered]

/-- No counter of the tracker is asked to hold more than its word does. -/
def roomy : List (Sys ι φ → Label ι φ → Bool) := [roomToCount, roomToReport]

omit [DecidableEq ι] [DecidableEq φ] in
theorem rules_of_disciplined {s : Sys ι φ} {l : Label ι φ} (named : Obeys disciplined s l)
    (count : roomToCount s l = true) :
    Obeys [ownTickets, acksOutstanding, releasesUnanswered, roomToCount] s l := by
  simp only [disciplined, obeys_cons] at named ⊢
  exact ⟨named.1, named.2.1, named.2.2.1, count, obeys_nil _ _⟩

theorem balanced_run {ls : List (Label ι φ)} {s : Sys ι φ}
    (run : Run Sys.step (Obeys (disciplined ++ roomy)) .new ls s) :
    Balanced s (ls.foldl Reference.record .empty) := by
  have both : Agrees s (ls.foldl Reference.record .empty) ∧
      Balanced s (ls.foldl Reference.record .empty) := by
    refine run.follow (R := fun s r => Agrees s r ∧ Balanced s r) ⟨agrees_initial, rfl⟩
      fun t l u q h promise taken => ?_
    obtain ⟨own, acks, unanswered, count, report, -⟩ := by
      simpa only [disciplined, roomy, List.cons_append, List.nil_append, obeys_cons]
        using promise
    have base : Obeys [ownTickets, acksOutstanding, releasesUnanswered, roomToCount] t l := by
      simp only [obeys_cons]
      exact ⟨own, acks, unanswered, count, obeys_nil _ _⟩
    exact ⟨agrees_step h.1 base taken, balanced_step h.1 h.2 base report taken⟩
  exact both.2

theorem tracker_refines_reference {ls : List (Label ι φ)} {s : Sys ι φ}
    (run : Run Sys.step (Obeys (disciplined ++ [roomToCount])) .new ls s) :
    s.tracker.unacked.toNat = (ls.foldl Reference.record .empty).live.card ∧
    (∀ p t, Obeys disciplined s (.release p) → s.step (.release p) = some t →
      ∀ before after, ls = before ++ .count p :: after →
        (.disconnect ∉ after → p ∈ (ls.foldl Reference.record .empty).live ∧
          0 < s.tracker.unacked.toNat ∧
          t.tracker = { s.tracker with unacked := s.tracker.unacked - 1 }) ∧
        (.disconnect ∈ after → t.tracker = s.tracker)) ∧
    (∀ p, Obeys disciplined s (.ack p) → 0 < s.tracker.unacked.toNat) ∧
    (Run Sys.step (Obeys (disciplined ++ roomy)) .new ls s →
      (ls.foldl Reference.record .empty).counted =
        (ls.foldl Reference.record .empty).acknowledged +
        (ls.foldl Reference.record .empty).rolledBack + s.tracker.unacked.toNat +
        s.tracker.lost.toNat + s.tracker.reported.toNat) := by
  set r := ls.foldl Reference.record (.empty : Reference ι) with hr
  have agrees : Agrees s r := run_agrees run
  have positive (p : ι) (member : p ∈ r.live) : 0 < s.tracker.unacked.toNat := by
    rw [agrees.size]
    exact Finset.card_pos.mpr ⟨p, member⟩
  refine ⟨agrees.size, fun p t promise taken before after split => ?_, fun p promise => ?_,
    balanced_run⟩
  · obtain ⟨-, -, unanswered, -⟩ := by simpa only [disciplined, obeys_cons] using promise
    have tracker := release_tracker agrees unanswered taken
    obtain ⟨pub, hpub, epoch⟩ := counted_run (split ▸ run)
    obtain ⟨ticket, counted, kept, answered, held, -⟩ := Sys.step_release.mp taken
    cases hpub.symm.trans held
    have silent : answered = false := by simpa [releasesUnanswered, held] using unanswered
    have member : p ∈ r.live ↔ .disconnect ∉ after := by
      rw [agrees.live, live_of_publish held, ← List.count_eq_zero]
      simp only [Publish.outstanding, silent, Option.isSome_some, Bool.true_or, Bool.and_true,
        Bool.not_false, beq_iff_eq]
      simp only [] at epoch
      omega
    refine ⟨fun none => ?_, fun some => ?_⟩
    · have left := positive p (member.mpr none)
      rw [if_pos (member.mpr none)] at tracker
      exact ⟨member.mpr none, left, by rw [tracker, State.recordAck_of_pos _ left]⟩
    · rw [if_neg fun h => member.mp h some] at tracker
      exact tracker
  · obtain ⟨-, outstanding, -⟩ := by simpa only [disciplined, obeys_cons] using promise
    exact positive p ((agrees.live p).mpr outstanding)

end Refinement

/-- An answered publish, one that a disconnect discards, its stale rollback and one more. -/
theorem tracker_refines_reference_small : ∃ s : Sys Nat Nat,
    Run Sys.step (Obeys (disciplined ++ [roomToCount])) .new
      [.count 0, .count 1, .ack 0, .disconnect, .count 2, .release 1] s ∧
    s.tracker.unacked.toNat = 1 ∧ s.tracker.lost.toNat = 1 := by
  obtain ⟨s, h⟩ : ∃ s : Sys Nat Nat, exec Sys.step (disciplined ++ [roomToCount]) .new
      [.count 0, .count 1, .ack 0, .disconnect, .count 2, .release 1] = some s := ⟨_, rfl⟩
  have run := Run.of_exec h
  refine ⟨s, run, (tracker_refines_reference run).1, ?_⟩
  cases Option.some.inj h
  rfl

theorem counts_run (n : Nat) : ∃ s : Sys Nat Nat,
    Run Sys.step (Obeys disciplined) .new ((List.range n).map .count) s ∧
    s.tracker.unacked.toNat = n % 2 ^ 32 ∧ (∀ p, n ≤ p → s.publish p = none) ∧
    ((List.range n).map (.count : Nat → Label Nat Nat) |>.foldl Reference.record
      .empty).live = Finset.range n := by
  induction n with
  | zero => exact ⟨.new, .start _, rfl, fun _ _ => rfl, rfl⟩
  | succ n ih =>
    obtain ⟨s, run, unacked, fresh, live⟩ := ih
    have taken := Sys.step_count.mpr ⟨fresh n le_rfl, rfl⟩
    have next := run.snoc (by
      simp [disciplined, ownTickets, acksOutstanding, releasesUnanswered]) taken
    have labels : (List.range (n + 1)).map (.count : Nat → Label Nat Nat) =
        (List.range n).map .count ++ [.count n] := by rw [List.range_succ, List.map_append]; rfl
    rw [labels]
    refine ⟨_, next, ?_, fun p hp => ?_, ?_⟩
    · change (s.tracker.unacked + 1).toNat = _
      rw [UInt32.toNat_add, unacked]
      change (n % 2 ^ 32 + 1) % 2 ^ 32 = _
      omega
    · have other : p ≠ n := by omega
      simpa [other] using fresh p (by omega)
    · rw [List.foldl_append]
      simp only [List.foldl_cons, List.foldl_nil, Reference.record, live]
      exact Finset.range_add_one.symm

/-- With 2^32 publishes outstanding the count reads 0. -/
theorem count_wraps : ∃ (ls : List (Label Nat Nat)) (s : Sys Nat Nat),
    Run Sys.step (Obeys disciplined) .new ls s ∧ s.tracker.unacked.toNat = 0 ∧
    (ls.foldl Reference.record (.empty : Reference Nat)).live.card = 2 ^ 32 := by
  obtain ⟨s, run, unacked, -, live⟩ := counts_run (2 ^ 32)
  exact ⟨_, s, run, unacked.trans (Nat.mod_self _), by rw [live, Finset.card_range]⟩

end Sparkplug.Delivery
