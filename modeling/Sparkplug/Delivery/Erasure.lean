import Sparkplug.Delivery.Reference

/-! A run of the tracker beside the same run without one publish, which is counted and
perhaps rolled back but never taken, as the guard of a failed call leaves it. -/
namespace Sparkplug.Delivery

open Transition

variable {ι φ : Type}

def Label.publish : Label ι φ → Option ι
  | .count p | .keep p | .release p | .ack p => some p
  | _ => none

/-- A flush without the losses it knows of. -/
def Flush.bare : Flush → Flush
  | .waiting timeout _ => .waiting timeout 0
  | .drained _ => .drained 0
  | .returned _ => .returned (.ok ())
  | flush => flush

/-- A PubAck answers a publish that the client took and that is outstanding. -/
def acksTaken (s : Sys ι φ) : Label ι φ → Bool
  | .ack p => s.live p && (s.publish p).any fun pub => pub.taken.isSome
  | _ => true

def Sys.holds (s : Sys ι φ) (p : ι) : Bool := (s.publish p).any fun pub => pub.ticket.isSome

/-- One more loss on the left once the erased publish has fallen to a disconnect. -/
structure LossesApart (room fell : Prop) (x y : State) : Prop where
  same : ¬fell → y.lost = x.lost ∧ y.reported = x.reported
  more : fell → room → x.lost.toNat + x.reported.toNat = y.lost.toNat + y.reported.toNat + 1 ∧
    y.lost.toNat ≤ x.lost.toNat

/-- The run with `p` on the left, the run without it on the right. -/
structure Without (room fell : Prop) (p : ι) (s r : Sys ι φ) : Prop where
  kept : ∃ ref, Agrees s ref
  other : ∃ ref, Agrees r ref
  apart : ∀ q, q ≠ p → r.publish q = s.publish q
  absent : r.publish p = none
  epoch : r.epoch = s.epoch
  flush : ∀ f, (r.flush f).bare = (s.flush f).bare
  refused : ∀ pub, s.publish p = some pub → pub.taken = none
  answered : ∀ q pub, s.publish q = some pub → pub.answered = true → pub.taken ≠ none
  older : fell → ∃ pub, s.publish p = some pub ∧ pub.counted < s.epoch
  fallen : ∀ pub, s.publish p = some pub → pub.ticket ≠ none → pub.counted < s.epoch → fell
  losses : LossesApart room fell s.tracker r.tracker

theorem without_initial (room : Prop) (p : ι) :
    Without room False p (.new : Sys ι φ) .new := by
  constructor
  · exact ⟨_, agrees_initial⟩
  · exact ⟨_, agrees_initial⟩
  · exact fun _ _ => rfl
  · rfl
  · rfl
  · exact fun _ => rfl
  · nofun
  · nofun
  · nofun
  · nofun
  · exact ⟨fun _ => ⟨rfl, rfl⟩, nofun⟩

namespace Flush

variable {flush : Flush} {timeout : Duration} {openedAt : UInt64}

theorem idle_of_bare (h : flush.bare = Flush.bare .idle) : flush = .idle := by
  cases flush with
  | idle => rfl
  | _ => cases h

theorem waiting_of_bare (h : flush.bare = Flush.bare (.waiting timeout openedAt)) :
    ∃ other, flush = .waiting timeout other := by
  cases flush with
  | waiting timeout other => cases h; exact ⟨other, rfl⟩
  | _ => cases h

theorem drained_of_bare (h : flush.bare = Flush.bare (.drained openedAt)) :
    ∃ other, flush = .drained other := by
  cases flush with
  | drained other => exact ⟨other, rfl⟩
  | _ => cases h

end Flush

section Losses

variable {room fell : Prop} {x y : State}

theorem LossesApart.disconnect (h : LossesApart room fell x y)
    (fits : room → x.lost.toNat + x.unacked.toNat < 2 ^ 32)
    (equal : y.unacked.toNat = x.unacked.toNat) :
    LossesApart room fell x.recordDisconnect y.recordDisconnect := by
  constructor
  · intro stays
    obtain ⟨lost, reported⟩ := h.same stays
    refine ⟨?_, reported⟩
    rw [State.recordDisconnect, State.recordDisconnect, lost, UInt32.toNat_inj.mp equal]
  · intro falls wide
    obtain ⟨sum, least⟩ := h.more falls wide
    have left := x.toNat_recordDisconnect_lost (fits wide)
    have right := y.toNat_recordDisconnect_lost (by have := fits wide; omega)
    simp only [left, right, State.recordDisconnect_reported]
    omega

theorem LossesApart.fall (h : LossesApart room fell x y) (stays : ¬fell)
    (fits : room → x.lost.toNat + x.unacked.toNat < 2 ^ 32)
    (bigger : x.unacked.toNat = y.unacked.toNat + 1) {falls : Prop} (now : falls) :
    LossesApart room falls x.recordDisconnect y.recordDisconnect := by
  constructor
  · intro never
    exact absurd now never
  · intro _ wide
    obtain ⟨lost, reported⟩ := h.same stays
    have left := x.toNat_recordDisconnect_lost (fits wide)
    have right := y.toNat_recordDisconnect_lost (by rw [lost]; have := fits wide; omega)
    simp only [left, right, lost, State.recordDisconnect_reported, reported]
    omega

theorem LossesApart.close (h : LossesApart room fell x y) (a b : UInt64)
    (fits : room → x.reported.toNat + x.lost.toNat < 2 ^ 64) :
    LossesApart room fell (x.closeFlush a).2 (y.closeFlush b).2 := by
  constructor
  · intro stays
    obtain ⟨lost, reported⟩ := h.same stays
    simp only [State.closeFlush, lost, reported, and_self]
  · intro falls wide
    obtain ⟨sum, least⟩ := h.more falls wide
    have left := x.toNat_closeFlush_reported a (fits wide)
    have right := y.toNat_closeFlush_reported b (by have := fits wide; omega)
    simp only [left, right, State.closeFlush_lost]
    omega

theorem LossesApart.of_eq {x' y' : State} (h : LossesApart room fell x y)
    (left : x'.lost = x.lost ∧ x'.reported = x.reported)
    (right : y'.lost = y.lost ∧ y'.reported = y.reported) : LossesApart room fell x' y' := by
  constructor
  · rw [left.1, left.2, right.1, right.2]
    exact h.same
  · rw [left.1, left.2, right.1, right.2]
    exact h.more

end Losses

section Reading

variable {room fell : Prop} {p : ι} {s r : Sys ι φ}

theorem Without.live_other (h : Without room fell p s r) {q : ι} (other : q ≠ p) :
    r.live q = s.live q := by
  simp only [Sys.live, h.apart q other, h.epoch]

theorem Without.live_iff (h : Without room fell p s r) :
    s.live p = true ↔ s.holds p = true ∧ ¬fell := by
  obtain ⟨ref, agrees⟩ := h.kept
  cases known : s.publish p with
  | none => simp [Sys.live, Sys.holds, known]
  | some pub =>
    have taken := h.refused pub known
    have silent : pub.answered = false := by
      by_contra spoken
      exact h.answered p pub known (by simpa using spoken) taken
    have counted := agrees.counted p pub known
    have current : pub.ticket ≠ none → (pub.counted = s.epoch ↔ ¬fell) := by
      intro held
      constructor
      · intro now falls
        obtain ⟨pub', known', older⟩ := h.older falls
        cases known.symm.trans known'
        omega
      · intro stays
        by_contra other
        exact stays (h.fallen pub known held (by omega))
    cases ticket : pub.ticket with
    | none => simp [Sys.live, Sys.holds, known, Publish.outstanding, taken, ticket]
    | some ticket' =>
      have := current (by simp [ticket])
      simp [Sys.live, Sys.holds, known, Publish.outstanding, silent, ticket, this]

theorem Without.generation (h : Without room fell p s r) :
    r.tracker.generation = s.tracker.generation := by
  obtain ⟨_, left⟩ := h.kept
  obtain ⟨_, right⟩ := h.other
  apply UInt64.toNat_inj.mp
  rw [left.generation, right.generation, h.epoch]

theorem Without.unacked [DecidableEq ι] (h : Without room fell p s r) :
    s.tracker.unacked.toNat = r.tracker.unacked.toNat + if s.live p then 1 else 0 := by
  obtain ⟨left, kept⟩ := h.kept
  obtain ⟨right, other⟩ := h.other
  -- Each count is the size of its outstanding set, and the sets differ by `p` alone.
  have erased : right.live = left.live.erase p := by
    ext q
    rw [Finset.mem_erase, kept.live, other.live]
    by_cases same : q = p
    · subst same
      simp [Sys.live, h.absent]
    · simp [same, h.live_other same]
  rw [kept.size, other.size, erased]
  split <;> rename_i live
  · have member := (kept.live p).mpr live
    exact (Finset.card_erase_add_one member).symm
  · have outside : p ∉ left.live := fun member => live ((kept.live p).mp member)
    rw [Finset.erase_eq_of_notMem outside, Nat.add_zero]

/-- What the callers and the broker promise where one call may fail. -/
def answering : List (Sys ι φ → Label ι φ → Bool) := [acksTaken, roomToCount]

theorem Without.promised [DecidableEq ι] {l : Label ι φ} (h : Without room fell p s r)
    (elsewhere : l.publish ≠ some p) (promise : Obeys answering s l) : Obeys answering r l := by
  obtain ⟨acks, fits, -⟩ := by simpa only [answering, obeys_cons] using promise
  have size := h.unacked
  have generation := congrArg UInt64.toNat h.generation
  simp only [answering, obeys_cons]
  refine ⟨?_, ?_, obeys_nil _ _⟩
  · cases l with
    | ack q =>
      have other : q ≠ p := by rintro rfl; exact elsewhere rfl
      simpa only [acksTaken, h.live_other other, h.apart q other] using acks
    | _ => rfl
  · cases l with
    | count q =>
      simp only [roomToCount, decide_eq_true_eq] at fits ⊢
      omega
    | disconnect =>
      simp only [roomToCount, decide_eq_true_eq] at fits ⊢
      omega
    | _ => rfl

end Reading

section Step

variable [DecidableEq ι] [DecidableEq φ] {room fell : Prop} {p : ι} {s t r : Sys ι φ}
  {l : Label ι φ}

theorem answering_disciplined (untaken : ∀ q pub, s.publish q = some pub →
      pub.ticket ≠ none → pub.taken = none)
    (answered : ∀ q pub, s.publish q = some pub → pub.answered = true → pub.taken ≠ none)
    (own : ownTickets s l = true) (promise : Obeys answering s l) (taken : s.step l = some t) :
    Obeys [ownTickets, acksOutstanding, releasesUnanswered, roomToCount] s l := by
  obtain ⟨acks, room, -⟩ := by simpa only [answering, obeys_cons] using promise
  simp only [obeys_cons]
  refine ⟨own, ?_, ?_, room, obeys_nil _ _⟩
  · cases l with
    | ack q =>
      simp only [acksTaken, Bool.and_eq_true] at acks
      exact acks.1
    | _ => rfl
  · cases l with
    | release q =>
      obtain ⟨ticket, counted, before, spoken, held, -⟩ := Sys.step_release.mp taken
      have gone := untaken q _ held (Option.some_ne_none ticket)
      cases spoken with
      | false => simp [releasesUnanswered, held]
      | true => exact absurd gone (answered q _ held rfl)
    | _ => rfl

theorem answered_step (answered : ∀ q pub, s.publish q = some pub → pub.answered = true →
      pub.taken ≠ none) (acks : acksTaken s l = true) (taken : s.step l = some t) :
    ∀ q pub, t.publish q = some pub → pub.answered = true → pub.taken ≠ none := by
  intro q pub known spoken
  rcases Sys.step_publish taken q with same | ⟨-, -, now⟩ | ⟨before, held, moved⟩
  · exact answered q pub (same.symm.trans known) spoken
  · cases known.symm.trans now
    cases spoken
  · rcases moved with ⟨-, -, now⟩ | ⟨-, -, now⟩ | ⟨rfl, now⟩
    · cases known.symm.trans now
      nofun
    · cases known.symm.trans now
      exact answered q before held spoken
    · cases known.symm.trans now
      simp only [acksTaken, Bool.and_eq_true, held, Option.any_some] at acks
      exact Option.isSome_iff_ne_none.mp acks.2

theorem holds_of_count (taken : s.step (.count p) = some t) : t.holds p = true := by
  obtain ⟨-, rfl⟩ := Sys.step_count.mp taken
  simp [Sys.holds]

theorem holds_of_release (taken : s.step (.release p) = some t) : t.holds p = false := by
  obtain ⟨_, _, _, _, -, rfl⟩ := Sys.step_release.mp taken
  simp [Sys.holds]

theorem entry_elsewhere (elsewhere : l.publish ≠ some p) (taken : s.step l = some t) :
    t.publish p = s.publish p := by
  rcases Sys.step_publish taken p with same | ⟨rfl, -, -⟩ | ⟨_, -, moved⟩
  · exact same
  · exact absurd rfl elsewhere
  · rcases moved with ⟨rfl, -, -⟩ | ⟨rfl, -, -⟩ | ⟨rfl, -⟩
    all_goals exact absurd rfl elsewhere

theorem losses_kept (connected : l ≠ .disconnect) (unclosed : ∀ f, l ≠ .close f)
    (taken : s.step l = some t) :
    t.tracker.lost = s.tracker.lost ∧ t.tracker.reported = s.tracker.reported := by
  rcases Sys.step_losses taken with same | ⟨rfl, -⟩ | ⟨f, _, rfl, -, -⟩
  · exact same
  · exact absurd rfl connected
  · exact absurd rfl (unclosed f)

theorem Without.answer (h : Without room fell p s r) (own : ownTickets s l = true)
    (elsewhere : l.publish ≠ some p) (taken : s.step l = some t) :
    ∃ r', r.step l = some r' ∧ (∀ q, q ≠ p → r'.publish q = t.publish q) ∧
      r'.publish p = none ∧ ∀ f, (r'.flush f).bare = (t.flush f).bare := by
  have updated (q : ι) (entry : Option Publish) (x : ι) (other : x ≠ p) :
      Function.update r.publish q entry x = Function.update s.publish q entry x := by
    simp only [Function.update_apply, h.apart x other]
  have left {q : ι} (entry : Option Publish) (other : q ≠ p) :
      Function.update r.publish q entry p = none := by
    rw [Function.update_of_ne (Ne.symm other), h.absent]
  have moved {a b : Flush} (f : φ) (alike : a.bare = b.bare) (g : φ) :
      (Function.update r.flush f a g).bare = (Function.update s.flush f b g).bare := by
    simp only [Function.update_apply]
    split
    · exact alike
    · exact h.flush g
  cases l with
  | count q =>
    have other : q ≠ p := by rintro rfl; exact elsewhere rfl
    obtain ⟨fresh, rfl⟩ := Sys.step_count.mp taken
    have ticket : r.tracker.recordPublish.1 = s.tracker.recordPublish.1 := by
      rw [State.recordPublish, State.recordPublish, h.generation]
    refine ⟨_, Sys.step_count.mpr ⟨(h.apart q other).trans fresh, rfl⟩, ?_, left _ other, h.flush⟩
    rw [ticket, h.epoch]
    exact updated q _
  | keep q =>
    have other : q ≠ p := by rintro rfl; exact elsewhere rfl
    obtain ⟨_, _, _, _, held, rfl⟩ := Sys.step_keep.mp taken
    refine ⟨_, Sys.step_keep.mpr ⟨_, _, _, _, (h.apart q other).trans held, rfl⟩, ?_,
      left _ other, h.flush⟩
    rw [h.epoch]
    exact updated q _
  | release q =>
    have other : q ≠ p := by rintro rfl; exact elsewhere rfl
    obtain ⟨_, _, _, _, held, rfl⟩ := Sys.step_release.mp taken
    exact ⟨_, Sys.step_release.mpr ⟨_, _, _, _, (h.apart q other).trans held, rfl⟩, updated q _,
      left _ other, h.flush⟩
  | releaseForeign ticket => cases own
  | ack q =>
    have other : q ≠ p := by rintro rfl; exact elsewhere rfl
    cases Option.some.inj taken
    refine ⟨_, rfl, ?_, left _ other, h.flush⟩
    rw [h.apart q other]
    exact updated q _
  | disconnect =>
    cases Option.some.inj taken
    exact ⟨_, rfl, h.apart, h.absent, h.flush⟩
  | openFlush f timeout =>
    obtain ⟨idle, rfl⟩ := Sys.step_openFlush.mp taken
    have same := h.flush f
    rw [idle] at same
    exact ⟨_, Sys.step_openFlush.mpr ⟨Flush.idle_of_bare same, rfl⟩, h.apart, h.absent,
      moved f rfl⟩
  | drain f =>
    obtain ⟨timeout, openedAt, waits, empty, rfl⟩ := Sys.step_drain.mp taken
    have same := h.flush f
    rw [waits] at same
    obtain ⟨other, waits'⟩ := Flush.waiting_of_bare same
    -- The count without `p` is never the larger one, so the wait is over there too.
    have empty' : r.tracker.isDrained = true := by
      rw [State.isDrained_iff] at empty ⊢
      have := h.unacked
      omega
    exact ⟨_, Sys.step_drain.mpr ⟨_, _, waits', empty', rfl⟩, h.apart, h.absent, moved f rfl⟩
  | close f =>
    obtain ⟨openedAt, drains, rfl⟩ := Sys.step_close.mp taken
    have same := h.flush f
    rw [drains] at same
    obtain ⟨other, drains'⟩ := Flush.drained_of_bare same
    exact ⟨_, Sys.step_close.mpr ⟨_, drains', rfl⟩, h.apart, h.absent, moved f rfl⟩
  | timeOut f =>
    obtain ⟨timeout, openedAt, waits, rfl⟩ := Sys.step_timeOut.mp taken
    have same := h.flush f
    rw [waits] at same
    obtain ⟨other, waits'⟩ := Flush.waiting_of_bare same
    exact ⟨_, Sys.step_timeOut.mpr ⟨_, _, waits', rfl⟩, h.apart, h.absent, moved f rfl⟩
  | cancel f =>
    obtain ⟨opened, rfl⟩ := Sys.step_cancel.mp taken
    have same := h.flush f
    refine ⟨_, Sys.step_cancel.mpr ⟨?_, rfl⟩, h.apart, h.absent, moved f rfl⟩
    rcases opened with ⟨timeout, openedAt, waits⟩ | ⟨openedAt, drains⟩
    · rw [waits] at same
      obtain ⟨other, waits'⟩ := Flush.waiting_of_bare same
      exact .inl ⟨_, other, waits'⟩
    · rw [drains] at same
      exact .inr (Flush.drained_of_bare same)

theorem Without.losses_step (h : Without room fell p s r) {r' : Sys ι φ}
    (wide : room → roomToReport s l = true) (taken : s.step l = some t)
    (taken' : r.step l = some r') :
    LossesApart room (fell ∨ (l = .disconnect ∧ s.holds p = true)) t.tracker r'.tracker := by
  -- Only a disconnect and the close of a drained flush move the losses.
  by_cases disconnected : l = .disconnect
  · subst disconnected
    cases Option.some.inj taken
    cases Option.some.inj taken'
    have size := h.unacked
    have fits (hroom : room) : s.tracker.lost.toNat + s.tracker.unacked.toNat < 2 ^ 32 :=
      of_decide_eq_true (wide hroom)
    by_cases live : s.live p = true
    · obtain ⟨holds, stays⟩ := h.live_iff.mp live
      rw [if_pos live] at size
      exact h.losses.fall stays fits size (.inr ⟨rfl, holds⟩)
    · have same : (fell ∨ ((.disconnect : Label ι φ) = .disconnect ∧ s.holds p = true)) ↔ fell := by
        constructor
        · rintro (falls | ⟨-, holds⟩)
          · exact falls
          · by_contra stays
            exact live (h.live_iff.mpr ⟨holds, stays⟩)
        · exact .inl
      rw [if_neg live] at size
      rw [same]
      exact h.losses.disconnect fits size.symm
  · have same : (fell ∨ (l = .disconnect ∧ s.holds p = true)) ↔ fell := by simp [disconnected]
    rw [same]
    by_cases closed : ∃ f, l = .close f
    · obtain ⟨f, rfl⟩ := closed
      obtain ⟨a, -, rfl⟩ := Sys.step_close.mp taken
      obtain ⟨b, -, rfl⟩ := Sys.step_close.mp taken'
      exact h.losses.close a b fun hroom => of_decide_eq_true (wide hroom)
    · have unclosed (f : φ) : l ≠ .close f := fun close => closed ⟨f, close⟩
      exact h.losses.of_eq (losses_kept disconnected unclosed taken)
        (losses_kept disconnected unclosed taken')

theorem Without.shared (h : Without room fell p s r) (own : ownTickets s l = true)
    (promise : Obeys answering s l) (wide : room → roomToReport s l = true)
    (elsewhere : l.publish ≠ some p) (taken : s.step l = some t) :
    ∃ r', r.step l = some r' ∧
      Without room (fell ∨ (l = .disconnect ∧ s.holds p = true)) p t r' := by
  obtain ⟨acks, -⟩ := by simpa only [answering, obeys_cons] using promise
  obtain ⟨r', taken', apart, absent, flush⟩ := h.answer own elsewhere taken
  obtain ⟨left, kept⟩ := h.kept
  obtain ⟨right, other⟩ := h.other
  have entry := entry_elsewhere elsewhere taken
  have epoch := Sys.step_epoch taken
  have answered' : ∀ q pub, r.publish q = some pub → pub.answered = true → pub.taken ≠ none := by
    intro q pub known spoken
    by_cases same : q = p
    · subst same
      cases h.absent.symm.trans known
    · exact h.answered q pub ((h.apart q same).symm.trans known) spoken
  refine ⟨r', taken', ?_⟩
  constructor
  · have promised := answering_disciplined kept.untaken h.answered own promise taken
    exact ⟨_, agrees_step kept promised taken⟩
  · have promised := answering_disciplined other.untaken answered' own
      (h.promised elsewhere promise) taken'
    exact ⟨_, agrees_step other promised taken'⟩
  · exact apart
  · exact absent
  · rw [epoch, Sys.step_epoch taken', h.epoch]
  · exact flush
  · rw [entry]
    exact h.refused
  · exact answered_step h.answered acks taken
  · rw [entry, epoch]
    rintro (falls | ⟨rfl, holds⟩)
    · obtain ⟨pub, known, older⟩ := h.older falls
      exact ⟨pub, known, by omega⟩
    · obtain ⟨pub, known, -⟩ := (Option.any_eq_true _ _).mp holds
      have counted := kept.counted p pub known
      exact ⟨pub, known, Nat.lt_succ_of_le counted⟩
  · rw [entry, epoch]
    intro pub known held older
    by_cases disconnected : l = .disconnect
    · refine .inr ⟨disconnected, ?_⟩
      simp [Sys.holds, known, Option.isSome_iff_ne_none, held]
    · refine .inl (h.fallen pub known held ?_)
      simpa [disconnected] using older
  · exact h.losses_step wide taken taken'

theorem Without.erased (h : Without room fell p s r) (promise : Obeys answering s l)
    (erases : l = .count p ∨ l = .release p) (taken : s.step l = some t) :
    Without room fell p t r := by
  obtain ⟨acks, -⟩ := by simpa only [answering, obeys_cons] using promise
  obtain ⟨left, kept⟩ := h.kept
  have own : ownTickets s l = true := by rcases erases with rfl | rfl <;> rfl
  have connected : l ≠ .disconnect := by rcases erases with rfl | rfl <;> simp
  have unclosed (f : φ) : l ≠ .close f := by rcases erases with rfl | rfl <;> simp
  have epoch : t.epoch = s.epoch := by
    rw [Sys.step_epoch taken]
    rcases erases with rfl | rfl <;> rfl
  have flush : t.flush = s.flush := by
    rcases erases with rfl | rfl
    · obtain ⟨-, rfl⟩ := Sys.step_count.mp taken
      rfl
    · obtain ⟨_, _, _, _, -, rfl⟩ := Sys.step_release.mp taken
      rfl
  have entry : (s.publish p = none ∧
        ∃ ticket, t.publish p = some ⟨some ticket, s.epoch, none, false⟩) ∨
      ∃ pub, s.publish p = some pub ∧ t.publish p = some { pub with ticket := none } := by
    rcases erases with rfl | rfl
    · obtain ⟨fresh, rfl⟩ := Sys.step_count.mp taken
      exact .inl ⟨fresh, _, Function.update_self ..⟩
    · obtain ⟨_, _, _, _, held, rfl⟩ := Sys.step_release.mp taken
      exact .inr ⟨_, held, Function.update_self ..⟩
  constructor
  · have promised := answering_disciplined kept.untaken h.answered own promise taken
    exact ⟨_, agrees_step kept promised taken⟩
  · exact h.other
  · intro q other
    rw [h.apart q other, entry_elsewhere ?_ taken]
    rcases erases with rfl | rfl <;> simpa [Label.publish] using Ne.symm other
  · exact h.absent
  · rw [epoch, h.epoch]
  · rw [flush]
    exact h.flush
  · intro pub now
    rcases entry with ⟨-, ticket, known⟩ | ⟨before, held, known⟩
    · cases known.symm.trans now
      rfl
    · cases known.symm.trans now
      exact h.refused before held
  · exact answered_step h.answered acks taken
  · intro falls
    obtain ⟨pub, known, older⟩ := h.older falls
    rcases entry with ⟨fresh, -⟩ | ⟨before, held, now⟩
    · cases fresh.symm.trans known
    · cases held.symm.trans known
      exact ⟨_, now, epoch ▸ older⟩
  · intro pub now held older
    rcases entry with ⟨-, ticket, known⟩ | ⟨before, -, known⟩
    · cases known.symm.trans now
      rw [epoch] at older
      exact absurd older (Nat.lt_irrefl _)
    · cases known.symm.trans now
      exact absurd rfl held
  · exact h.losses.of_eq (losses_kept connected unclosed taken) ⟨rfl, rfl⟩

end Step

end Sparkplug.Delivery
