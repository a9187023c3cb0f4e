import Sparkplug.Delivery.Reference

/-! The wait of a flush in the steps it takes: it creates a waiter, checks the count under
the lock, and parks. A release takes two: the lock, and then `notify_waiters`, which wakes
every waiter that exists. Each step is one of the tracker system or none. -/
namespace Sparkplug.Delivery.Waiting

open Transition

/-- How a flush stands to `changed` while it is in `wait_for_drain`. -/
inductive Waiter where
  | absent
  | created (notified : Bool)
  | parked (notified : Bool)
  deriving DecidableEq, Repr

def Waiter.wake : Waiter → Waiter
  | .absent => .absent
  | .created _ => .created true
  | .parked _ => .parked true

variable {ι ο φ : Type}

structure Sys (ι ο φ : Type) where
  inner : Delivery.Sys ι φ
  waiter : φ → Waiter
  /-- This operation has left the lock and has still to call `notify_waiters`. -/
  owes : ο → Bool

inductive Label (ι ο φ : Type) where
  /-- A step that notifies nobody: a count, a keep, the opening or the end of a flush. -/
  | plain (l : Delivery.Label ι φ)
  /-- The lock of a releasing operation. -/
  | lower (o : ο) (l : Delivery.Label ι φ)
  | notifyWaiters (o : ο)
  | create (f : φ)
  | check (f : φ)
  /-- The parked waiter has been notified, so the loop runs again. -/
  | wake (f : φ)
  | timeOut (f : φ)
  | cancel (f : φ)
  deriving DecidableEq

def isPlain : Delivery.Label ι φ → Bool
  | .count _ | .keep _ | .openFlush _ _ | .close _ => true
  | _ => false

def isRelease : Delivery.Label ι φ → Bool
  | .ack _ | .disconnect | .release _ | .releaseForeign _ => true
  | _ => false

/-- Whether the operation goes on to `notify_waiters`. A rollback of an older generation
returns without it. -/
def notifies (s : Delivery.Sys ι φ) : Delivery.Label ι φ → Bool
  | .ack _ | .disconnect => true
  | .release p => (s.publish p).any fun pub =>
    pub.ticket.any fun ticket => ticket.generation == s.tracker.generation
  | .releaseForeign ticket => ticket.generation == s.tracker.generation
  | _ => false

namespace Sys

variable [DecidableEq ι] [DecidableEq ο] [DecidableEq φ]

def new : Sys ι ο φ := ⟨.new, fun _ => .absent, fun _ => false⟩

def setWaiter (s : Sys ι ο φ) (f : φ) (waiter : Waiter) : Sys ι ο φ :=
  { s with waiter := Function.update s.waiter f waiter }

def step (s : Sys ι ο φ) : Label ι ο φ → Option (Sys ι ο φ)
  | .plain l =>
    if isPlain l then (s.inner.step l).map fun inner => { s with inner := inner } else none
  | .lower o l =>
    if isRelease l && !s.owes o then
      (s.inner.step l).map fun inner =>
        { s with inner := inner, owes := Function.update s.owes o (notifies s.inner l) }
    else none
  | .notifyWaiters o =>
    if s.owes o then
      some { s with
        waiter := fun f => (s.waiter f).wake
        owes := Function.update s.owes o false }
    else none
  | .create f =>
    match s.inner.flush f, s.waiter f with
    | .waiting _ _, .absent => some (s.setWaiter f (.created false))
    | _, _ => none
  | .check f =>
    match s.waiter f with
    | .created notified =>
      if s.inner.tracker.isDrained then
        (s.inner.step (.drain f)).map fun inner => { s with inner := inner }.setWaiter f .absent
      else some (s.setWaiter f (.parked notified))
    | _ => none
  | .wake f =>
    match s.waiter f with
    | .parked true => some (s.setWaiter f .absent)
    | _ => none
  | .timeOut f =>
    match s.waiter f with
    | .parked _ =>
      (s.inner.step (.timeOut f)).map fun inner => { s with inner := inner }.setWaiter f .absent
    | _ => none
  | .cancel f =>
    match s.waiter f with
    | .parked _ =>
      (s.inner.step (.cancel f)).map fun inner => { s with inner := inner }.setWaiter f .absent
    | _ => none

end Sys

/-- No count is asked for that its word does not hold. -/
def room (s : Sys ι ο φ) : Label ι ο φ → Bool
  | .plain l => roomToCount s.inner l
  | _ => true

/-- No flush is left parked: the count is above 0, or a notification is on its way. -/
def Kept (s : Sys ι ο φ) : Prop := ∀ f, s.waiter f = .parked false →
  0 < s.inner.tracker.unacked.toNat ∨ ∃ o, s.owes o = true

section Steps

variable {s t : Sys ι ο φ} {l : Label ι ο φ}

theorem kept_initial : Kept (.new : Sys ι ο φ) := by
  intro f parks
  cases parks

theorem wake_ne_parked (waiter : Waiter) : waiter.wake ≠ .parked false := by
  cases waiter <;> simp [Waiter.wake]

theorem kept_park [DecidableEq φ] {f : φ} {waiter : Waiter} (h : Kept s)
    (checked : waiter = .parked false → 0 < s.inner.tracker.unacked.toNat) :
    Kept (s.setWaiter f waiter) := by
  intro g parks
  by_cases same : g = f
  · subst same
    refine .inl (checked ?_)
    simpa [Sys.setWaiter] using parks
  · refine h g ?_
    simpa [Sys.setWaiter, same] using parks

theorem kept_count {inner : Delivery.Sys ι φ} (h : Kept s)
    (more : s.inner.tracker.unacked.toNat ≤ inner.tracker.unacked.toNat) :
    Kept { s with inner := inner } := by
  intro f parks
  rcases h f parks with positive | owes
  · exact .inl (Nat.lt_of_lt_of_le positive more)
  · exact .inr owes

variable [DecidableEq ι] [DecidableEq φ]

theorem unacked_plain {inner t : Delivery.Sys ι φ} {l : Delivery.Label ι φ}
    (plain : isPlain l = true) (fits : roomToCount inner l = true)
    (taken : inner.step l = some t) :
    inner.tracker.unacked.toNat ≤ t.tracker.unacked.toNat := by
  cases l with
  | count p =>
    obtain ⟨-, rfl⟩ := Sys.step_count.mp taken
    change _ ≤ inner.tracker.recordPublish.2.unacked.toNat
    rw [inner.tracker.toNat_recordPublish (of_decide_eq_true fits)]
    omega
  | keep p => obtain ⟨_, _, _, _, -, rfl⟩ := Sys.step_keep.mp taken; exact le_rfl
  | openFlush f timeout => obtain ⟨-, rfl⟩ := Sys.step_openFlush.mp taken; exact le_rfl
  | close f => obtain ⟨_, -, rfl⟩ := Sys.step_close.mp taken; exact le_rfl
  | _ => cases plain

/-- A release that notifies nobody has released nothing. -/
theorem tracker_of_stale {inner t : Delivery.Sys ι φ} {l : Delivery.Label ι φ}
    (releases : isRelease l = true) (stale : notifies inner l = false)
    (taken : inner.step l = some t) : t.tracker = inner.tracker := by
  cases l with
  | release p =>
    obtain ⟨ticket, counted, before, answered, held, rfl⟩ := Sys.step_release.mp taken
    refine inner.tracker.recordPublishFailed_stale ?_
    simpa [notifies, held] using stale
  | releaseForeign ticket =>
    cases Option.some.inj taken
    refine inner.tracker.recordPublishFailed_stale ?_
    simpa [notifies] using stale
  | ack p => cases stale
  | disconnect => cases stale
  | _ => cases releases

theorem tracker_of_wait {inner t : Delivery.Sys ι φ} {l : Delivery.Label ι φ} {f : φ}
    (waits : l = .drain f ∨ l = .timeOut f ∨ l = .cancel f) (taken : inner.step l = some t) :
    t.tracker = inner.tracker := by
  refine Sys.step_quiet taken ?_
  rcases waits with rfl | rfl | rfl
  all_goals rfl

variable [DecidableEq ο]

theorem kept_step (h : Kept s) (fits : room s l = true) (taken : s.step l = some t) :
    Kept t := by
  cases l with
  | plain l =>
    obtain ⟨plain, taken⟩ := Option.ite_none_right_eq_some.mp taken
    obtain ⟨inner, moved, rfl⟩ := Option.map_eq_some_iff.mp taken
    exact kept_count h (unacked_plain plain fits moved)
  | lower o l =>
    obtain ⟨guard, taken⟩ := Option.ite_none_right_eq_some.mp taken
    obtain ⟨inner, moved, rfl⟩ := Option.map_eq_some_iff.mp taken
    obtain ⟨releases, idle⟩ := Bool.and_eq_true_iff.mp guard
    intro f parks
    cases owing : notifies s.inner l with
    | true => exact .inr ⟨o, Function.update_self ..⟩
    | false =>
      have same := tracker_of_stale releases owing moved
      rcases h f parks with positive | ⟨o', owes⟩
      · exact .inl (by rw [same]; exact positive)
      · have other : o' ≠ o := by
          rintro rfl
          rw [owes] at idle
          cases idle
        exact .inr ⟨o', (Function.update_of_ne other ..).trans owes⟩
  | notifyWaiters o =>
    obtain ⟨-, taken⟩ := Option.ite_none_right_eq_some.mp taken
    cases taken
    intro f parks
    exact absurd parks (wake_ne_parked _)
  | create f =>
    simp only [Sys.step] at taken
    split at taken <;> cases taken
    exact kept_park h nofun
  | check f =>
    simp only [Sys.step] at taken
    split at taken
    · split at taken
      · obtain ⟨inner, moved, rfl⟩ := Option.map_eq_some_iff.mp taken
        have same := tracker_of_wait (.inl rfl) moved
        exact kept_park (kept_count h (by rw [same])) nofun
      · rename_i busy
        cases taken
        refine kept_park h fun _ => Nat.pos_of_ne_zero fun zero => ?_
        exact busy (s.inner.tracker.isDrained_iff.mpr zero)
    · cases taken
  | wake f =>
    simp only [Sys.step] at taken
    split at taken <;> cases taken
    exact kept_park h nofun
  | timeOut f =>
    simp only [Sys.step] at taken
    split at taken
    · obtain ⟨inner, moved, rfl⟩ := Option.map_eq_some_iff.mp taken
      have same := tracker_of_wait (.inr (.inl rfl)) moved
      exact kept_park (kept_count h (by rw [same])) nofun
    · cases taken
  | cancel f =>
    simp only [Sys.step] at taken
    split at taken
    · obtain ⟨inner, moved, rfl⟩ := Option.map_eq_some_iff.mp taken
      have same := tracker_of_wait (.inr (.inr rfl)) moved
      exact kept_park (kept_count h (by rw [same])) nofun
    · cases taken

theorem inner_step (taken : s.step l = some t) :
    t.inner = s.inner ∨ ∃ dl, s.inner.step dl = some t.inner := by
  cases l with
  | plain l =>
    obtain ⟨-, taken⟩ := Option.ite_none_right_eq_some.mp taken
    obtain ⟨inner, moved, rfl⟩ := Option.map_eq_some_iff.mp taken
    exact .inr ⟨l, moved⟩
  | lower o l =>
    obtain ⟨-, taken⟩ := Option.ite_none_right_eq_some.mp taken
    obtain ⟨inner, moved, rfl⟩ := Option.map_eq_some_iff.mp taken
    exact .inr ⟨l, moved⟩
  | notifyWaiters o =>
    obtain ⟨-, taken⟩ := Option.ite_none_right_eq_some.mp taken
    cases taken
    exact .inl rfl
  | create f =>
    simp only [Sys.step] at taken
    split at taken <;> cases taken
    exact .inl rfl
  | check f =>
    simp only [Sys.step] at taken
    split at taken
    · split at taken
      · obtain ⟨inner, moved, rfl⟩ := Option.map_eq_some_iff.mp taken
        exact .inr ⟨.drain f, moved⟩
      · cases taken
        exact .inl rfl
    · cases taken
  | wake f =>
    simp only [Sys.step] at taken
    split at taken <;> cases taken
    exact .inl rfl
  | timeOut f =>
    simp only [Sys.step] at taken
    split at taken
    · obtain ⟨inner, moved, rfl⟩ := Option.map_eq_some_iff.mp taken
      exact .inr ⟨.timeOut f, moved⟩
    · cases taken
  | cancel f =>
    simp only [Sys.step] at taken
    split at taken
    · obtain ⟨inner, moved, rfl⟩ := Option.map_eq_some_iff.mp taken
      exact .inr ⟨.cancel f, moved⟩
    · cases taken

theorem inner_run {ok : Sys ι ο φ → Label ι ο φ → Prop} {ls : List (Label ι ο φ)}
    (run : Run Sys.step ok .new ls s) :
    ∃ dls, Run Delivery.Sys.step (fun _ _ => True) .new dls s.inner := by
  have simulated : ∃ dls d, Run Delivery.Sys.step (fun _ _ => True) .new dls d ∧
      d = s.inner := by
    refine run.simulate (R := fun s d => d = s.inner) rfl fun t l u d same _ taken => ?_
    subst same
    rcases inner_step taken with same | ⟨dl, moved⟩
    · exact ⟨[], _, .start _, same.symm⟩
    · exact ⟨[dl], _, .one trivial moved, rfl⟩
  obtain ⟨dls, d, inner, rfl⟩ := simulated
  exact ⟨dls, inner⟩

/-- Behind every parked flush that nothing has notified, something is outstanding or some
release has still to notify. -/
theorem parked_flush_is_kept {ls : List (Label ι ο φ)}
    (run : Run Sys.step (Obeys [room]) .new ls s) (f : φ) (parks : s.waiter f = .parked false) :
    0 < s.inner.tracker.unacked.toNat ∨ ∃ o, s.owes o = true := by
  have kept : Kept s := by
    refine run.invariant kept_initial fun t l u _ h promise taken => ?_
    exact kept_step h (promise _ (by simp)) taken
  exact kept f parks

end Steps

/-- The PubAck has left the lock with the count at 0, and the parked flush waits for its
notification. -/
theorem parked_flush_is_kept_small : ∃ s : Sys Nat Nat Nat,
    Run Sys.step (Obeys [room]) .new
      [.plain (.count 0), .plain (.openFlush 0 5), .create 0, .check 0, .lower 0 (.ack 0)] s ∧
    (0 < s.inner.tracker.unacked.toNat ∨ ∃ o, s.owes o = true) := by
  obtain ⟨s, h, parks⟩ : ∃ s : Sys Nat Nat Nat, exec Sys.step [room] .new
      [.plain (.count 0), .plain (.openFlush 0 5), .create 0, .check 0, .lower 0 (.ack 0)] =
        some s ∧ s.waiter 0 = .parked false := ⟨_, rfl, rfl⟩
  have run := Run.of_exec h
  exact ⟨s, run, parked_flush_is_kept run 0 parks⟩

theorem parked_counts_run (n : Nat) : ∃ (ls : List (Label Nat Nat Nat)) (s : Sys Nat Nat Nat),
    Run Sys.step (Obeys []) .new ls s ∧
    s.inner.tracker.unacked.toNat = (n + 1) % 2 ^ 32 ∧ (∀ p, n < p → s.inner.publish p = none) ∧
    s.waiter 0 = .parked false ∧ ∀ o, s.owes o = false := by
  induction n with
  | zero =>
    obtain ⟨s, h, unacked, fresh, parks, idle⟩ : ∃ s : Sys Nat Nat Nat, exec Sys.step [] .new
        [.plain (.count 0), .plain (.openFlush 0 5), .create 0, .check 0] = some s ∧
        s.inner.tracker.unacked.toNat = 1 ∧
        s.inner.publish = Function.update (fun _ => none) 0 (some ⟨some ⟨0⟩, 0, none, false⟩) ∧
        s.waiter 0 = .parked false ∧ s.owes = fun _ => false := ⟨_, rfl, rfl, rfl, rfl, rfl⟩
    refine ⟨_, s, Run.of_exec h, unacked, fun p later => ?_, parks, fun o => congrFun idle o⟩
    rw [fresh, Function.update_of_ne (Nat.ne_of_gt later)]
  | succ n ih =>
    obtain ⟨ls, s, run, unacked, fresh, parks, idle⟩ := ih
    have counted := Sys.step_count.mpr ⟨fresh (n + 1) (Nat.lt_succ_self n), rfl⟩
    have taken : s.step (.plain (.count (n + 1))) =
        (s.inner.step (.count (n + 1))).map fun inner => { s with inner := inner } := rfl
    rw [counted, Option.map_some] at taken
    refine ⟨_, _, run.snoc (obeys_nil _ _) taken, ?_, fun p later => ?_, parks, idle⟩
    · change (s.inner.tracker.unacked + 1).toNat = _
      rw [UInt32.toNat_add, unacked]
      change ((n + 1) % 2 ^ 32 + 1) % 2 ^ 32 = _
      omega
    · have other : p ≠ n + 1 := Nat.ne_of_gt later
      simpa [other] using fresh p (Nat.lt_of_succ_lt later)

/-- The count of 2^32 publishes reads 0 beside a flush that parked on the first of them. -/
theorem parked_flush_misses_the_wrap : ∃ (ls : List (Label Nat Nat Nat)) (s : Sys Nat Nat Nat),
    Run Sys.step (Obeys []) .new ls s ∧ s.waiter 0 = .parked false ∧
    s.inner.tracker.unacked.toNat = 0 ∧ ∀ o, s.owes o = false := by
  obtain ⟨ls, s, run, unacked, -, parks, idle⟩ := parked_counts_run (2 ^ 32 - 1)
  exact ⟨ls, s, run, parks, unacked, idle⟩

end Sparkplug.Delivery.Waiting
