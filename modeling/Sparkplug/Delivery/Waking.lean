import Sparkplug.Delivery.Losses
import Sparkplug.Delivery.Waiting

/-! The wait of a flush comes to its end. Once nothing is outstanding, each step that a waiting
flush takes brings it nearer to its answer, and no step of another takes it back. -/
namespace Sparkplug.Delivery.Waiting

open Transition

variable {ι ο φ : Type}

/-- A step in the wait of this flush, its timeout and its cancellation apart. -/
def Label.waits [DecidableEq φ] (f : φ) : Label ι ο φ → Bool
  | .create g | .check g | .wake g => g == f
  | _ => false

def countless (_ : Sys ι ο φ) : Label ι ο φ → Bool
  | .plain l => !l.isCount
  | _ => true

/-- The steps that a flush has still to take where nothing is outstanding. -/
def rank (s : Sys ι ο φ) (f : φ) : Nat :=
  match s.waiter f, s.inner.flush f with
  | .created _, _ => 1
  | .parked _, _ => 3
  | .absent, .idle => 3
  | .absent, .waiting _ _ => 2
  | .absent, _ => 0

/-- A waiter stands for a flush that waits. -/
def Paired (s : Sys ι ο φ) : Prop := ∀ f, s.waiter f ≠ .absent →
  ∃ timeout openedAt, s.inner.flush f = .waiting timeout openedAt

section Steps

variable {s t : Sys ι ο φ} {l : Label ι ο φ} {f : φ}

theorem paired_initial : Paired (.new : Sys ι ο φ) := fun _ waits => absurd rfl waits

theorem rank_same (waiter : t.waiter f = s.waiter f) (flush : t.inner.flush f = s.inner.flush f) :
    rank t f = rank s f := by
  unfold rank
  rw [waiter, flush]

variable [DecidableEq ι] [DecidableEq φ]

theorem flush_of_plain {inner t : Delivery.Sys ι φ} {l : Delivery.Label ι φ}
    (plain : isPlain l = true) (taken : inner.step l = some t) (f : φ) :
    t.flush f = inner.flush f ∨
    (inner.flush f = .idle ∧ ∃ timeout openedAt, t.flush f = .waiting timeout openedAt) ∨
    ((∃ openedAt, inner.flush f = .drained openedAt) ∧ ∃ result, t.flush f = .returned result) := by
  rcases Delivery.Sys.step_flush taken f with same | ⟨_, rfl, idle, now⟩ | ⟨_, _, rfl, -⟩ |
    ⟨_, rfl, drains, now⟩ | ⟨_, _, rfl, -⟩ | ⟨rfl, -⟩
  · exact .inl same
  · exact .inr (.inl ⟨idle, _, _, now⟩)
  · cases plain
  · exact .inr (.inr ⟨⟨_, drains⟩, _, now⟩)
  · cases plain
  · cases plain

theorem flush_of_release {inner t : Delivery.Sys ι φ} {l : Delivery.Label ι φ}
    (releases : isRelease l = true) (taken : inner.step l = some t) (f : φ) :
    t.flush f = inner.flush f := by
  rcases Delivery.Sys.step_flush taken f with same | ⟨_, rfl, -⟩ | ⟨_, _, rfl, -⟩ |
    ⟨_, rfl, -⟩ | ⟨_, _, rfl, -⟩ | ⟨rfl, -⟩
  · exact same
  all_goals cases releases

theorem flush_of_other {inner t : Delivery.Sys ι φ} {l : Delivery.Label ι φ} {f g : φ}
    (own : l = .drain g ∨ l = .timeOut g ∨ l = .cancel g) (other : f ≠ g)
    (taken : inner.step l = some t) : t.flush f = inner.flush f := by
  rcases own with rfl | rfl | rfl
  · obtain ⟨_, _, -, -, rfl⟩ := Delivery.Sys.step_drain.mp taken
    exact Function.update_of_ne other ..
  · obtain ⟨_, _, -, rfl⟩ := Delivery.Sys.step_timeOut.mp taken
    exact Function.update_of_ne other ..
  · obtain ⟨-, rfl⟩ := Delivery.Sys.step_cancel.mp taken
    exact Function.update_of_ne other ..

variable [DecidableEq ο]

inductive Moves (s : Sys ι ο φ) : Label ι ο φ → Sys ι ο φ → Prop where
  | plain {dl inner} (plain : isPlain dl = true) (taken : s.inner.step dl = some inner) :
      Moves s (.plain dl) { s with inner := inner }
  | lowered {o dl inner} (releases : isRelease dl = true) (taken : s.inner.step dl = some inner) :
      Moves s (.lower o dl)
        { s with inner := inner, owes := Function.update s.owes o (notifies s.inner dl) }
  | notified {o} : Moves s (.notifyWaiters o) { s with
      waiter := fun f => (s.waiter f).wake
      owes := Function.update s.owes o false }
  | created {g timeout openedAt} (opened : s.inner.flush g = .waiting timeout openedAt)
      (absent : s.waiter g = .absent) : Moves s (.create g) (s.setWaiter g (.created false))
  | drained {g notified inner} (created : s.waiter g = .created notified)
      (taken : s.inner.step (.drain g) = some inner) :
      Moves s (.check g) ({ s with inner := inner }.setWaiter g .absent)
  | parked {g notified} (created : s.waiter g = .created notified)
      (busy : s.inner.tracker.isDrained = false) :
      Moves s (.check g) (s.setWaiter g (.parked notified))
  | woken {g} (parks : s.waiter g = .parked true) :
      Moves s (.wake g) (s.setWaiter g .absent)
  | ended {g notified own dl inner}
      (which : own = .timeOut g ∧ dl = .timeOut g ∨ own = .cancel g ∧ dl = .cancel g)
      (parks : s.waiter g = .parked notified) (taken : s.inner.step dl = some inner) :
      Moves s own ({ s with inner := inner }.setWaiter g .absent)

theorem moves_of_step (taken : s.step l = some t) : Moves s l t := by
  cases l with
  | plain l =>
    obtain ⟨plain, taken⟩ := Option.ite_none_right_eq_some.mp taken
    obtain ⟨inner, moved, rfl⟩ := Option.map_eq_some_iff.mp taken
    exact .plain plain moved
  | lower o l =>
    obtain ⟨guard, taken⟩ := Option.ite_none_right_eq_some.mp taken
    obtain ⟨inner, moved, rfl⟩ := Option.map_eq_some_iff.mp taken
    exact .lowered (Bool.and_eq_true_iff.mp guard).1 moved
  | notifyWaiters o =>
    obtain ⟨-, taken⟩ := Option.ite_none_right_eq_some.mp taken
    cases taken
    exact .notified
  | create f =>
    simp only [Sys.step] at taken
    split at taken
    · rename_i opened absent
      cases taken
      exact .created opened absent
    · cases taken
  | check f =>
    simp only [Sys.step] at taken
    split at taken
    · rename_i created
      split at taken
      · obtain ⟨inner, moved, rfl⟩ := Option.map_eq_some_iff.mp taken
        exact .drained created moved
      · rename_i busy
        cases taken
        exact .parked created (Bool.not_eq_true _ ▸ busy)
    · cases taken
  | wake f =>
    simp only [Sys.step] at taken
    split at taken
    · rename_i parks
      cases taken
      exact .woken parks
    · cases taken
  | timeOut f =>
    simp only [Sys.step] at taken
    split at taken
    · rename_i parks
      obtain ⟨inner, moved, rfl⟩ := Option.map_eq_some_iff.mp taken
      exact .ended (.inl ⟨rfl, rfl⟩) parks moved
    · cases taken
  | cancel f =>
    simp only [Sys.step] at taken
    split at taken
    · rename_i parks
      obtain ⟨inner, moved, rfl⟩ := Option.map_eq_some_iff.mp taken
      exact .ended (.inr ⟨rfl, rfl⟩) parks moved
    · cases taken

theorem drained_step (drained : s.inner.tracker.isDrained = true)
    (promise : countless s l = true) (moves : Moves s l t) :
    t.inner.tracker.isDrained = true := by
  have fewer {dl : Delivery.Label ι φ} {inner : Delivery.Sys ι φ} (other : dl.isCount = false)
      (moved : s.inner.step dl = some inner) : inner.tracker.isDrained = true := by
    have none : [dl].countP Label.isCount = 0 := by simp [other]
    rw [State.isDrained_iff] at drained ⊢
    have bound := unacked_step (by rw [none, drained]; decide) moved
    rw [none, drained] at bound
    simpa using bound
  cases moves with
  | plain plain taken => exact fewer (by simpa [countless] using promise) taken
  | @lowered o dl inner releases taken =>
    refine fewer ?_ taken
    cases dl <;> first | rfl | cases releases
  | drained created taken => exact fewer rfl taken
  | ended which parks taken =>
    refine fewer ?_ taken
    rcases which with ⟨-, rfl⟩ | ⟨-, rfl⟩ <;> rfl
  | _ => exact drained

theorem paired_step (h : Paired s) (moves : Moves s l t) : Paired t := by
  have ended {g : φ} {dl : Delivery.Label ι φ} {inner : Delivery.Sys ι φ}
      (own : dl = .drain g ∨ dl = .timeOut g ∨ dl = .cancel g)
      (taken : s.inner.step dl = some inner) :
      Paired ({ s with inner := inner }.setWaiter g .absent) := by
    intro f waits
    by_cases same : f = g
    · subst same
      exact absurd (Function.update_self ..) waits
    · have waiter := Function.update_of_ne same Waiter.absent s.waiter
      obtain ⟨timeout, openedAt, opened⟩ := h f fun absent => waits (waiter.trans absent)
      exact ⟨timeout, openedAt, (flush_of_other own same taken).trans opened⟩
  have kept {g : φ} {waiter : Waiter} (before : s.waiter g ≠ .absent) :
      Paired (s.setWaiter g waiter) := by
    intro f waits
    refine h f fun absent => ?_
    by_cases same : f = g
    · subst same
      exact before absent
    · have other : (s.setWaiter g waiter).waiter f = s.waiter f :=
        Function.update_of_ne same ..
      exact waits (other.trans absent)
  cases moves with
  | plain plain taken =>
    intro f waits
    obtain ⟨timeout, openedAt, opened⟩ := h f waits
    rcases flush_of_plain plain taken f with same | ⟨idle, -⟩ | ⟨⟨_, drains⟩, -⟩
    · exact ⟨timeout, openedAt, same.trans opened⟩
    · cases opened.symm.trans idle
    · cases opened.symm.trans drains
  | lowered releases taken =>
    intro f waits
    obtain ⟨timeout, openedAt, opened⟩ := h f waits
    exact ⟨timeout, openedAt, (flush_of_release releases taken f).trans opened⟩
  | notified =>
    intro f waits
    refine h f fun absent => waits ?_
    change (s.waiter f).wake = .absent
    rw [absent]
    rfl
  | @created g timeout openedAt opened absent =>
    intro f waits
    by_cases same : f = g
    · subst same
      exact ⟨timeout, openedAt, opened⟩
    · refine h f fun none => waits ?_
      exact (Function.update_of_ne same (.created false) s.waiter).trans none
  | drained created taken => exact ended (.inl rfl) taken
  | parked created => exact kept (by rw [created]; nofun)
  | woken parks => exact kept (by rw [parks]; nofun)
  | ended which parks taken =>
    rcases which with ⟨-, rfl⟩ | ⟨-, rfl⟩
    · exact ended (.inr (.inl rfl)) taken
    · exact ended (.inr (.inr rfl)) taken

omit [DecidableEq ι] [DecidableEq ο] in
theorem rank_own {g : φ} (waiter : Waiter) (inner : Delivery.Sys ι φ) :
    rank ({ s with inner := inner }.setWaiter g waiter) g =
      rank ⟨inner, fun _ => waiter, s.owes⟩ g :=
  rank_same (Function.update_self ..) rfl

/-- A step lowers the rank of the flush that takes it, and raises that of none. -/
theorem rank_step (paired : Paired s) (drained : s.inner.tracker.isDrained = true)
    (moves : Moves s l t) (f : φ) : rank t f + (if l.waits f then 1 else 0) ≤ rank s f := by
  have elsewhere {g : φ} {waiter : Waiter} {inner : Delivery.Sys ι φ} (other : f ≠ g)
      (flush : inner.flush f = s.inner.flush f) (quiet : l = .create g ∨ l = .check g ∨
        l = .wake g ∨ l.waits f = false) :
      rank ({ s with inner := inner }.setWaiter g waiter) f + (if l.waits f then 1 else 0) ≤
        rank s f := by
    have silent : l.waits f = false := by
      rcases quiet with rfl | rfl | rfl | silent
      · exact beq_false_of_ne (Ne.symm other)
      · exact beq_false_of_ne (Ne.symm other)
      · exact beq_false_of_ne (Ne.symm other)
      · exact silent
    rw [silent]
    exact Nat.le_of_eq (rank_same (Function.update_of_ne other ..) flush)
  have absent (other : ∀ timeout openedAt, s.inner.flush f ≠ .waiting timeout openedAt) :
      s.waiter f = .absent := by
    by_contra waits
    obtain ⟨timeout, openedAt, opened⟩ := paired f waits
    exact other timeout openedAt opened
  cases moves with
  | plain plain taken =>
    rcases flush_of_plain plain taken f with same | ⟨idle, timeout, openedAt, now⟩ |
      ⟨⟨openedAt, drains⟩, result, now⟩
    · exact Nat.le_of_eq (rank_same rfl same)
    · have none := absent (by simp [idle])
      simp [rank, none, idle, now, Label.waits]
    · have none := absent (by simp [drains])
      simp [rank, none, drains, now, Label.waits]
  | lowered releases taken =>
    exact Nat.le_of_eq (rank_same rfl (flush_of_release releases taken f))
  | notified => cases phase : s.waiter f <;> simp [rank, phase, Waiter.wake, Label.waits]
  | @created g timeout openedAt opened none =>
    by_cases same : f = g
    · subst same
      rw [show s.setWaiter f _ = { s with inner := s.inner }.setWaiter f _ from rfl, rank_own]
      simp [rank, none, opened, Label.waits]
    · exact elsewhere same rfl (.inl rfl)
  | @drained g notified inner created taken =>
    by_cases same : f = g
    · subst same
      obtain ⟨timeout, openedAt, -, -, rfl⟩ := Delivery.Sys.step_drain.mp taken
      rw [rank_own]
      simp [rank, created, Label.waits]
    · exact elsewhere same (flush_of_other (.inl rfl) same taken) (.inr (.inl rfl))
  | parked created busy =>
    rw [drained] at busy
    cases busy
  | @woken g parks =>
    by_cases same : f = g
    · subst same
      obtain ⟨timeout, openedAt, opened⟩ := paired f (by simp [parks])
      rw [show s.setWaiter f _ = { s with inner := s.inner }.setWaiter f _ from rfl, rank_own]
      simp [rank, parks, opened, Label.waits]
    · exact elsewhere same rfl (.inr (.inr (.inl rfl)))
  | @ended g notified own dl inner which parks taken =>
    have silent : l.waits f = false := by rcases which with ⟨rfl, -⟩ | ⟨rfl, -⟩ <;> rfl
    have owns : dl = .drain g ∨ dl = .timeOut g ∨ dl = .cancel g := by
      rcases which with ⟨-, now⟩ | ⟨-, now⟩
      · exact .inr (.inl now)
      · exact .inr (.inr now)
    by_cases same : f = g
    · subst same
      rw [silent, rank_own]
      rcases which with ⟨-, rfl⟩ | ⟨-, rfl⟩
      · obtain ⟨timeout, openedAt, -, rfl⟩ := Delivery.Sys.step_timeOut.mp taken
        simp [rank]
      · obtain ⟨-, rfl⟩ := Delivery.Sys.step_cancel.mp taken
        simp [rank]
    · exact elsewhere same (flush_of_other owns same taken) (.inr (.inr (.inr silent)))

theorem waits_or_moves {timeout : Duration} {openedAt : UInt64} (kept : Kept s)
    (drained : s.inner.tracker.isDrained = true)
    (opened : s.inner.flush f = .waiting timeout openedAt) :
    (∃ l t, l.waits f = true ∧ s.step l = some t) ∨
    (s.waiter f = .parked false ∧ ∃ o t, s.step (.notifyWaiters o) = some t ∧
      t.waiter f = .parked true) := by
  cases phase : s.waiter f with
  | absent =>
    exact .inl ⟨.create f, s.setWaiter f (.created false), by simp [Label.waits],
      by simp [Sys.step, opened, phase]⟩
  | created notified =>
    have moved : s.inner.step (.drain f) = some { s.inner with
        flush := Function.update s.inner.flush f (.drained openedAt) } :=
      Delivery.Sys.step_drain.mpr ⟨timeout, openedAt, opened, drained, rfl⟩
    have checked : ∃ t, s.step (.check f) = some t := by simp [Sys.step, phase, drained, moved]
    obtain ⟨t, taken⟩ := checked
    exact .inl ⟨.check f, t, by simp [Label.waits], taken⟩
  | parked notified =>
    cases notified with
    | true =>
      exact .inl ⟨.wake f, s.setWaiter f .absent, by simp [Label.waits],
        by simp [Sys.step, phase]⟩
    | false =>
      refine .inr ⟨rfl, ?_⟩
      rcases kept f phase with positive | ⟨o, owes⟩
      · rw [s.inner.tracker.isDrained_iff.mp drained] at positive
        cases positive
      · refine ⟨o, { s with
          waiter := fun f => (s.waiter f).wake
          owes := Function.update s.owes o false }, by simp [Sys.step, owes], ?_⟩
        simp [phase, Waiter.wake]

variable {ls es : List (Label ι ο φ)}

/-- Once nothing is outstanding and no publish is counted, every flush has at most three steps
to take until it has drained, timed out or been cancelled. Until then it can take one, or a
notification that wakes it is on its way. -/
theorem drained_flush_ends (run : Run Sys.step (Obeys [room]) .new ls s)
    (drained : s.inner.tracker.isDrained = true)
    (later : Run Sys.step (Obeys [room, countless]) s es t) (f : φ) :
    (es.filter fun l => l.waits f).length ≤ 3 ∧
    ∀ timeout openedAt, t.inner.flush f = .waiting timeout openedAt →
      (∃ l u, l.waits f = true ∧ t.step l = some u) ∨
      (t.waiter f = .parked false ∧ ∃ o u, t.step (.notifyWaiters o) = some u ∧
        u.waiter f = .parked true) := by
  have before : Kept s ∧ Paired s := by
    refine run.invariant (P := fun s => Kept s ∧ Paired s) ⟨kept_initial, paired_initial⟩
      fun t l u _ h promise taken => ?_
    exact ⟨kept_step h.1 (promise _ (by simp)) taken, paired_step h.2 (moves_of_step taken)⟩
  have ranked := later.ranked (P := fun s => (Kept s ∧ Paired s) ∧
      s.inner.tracker.isDrained = true) (fun s => rank s f) (fun l => l.waits f)
    ⟨before, drained⟩ fun t l u h promise taken => by
      have moves := moves_of_step taken
      refine ⟨⟨⟨kept_step h.1.1 (promise _ (by simp)) taken, paired_step h.1.2 moves⟩, ?_⟩, ?_⟩
      · exact drained_step h.2 (promise _ (by simp)) moves
      · exact rank_step h.1.2 h.2 moves f
  obtain ⟨⟨⟨kept, -⟩, empty⟩, bound⟩ := ranked
  refine ⟨?_, fun timeout openedAt opened => waits_or_moves kept empty opened⟩
  have most : rank s f ≤ 3 := by
    unfold rank
    split <;> decide
  omega

end Steps

theorem drained_flush_ends_small : ∃ s t : Sys Nat Nat Nat,
    Run Sys.step (Obeys [room]) .new
      [.plain (.count 0), .plain (.openFlush 0 5), .create 0, .check 0, .lower 0 (.ack 0)] s ∧
    Run Sys.step (Obeys [room, countless]) s [.notifyWaiters 0, .wake 0] t ∧
    t.inner.flush 0 = .waiting 5 0 ∧
    ((∃ l u, l.waits 0 = true ∧ t.step l = some u) ∨
      (t.waiter 0 = .parked false ∧ ∃ o u, t.step (.notifyWaiters o) = some u ∧
        u.waiter 0 = .parked true)) := by
  obtain ⟨s, h, drained, t, g, opened⟩ : ∃ s : Sys Nat Nat Nat, exec Sys.step [room] .new
      [.plain (.count 0), .plain (.openFlush 0 5), .create 0, .check 0, .lower 0 (.ack 0)] =
        some s ∧ s.inner.tracker.isDrained = true ∧
      ∃ t : Sys Nat Nat Nat, exec Sys.step [room, countless] s [.notifyWaiters 0, .wake 0] =
        some t ∧ t.inner.flush 0 = .waiting 5 0 := ⟨_, rfl, rfl, _, rfl, rfl⟩
  have run := Run.of_exec h
  have later := Run.of_exec g
  exact ⟨s, t, run, later, opened, (drained_flush_ends run drained later 0).2 5 0 opened⟩

end Sparkplug.Delivery.Waiting
