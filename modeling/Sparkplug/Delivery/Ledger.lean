import Mathlib.Algebra.BigOperators.Group.Finset.Basic
import Sparkplug.Delivery.Reference

/-! The publishes of a run counted without a limit. The ledger beside the tracker counts what
is outstanding, gives each disconnect a number, and keeps what was outstanding at it and which
disconnects a drained flush had reported when each flush opened. It reads no word of the
tracker: a ticket is stale where a disconnect fell behind its count. -/
namespace Sparkplug.Delivery

open Transition

variable {ι φ : Type}

/-- The reading of `reported` that an open flush holds. -/
def Flush.openedAt : Flush → Option UInt64
  | .waiting _ openedAt => some openedAt
  | .drained openedAt => some openedAt
  | _ => none

def State.losses (s : State) : Nat := s.reported.toNat + s.lost.toNat

def Label.isCount : Label ι φ → Bool
  | .count _ => true
  | _ => false

/-- The disconnects of a run against its flushes. -/
structure LossBook (φ : Type) where
  outstandingAt : Nat → Nat
  disconnects : Nat
  /-- The disconnects that some drained flush has reported. -/
  reported : Finset Nat
  /-- The disconnects that were reported when this flush opened. -/
  seen : φ → Finset Nat

namespace LossBook

def empty : LossBook φ := ⟨fun _ => 0, 0, ∅, fun _ => ∅⟩

/-- The disconnects so far that were not reported when this flush opened. -/
def window (b : LossBook φ) (f : φ) : Finset Nat := Finset.range b.disconnects \ b.seen f

def loss (b : LossBook φ) (f : φ) : Nat := ∑ d ∈ b.window f, b.outstandingAt d

def note [DecidableEq φ] (outstanding : Nat) (l : Label ι φ) (b : LossBook φ) : LossBook φ :=
  match l with
  | .disconnect => { b with
      outstandingAt := Function.update b.outstandingAt b.disconnects outstanding
      disconnects := b.disconnects + 1 }
  | .openFlush f _ => { b with seen := Function.update b.seen f b.reported }
  | .close _ => { b with reported := Finset.range b.disconnects }
  | _ => b

end LossBook

structure Ledger (φ : Type) where
  book : LossBook φ
  outstanding : Nat

namespace Ledger

def empty : Ledger φ := ⟨.empty, 0⟩

/-- The publishes that are outstanding behind a label. A rollback is of no effect where a
disconnect came between. -/
def after (s : Sys ι φ) (l : Label ι φ) (outstanding : Nat) : Nat :=
  match l with
  | .count _ => outstanding + 1
  | .ack _ => outstanding - 1
  | .release p =>
    if (s.publish p).any fun pub => pub.counted == s.epoch then outstanding - 1 else outstanding
  | .releaseForeign ticket =>
    if ticket.generation.toNat = s.epoch then outstanding - 1 else outstanding
  | .disconnect => 0
  | _ => outstanding

def note [DecidableEq φ] (s : Sys ι φ) (l : Label ι φ) (b : Ledger φ) : Ledger φ :=
  ⟨b.book.note b.outstanding l, after s l b.outstanding⟩

end Ledger

def ledgered [DecidableEq ι] [DecidableEq φ] :
    Sys ι φ × Ledger φ → Label ι φ → Option (Sys ι φ × Ledger φ) :=
  observe Sys.step Ledger.note

theorem opened_of_drained {s : Sys ι φ} {f : φ} {openedAt : UInt64}
    (drains : s.flush f = .drained openedAt) : (s.flush f).openedAt = some openedAt := by
  rw [drains]
  rfl

theorem room_of_few {s : Sys ι φ} {l : Label ι φ}
    (few : s.tracker.unacked.toNat + s.tracker.losses < 2 ^ 32) :
    roomToReport s l = true := by
  unfold State.losses at few
  cases l with
  | disconnect => exact decide_eq_true (by omega)
  | close f => exact decide_eq_true (by omega)
  | _ => rfl

section Losses

variable [DecidableEq ι] [DecidableEq φ] {s t : Sys ι φ}

theorem losses_step {l : Label ι φ} (room : roomToReport s l = true)
    (taken : s.step l = some t) : t.tracker.losses =
      s.tracker.losses + if l = .disconnect then s.tracker.unacked.toNat else 0 := by
  unfold State.losses
  rcases Sys.step_losses taken with ⟨lost, reported⟩ | ⟨rfl, now⟩ | ⟨f, openedAt, rfl, -, now⟩
  · -- Nothing else moves a loss, and a disconnect always does.
    have other : l ≠ .disconnect ∨ s.tracker.unacked.toNat = 0 := by
      by_cases same : l = .disconnect
      · subst same
        cases Option.some.inj taken
        have moved := s.tracker.toNat_recordDisconnect_lost (of_decide_eq_true room)
        have := congrArg UInt32.toNat lost
        simp only [] at this
        omega
      · exact .inl same
    rw [lost, reported]
    rcases other with other | other
    · simp [other]
    · simp [other]
  · have moved := s.tracker.toNat_recordDisconnect_lost (of_decide_eq_true room)
    rw [now, moved, State.recordDisconnect_reported, if_pos rfl]
    omega
  · have moved := s.tracker.toNat_closeFlush_reported openedAt (of_decide_eq_true room)
    rw [now, moved, State.closeFlush_lost, if_neg nofun]
    simp

theorem openedAt_step {l : Label ι φ} {f : φ} {openedAt : UInt64}
    (taken : s.step l = some t) (opened : (t.flush f).openedAt = some openedAt) :
    (s.flush f).openedAt = some openedAt ∨
    (s.flush f = .idle ∧ (∃ timeout, l = .openFlush f timeout) ∧
      openedAt = s.tracker.reported) := by
  rcases Sys.step_flush taken f with now | ⟨timeout, rfl, idle, now⟩ |
    ⟨_, _, -, before, -, now⟩ | ⟨_, -, -, now⟩ | ⟨_, _, -, -, now⟩ | ⟨-, -, now⟩
  all_goals rw [now] at opened
  · exact .inl opened
  all_goals cases opened
  · exact .inr ⟨idle, ⟨timeout, rfl⟩, rfl⟩
  · exact .inl (by rw [before]; rfl)

theorem close_answer {f : φ} {openedAt : UInt64} {window : Nat}
    (taken : s.step (.close f) = some t) (opened : (s.flush f).openedAt = some openedAt)
    (room : roomToReport s (.close f) = true)
    (total : s.tracker.losses = openedAt.toNat + window) :
    (window = 0 → t.flush f = .returned (.ok ())) ∧
    (window ≠ 0 → ∃ count : UInt32,
      t.flush f = .returned (.error (.publishLost count)) ∧
      count.toNat = min window 4294967295) := by
  obtain ⟨reading, drains, rfl⟩ := Sys.step_close.mp taken
  rw [drains] at opened
  cases opened
  obtain ⟨ok, lost⟩ := s.tracker.closeFlush_result openedAt (of_decide_eq_true room) total
  refine ⟨fun none => by simp [ok none], fun some => ?_⟩
  obtain ⟨count, result, size⟩ := lost some
  exact ⟨count, by simp [result], size⟩

theorem unacked_step {l : Label ι φ}
    (room : s.tracker.unacked.toNat + [l].countP Label.isCount < 2 ^ 32)
    (taken : s.step l = some t) : t.tracker.unacked.toNat ≤
      if l = .disconnect then 0 else s.tracker.unacked.toNat + [l].countP Label.isCount := by
  cases l with
  | count p =>
    obtain ⟨-, rfl⟩ := Sys.step_count.mp taken
    exact (s.tracker.toNat_recordPublish room).le
  | release p =>
    obtain ⟨ticket, _, _, _, -, rfl⟩ := Sys.step_release.mp taken
    exact s.tracker.toNat_recordPublishFailed_le ticket
  | releaseForeign ticket =>
    cases Option.some.inj taken
    exact s.tracker.toNat_recordPublishFailed_le ticket
  | ack p => cases Option.some.inj taken; simp [Label.isCount]
  | disconnect => cases Option.some.inj taken; simp
  | close f => obtain ⟨_, -, rfl⟩ := Sys.step_close.mp taken; simp
  | _ => rw [Sys.step_quiet taken rfl]; simp

end Losses

section Book

variable {s t : Sys ι φ} {b : LossBook φ}

/-- Only what happened is reported, and a flush saw only what was reported. -/
structure Ordered (b : LossBook φ) : Prop where
  happened : b.reported ⊆ Finset.range b.disconnects
  seen : ∀ f, b.seen f ⊆ b.reported

/-- The words of the losses are the sums of the book. -/
structure Tallied (s : Sys ι φ) (b : LossBook φ) : Prop extends Ordered b where
  losses : s.tracker.losses = ∑ d ∈ Finset.range b.disconnects, b.outstandingAt d
  reported : s.tracker.reported.toNat = ∑ d ∈ b.reported, b.outstandingAt d
  openedAt : ∀ f openedAt, (s.flush f).openedAt = some openedAt →
    openedAt.toNat = ∑ d ∈ b.seen f, b.outstandingAt d

theorem tallied_initial : Tallied (.new : Sys ι φ) .empty :=
  ⟨⟨by simp [LossBook.empty], by simp [LossBook.empty]⟩, by simp [LossBook.empty, Sys.new,
    State.new, State.losses], by simp [LossBook.empty, Sys.new, State.new],
    fun f openedAt opened => by cases opened⟩

theorem Tallied.loss_le (h : Tallied s b) (f : φ) : b.loss f ≤ s.tracker.losses := by
  have inside : b.seen f ⊆ Finset.range b.disconnects := (h.seen f).trans h.happened
  rw [h.losses, LossBook.loss, LossBook.window, ← Finset.sum_sdiff inside]
  exact Nat.le_add_right _ _

theorem Tallied.total (h : Tallied s b) {f : φ} {openedAt : UInt64}
    (opened : (s.flush f).openedAt = some openedAt) :
    s.tracker.losses = openedAt.toNat + b.loss f := by
  have inside : b.seen f ⊆ Finset.range b.disconnects := (h.seen f).trans h.happened
  rw [h.losses, h.openedAt f openedAt opened, LossBook.loss, LossBook.window, add_comm]
  exact (Finset.sum_sdiff inside).symm

variable [DecidableEq φ]

theorem ordered_note (h : Ordered b) (outstanding : Nat) (l : Label ι φ) :
    Ordered (b.note outstanding l) := by
  have grows : Finset.range b.disconnects ⊆ Finset.range (b.disconnects + 1) :=
    Finset.range_mono (Nat.le_succ _)
  cases l with
  | disconnect => exact ⟨h.happened.trans grows, h.seen⟩
  | openFlush f timeout =>
    refine ⟨h.happened, fun g => ?_⟩
    by_cases same : g = f
    · simp [LossBook.note, same]
    · simpa [LossBook.note, same] using h.seen g
  | close f => exact ⟨Finset.Subset.refl _, fun g => (h.seen g).trans h.happened⟩
  | count p => exact h
  | keep p => exact h
  | release p => exact h
  | releaseForeign ticket => exact h
  | ack p => exact h
  | drain f => exact h
  | timeOut f => exact h
  | cancel f => exact h

omit [DecidableEq φ] in
theorem sum_earlier {earlier : Finset Nat} (inside : earlier ⊆ Finset.range b.disconnects)
    (outstanding : Nat) :
    ∑ d ∈ earlier, Function.update b.outstandingAt b.disconnects outstanding d =
      ∑ d ∈ earlier, b.outstandingAt d := by
  refine Finset.sum_congr rfl fun d hd => ?_
  have before : d < b.disconnects := Finset.mem_range.mp (inside hd)
  exact Function.update_of_ne before.ne outstanding b.outstandingAt

variable [DecidableEq ι]

theorem tallied_quiet (h : Tallied s b) {l : Label ι φ} (taken : s.step l = some t)
    (loses : l ≠ .disconnect) (reports : ∀ f, l ≠ .close f)
    (opens : ∀ f timeout, l ≠ .openFlush f timeout) : Tallied t b := by
  obtain ⟨lost, reported⟩ : t.tracker.lost = s.tracker.lost ∧
      t.tracker.reported = s.tracker.reported := by
    rcases Sys.step_losses taken with same | ⟨rfl, -⟩ | ⟨f, _, rfl, -⟩
    · exact same
    · exact absurd rfl loses
    · exact absurd rfl (reports f)
  have losses : t.tracker.losses = s.tracker.losses := by
    unfold State.losses
    rw [lost, reported]
  refine ⟨h.toOrdered, losses.trans h.losses, by rw [reported, h.reported],
    fun f openedAt opened => ?_⟩
  rcases openedAt_step taken opened with before | ⟨-, ⟨timeout, now⟩, -⟩
  · exact h.openedAt f openedAt before
  · exact absurd now (opens f timeout)

theorem tallied_step (h : Tallied s b) {outstanding : Nat}
    (same : s.tracker.unacked.toNat = outstanding) {l : Label ι φ}
    (room : roomToReport s l = true) (taken : s.step l = some t) :
    Tallied t (b.note outstanding l) := by
  have ordered := ordered_note h.toOrdered outstanding l
  have losses := losses_step room taken
  rw [h.losses, same] at losses
  cases l with
  | disconnect =>
    refine ⟨ordered, ?_, ?_, fun f openedAt opened => ?_⟩
    · simp only [LossBook.note, Finset.sum_range_succ, Function.update_self]
      rw [sum_earlier (Finset.Subset.refl _), losses, if_pos rfl]
    · cases Option.some.inj taken
      simp only [LossBook.note, sum_earlier h.happened]
      exact h.reported
    · have before := (openedAt_step taken opened).resolve_right (by simp)
      simp only [LossBook.note, sum_earlier ((h.seen f).trans h.happened)]
      exact h.openedAt f openedAt before
  | openFlush f timeout =>
    obtain ⟨idle, rfl⟩ := Sys.step_openFlush.mp taken
    refine ⟨ordered, h.losses, h.reported, fun g openedAt opened => ?_⟩
    by_cases same : g = f
    · subst same
      cases (by simpa [Flush.openedAt] using opened : s.tracker.reported = openedAt)
      simpa [LossBook.note] using h.reported
    · have before : (s.flush g).openedAt = some openedAt := by simpa [same] using opened
      simpa [LossBook.note, same] using h.openedAt g openedAt before
  | close f =>
    obtain ⟨reading, -, rfl⟩ := Sys.step_close.mp taken
    refine ⟨ordered, losses, ?_, fun g openedAt opened => ?_⟩
    · have moved := s.tracker.toNat_closeFlush_reported reading (of_decide_eq_true room)
      exact moved.trans h.losses
    · exact h.openedAt g openedAt ((openedAt_step taken opened).resolve_right (by simp))
  | count p => exact tallied_quiet h taken nofun nofun nofun
  | keep p => exact tallied_quiet h taken nofun nofun nofun
  | release p => exact tallied_quiet h taken nofun nofun nofun
  | releaseForeign ticket => exact tallied_quiet h taken nofun nofun nofun
  | ack p => exact tallied_quiet h taken nofun nofun nofun
  | drain f => exact tallied_quiet h taken nofun nofun nofun
  | timeOut f => exact tallied_quiet h taken nofun nofun nofun
  | cancel f => exact tallied_quiet h taken nofun nofun nofun

theorem tallied_close (tallied : Tallied s b) {f : φ} (room : roomToReport s (.close f) = true)
    (taken : s.step (.close f) = some t) :
    (b.loss f = 0 → t.flush f = .returned (.ok ())) ∧
    (b.loss f ≠ 0 → ∃ count : UInt32,
      t.flush f = .returned (.error (.publishLost count)) ∧
      count.toNat = min (b.loss f) 4294967295) := by
  obtain ⟨openedAt, drains, -⟩ := Sys.step_close.mp taken
  have opened := opened_of_drained drains
  exact close_answer taken opened room (tallied.total opened)

end Book

section Measure

/-- The words of the tracker hold what the ledger holds, and each ticket its epoch. -/
structure Measured (s : Sys ι φ) (b : Ledger φ) : Prop extends Tallied s b.book where
  outstanding : s.tracker.unacked.toNat = b.outstanding
  generation : s.tracker.generation.toNat = s.epoch
  stamp : ∀ p pub ticket, s.publish p = some pub → pub.ticket = some ticket →
    ticket.generation.toNat = pub.counted

theorem measured_initial : Measured (.new : Sys ι φ) .empty :=
  ⟨tallied_initial, rfl, rfl, nofun⟩

variable [DecidableEq ι] [DecidableEq φ] {s t : Sys ι φ} {b : Ledger φ} {l : Label ι φ}

theorem ledgered_of_step (taken : s.step l = some t) :
    ledgered (s, b) l = some (t, b.note s l) :=
  observe_iff.mpr ⟨taken, rfl⟩

omit [DecidableEq ι] [DecidableEq φ] in
theorem rolled_back {n : Nat} (ticket : PublishTicket) (unacked : s.tracker.unacked.toNat = n)
    (generation : s.tracker.generation.toNat = s.epoch) :
    (s.tracker.recordPublishFailed ticket).unacked.toNat =
      if ticket.generation.toNat = s.epoch then n - 1 else n := by
  split <;> rename_i h
  · rw [State.recordPublishFailed_live _ (UInt64.toNat_inj.mp (by omega)),
      State.toNat_recordAck, unacked]
  · rw [State.recordPublishFailed_stale _ fun same => h (by rw [same, generation]), unacked]

theorem after_step (h : Measured s b) (counts : roomToCount s l = true)
    (taken : s.step l = some t) :
    t.tracker.unacked.toNat = Ledger.after s l b.outstanding := by
  have before := h.outstanding
  cases l with
  | count p =>
    obtain ⟨-, rfl⟩ := Sys.step_count.mp taken
    have raised := s.tracker.toNat_recordPublish (of_decide_eq_true counts)
    rw [before] at raised
    exact raised
  | release p =>
    obtain ⟨ticket, counted, _, _, held, rfl⟩ := Sys.step_release.mp taken
    have stamp : ticket.generation.toNat = counted := h.stamp p _ ticket held rfl
    have rolled := rolled_back ticket before h.generation
    rw [stamp] at rolled
    simpa [Ledger.after, held] using rolled
  | releaseForeign ticket =>
    cases Option.some.inj taken
    exact rolled_back ticket before h.generation
  | ack p =>
    cases Option.some.inj taken
    have lowered := s.tracker.toNat_recordAck
    rw [before] at lowered
    exact lowered
  | disconnect => cases Option.some.inj taken; rfl
  | close f => obtain ⟨_, -, rfl⟩ := Sys.step_close.mp taken; exact before
  | _ => rw [Sys.step_quiet taken rfl]; exact before

theorem measured_step (h : Measured s b) (counts : roomToCount s l = true)
    (reports : roomToReport s l = true) (taken : s.step l = some t) :
    Measured t (b.note s l) :=
  ⟨tallied_step h.toTallied h.outstanding reports taken, after_step h counts taken,
    generation_step h.generation counts taken, stamp_step h.stamp h.generation taken⟩

end Measure

end Sparkplug.Delivery
