import Mathlib.Logic.Function.Basic
import Sparkplug.Delivery.Tracker
import Sparkplug.Transition

/-! One tracker shared by any number of publish calls and flushes, with the events the
loop applies to it. A label is one lock of the tracker, so a sequence of labels is one
interleaving. The step function makes no promise about the broker: an answer may name any
publish, and what `rumqttc` guarantees is stated as a rule over the labels.

Besides the tracker the state keeps what the callers hold (tickets and flushes), and for
each publish which disconnects fell before its count and before its acceptance. The code
keeps no such record. -/
namespace Sparkplug.Delivery

variable {ι φ : Type} [DecidableEq ι] [DecidableEq φ]

structure Publish where
  /-- The ticket that the guard or the caller still holds. -/
  ticket : Option PublishTicket
  /-- How many disconnects the tracker had recorded when it counted this publish. -/
  counted : Nat
  /-- How many it had recorded when the client took the message. -/
  taken : Option Nat
  answered : Bool
  deriving DecidableEq, Repr

/-- Its count is of this epoch, no rollback has undone it and no answer has cleared it. -/
def Publish.outstanding (pub : Publish) (epoch : Nat) : Bool :=
  pub.counted == epoch && (pub.ticket.isSome || pub.taken.isSome) && !pub.answered

inductive Flush where
  | idle
  | waiting (timeout : Duration) (openedAt : UInt64)
  | drained (openedAt : UInt64)
  | returned (result : Except SparkplugError Unit)
  | cancelled

structure Sys (ι φ : Type) where
  tracker : State
  publish : ι → Option Publish
  flush : φ → Flush
  epoch : Nat

inductive Label (ι φ : Type) where
  /-- `record_publish`, or `publish_in_flight` around it. -/
  | count (p : ι)
  /-- `PublishInFlight::keep` once the client took the message. -/
  | keep (p : ι)
  /-- `record_publish_failed`, or the drop of the guard of a refused or cancelled call. -/
  | release (p : ι)
  /-- `record_publish_failed` with a ticket that another tracker issued. -/
  | releaseForeign (ticket : PublishTicket)
  /-- `record_ack` for the PubAck that answers `p`. -/
  | ack (p : ι)
  | disconnect
  | openFlush (f : φ) (timeout : Duration)
  /-- The wait of `f` sees nothing outstanding. -/
  | drain (f : φ)
  | close (f : φ)
  | timeOut (f : φ)
  /-- The caller drops the future of `f`. -/
  | cancel (f : φ)
  deriving DecidableEq

/-- The labels that only move a publish or a flush. -/
def Label.quiet : Label ι φ → Bool
  | .keep _ | .openFlush _ _ | .drain _ | .timeOut _ | .cancel _ => true
  | _ => false

namespace Sys

def new : Sys ι φ := ⟨.new, fun _ => none, fun _ => .idle, 0⟩

def step (s : Sys ι φ) : Label ι φ → Option (Sys ι φ)
  | .count p =>
    match s.publish p with
    | some _ => none
    | none =>
      let (ticket, tracker) := s.tracker.recordPublish
      some { s with
        tracker := tracker
        publish := Function.update s.publish p (some ⟨some ticket, s.epoch, none, false⟩) }
  | .keep p =>
    match s.publish p with
    | some ⟨some _, counted, _, answered⟩ =>
      some { s with
        publish := Function.update s.publish p (some ⟨none, counted, some s.epoch, answered⟩) }
    | _ => none
  | .release p =>
    match s.publish p with
    | some ⟨some ticket, counted, taken, answered⟩ =>
      some { s with
        tracker := s.tracker.recordPublishFailed ticket
        publish := Function.update s.publish p (some ⟨none, counted, taken, answered⟩) }
    | _ => none
  | .releaseForeign ticket => some { s with tracker := s.tracker.recordPublishFailed ticket }
  | .ack p =>
    some { s with
      tracker := s.tracker.recordAck
      publish := Function.update s.publish p
        ((s.publish p).map fun pub => { pub with answered := true }) }
  | .disconnect =>
    some { s with tracker := s.tracker.recordDisconnect, epoch := s.epoch + 1 }
  | .openFlush f timeout =>
    match s.flush f with
    | .idle => some { s with
        flush := Function.update s.flush f (.waiting timeout s.tracker.reported) }
    | _ => none
  | .drain f =>
    match s.flush f with
    | .waiting _ openedAt =>
      if s.tracker.isDrained then
        some { s with flush := Function.update s.flush f (.drained openedAt) }
      else none
    | _ => none
  | .close f =>
    match s.flush f with
    | .drained openedAt =>
      let (result, tracker) := s.tracker.closeFlush openedAt
      some { s with
        tracker := tracker
        flush := Function.update s.flush f (.returned result) }
    | _ => none
  | .timeOut f =>
    match s.flush f with
    | .waiting timeout _ => some { s with
        flush := Function.update s.flush f (.returned (s.tracker.timeOutFlush timeout)) }
    | _ => none
  | .cancel f =>
    match s.flush f with
    | .waiting _ _ | .drained _ =>
      some { s with flush := Function.update s.flush f .cancelled }
    | _ => none

/-- Counted since the last disconnect and not acknowledged, refused or cancelled since. -/
def live (s : Sys ι φ) (p : ι) : Bool := (s.publish p).any fun pub => pub.outstanding s.epoch

section Steps

variable {s t : Sys ι φ} {p : ι} {f : φ}

theorem step_count : s.step (.count p) = some t ↔ s.publish p = none ∧ t = { s with
    tracker := s.tracker.recordPublish.2
    publish := Function.update s.publish p
      (some ⟨some s.tracker.recordPublish.1, s.epoch, none, false⟩) } := by
  simp only [step]
  split <;> rename_i h <;> simp [h, eq_comm]

theorem step_keep : s.step (.keep p) = some t ↔ ∃ ticket counted taken answered,
    s.publish p = some ⟨some ticket, counted, taken, answered⟩ ∧ t = { s with
      publish := Function.update s.publish p
        (some ⟨none, counted, some s.epoch, answered⟩) } := by
  simp only [step]
  split
  · rename_i h
    constructor
    · intro out
      exact ⟨_, _, _, _, h, (Option.some.inj out).symm⟩
    · rintro ⟨_, _, _, _, held, rfl⟩
      cases h.symm.trans held
      rfl
  · rename_i h
    constructor
    · nofun
    · rintro ⟨ticket, counted, taken, answered, held, -⟩
      exact absurd held (h _ _ _ _)

theorem step_release : s.step (.release p) = some t ↔ ∃ ticket counted taken answered,
    s.publish p = some ⟨some ticket, counted, taken, answered⟩ ∧ t = { s with
      tracker := s.tracker.recordPublishFailed ticket
      publish := Function.update s.publish p (some ⟨none, counted, taken, answered⟩) } := by
  simp only [step]
  split
  · rename_i h
    constructor
    · intro out
      exact ⟨_, _, _, _, h, (Option.some.inj out).symm⟩
    · rintro ⟨_, _, _, _, held, rfl⟩
      cases h.symm.trans held
      rfl
  · rename_i h
    constructor
    · nofun
    · rintro ⟨ticket, counted, taken, answered, held, -⟩
      exact absurd held (h _ _ _ _)

theorem step_openFlush {timeout : Duration} : s.step (.openFlush f timeout) = some t ↔
    s.flush f = .idle ∧ t = { s with
      flush := Function.update s.flush f (.waiting timeout s.tracker.reported) } := by
  simp only [step]
  split
  · rename_i h
    simp [h, eq_comm]
  · rename_i h
    exact ⟨nofun, fun hidle => absurd hidle.1 h⟩

theorem step_drain : s.step (.drain f) = some t ↔ ∃ timeout openedAt,
    s.flush f = .waiting timeout openedAt ∧ s.tracker.isDrained = true ∧ t = { s with
      flush := Function.update s.flush f (.drained openedAt) } := by
  simp only [step]
  split
  · rename_i h
    constructor
    · intro out
      obtain ⟨drained, out⟩ := Option.ite_none_right_eq_some.mp out
      exact ⟨_, _, h, drained, (Option.some.inj out).symm⟩
    · rintro ⟨_, _, waits, drained, rfl⟩
      cases h.symm.trans waits
      exact if_pos drained
  · rename_i h
    constructor
    · nofun
    · rintro ⟨timeout, openedAt, waits, -⟩
      exact absurd waits (h _ _)

theorem step_close : s.step (.close f) = some t ↔ ∃ openedAt,
    s.flush f = .drained openedAt ∧ t = { s with
      tracker := (s.tracker.closeFlush openedAt).2
      flush := Function.update s.flush f
        (.returned (s.tracker.closeFlush openedAt).1) } := by
  simp only [step]
  split
  · rename_i h
    simp [h, eq_comm]
  · rename_i h
    constructor
    · nofun
    · rintro ⟨openedAt, drains, -⟩
      exact absurd drains (h _)

theorem step_timeOut : s.step (.timeOut f) = some t ↔ ∃ timeout openedAt,
    s.flush f = .waiting timeout openedAt ∧ t = { s with
      flush := Function.update s.flush f (.returned (s.tracker.timeOutFlush timeout)) } := by
  simp only [step]
  split
  · rename_i h
    simp [h, eq_comm]
  · rename_i h
    constructor
    · nofun
    · rintro ⟨timeout, openedAt, waits, -⟩
      exact absurd waits (h _ _)

theorem step_cancel : s.step (.cancel f) = some t ↔
    ((∃ timeout openedAt, s.flush f = .waiting timeout openedAt) ∨
      ∃ openedAt, s.flush f = .drained openedAt) ∧
    t = { s with flush := Function.update s.flush f .cancelled } := by
  simp only [step]
  split <;> rename_i h
  · simp [h, eq_comm]
  · simp [h, eq_comm]
  · rename_i h'
    constructor
    · nofun
    · rintro ⟨⟨timeout, openedAt, waits⟩ | ⟨openedAt, drains⟩, -⟩
      · exact (h' _ _ waits).elim
      · exact (h _ drains).elim

theorem step_publish {l : Label ι φ} (taken : s.step l = some t) (p : ι) :
    t.publish p = s.publish p ∨
    (l = .count p ∧ s.publish p = none ∧
      t.publish p = some ⟨some s.tracker.recordPublish.1, s.epoch, none, false⟩) ∨
    ∃ pub, s.publish p = some pub ∧
      (l = .keep p ∧ pub.ticket ≠ none ∧
        t.publish p = some { pub with ticket := none, taken := some s.epoch } ∨
      l = .release p ∧ pub.ticket ≠ none ∧ t.publish p = some { pub with ticket := none } ∨
      l = .ack p ∧ t.publish p = some { pub with answered := true }) := by
  have elsewhere (q : ι) (entry : Option Publish) (other : p ≠ q) :
      Function.update s.publish q entry p = s.publish p :=
    Function.update_of_ne other entry s.publish
  cases l with
  | count q =>
    obtain ⟨fresh, rfl⟩ := step_count.mp taken
    by_cases same : p = q
    · subst same
      exact .inr (.inl ⟨rfl, fresh, Function.update_self ..⟩)
    · exact .inl (elsewhere q _ same)
  | keep q =>
    obtain ⟨ticket, counted, before, answered, held, rfl⟩ := step_keep.mp taken
    by_cases same : p = q
    · subst same
      exact .inr (.inr ⟨_, held, .inl ⟨rfl, nofun, Function.update_self ..⟩⟩)
    · exact .inl (elsewhere q _ same)
  | release q =>
    obtain ⟨ticket, counted, before, answered, held, rfl⟩ := step_release.mp taken
    by_cases same : p = q
    · subst same
      exact .inr (.inr ⟨_, held, .inr (.inl ⟨rfl, nofun, Function.update_self ..⟩)⟩)
    · exact .inl (elsewhere q _ same)
  | ack q =>
    cases Option.some.inj taken
    by_cases same : p = q
    · subst same
      cases known : s.publish p with
      | none => exact .inl (by simp)
      | some pub => exact .inr (.inr ⟨pub, rfl, .inr (.inr ⟨rfl, by simp⟩)⟩)
    · exact .inl (elsewhere q _ same)
  | releaseForeign ticket => cases Option.some.inj taken; exact .inl rfl
  | disconnect => cases Option.some.inj taken; exact .inl rfl
  | openFlush f timeout => obtain ⟨-, rfl⟩ := step_openFlush.mp taken; exact .inl rfl
  | drain f => obtain ⟨_, _, -, -, rfl⟩ := step_drain.mp taken; exact .inl rfl
  | close f => obtain ⟨_, -, rfl⟩ := step_close.mp taken; exact .inl rfl
  | timeOut f => obtain ⟨_, _, -, rfl⟩ := step_timeOut.mp taken; exact .inl rfl
  | cancel f => obtain ⟨-, rfl⟩ := step_cancel.mp taken; exact .inl rfl

theorem step_flush {l : Label ι φ} (taken : s.step l = some t) (f : φ) :
    t.flush f = s.flush f ∨
    (∃ timeout, l = .openFlush f timeout ∧ s.flush f = .idle ∧
      t.flush f = .waiting timeout s.tracker.reported) ∨
    (∃ timeout openedAt, l = .drain f ∧ s.flush f = .waiting timeout openedAt ∧
      s.tracker.isDrained = true ∧ t.flush f = .drained openedAt) ∨
    (∃ openedAt, l = .close f ∧ s.flush f = .drained openedAt ∧
      t.flush f = .returned (s.tracker.closeFlush openedAt).1) ∨
    (∃ timeout openedAt, l = .timeOut f ∧ s.flush f = .waiting timeout openedAt ∧
      t.flush f = .returned (s.tracker.timeOutFlush timeout)) ∨
    (l = .cancel f ∧ s.flush f ≠ .idle ∧ t.flush f = .cancelled) := by
  have elsewhere (g : φ) (phase : Flush) (other : f ≠ g) :
      Function.update s.flush g phase f = s.flush f := Function.update_of_ne other phase s.flush
  cases l with
  | openFlush g timeout =>
    obtain ⟨idle, rfl⟩ := step_openFlush.mp taken
    by_cases same : f = g
    · subst same
      exact .inr (.inl ⟨timeout, rfl, idle, Function.update_self ..⟩)
    · exact .inl (elsewhere g _ same)
  | drain g =>
    obtain ⟨timeout, openedAt, waits, empty, rfl⟩ := step_drain.mp taken
    by_cases same : f = g
    · subst same
      exact .inr (.inr (.inl ⟨timeout, openedAt, rfl, waits, empty, Function.update_self ..⟩))
    · exact .inl (elsewhere g _ same)
  | close g =>
    obtain ⟨openedAt, drains, rfl⟩ := step_close.mp taken
    by_cases same : f = g
    · subst same
      exact .inr (.inr (.inr (.inl ⟨openedAt, rfl, drains, Function.update_self ..⟩)))
    · exact .inl (elsewhere g _ same)
  | timeOut g =>
    obtain ⟨timeout, openedAt, waits, rfl⟩ := step_timeOut.mp taken
    by_cases same : f = g
    · subst same
      exact .inr (.inr (.inr (.inr (.inl
        ⟨timeout, openedAt, rfl, waits, Function.update_self ..⟩))))
    · exact .inl (elsewhere g _ same)
  | cancel g =>
    obtain ⟨opened, rfl⟩ := step_cancel.mp taken
    by_cases same : f = g
    · subst same
      have busy : s.flush f ≠ .idle := by
        rcases opened with ⟨_, _, waits⟩ | ⟨_, drains⟩
        · simp [waits]
        · simp [drains]
      exact .inr (.inr (.inr (.inr (.inr ⟨rfl, busy, Function.update_self ..⟩))))
    · exact .inl (elsewhere g _ same)
  | count p => obtain ⟨-, rfl⟩ := step_count.mp taken; exact .inl rfl
  | keep p => obtain ⟨_, _, _, _, -, rfl⟩ := step_keep.mp taken; exact .inl rfl
  | release p => obtain ⟨_, _, _, _, -, rfl⟩ := step_release.mp taken; exact .inl rfl
  | releaseForeign ticket => cases Option.some.inj taken; exact .inl rfl
  | ack p => cases Option.some.inj taken; exact .inl rfl
  | disconnect => cases Option.some.inj taken; exact .inl rfl

theorem step_busy {l : Label ι φ} (busy : s.flush f ≠ .idle) (taken : s.step l = some t) :
    t.flush f ≠ .idle := by
  rcases step_flush taken f with now | ⟨_, -, -, now⟩ | ⟨_, _, -, -, -, now⟩ |
    ⟨_, -, -, now⟩ | ⟨_, _, -, -, now⟩ | ⟨-, -, now⟩
  all_goals rw [now]
  · exact busy
  all_goals nofun

theorem step_quiet {l : Label ι φ} (taken : s.step l = some t) (quiet : l.quiet = true) :
    t.tracker = s.tracker := by
  cases l with
  | keep p => obtain ⟨_, _, _, _, -, rfl⟩ := step_keep.mp taken; rfl
  | openFlush f timeout => obtain ⟨-, rfl⟩ := step_openFlush.mp taken; rfl
  | drain f => obtain ⟨_, _, -, -, rfl⟩ := step_drain.mp taken; rfl
  | timeOut f => obtain ⟨_, _, -, rfl⟩ := step_timeOut.mp taken; rfl
  | cancel f => obtain ⟨-, rfl⟩ := step_cancel.mp taken; rfl
  | _ => cases quiet

theorem step_losses {l : Label ι φ} (taken : s.step l = some t) :
    (t.tracker.lost = s.tracker.lost ∧ t.tracker.reported = s.tracker.reported) ∨
    (l = .disconnect ∧ t.tracker = s.tracker.recordDisconnect) ∨
    ∃ f openedAt, l = .close f ∧ s.flush f = .drained openedAt ∧
      t.tracker = (s.tracker.closeFlush openedAt).2 := by
  cases l with
  | count p => obtain ⟨-, rfl⟩ := step_count.mp taken; simp
  | release p => obtain ⟨_, _, _, _, -, rfl⟩ := step_release.mp taken; simp
  | releaseForeign ticket => cases Option.some.inj taken; simp
  | ack p => cases Option.some.inj taken; simp
  | disconnect => cases Option.some.inj taken; exact .inr (.inl ⟨rfl, rfl⟩)
  | close f =>
    obtain ⟨openedAt, drains, rfl⟩ := step_close.mp taken
    exact .inr (.inr ⟨f, openedAt, rfl, drains, rfl⟩)
  | _ => rw [step_quiet taken rfl]; simp

theorem step_epoch {l : Label ι φ} (taken : s.step l = some t) :
    t.epoch = s.epoch + [l].count .disconnect := by
  cases l with
  | count p => obtain ⟨-, rfl⟩ := step_count.mp taken; rfl
  | keep p => obtain ⟨_, _, _, _, -, rfl⟩ := step_keep.mp taken; rfl
  | release p => obtain ⟨_, _, _, _, -, rfl⟩ := step_release.mp taken; rfl
  | releaseForeign ticket => cases Option.some.inj taken; rfl
  | ack p => cases Option.some.inj taken; rfl
  | disconnect => cases Option.some.inj taken; rfl
  | openFlush f timeout => obtain ⟨-, rfl⟩ := step_openFlush.mp taken; rfl
  | drain f => obtain ⟨_, _, -, -, rfl⟩ := step_drain.mp taken; rfl
  | close f => obtain ⟨_, -, rfl⟩ := step_close.mp taken; rfl
  | timeOut f => obtain ⟨_, _, -, rfl⟩ := step_timeOut.mp taken; rfl
  | cancel f => obtain ⟨-, rfl⟩ := step_cancel.mp taken; rfl

end Steps

end Sys

end Sparkplug.Delivery
