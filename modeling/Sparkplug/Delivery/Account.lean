import Sparkplug.Delivery.Confirmation

/-! What the tracker owes for a message that the client took: its PubAck, a flush that tells
of a loss behind it, or the loss itself. `told` stands beside the state and is read by no
step: how many disconnects there were when a flush last reported a loss. -/
namespace Sparkplug.Delivery

open Transition

variable {ι φ : Type}

def tell (s : Sys ι φ) (l : Label ι φ) (told : Nat) : Nat :=
  match l with
  | .close f =>
    match s.flush f with
    | .drained openedAt =>
      match (s.tracker.closeFlush openedAt).1 with
      | .error _ => s.epoch
      | .ok _ => told
    | _ => told
  | _ => told

def Accepted (s : Sys ι φ) (p : ι) : Prop :=
  ∃ pub epoch, s.publish p = some pub ∧ pub.taken = some epoch

def Answered (s : Sys ι φ) (p : ι) : Prop :=
  ∃ pub, s.publish p = some pub ∧ pub.answered = true

/-- A disconnect fell behind the acceptance, and a flush has reported losses since. -/
def Told (s : Sys ι φ) (told : Nat) (p : ι) : Prop :=
  ∃ pub epoch, s.publish p = some pub ∧ pub.taken = some epoch ∧ epoch < told

structure Accounted (s : Sys ι φ) (told : Nat) : Prop where
  bound : told ≤ s.epoch
  past : ∀ p pub epoch, s.publish p = some pub → pub.taken = some epoch → epoch ≤ s.epoch
  lost : ∀ p pub epoch, s.publish p = some pub → pub.taken = some epoch →
    pub.answered = false → epoch < s.epoch → 0 < s.tracker.lost.toNat ∨ epoch < told

/-- What is left to an open flush of a message taken before it. -/
def Covered (s : Sys ι φ) (told : Nat) (f : φ) (p : ι) : Prop :=
  Answered s p ∨ Told s told p ∨ (s.flush f ≠ .returned (.ok ()) ∧ Owed s p f)

theorem accounted_initial : Accounted (.new : Sys ι φ) 0 := by
  refine ⟨Nat.le_refl 0, ?_, ?_⟩
  · intro p pub epoch held
    cases held
  · intro p pub epoch held
    cases held

section Reports

variable {s : Sys ι φ} {l : Label ι φ} {p : ι} {f : φ} {told : Nat}

theorem awaits_of_taken {pub : Publish} {epoch : Nat} (timely : Timely s)
    (held : s.publish p = some pub) (took : pub.taken = some epoch)
    (silent : pub.answered = false) (now : epoch = s.epoch) : Awaits s p := by
  obtain ⟨ticket, counted⟩ := timely p pub held
  have kept : pub.ticket = none := by
    by_contra ticketed
    cases took.symm.trans (ticket ticketed).1
  subst now
  rw [Awaits, held]
  cases pub
  cases took
  cases silent
  cases kept
  cases counted _ rfl
  rfl

theorem tell_le (h : told ≤ s.epoch) : told ≤ tell s l told ∧ tell s l told ≤ s.epoch := by
  unfold tell
  split
  · split
    · split
      · exact ⟨h, Nat.le_refl _⟩
      · exact ⟨Nat.le_refl _, h⟩
    · exact ⟨Nat.le_refl _, h⟩
  · exact ⟨Nat.le_refl _, h⟩

theorem result_of_window {openedAt : UInt64} (room : roomToReport s (.close f) = true)
    (window : openedAt.toNat < s.tracker.losses) :
    ∃ count, (s.tracker.closeFlush openedAt).1 = .error (.publishLost count) := by
  have total : s.tracker.losses = openedAt.toNat + (s.tracker.losses - openedAt.toNat) := by
    omega
  obtain ⟨count, result, -⟩ :=
    (s.tracker.closeFlush_result openedAt (of_decide_eq_true room) total).2 (by omega)
  exact ⟨count, result⟩

theorem told_grows {next : Nat} (grows : told ≤ next) (h : Told s told p) : Told s next p := by
  obtain ⟨pub, epoch, held, took, before⟩ := h
  exact ⟨pub, epoch, held, took, Nat.lt_of_lt_of_le before grows⟩

end Reports

section Steps

variable [DecidableEq ι] [DecidableEq φ] {s t : Sys ι φ} {l : Label ι φ} {p : ι} {f : φ}
  {told : Nat} {pub : Publish} {epoch : Nat}

theorem taken_after (timely : Timely s) (held : s.publish p = some pub)
    (took : pub.taken = some epoch) (taken : s.step l = some t) :
    ∃ after, t.publish p = some after ∧ after.taken = some epoch ∧
      (pub.answered = true → after.answered = true) := by
  have kept : pub.ticket = none := by
    by_contra ticketed
    cases took.symm.trans ((timely p pub held).1 ticketed).1
  rcases Sys.step_publish taken p with same | ⟨-, fresh, -⟩ | ⟨before, known, moved⟩
  · exact ⟨pub, same.trans held, took, id⟩
  · cases held.symm.trans fresh
  · cases held.symm.trans known
    rcases moved with ⟨-, ticketed, -⟩ | ⟨-, ticketed, -⟩ | ⟨-, now⟩
    · exact absurd kept ticketed
    · exact absurd kept ticketed
    · exact ⟨_, now, took, fun _ => rfl⟩

theorem taken_before (held : t.publish p = some pub) (took : pub.taken = some epoch)
    (taken : s.step l = some t) :
    (∃ before, s.publish p = some before ∧ before.taken = some epoch ∧
      (before.answered = true → pub.answered = true)) ∨ (l = .keep p ∧ epoch = s.epoch) := by
  rcases Sys.step_publish taken p with same | ⟨-, -, now⟩ | ⟨before, known, moved⟩
  · exact .inl ⟨pub, same.symm.trans held, took, id⟩
  · cases held.symm.trans now
    cases took
  · rcases moved with ⟨rfl, -, now⟩ | ⟨-, -, now⟩ | ⟨-, now⟩
    · cases held.symm.trans now
      exact .inr ⟨rfl, (Option.some.inj took).symm⟩
    · cases held.symm.trans now
      exact .inl ⟨before, known, took, id⟩
    · cases held.symm.trans now
      exact .inl ⟨before, known, took, fun _ => rfl⟩

theorem accepted_step (timely : Timely s) (h : Accepted s p) (taken : s.step l = some t) :
    Accepted t p := by
  obtain ⟨pub, epoch, held, took⟩ := h
  obtain ⟨after, now, took, -⟩ := taken_after timely held took taken
  exact ⟨after, epoch, now, took⟩

theorem told_step (timely : Timely s) (h : Told s told p) (taken : s.step l = some t) :
    Told t told p := by
  obtain ⟨pub, epoch, held, took, before⟩ := h
  obtain ⟨after, now, took, -⟩ := taken_after timely held took taken
  exact ⟨after, epoch, now, took, before⟩

theorem answer_kept (h : Answered s p) (taken : s.step l = some t) : Answered t p := by
  obtain ⟨pub, held, answer⟩ := h
  rcases Sys.step_publish taken p with same | ⟨-, fresh, -⟩ | ⟨before, known, moved⟩
  · exact ⟨pub, same.trans held, answer⟩
  · cases held.symm.trans fresh
  · cases held.symm.trans known
    rcases moved with ⟨-, -, now⟩ | ⟨-, -, now⟩ | ⟨-, now⟩
    · exact ⟨_, now, answer⟩
    · exact ⟨_, now, answer⟩
    · exact ⟨_, now, rfl⟩

theorem answered_of_ack (h : Accepted s p) (taken : s.step (.ack p) = some t) :
    Answered t p := by
  obtain ⟨pub, _, held, -⟩ := h
  cases Option.some.inj taken
  exact ⟨{ pub with answered := true }, by simp [held], rfl⟩

theorem answered_before (h : Answered t p) (taken : s.step l = some t) :
    Answered s p ∨ l = .ack p := by
  obtain ⟨pub, held, answer⟩ := h
  rcases Sys.step_publish taken p with same | ⟨-, -, now⟩ | ⟨before, known, moved⟩
  · exact .inl ⟨pub, same.symm.trans held, answer⟩
  · cases held.symm.trans now
    cases answer
  · rcases moved with ⟨-, -, now⟩ | ⟨-, -, now⟩ | ⟨rfl, -⟩
    · cases held.symm.trans now
      exact .inl ⟨before, known, answer⟩
    · cases held.symm.trans now
      exact .inl ⟨before, known, answer⟩
    · exact .inr rfl

theorem accounted_step (sound : Sound s) (h : Accounted s told)
    (promise : Obeys (prompt ++ roomy) s l) (taken : s.step l = some t) :
    Accounted t (tell s l told) := by
  have moved := Sys.step_epoch taken
  obtain ⟨grows, bound⟩ := tell_le (l := l) h.bound
  have room : roomToReport s l = true := promised_room promise
  refine ⟨by omega, ?_, ?_⟩
  · intro p pub epoch held took
    rcases taken_before held took taken with ⟨before, known, took, -⟩ | ⟨-, rfl⟩
    · have earlier := h.past p before epoch known took
      omega
    · omega
  · intro p pub epoch held took silent behind
    rcases taken_before held took taken with ⟨before, known, took, answer⟩ | ⟨rfl, rfl⟩
    · have quiet : before.answered = false := by
        cases found : before.answered with
        | false => rfl
        | true => exact (answer found).symm.trans silent
      by_cases now : epoch = s.epoch
      · -- The step is the disconnect that discards the message.
        have loses : l = .disconnect := by
          by_contra other
          have still : t.epoch = s.epoch := by
            rw [moved, List.count_eq_zero.mpr (by simpa using Ne.symm other)]
            rfl
          omega
        subst loses
        have awaits := awaits_of_taken sound.timely known took quiet now
        exact .inl (lost_pos_of_awaits sound awaits room taken)
      · have earlier := h.past p before epoch known took
        rcases h.lost p before epoch known took quiet (by omega) with lost | told
        · by_cases closes : ∃ g, l = .close g
          · obtain ⟨g, rfl⟩ := closes
            obtain ⟨openedAt, drains, -⟩ := Sys.step_close.mp taken
            have read := sound.reads g openedAt (opened_of_drained drains)
            have window : openedAt.toNat < s.tracker.losses := by
              unfold State.losses
              omega
            obtain ⟨count, result⟩ := result_of_window room window
            have tells : tell s (.close g) told = s.epoch := by simp only [tell, drains, result]
            right
            omega
          · refine .inl (lost_pos_step lost room taken fun g same => closes ⟨g, same⟩)
        · exact .inr (by omega)
    · have still : t.epoch = s.epoch := moved
      omega

theorem covered_of_open {timeout : Duration} (sound : Sound s) (h : Accounted s told)
    (accepted : Accepted s p) (taken : s.step (.openFlush f timeout) = some t) :
    Covered t told f p := by
  obtain ⟨pub, epoch, held, took⟩ := accepted
  have past := h.past p pub epoch held took
  obtain ⟨idle, rfl⟩ := Sys.step_openFlush.mp taken
  cases silent : pub.answered with
  | true => exact .inl ⟨pub, held, silent⟩
  | false =>
    have opened (openedAt : UInt64) (reads : (Function.update s.flush f
        (.waiting timeout s.tracker.reported) f).openedAt = some openedAt) :
        openedAt = s.tracker.reported := by
      rw [Function.update_self] at reads
      exact (Option.some.inj reads).symm
    by_cases now : epoch = s.epoch
    · refine .inr (.inr ⟨by simp, .inl ⟨?_, by simp⟩⟩)
      exact awaits_of_taken sound.timely held took silent now
    · rcases h.lost p pub epoch held took silent (by omega) with lost | told
      · refine .inr (.inr ⟨by simp, .inr fun openedAt reads => ?_⟩)
        rw [opened openedAt reads]
        change s.tracker.reported.toNat < s.tracker.reported.toNat + s.tracker.lost.toNat
        omega
      · exact .inr (.inl ⟨pub, epoch, held, took, told⟩)

theorem covered_step (sound : Sound s) (h : Accounted s told) (accepted : Accepted s p)
    (busy : s.flush f ≠ .idle) (covered : Covered s told f p)
    (promise : Obeys (prompt ++ roomy) s l) (taken : s.step l = some t) :
    Covered t (tell s l told) f p := by
  have room : roomToReport s l = true := promised_room promise
  rcases covered with answered | told | ⟨running, owed⟩
  · exact .inl (answer_kept answered taken)
  · exact .inr (.inl (told_grows (tell_le h.bound).1 (told_step sound.timely told taken)))
  · by_cases own : l = .ack p
    · subst own
      exact .inl (answered_of_ack accepted taken)
    · refine .inr (.inr ⟨?_, owed_step sound busy owed room taken own⟩)
      intro confirmed
      rcases Sys.step_flush taken f with now | ⟨_, -, -, now⟩ | ⟨_, _, -, -, -, now⟩ |
        ⟨openedAt, rfl, drains, now⟩ | ⟨_, _, -, -, now⟩ | ⟨-, -, now⟩
      · exact running (now.symm.trans confirmed)
      · cases now.symm.trans confirmed
      · cases now.symm.trans confirmed
      · have window : openedAt.toNat < s.tracker.losses := by
          rcases owed with ⟨-, undrained⟩ | window
          · exact absurd drains (undrained openedAt)
          · exact window openedAt (opened_of_drained drains)
        obtain ⟨count, lost⟩ := result_of_window room window
        rw [lost] at now
        cases now.symm.trans confirmed
      · cases now.symm.trans confirmed
      · cases now.symm.trans confirmed

end Steps

end Sparkplug.Delivery
