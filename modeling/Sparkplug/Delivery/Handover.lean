import Sparkplug.Delivery.Confirmation

/-! The acceptance of a message apart from the end of its call. The client takes the message
inside the await of `record_around_publish`, and `keep` runs once that await returns: a call
that is dropped in between rolls its count back although its message is on its way (ADR-0005).
A run without that window is a run of the system in which the two are one step. -/
namespace Sparkplug.Delivery

open Transition

variable {ι φ : Type}

inductive Handover (ι φ : Type) where
  /-- The client takes the message while the call still holds its guard. -/
  | take (p : ι)
  | plain (l : Label ι φ)
  deriving DecidableEq

/-- The step in which a message counts as taken where acceptance and `keep` are one. -/
def Handover.merged : Handover ι φ → Option (Label ι φ)
  | .take p => some (.keep p)
  | .plain (.keep _) => none
  | .plain l => some l

def Publish.merged (pub : Publish) : Publish :=
  if pub.taken.isSome then { pub with ticket := none } else pub

def Sys.merged (s : Sys ι φ) : Sys ι φ :=
  { s with publish := fun p => (s.publish p).map Publish.merged }

/-- A rule about the merged system, made about the step apart. -/
def apart (rule : Sys ι φ → Label ι φ → Bool) (s : Sys ι φ) (h : Handover ι φ) : Bool :=
  h.merged.all (rule s.merged)

/-- No message leaves in the window: what the client took is not rolled back. -/
def outsideWindow (s : Sys ι φ) : Handover ι φ → Bool
  | .plain (.release p) => (s.publish p).all fun pub => pub.taken.isNone
  | _ => true

section Steps

variable [DecidableEq ι] [DecidableEq φ] {s t : Sys ι φ} {h : Handover ι φ} {l : Label ι φ}
  {rules : List (Sys ι φ → Label ι φ → Bool)}

def Sys.handover (s : Sys ι φ) : Handover ι φ → Option (Sys ι φ)
  | .take p =>
    match s.publish p with
    | some ⟨some ticket, counted, none, answered⟩ =>
      some { s with
        publish := Function.update s.publish p
          (some ⟨some ticket, counted, some s.epoch, answered⟩) }
    | _ => none
  | .plain (.keep p) =>
    match s.publish p with
    | some ⟨some _, counted, some taken, answered⟩ =>
      some { s with
        publish := Function.update s.publish p (some ⟨none, counted, some taken, answered⟩) }
    | _ => none
  | .plain l => s.step l

theorem handover_take {p : ι} : s.handover (.take p) = some t ↔ ∃ ticket counted answered,
    s.publish p = some ⟨some ticket, counted, none, answered⟩ ∧ t = { s with
      publish := Function.update s.publish p
        (some ⟨some ticket, counted, some s.epoch, answered⟩) } := by
  simp only [Sys.handover]
  split
  · rename_i held
    constructor
    · intro out
      exact ⟨_, _, _, held, (Option.some.inj out).symm⟩
    · rintro ⟨_, _, _, again, rfl⟩
      cases held.symm.trans again
      rfl
  · rename_i other
    constructor
    · nofun
    · rintro ⟨ticket, counted, answered, held, -⟩
      exact absurd held (other _ _ _)

theorem handover_keep {p : ι} : s.handover (.plain (.keep p)) = some t ↔
    ∃ ticket counted taken answered,
      s.publish p = some ⟨some ticket, counted, some taken, answered⟩ ∧ t = { s with
        publish := Function.update s.publish p
          (some ⟨none, counted, some taken, answered⟩) } := by
  simp only [Sys.handover]
  split
  · rename_i held
    constructor
    · intro out
      exact ⟨_, _, _, _, held, (Option.some.inj out).symm⟩
    · rintro ⟨_, _, _, _, again, rfl⟩
      cases held.symm.trans again
      rfl
  · rename_i other
    constructor
    · nofun
    · rintro ⟨ticket, counted, taken, answered, held, -⟩
      exact absurd held (other _ _ _ _)

omit [DecidableEq φ] in
theorem merged_put (s : Sys ι φ) (tracker : State) (p : ι) (pub : Publish) :
    ({ s with tracker := tracker, publish := Function.update s.publish p (some pub) } :
      Sys ι φ).merged = { s.merged with
        tracker := tracker
        publish := Function.update s.merged.publish p (some pub.merged) } := by
  simp only [Sys.merged, Sys.mk.injEq, true_and, and_true]
  funext q
  by_cases same : q = p
  · subst same
    simp
  · simp [same]

omit [DecidableEq ι] [DecidableEq φ] in
theorem merged_publish {p : ι} {pub : Publish} (held : s.publish p = some pub) :
    s.merged.publish p = some pub.merged := by
  simp [Sys.merged, held]

theorem merged_ack (s : Sys ι φ) (p : ι) :
    s.merged.step (.ack p) = (s.step (.ack p)).map Sys.merged := by
  simp only [Sys.step, Sys.merged, Option.map_some, Option.some.injEq, Sys.mk.injEq, true_and,
    and_true]
  funext q
  by_cases same : q = p
  · subst same
    cases s.publish q with
    | none => simp
    | some pub =>
      cases took : pub.taken <;> simp [Publish.merged, took]
  · simp [same]

theorem merged_step (outside : outsideWindow s h = true) (taken : s.handover h = some t) :
    (h.merged = none ∧ t.merged = s.merged) ∨
    ∃ l, h.merged = some l ∧ s.merged.step l = some t.merged := by
  cases h with
  | take p =>
    obtain ⟨ticket, counted, answered, held, rfl⟩ := handover_take.mp taken
    refine .inr ⟨_, rfl, Sys.step_keep.mpr ⟨ticket, counted, none, answered, ?_, ?_⟩⟩
    · exact merged_publish held
    · exact merged_put s s.tracker p _
  | plain l =>
    cases l with
    | keep p =>
      obtain ⟨ticket, counted, took, answered, held, rfl⟩ := handover_keep.mp taken
      refine .inl ⟨rfl, (merged_put s s.tracker p _).trans ?_⟩
      rw [Function.update_eq_self_iff.mpr (merged_publish held).symm]
      rfl
    | count p =>
      obtain ⟨fresh, rfl⟩ := Sys.step_count.mp taken
      refine .inr ⟨_, rfl, Sys.step_count.mpr ⟨?_, merged_put s _ p _⟩⟩
      simp [Sys.merged, fresh]
    | release p =>
      obtain ⟨ticket, counted, took, answered, held, rfl⟩ := Sys.step_release.mp taken
      obtain rfl : took = none := by simpa [outsideWindow, held] using outside
      refine .inr ⟨_, rfl, Sys.step_release.mpr ⟨ticket, counted, none, answered, ?_, ?_⟩⟩
      · exact merged_publish held
      · exact merged_put s _ p _
    | ack p => exact .inr ⟨_, rfl, (merged_ack s p).trans (congrArg _ taken)⟩
    | releaseForeign ticket => cases Option.some.inj taken; exact .inr ⟨_, rfl, rfl⟩
    | disconnect => cases Option.some.inj taken; exact .inr ⟨_, rfl, rfl⟩
    | openFlush f timeout =>
      obtain ⟨idle, rfl⟩ := Sys.step_openFlush.mp taken
      exact .inr ⟨_, rfl, Sys.step_openFlush.mpr ⟨idle, rfl⟩⟩
    | drain f =>
      obtain ⟨timeout, openedAt, waits, empty, rfl⟩ := Sys.step_drain.mp taken
      exact .inr ⟨_, rfl, Sys.step_drain.mpr ⟨timeout, openedAt, waits, empty, rfl⟩⟩
    | close f =>
      obtain ⟨openedAt, drains, rfl⟩ := Sys.step_close.mp taken
      exact .inr ⟨_, rfl, Sys.step_close.mpr ⟨openedAt, drains, rfl⟩⟩
    | timeOut f =>
      obtain ⟨timeout, openedAt, waits, rfl⟩ := Sys.step_timeOut.mp taken
      exact .inr ⟨_, rfl, Sys.step_timeOut.mpr ⟨timeout, openedAt, waits, rfl⟩⟩
    | cancel f =>
      obtain ⟨opened, rfl⟩ := Sys.step_cancel.mp taken
      exact .inr ⟨_, rfl, Sys.step_cancel.mpr ⟨opened, rfl⟩⟩

/-- Outside the window a run with acceptance and `keep` apart is a run of the merged system. -/
theorem merged_run {hs : List (Handover ι φ)}
    (run : Run Sys.handover (Obeys (rules.map apart ++ [outsideWindow])) s hs t) :
    Run Sys.step (Obeys rules) s.merged (hs.filterMap Handover.merged) t.merged := by
  refine run.project Sys.merged Handover.merged (fun u h v l named promise taken => ?_)
    fun u h v none promise taken => ?_
  · have outside : outsideWindow u h = true := promise _ (by simp)
    rcases merged_step outside taken with ⟨absent, -⟩ | ⟨l', same, moved⟩
    · cases named.symm.trans absent
    · cases named.symm.trans same
      refine ⟨fun rule member => ?_, moved⟩
      have allowed := promise (apart rule) (List.mem_append_left _ (List.mem_map_of_mem member))
      simpa [apart, named] using allowed
  · have outside : outsideWindow u h = true := promise _ (by simp)
    rcases merged_step outside taken with ⟨-, same⟩ | ⟨l, named, -⟩
    · exact same
    · cases none.symm.trans named

end Steps

section Names

variable {hs : List (Handover ι φ)} {l : Label ι φ}

theorem merged_eq_some {h : Handover ι φ} (plain : ∀ p, l ≠ .keep p) :
    h.merged = some l ↔ h = .plain l := by
  cases h with
  | take p => simp [Handover.merged, (plain p).symm]
  | plain l' => cases l' <;> simp [Handover.merged, (plain _).symm]

theorem mem_merged (plain : ∀ p, l ≠ .keep p) :
    l ∈ hs.filterMap Handover.merged ↔ .plain l ∈ hs := by
  simp only [List.mem_filterMap, merged_eq_some plain, exists_eq_right]

end Names

section Promises

variable [DecidableEq ι] [DecidableEq φ] {s : Sys ι φ} {p : ι}

/-- A prompt run with room in its counters, in which no message leaves in the window. -/
def guardedRules : List (Sys ι φ → Handover ι φ → Bool) :=
  (prompt ++ roomy).map apart ++ [outsideWindow]

theorem merged_flushed {pre mid₁ mid₂ : List (Handover ι φ)} {f : φ} {timeout : Duration}
    (run : Run Sys.handover (Obeys guardedRules) .new
      (pre ++ .take p :: mid₁ ++ .plain (.openFlush f timeout) :: mid₂ ++ [.plain (.close f)]) s) :
    Run Sys.step (Obeys (prompt ++ roomy)) .new
      (pre.filterMap Handover.merged ++ .keep p :: mid₁.filterMap Handover.merged ++
        .openFlush f timeout :: mid₂.filterMap Handover.merged ++ [.close f]) s.merged := by
  have merged := merged_run run
  rw [List.filterMap_append, List.filterMap_append, List.filterMap_append,
    List.filterMap_cons_some (by rfl), List.filterMap_cons_some (by rfl),
    List.filterMap_cons_some (by rfl), List.filterMap_nil] at merged
  exact merged

/-- A flush says Ok only when the broker acknowledged every message taken before it. -/
theorem flush_confirms_acknowledged {pre mid₁ mid₂ : List (Handover ι φ)} {f : φ}
    {timeout : Duration}
    (run : Run Sys.handover (Obeys guardedRules) .new
      (pre ++ .take p :: mid₁ ++ .plain (.openFlush f timeout) :: mid₂ ++ [.plain (.close f)]) s)
    (connected : .plain .disconnect ∉ mid₁) (confirmed : s.flush f = .returned (.ok ())) :
    .plain (.ack p) ∈ mid₁ ++ mid₂ := by
  have answered := answered_of_ok (merged_flushed run)
    (fun lost => connected ((mem_merged (by simp)).mp lost)) confirmed
  rw [← List.filterMap_append] at answered
  exact (mem_merged (by simp)).mp answered

theorem flush_confirms_acknowledged_small : ∃ s : Sys Nat Nat,
    Run Sys.handover (Obeys guardedRules) .new
      [.plain (.count 0), .take 0, .plain (.keep 0), .plain (.openFlush 0 5), .plain (.ack 0),
        .plain (.drain 0), .plain (.close 0)] s ∧
    .plain (.ack 0) ∈ ([.plain (.keep 0)] ++ [.plain (.ack 0), .plain (.drain 0)] :
      List (Handover Nat Nat)) := by
  obtain ⟨s, h, confirmed⟩ : ∃ s : Sys Nat Nat, exec Sys.handover guardedRules .new
      [.plain (.count 0), .take 0, .plain (.keep 0), .plain (.openFlush 0 5), .plain (.ack 0),
        .plain (.drain 0), .plain (.close 0)] = some s ∧
      s.flush 0 = .returned (.ok ()) := ⟨_, rfl, rfl⟩
  have run : Run Sys.handover (Obeys guardedRules) .new
      ([.plain (.count 0)] ++ .take 0 :: [.plain (.keep 0)] ++ .plain (.openFlush 0 5) ::
        [.plain (.ack 0), .plain (.drain 0)] ++ [.plain (.close 0)]) s := Run.of_exec h
  exact ⟨s, run, flush_confirms_acknowledged run (by simp) confirmed⟩

/-- The two ways to lose sight of a message. A disconnect falls between the count and the
acceptance, and the second flush says Ok although the broker has answered nothing. Or the call
of a second message is dropped in the window, and the answer to that message clears the count
of the first. -/
theorem late_acceptance_is_confirmed :
    (∃ s : Sys Nat Nat,
      Run Sys.handover (Obeys ((answered ++ roomy).map apart ++ [outsideWindow])) .new
        [.plain (.count 0), .plain .disconnect, .plain (.openFlush 0 5), .plain (.drain 0),
          .plain (.close 0), .take 0, .plain (.keep 0), .plain (.openFlush 1 5),
          .plain (.drain 1), .plain (.close 1)] s ∧
      s.flush 1 = .returned (.ok ())) ∧
    ∃ s : Sys Nat Nat,
      Run Sys.handover (Obeys ((prompt ++ roomy).map apart)) .new
        [.plain (.count 0), .take 0, .plain (.keep 0), .plain (.count 1), .take 1,
          .plain (.release 1), .plain (.ack 1), .plain (.openFlush 0 5), .plain (.drain 0),
          .plain (.close 0)] s ∧
      s.flush 0 = .returned (.ok ()) := by
  constructor
  · obtain ⟨s, h, confirmed⟩ : ∃ s : Sys Nat Nat,
        exec Sys.handover ((answered ++ roomy).map apart ++ [outsideWindow]) .new
          [.plain (.count 0), .plain .disconnect, .plain (.openFlush 0 5), .plain (.drain 0),
            .plain (.close 0), .take 0, .plain (.keep 0), .plain (.openFlush 1 5),
            .plain (.drain 1), .plain (.close 1)] = some s ∧
        s.flush 1 = .returned (.ok ()) := ⟨_, rfl, rfl⟩
    exact ⟨s, Run.of_exec h, confirmed⟩
  · obtain ⟨s, h, confirmed⟩ : ∃ s : Sys Nat Nat,
        exec Sys.handover ((prompt ++ roomy).map apart) .new
          [.plain (.count 0), .take 0, .plain (.keep 0), .plain (.count 1), .take 1,
            .plain (.release 1), .plain (.ack 1), .plain (.openFlush 0 5), .plain (.drain 0),
            .plain (.close 0)] = some s ∧
        s.flush 0 = .returned (.ok ()) := ⟨_, rfl, rfl⟩
    exact ⟨s, Run.of_exec h, confirmed⟩

/-- The first flush after an acceptance reports the message when nothing answered it,
unless another flush closed between the disconnect and its opening. -/
theorem own_loss_is_reported {pre mid₁ mid₂ : List (Handover ι φ)} {f : φ} {timeout : Duration}
    (run : Run Sys.handover (Obeys guardedRules) .new
      (pre ++ .take p :: mid₁ ++ .plain (.openFlush f timeout) :: mid₂ ++ [.plain (.close f)]) s)
    (unanswered : .plain (.ack p) ∉ mid₁ ++ mid₂)
    (unreported : ∀ before after, mid₁ = before ++ .plain .disconnect :: after →
      .plain .disconnect ∉ before → ∀ g, .plain (.close g) ∉ after) :
    ∃ count : UInt32, 0 < count.toNat ∧
      s.flush f = .returned (.error (.publishLost count)) := by
  change ∃ count : UInt32, 0 < count.toNat ∧
    s.merged.flush f = .returned (.error (.publishLost count))
  refine reported_of_unanswered (merged_flushed run) (fun answer => ?_) ?_
  · rw [← List.filterMap_append] at answer
    exact unanswered ((mem_merged (by simp)).mp answer)
  · intro before after split first g reported
    obtain ⟨early, rest, rfl, rfl, late⟩ := List.filterMap_eq_append_iff.mp split
    obtain ⟨silent, lost, behind, rfl, unseen, named, rfl⟩ := List.filterMap_eq_cons_iff.mp late
    obtain rfl := (merged_eq_some (by simp)).mp named
    refine unreported (early ++ silent) behind (by simp) (fun earlier => ?_) g
      ((mem_merged (by simp)).mp reported)
    rcases List.mem_append.mp earlier with inside | inside
    · exact first ((mem_merged (by simp)).mpr inside)
    · cases unseen _ inside

theorem own_loss_is_reported_small : ∃ s : Sys Nat Nat,
    Run Sys.handover (Obeys guardedRules) .new
      [.plain (.count 0), .take 0, .plain (.keep 0), .plain .disconnect,
        .plain (.openFlush 0 5), .plain (.drain 0), .plain (.close 0)] s ∧
    ∃ count : UInt32, 0 < count.toNat ∧
      s.flush 0 = .returned (.error (.publishLost count)) := by
  obtain ⟨s, h⟩ : ∃ s : Sys Nat Nat, exec Sys.handover guardedRules .new
      [.plain (.count 0), .take 0, .plain (.keep 0), .plain .disconnect,
        .plain (.openFlush 0 5), .plain (.drain 0), .plain (.close 0)] = some s := ⟨_, rfl⟩
  have run : Run Sys.handover (Obeys guardedRules) .new
      ([.plain (.count 0)] ++ .take 0 :: [.plain (.keep 0), .plain .disconnect] ++
        .plain (.openFlush 0 5) :: [.plain (.drain 0)] ++ [.plain (.close 0)]) s :=
    Run.of_exec h
  refine ⟨s, run, own_loss_is_reported run (by simp) fun before after split _ g member => ?_⟩
  have behind : Handover.plain (.close g) ∈
      ([.plain (.keep 0), .plain .disconnect] : List (Handover Nat Nat)) := by
    rw [split]
    simp [member]
  simp at behind

/-- The flush of another task takes the loss, and the flush of the publisher says Ok. -/
theorem other_flush_takes_the_loss : ∃ s : Sys Nat Nat,
    Run Sys.handover (Obeys guardedRules) .new
      [.plain (.count 0), .take 0, .plain (.keep 0), .plain .disconnect,
        .plain (.openFlush 1 5), .plain (.drain 1), .plain (.close 1), .plain (.openFlush 0 5),
        .plain (.drain 0), .plain (.close 0)] s ∧
    s.flush 1 = .returned (.error (.publishLost 1)) ∧ s.flush 0 = .returned (.ok ()) := by
  obtain ⟨s, h, other, own⟩ : ∃ s : Sys Nat Nat, exec Sys.handover guardedRules .new
      [.plain (.count 0), .take 0, .plain (.keep 0), .plain .disconnect,
        .plain (.openFlush 1 5), .plain (.drain 1), .plain (.close 1), .plain (.openFlush 0 5),
        .plain (.drain 0), .plain (.close 0)] = some s ∧
      s.flush 1 = .returned (.error (.publishLost 1)) ∧
      s.flush 0 = .returned (.ok ()) := ⟨_, rfl, rfl, rfl⟩
  exact ⟨s, Run.of_exec h, other, own⟩

end Promises

end Sparkplug.Delivery
