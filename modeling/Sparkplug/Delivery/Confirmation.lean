import Sparkplug.Delivery.Losses

/-! What a flush and a disconnect say about one message. The rules are what `rumqttc` and
the broker promise about a PubAck, and the order the guard of a publish relies on: the
client takes the message before the next disconnect. -/
namespace Sparkplug.Delivery

open Transition

variable {ι φ : Type}

/-- A PubAck answers a message the client took since the last disconnect, once. -/
def answersTaken (s : Sys ι φ) : Label ι φ → Bool
  | .ack p => (s.publish p).any fun pub => pub.taken == some s.epoch && !pub.answered
  | _ => true

/-- No disconnect fell between the count of a publish and its acceptance. -/
def keptOnTime (s : Sys ι φ) : Label ι φ → Bool
  | .keep p => (s.publish p).all fun pub => pub.counted == s.epoch
  | _ => true

/-- The broker and `rumqttc` keep their promises, and every rollback brings its own ticket. -/
def answered : List (Sys ι φ → Label ι φ → Bool) := [ownTickets, answersTaken]

def prompt : List (Sys ι φ → Label ι φ → Bool) := [ownTickets, answersTaken, keptOnTime]

/-- Only a message the client took is answered, and it took each in the epoch of its count. -/
def Timely (s : Sys ι φ) : Prop := ∀ p pub, s.publish p = some pub →
  (pub.ticket ≠ none → pub.taken = none ∧ pub.answered = false) ∧
  ∀ epoch, pub.taken = some epoch → epoch = pub.counted

/-- The client took this message since the last disconnect and nothing has answered it. -/
def Awaits (s : Sys ι φ) (p : ι) : Prop :=
  s.publish p = some ⟨none, s.epoch, some s.epoch, false⟩

/-- Counted before the last disconnect, and not taken since. -/
def Discarded (s : Sys ι φ) (p : ι) : Prop := ∃ pub, s.publish p = some pub ∧
  pub.counted < s.epoch ∧ ∀ epoch, pub.taken = some epoch → epoch < s.epoch

/-- A flush read the total of losses before it opened, and that total never falls. -/
def Reads (s : Sys ι φ) : Prop := ∀ f openedAt, (s.flush f).openedAt = some openedAt →
  openedAt.toNat ≤ s.tracker.reported.toNat

/-- What holds in every state that a prompt run with room in its counters reaches. -/
structure Sound (s : Sys ι φ) : Prop where
  agrees : ∃ r, Agrees s r
  timely : Timely s
  reads : Reads s

section Invariants

variable {s t : Sys ι φ} {l : Label ι φ} {p : ι}

theorem prompt_rules (promise : Obeys prompt s l) :
    answersTaken s l = true ∧ keptOnTime s l = true := by
  obtain ⟨-, answers, onTime, -⟩ := by simpa only [prompt, obeys_cons] using promise
  exact ⟨answers, onTime⟩

theorem promised_room (promise : Obeys (prompt ++ roomy) s l) : roomToReport s l = true := by
  obtain ⟨-, -, -, -, report, -⟩ := by
    simpa only [prompt, roomy, List.cons_append, List.nil_append, obeys_cons] using promise
  exact report

theorem sound_initial : Sound (.new : Sys ι φ) :=
  ⟨⟨_, agrees_initial⟩, nofun, nofun⟩

theorem acksOutstanding_of_timely (h : Timely s) (answers : answersTaken s l = true) :
    acksOutstanding s l = true := by
  cases l with
  | ack p =>
    cases held : s.publish p with
    | none => simp [answersTaken, held] at answers
    | some pub =>
      obtain ⟨took, silent⟩ : pub.taken = some s.epoch ∧ pub.answered = false := by
        simpa [answersTaken, held] using answers
      have counted := (h p pub held).2 s.epoch took
      simp [acksOutstanding, Sys.live, held, Publish.outstanding, took, silent, counted]
  | _ => rfl

theorem Sound.unacked_pos (h : Sound s) (awaits : Awaits s p) :
    0 < s.tracker.unacked.toNat := by
  obtain ⟨r, agrees⟩ := h.agrees
  rw [agrees.size]
  refine Finset.card_pos.mpr ⟨p, (agrees.live p).mpr ?_⟩
  rw [live_of_publish awaits]
  simp [Publish.outstanding]

theorem unanswerable_of_discarded (h : Discarded s p) : answersTaken s (.ack p) = false := by
  obtain ⟨pub, held, -, took⟩ := h
  have other : pub.taken ≠ some s.epoch := fun now => Nat.lt_irrefl _ (took _ now)
  simp [answersTaken, held, other]

variable [DecidableEq ι] [DecidableEq φ]

theorem timely_step (h : Timely s) (answers : answersTaken s l = true)
    (onTime : keptOnTime s l = true) (taken : s.step l = some t) : Timely t := by
  intro p pub hpub
  rcases Sys.step_publish taken p with same | ⟨-, -, now⟩ | ⟨before, held, moved⟩
  · exact h p pub (same.symm.trans hpub)
  · cases hpub.symm.trans now
    exact ⟨fun _ => ⟨rfl, rfl⟩, nofun⟩
  · obtain ⟨holds, earlier⟩ := h p before held
    rcases moved with ⟨rfl, -, now⟩ | ⟨rfl, -, now⟩ | ⟨rfl, now⟩
    · cases hpub.symm.trans now
      have counted : before.counted = s.epoch := by simpa [keptOnTime, held] using onTime
      exact ⟨nofun, fun epoch same => by cases same; exact counted.symm⟩
    · cases hpub.symm.trans now
      exact ⟨nofun, earlier⟩
    · cases hpub.symm.trans now
      have took : before.taken = some s.epoch ∧ before.answered = false := by
        simpa [answersTaken, held] using answers
      refine ⟨fun ticket => ?_, earlier⟩
      cases took.1.symm.trans (holds ticket).1

theorem releasesUnanswered_of_timely (h : Timely s) (taken : s.step l = some t) :
    releasesUnanswered s l = true := by
  cases l with
  | release p =>
    obtain ⟨ticket, counted, before, answered, held, -⟩ := Sys.step_release.mp taken
    have silent : answered = false := ((h p _ held).1 nofun).2
    simp [releasesUnanswered, held, silent]
  | _ => rfl

theorem reported_step (room : roomToReport s l = true) (taken : s.step l = some t) :
    s.tracker.reported.toNat ≤ t.tracker.reported.toNat := by
  rcases Sys.step_losses taken with ⟨-, same⟩ | ⟨-, now⟩ | ⟨f, openedAt, rfl, -, now⟩
  · rw [same]
  · rw [now, State.recordDisconnect_reported]
  · rw [now, s.tracker.toNat_closeFlush_reported openedAt (of_decide_eq_true room)]
    omega

theorem disciplined_of_timely (h : Timely s) (promise : Obeys (prompt ++ roomy) s l)
    (taken : s.step l = some t) :
    Obeys [ownTickets, acksOutstanding, releasesUnanswered, roomToCount] s l := by
  simp only [prompt, roomy, List.cons_append, List.nil_append, obeys_cons] at promise ⊢
  obtain ⟨own, answers, -, count, -⟩ := promise
  exact ⟨own, acksOutstanding_of_timely h answers, releasesUnanswered_of_timely h taken, count,
    obeys_nil _ _⟩

theorem sound_step (h : Sound s) (promise : Obeys (prompt ++ roomy) s l)
    (taken : s.step l = some t) : Sound t := by
  obtain ⟨-, answers, onTime, -, report, -⟩ := by
    simpa only [prompt, roomy, List.cons_append, List.nil_append, obeys_cons] using promise
  obtain ⟨⟨r, agrees⟩, timely, reads⟩ := h
  have base := disciplined_of_timely timely promise taken
  refine ⟨⟨_, agrees_step agrees base taken⟩, timely_step timely answers onTime taken,
    fun f openedAt opened => ?_⟩
  have grows := reported_step report taken
  rcases openedAt_step taken opened with before | ⟨-, -, rfl⟩
  · exact (reads f openedAt before).trans grows
  · exact grows

theorem sound_run {ls : List (Label ι φ)}
    (run : Run Sys.step (Obeys (prompt ++ roomy)) s ls t) (initial : Sound s) : Sound t :=
  run.invariant initial fun _ _ _ _ h promise taken => sound_step h promise taken

theorem awaits_step (h : Awaits s p) (taken : s.step l = some t) (unanswered : l ≠ .ack p)
    (connected : l ≠ .disconnect) : Awaits t p := by
  have epoch : t.epoch = s.epoch := by
    rw [Sys.step_epoch taken, List.count_eq_zero.mpr (by simpa using connected.symm)]
    rfl
  unfold Awaits
  rw [epoch]
  rcases Sys.step_publish taken p with same | ⟨-, fresh, -⟩ | ⟨pub, held, moved⟩
  · exact same.trans h
  · cases h.symm.trans fresh
  · cases h.symm.trans held
    rcases moved with ⟨-, ticket, -⟩ | ⟨-, ticket, -⟩ | ⟨rfl, -⟩
    · exact absurd rfl ticket
    · exact absurd rfl ticket
    · exact absurd rfl unanswered

theorem lost_pos_of_awaits (sound : Sound s) (awaits : Awaits s p)
    (room : roomToReport s .disconnect = true) (taken : s.step .disconnect = some t) :
    0 < t.tracker.lost.toNat := by
  have held := sound.unacked_pos awaits
  cases Option.some.inj taken
  rw [State.toNat_recordDisconnect_lost _ (of_decide_eq_true room)]
  omega

theorem lost_pos_step (h : 0 < s.tracker.lost.toNat) (room : roomToReport s l = true)
    (taken : s.step l = some t) (unreported : ∀ g, l ≠ .close g) :
    0 < t.tracker.lost.toNat := by
  rcases Sys.step_losses taken with ⟨same, -⟩ | ⟨rfl, now⟩ | ⟨f, openedAt, rfl, -⟩
  · rwa [same]
  · rw [now, State.toNat_recordDisconnect_lost _ (of_decide_eq_true room)]
    omega
  · exact absurd rfl (unreported f)

/-- Until a drained flush closes, a message without its PubAck is awaited or lost. -/
theorem awaited_or_lost {mid : List (Label ι φ)}
    (run : Run Sys.step (Obeys (prompt ++ roomy)) s mid t) (sound : Sound s)
    (awaits : Awaits s p) (unanswered : .ack p ∉ mid)
    (unreported : ∀ before after, mid = before ++ .disconnect :: after →
      .disconnect ∉ before → ∀ g, .close g ∉ after) :
    Awaits t p ∨ 0 < t.tracker.lost.toNat := by
  have awaited {u : Sys ι φ} {ls : List (Label ι φ)}
      (run : Run Sys.step (Obeys (prompt ++ roomy)) s ls u) (inside : ls ⊆ mid)
      (connected : .disconnect ∉ ls) : Awaits u p := by
    refine run.invariant (P := fun v => Awaits v p) awaits fun v l w member h _ taken => ?_
    refine awaits_step h taken ?_ ?_
    · rintro rfl
      exact unanswered (inside member)
    · rintro rfl
      exact connected member
  by_cases connected : .disconnect ∈ mid
  · obtain ⟨before, after, rfl, first⟩ := List.eq_append_cons_of_mem connected
    obtain ⟨u, early, late⟩ := run.split
    obtain ⟨v, promise, taken, late⟩ := late.of_cons
    have room : roomToReport u .disconnect = true := promised_room promise
    have lost := lost_pos_of_awaits (sound_run early sound)
      (awaited early (List.subset_append_left _ _) first) room taken
    right
    refine late.invariant (P := fun w => 0 < w.tracker.lost.toNat) lost
      fun w l x member h promise taken => ?_
    refine lost_pos_step h (promised_room promise) taken ?_
    rintro g rfl
    exact unreported before after rfl first g member
  · exact .inl (awaited run (List.Subset.refl _) connected)

/-- Either the message holds the wait of the open flush, or its loss is in the window. -/
def Owed (s : Sys ι φ) (p : ι) (f : φ) : Prop :=
  (Awaits s p ∧ ∀ openedAt, s.flush f ≠ .drained openedAt) ∨
  ∀ openedAt, (s.flush f).openedAt = some openedAt → openedAt.toNat < s.tracker.losses

theorem owed_step {f : φ} (sound : Sound s) (opened : s.flush f ≠ .idle) (owed : Owed s p f)
    (room : roomToReport s l = true) (taken : s.step l = some t) (unanswered : l ≠ .ack p) :
    Owed t p f := by
  have losses := losses_step room taken
  have kept (openedAt : UInt64) (h : (t.flush f).openedAt = some openedAt) :
      (s.flush f).openedAt = some openedAt :=
    (openedAt_step taken h).resolve_right fun now => opened now.1
  rcases owed with ⟨awaits, undrained⟩ | window
  · by_cases connected : l = .disconnect
    · right
      intro openedAt h
      have held := sound.unacked_pos awaits
      have read := sound.reads f openedAt (kept openedAt h)
      rw [if_pos connected] at losses
      unfold State.losses at losses ⊢
      omega
    · left
      refine ⟨awaits_step awaits taken unanswered connected, fun openedAt drained => ?_⟩
      rcases Sys.step_flush taken f with now | ⟨_, -, idle, -⟩ | ⟨_, _, -, -, empty, -⟩ |
        ⟨_, -, drains, -⟩ | ⟨_, _, -, -, now⟩ | ⟨-, -, now⟩
      · exact undrained openedAt (now.symm.trans drained)
      · exact opened idle
      · have none := (State.isDrained_iff _).mp empty
        have held := sound.unacked_pos awaits
        omega
      · exact undrained _ drains
      · cases now.symm.trans drained
      · cases now.symm.trans drained
  · right
    intro openedAt h
    have before := window openedAt (kept openedAt h)
    omega

theorem reported_at_close {f : φ} {timeout : Duration} {mid : List (Label ι φ)}
    (run : Run Sys.step (Obeys (prompt ++ roomy)) s
      (.openFlush f timeout :: mid ++ [.close f]) t)
    (sound : Sound s) (pending : Awaits s p ∨ 0 < s.tracker.lost.toNat)
    (unanswered : .ack p ∉ mid) : ∃ count : UInt32, 0 < count.toNat ∧
      t.flush f = .returned (.error (.publishLost count)) := by
  obtain ⟨u, during, last⟩ := run.split
  obtain ⟨v, promise, taken, during⟩ := during.of_cons
  have opened : v.flush f ≠ .idle ∧ Owed v p f := by
    obtain ⟨-, rfl⟩ := Sys.step_openFlush.mp taken
    refine ⟨by simp, pending.imp (fun awaits => ⟨awaits, by simp⟩) fun lost openedAt h => ?_⟩
    simp only [Function.update_self, Flush.openedAt, Option.some.injEq] at h
    change openedAt.toNat < s.tracker.reported.toNat + s.tracker.lost.toNat
    rw [← h]
    omega
  obtain ⟨sound, busy, owed⟩ : Sound u ∧ u.flush f ≠ .idle ∧ Owed u p f := by
    refine during.invariant (P := fun w => Sound w ∧ w.flush f ≠ .idle ∧ Owed w p f)
      ⟨sound_step sound promise taken, opened⟩ fun w l x member h promise taken => ?_
    have room : roomToReport w l = true := promised_room promise
    refine ⟨sound_step h.1 promise taken, Sys.step_busy h.2.1 taken, ?_⟩
    refine owed_step h.1 h.2.1 h.2.2 room taken ?_
    rintro rfl
    exact unanswered member
  obtain ⟨w, promise, taken, done⟩ := last.of_cons
  cases done.of_nil
  obtain ⟨openedAt, drains, -⟩ := Sys.step_close.mp taken
  have reading := opened_of_drained drains
  have window : openedAt.toNat < u.tracker.losses := by
    rcases owed with ⟨-, undrained⟩ | window
    · exact absurd drains (undrained openedAt)
    · exact window openedAt reading
  have room : roomToReport u (.close f) = true := promised_room promise
  have total : u.tracker.losses = openedAt.toNat + (u.tracker.losses - openedAt.toNat) := by
    omega
  obtain ⟨count, result, size⟩ := (close_answer taken reading room total).2 (by omega)
  exact ⟨count, by omega, result⟩

theorem accepted_then_flushed {pre mid₁ mid₂ : List (Label ι φ)} {f : φ} {timeout : Duration}
    (run : Run Sys.step (Obeys (prompt ++ roomy)) .new
      (pre ++ .keep p :: mid₁ ++ .openFlush f timeout :: mid₂ ++ [.close f]) s) :
    ∃ v u, Sound v ∧ Awaits v p ∧ Run Sys.step (Obeys (prompt ++ roomy)) v mid₁ u ∧
      Run Sys.step (Obeys (prompt ++ roomy)) u (.openFlush f timeout :: mid₂ ++ [.close f])
        s := by
  rw [List.append_assoc] at run
  obtain ⟨u, first, last⟩ := run.split
  obtain ⟨w, before, first⟩ := first.split
  obtain ⟨v, promise, taken, mid⟩ := first.of_cons
  have sound := sound_run before sound_initial
  refine ⟨v, u, sound_step sound promise taken, ?_, mid, last⟩
  obtain ⟨ticket, counted, took, answered, held, rfl⟩ := Sys.step_keep.mp taken
  have silent : answered = false := ((sound.timely p _ held).1 nofun).2
  have onTime : counted = w.epoch := by
    have rule : keptOnTime w (.keep p) = true := promise _ (by simp [prompt])
    simpa [keptOnTime, held] using rule
  simp [Awaits, silent, onTime]

theorem timely_run {ls : List (Label ι φ)} (run : Run Sys.step (Obeys prompt) s ls t)
    (initial : Timely s) : Timely t := by
  refine run.invariant initial fun u l v _ h promise taken => ?_
  exact timely_step h (prompt_rules promise).1 (prompt_rules promise).2 taken

theorem discarded_step (h : Discarded s p) (onTime : keptOnTime s l = true)
    (taken : s.step l = some t) : Discarded t p := by
  obtain ⟨pub, held, counted, took⟩ := h
  have epoch := Sys.step_epoch taken
  rcases Sys.step_publish taken p with same | ⟨-, fresh, -⟩ | ⟨before, known, moved⟩
  · exact ⟨pub, same.trans held, by omega, fun e h => (took e h).trans_le (by omega)⟩
  · cases held.symm.trans fresh
  · cases held.symm.trans known
    rcases moved with ⟨rfl, -, -⟩ | ⟨rfl, -, now⟩ | ⟨rfl, now⟩
    · have current : pub.counted = s.epoch := by simpa [keptOnTime, held] using onTime
      omega
    · exact ⟨_, now, by simp only; omega, fun e h => (took e h).trans_le (by omega)⟩
    · exact ⟨_, now, by simp only; omega, fun e h => (took e h).trans_le (by omega)⟩

theorem discarded_of_live (timely : Timely s) (outstanding : s.live p = true)
    (taken : s.step .disconnect = some t) : Discarded t p := by
  cases Option.some.inj taken
  cases held : s.publish p with
  | none => simp [Sys.live, held] at outstanding
  | some pub =>
    have current : pub.counted = s.epoch := by
      simp only [Sys.live, held, Option.any_some, Publish.outstanding, Bool.and_eq_true,
        beq_iff_eq] at outstanding
      exact outstanding.1.1
    refine ⟨pub, held, by simp only; omega, fun e h => ?_⟩
    have same := (timely p pub held).2 e h
    simp only
    omega

end Invariants

section Promises

variable [DecidableEq ι] [DecidableEq φ] {s t : Sys ι φ} {p : ι}

theorem answered_of_ok {pre mid₁ mid₂ : List (Label ι φ)} {f : φ}
    {timeout : Duration}
    (run : Run Sys.step (Obeys (prompt ++ roomy)) .new
      (pre ++ .keep p :: mid₁ ++ .openFlush f timeout :: mid₂ ++ [.close f]) s)
    (connected : .disconnect ∉ mid₁) (confirmed : s.flush f = .returned (.ok ())) :
    .ack p ∈ mid₁ ++ mid₂ := by
  by_contra unanswered
  rw [List.mem_append, not_or] at unanswered
  obtain ⟨v, u, sound, awaits, mid, last⟩ := accepted_then_flushed run
  have pending := awaited_or_lost mid sound awaits unanswered.1 (by
    rintro before after rfl
    simp at connected)
  obtain ⟨count, -, lost⟩ :=
    reported_at_close last (sound_run mid sound) pending unanswered.2
  cases confirmed.symm.trans lost

theorem reported_of_unanswered {pre mid₁ mid₂ : List (Label ι φ)} {f : φ} {timeout : Duration}
    (run : Run Sys.step (Obeys (prompt ++ roomy)) .new
      (pre ++ .keep p :: mid₁ ++ .openFlush f timeout :: mid₂ ++ [.close f]) s)
    (unanswered : .ack p ∉ mid₁ ++ mid₂)
    (unreported : ∀ before after, mid₁ = before ++ .disconnect :: after →
      .disconnect ∉ before → ∀ g, .close g ∉ after) :
    ∃ count : UInt32, 0 < count.toNat ∧
      s.flush f = .returned (.error (.publishLost count)) := by
  rw [List.mem_append, not_or] at unanswered
  obtain ⟨v, u, sound, awaits, mid, last⟩ := accepted_then_flushed run
  have pending := awaited_or_lost mid sound awaits unanswered.1 unreported
  exact reported_at_close last (sound_run mid sound) pending unanswered.2

/-- What a disconnect moves among the losses is never acknowledged afterwards. -/
theorem lost_is_never_acknowledged {before after : List (Label ι φ)}
    (first : Run Sys.step (Obeys prompt) .new before t)
    (rest : Run Sys.step (Obeys prompt) t (.disconnect :: after) s) :
    (∀ p ∈ (before.foldl Reference.record .empty).live, .ack p ∉ after) ∧
    (Run Sys.step (Obeys (prompt ++ roomy)) .new before t →
      t.tracker.unacked.toNat = (before.foldl Reference.record .empty).live.card) := by
  constructor
  · intro p member answer
    have timely : Timely t := timely_run first nofun
    obtain ⟨u, promise, taken, rest⟩ := rest.of_cons
    have discarded := discarded_of_live timely ((run_follows first).live p |>.mp member) taken
    obtain ⟨early, late, rfl⟩ := List.append_of_mem answer
    obtain ⟨v, early, late⟩ := rest.split
    obtain ⟨w, answers, -, -⟩ := late.of_cons
    have still : Discarded v p := by
      refine early.invariant (P := fun x => Discarded x p) discarded
        fun x l y _ h promise taken => ?_
      exact discarded_step h (prompt_rules promise).2 taken
    have refused := unanswerable_of_discarded still
    have allowed : answersTaken v (.ack p) = true := (prompt_rules answers).1
    cases allowed.symm.trans refused
  · intro first
    obtain ⟨base, -⟩ := first.strengthen (P := Sound) sound_initial
      (fun _ _ _ h promise taken => sound_step h promise taken)
      (fun _ _ _ h promise taken => disciplined_of_timely h.timely promise taken)
    exact (run_agrees base).size

theorem lost_is_never_acknowledged_small : ∃ t s : Sys Nat Nat,
    Run Sys.step (Obeys prompt) .new [.count 0, .keep 0] t ∧
    Run Sys.step (Obeys prompt) t [.disconnect, .count 1, .keep 1, .ack 1] s ∧
    .ack 0 ∉ ([.count 1, .keep 1, .ack 1] : List (Label Nat Nat)) ∧
    t.tracker.unacked.toNat = 1 := by
  obtain ⟨t, s, h, roomy, rest⟩ : ∃ t s : Sys Nat Nat,
      exec Sys.step prompt .new [.count 0, .keep 0] = some t ∧
      exec Sys.step (prompt ++ roomy) .new [.count 0, .keep 0] = some t ∧
      exec Sys.step prompt t [.disconnect, .count 1, .keep 1, .ack 1] = some s :=
    ⟨_, _, rfl, rfl, rfl⟩
  have first := Run.of_exec h
  have second := Run.of_exec rest
  obtain ⟨never, held⟩ := lost_is_never_acknowledged first second
  exact ⟨t, s, first, second, never 0 (by decide), held (Run.of_exec roomy)⟩

/-- A disconnect between the count and the acceptance: the loss is reported and the
message is acknowledged on the next connection. -/
theorem late_acceptance_is_acknowledged : ∃ s : Sys Nat Nat,
    Run Sys.step (Obeys (answered ++ roomy)) .new [.count 0, .disconnect, .openFlush 0 5,
      .drain 0, .close 0, .keep 0, .ack 0] s ∧
    0 ∈ (([.count 0] : List (Label Nat Nat)).foldl Reference.record .empty).live ∧
    s.flush 0 = .returned (.error (.publishLost 1)) := by
  obtain ⟨s, h, lost⟩ : ∃ s : Sys Nat Nat, exec Sys.step (answered ++ roomy) .new
      [.count 0, .disconnect, .openFlush 0 5, .drain 0, .close 0, .keep 0, .ack 0] = some s ∧
      s.flush 0 = .returned (.error (.publishLost 1)) := ⟨_, rfl, rfl⟩
  exact ⟨s, Run.of_exec h, by decide, lost⟩

end Promises

end Sparkplug.Delivery
