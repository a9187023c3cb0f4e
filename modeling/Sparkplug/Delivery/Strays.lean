import Sparkplug.Delivery.Saturation

/-! What the count of the tracker is worth when nobody keeps a promise. A confirmation or a
rollback that meets no outstanding publish takes the count of another one, so the count falls
short of the publishes that are outstanding, and never exceeds them. -/
namespace Sparkplug.Delivery

open Transition

variable {ι φ : Type} [DecidableEq ι] [DecidableEq φ]

/-- The step lowers the count for a publish that is not outstanding. -/
def stray (s : Sys ι φ) : Label ι φ → Bool
  | .ack p => !s.live p
  | .release p => !s.live p && (s.publish p).any fun pub => pub.counted == s.epoch
  | .releaseForeign ticket => ticket.generation.toNat == s.epoch
  | _ => false

/-- The stray steps since the last disconnect. -/
def strays (s : Sys ι φ) (l : Label ι φ) (n : Nat) : Nat :=
  if l = .disconnect then 0 else if stray s l then n + 1 else n

/-- The words of the tracker against the publishes that are outstanding. -/
structure Strayed (s : Sys ι φ) (r : Reference ι) (n : Nat) : Prop extends Follows s r where
  above : s.tracker.unacked.toNat ≤ r.live.card
  below : r.live.card ≤ s.tracker.unacked.toNat + n
  generation : s.tracker.generation.toNat = s.epoch
  stamp : ∀ p pub ticket, s.publish p = some pub → pub.ticket = some ticket →
    ticket.generation.toNat = pub.counted

omit [DecidableEq ι] [DecidableEq φ] in
theorem strayed_initial : Strayed (.new : Sys ι φ) .empty 0 :=
  ⟨follows_initial, le_rfl, le_rfl, rfl, nofun⟩

section Steps

variable {s t : Sys ι φ} {r : Reference ι} {l : Label ι φ} {n : Nat}

theorem strayed_step (h : Strayed s r n) (room : roomToCount s l = true)
    (taken : s.step l = some t) : Strayed t (r.record l) (strays s l n) := by
  have above := h.above
  have below := h.below
  have generation := h.generation
  suffices bounds : t.tracker.unacked.toNat ≤ (r.record l).live.card ∧
      (r.record l).live.card ≤ t.tracker.unacked.toNat + strays s l n from
    ⟨follows_step h.toFollows taken, bounds.1, bounds.2, generation_step generation room taken,
      stamp_step h.stamp generation taken⟩
  cases l with
  | count p =>
    obtain ⟨fresh, rfl⟩ := Sys.step_count.mp taken
    have outside : p ∉ r.live := by simp [h.live, Sys.live, fresh]
    have raised := s.tracker.toNat_recordPublish (of_decide_eq_true room)
    simp only [Reference.record, Finset.card_insert_of_notMem outside, raised]
    change _ ∧ _ ≤ _ + n
    omega
  | release p =>
    obtain ⟨ticket, counted, before, answered, held, rfl⟩ := Sys.step_release.mp taken
    have stamp : ticket.generation.toNat = counted := h.stamp p _ ticket held rfl
    have rolled := rolled_back (s := s) ticket rfl generation
    rw [stamp] at rolled
    by_cases live : p ∈ r.live
    · have current : counted = s.epoch := by
        have alive := (h.live p).mp live
        rw [live_of_publish held] at alive
        simp only [Publish.outstanding, Bool.and_eq_true, beq_iff_eq] at alive
        exact alive.1.1
      have fewer := Finset.card_erase_of_mem live
      have none : strays s (.release p : Label ι φ) n = n := by
        simp [strays, stray, (h.live p).mp live]
      rw [if_pos current] at rolled
      simp only [Reference.record, if_pos live, none, fewer, rolled]
      omega
    · have dead : s.live p = false := by simpa using mt (h.live p).mpr live
      have one : strays s (.release p : Label ι φ) n = if counted = s.epoch then n + 1 else n := by
        simp [strays, stray, dead, held]
      simp only [Reference.record, if_neg live, one, rolled]
      split <;> omega
  | releaseForeign ticket =>
    cases Option.some.inj taken
    have rolled := rolled_back (s := s) ticket rfl generation
    have one : strays s (.releaseForeign ticket : Label ι φ) n =
        if ticket.generation.toNat = s.epoch then n + 1 else n := by
      simp [strays, stray]
    simp only [Reference.record, one, rolled]
    split <;> omega
  | ack p =>
    cases Option.some.inj taken
    by_cases live : p ∈ r.live
    · have fewer := Finset.card_erase_of_mem live
      have none : strays s (.ack p : Label ι φ) n = n := by
        simp [strays, stray, (h.live p).mp live]
      simp only [Reference.record, State.toNat_recordAck, none, fewer]
      omega
    · have dead : s.live p = false := by simpa using mt (h.live p).mpr live
      have one : strays s (.ack p : Label ι φ) n = n + 1 := by simp [strays, stray, dead]
      simp only [Reference.record, State.toNat_recordAck, one, Finset.erase_eq_of_notMem live]
      omega
  | disconnect =>
    cases Option.some.inj taken
    exact ⟨le_rfl, le_rfl⟩
  | close f =>
    obtain ⟨_, -, rfl⟩ := Sys.step_close.mp taken
    exact ⟨above, below⟩
  | _ =>
    rw [Sys.step_quiet taken rfl]
    exact ⟨above, below⟩

theorem strayed_run {ok : Sys ι φ × Nat → Label ι φ → Prop} {ls : List (Label ι φ)}
    (run : Run (observe Sys.step strays) ok (.new, 0) ls (s, n))
    (room : ∀ p l, ok p l → roomToCount p.1 l = true) :
    Strayed s (ls.foldl Reference.record .empty) n := by
  refine run.follow (R := fun p r => Strayed p.1 r p.2) strayed_initial
    fun p l q r h promise taken => ?_
  obtain ⟨taken, noted⟩ := observe_iff.mp taken
  rw [noted]
  exact strayed_step h (room p l promise) taken

/-- Whatever the broker answers and whichever tickets the callers give back, the count never
exceeds the publishes that are outstanding and falls short of them by no more than the stray
steps since the last disconnect; so a flush drains with at most that many left. -/
theorem count_falls_short_by_strays {ls : List (Label ι φ)}
    (run : Run (observe Sys.step strays) (fun p l => roomToCount p.1 l = true) (.new, 0) ls
      (s, n)) :
    ∃ live : Finset ι, (∀ p, p ∈ live ↔ s.live p = true) ∧
      s.tracker.unacked.toNat ≤ live.card ∧ live.card ≤ s.tracker.unacked.toNat + n ∧
      ∀ f t, s.step (.drain f) = some t → live.card ≤ n := by
  have h := strayed_run run fun _ _ => id
  have below := h.below
  refine ⟨_, h.live, h.above, below, fun f t drains => ?_⟩
  obtain ⟨_, _, -, drained, -⟩ := Sys.step_drain.mp drains
  have empty := s.tracker.isDrained_iff.mp drained
  omega

end Steps

/-- A second answer to one publish takes the count of the other. -/
theorem count_falls_short_by_strays_small : ∃ s : Sys Nat Nat,
    Run (observe Sys.step strays) (fun p l => roomToCount p.1 l = true) (.new, 0)
      [.count 0, .count 1, .ack 0, .ack 0] (s, 1) ∧
    s.tracker.unacked = 0 ∧ s.live 1 = true ∧
    ∃ live : Finset Nat, (∀ p, p ∈ live ↔ s.live p = true) ∧ live.card ≤ 1 := by
  obtain ⟨s, h, unacked, alive⟩ : ∃ s : Sys Nat Nat,
      exec (observe Sys.step strays) [fun p l => roomToCount p.1 l] (.new, 0)
        [.count 0, .count 1, .ack 0, .ack 0] = some (s, 1) ∧
      s.tracker.unacked = 0 ∧ s.live 1 = true := ⟨_, rfl, rfl, rfl⟩
  have run : Run (observe Sys.step strays) (fun p l => roomToCount p.1 l = true) (.new, 0)
      [.count 0, .count 1, .ack 0, .ack 0] (s, 1) :=
    (Run.of_exec h).mono fun p l promise => promise _ (List.mem_singleton_self _)
  obtain ⟨live, reads, -, below, -⟩ := count_falls_short_by_strays run
  rw [unacked] at below
  exact ⟨s, run, unacked, alive, live, reads, by simpa using below⟩

end Sparkplug.Delivery
