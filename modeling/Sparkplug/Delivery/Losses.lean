import Sparkplug.Delivery.Ledger

/-! What the flushes say about the disconnects of a run: each drained flush reports exactly
what the ledger has for the disconnects in its window. -/
namespace Sparkplug.Delivery

open Transition

variable {ι φ : Type} [DecidableEq ι] [DecidableEq φ] {s t : Sys ι φ} {b c : Ledger φ}
  {ok : Sys ι φ × Ledger φ → Label ι φ → Prop} {ls : List (Label ι φ)}

section Runs

theorem counts_of_short {l : Label ι φ} (measured : Measured s b)
    (few : s.tracker.unacked.toNat + [l].countP Label.isCount < 2 ^ 32)
    (short : s.epoch + [l].count .disconnect < 2 ^ 64) : roomToCount s l = true := by
  have generation := measured.generation
  cases l with
  | count p => exact decide_eq_true (by simpa [Label.isCount] using few)
  | disconnect => exact decide_eq_true (by simpa [generation] using short)
  | _ => rfl

/-- No counter holds more than the number of publishes counted, so none of them wraps. -/
theorem measured_few {now : Sys ι φ × Ledger φ} (run : Run ledgered ok (.new, .empty) ls now)
    (few : ls.countP Label.isCount < 2 ^ 32) (short : ls.count .disconnect < 2 ^ 64) :
    Measured now.1 now.2 ∧ now.1.epoch = ls.count .disconnect ∧
      now.1.tracker.unacked.toNat + now.1.tracker.losses ≤ ls.countP Label.isCount := by
  induction run with
  | start => exact ⟨measured_initial, rfl, le_rfl⟩
  | @snoc p q ls l _ _ taken ih =>
    obtain ⟨taken, note⟩ := observe_iff.mp taken
    rw [List.countP_append] at few ⊢
    rw [List.count_append] at short ⊢
    obtain ⟨measured, epoch, held⟩ := ih (by omega) (by omega)
    have counts : roomToCount p.1 l = true := counts_of_short measured (by omega) (by omega)
    have reports : roomToReport p.1 l = true := room_of_few (by omega)
    refine ⟨note ▸ measured_step measured counts reports taken, ?_, ?_⟩
    · rw [Sys.step_epoch taken, epoch]
    · have unacked := unacked_step (l := l) (by omega) taken
      have losses := losses_step reports taken
      split at unacked <;> simp_all <;> omega

/-- Where every answer and every rollback names its publish, the ledger counts the publishes
that are outstanding by their names. -/
theorem live_few {now : Sys ι φ × Ledger φ}
    (run : Run ledgered (fun p l => Obeys disciplined p.1 l) (.new, .empty) ls now)
    (few : ls.countP Label.isCount < 2 ^ 32) (short : ls.count .disconnect < 2 ^ 64) :
    Agrees now.1 (ls.foldl Reference.record .empty) := by
  induction run with
  | start => exact agrees_initial
  | @snoc p q ls l before promise taken ih =>
    rw [List.countP_append] at few
    rw [List.count_append] at short
    obtain ⟨measured, epoch, held⟩ := measured_few before (by omega) (by omega)
    have counts : roomToCount p.1 l = true := counts_of_short measured (by omega) (by omega)
    rw [List.foldl_append]
    exact agrees_step (ih (by omega) (by omega)) (rules_of_disciplined promise counts)
      (observe_iff.mp taken).1

theorem ordered_run {p q : Sys ι φ × Ledger φ} (run : Run ledgered ok p ls q)
    (initial : Ordered p.2.book) : Ordered q.2.book ∧ p.2.book.reported ⊆ q.2.book.reported ∧
      p.2.book.disconnects ≤ q.2.book.disconnects := by
  induction run with
  | start => exact ⟨initial, Finset.Subset.refl _, le_rfl⟩
  | @snoc q u ls l _ _ taken ih =>
    obtain ⟨ordered, reported, disconnects⟩ := ih
    obtain ⟨-, note⟩ := observe_iff.mp taken
    rw [note]
    refine ⟨ordered_note ordered _ l, reported.trans ?_, disconnects.trans ?_⟩
    · cases l with
      | close f => exact ordered.happened
      | _ => exact Finset.Subset.refl _
    · cases l with
      | disconnect => exact Nat.le_succ _
      | _ => exact le_rfl

theorem seen_run {p q : Sys ι φ × Ledger φ} (run : Run ledgered ok p ls q) {f : φ}
    (opened : p.1.flush f ≠ .idle) :
    q.1.flush f ≠ .idle ∧ q.2.book.seen f = p.2.book.seen f := by
  induction run with
  | start => exact ⟨opened, rfl⟩
  | @snoc q u ls l _ _ taken ih =>
    obtain ⟨busy, seen⟩ := ih
    obtain ⟨taken, note⟩ := observe_iff.mp taken
    rw [note, ← seen]
    refine ⟨Sys.step_busy busy taken, ?_⟩
    cases l with
    | openFlush g timeout =>
      have other : f ≠ g := by
        rintro rfl
        exact busy (Sys.step_openFlush.mp taken).1
      exact Function.update_of_ne other q.2.book.reported q.2.book.seen
    | _ => rfl

end Runs

section Exact

theorem shared_disconnect (ordered : Ordered b.book) {f : φ} (opened : s.flush f ≠ .idle)
    {after : List (Label ι φ)} (run : Run ledgered ok (s, b) (.disconnect :: after) (t, c)) :
    b.book.disconnects ∈ c.book.window f := by
  obtain ⟨⟨u, d⟩, -, taken, rest⟩ := run.of_cons
  obtain ⟨-, note⟩ := observe_iff.mp taken
  cases note
  have seen : c.book.seen f = b.book.seen f := (seen_run run opened).2
  have next := ordered_note ordered b.outstanding (.disconnect : Label ι φ)
  obtain ⟨-, -, later⟩ := ordered_run rest next
  have now : b.book.disconnects < c.book.disconnects := later
  refine Finset.mem_sdiff.mpr ⟨Finset.mem_range.mpr now, fun known => ?_⟩
  have before := ordered.happened (ordered.seen f (seen ▸ known))
  simp at before

theorem disjoint_windows (ordered : Ordered b.book) {f g : φ} {timeout : Duration}
    {mid after : List (Label ι φ)}
    (run : Run ledgered ok (s, b) (.close f :: mid ++ .openFlush g timeout :: after) (t, c)) :
    Disjoint (b.book.window f) (c.book.window g) := by
  obtain ⟨⟨u, d⟩, first, last⟩ := run.split
  obtain ⟨⟨u₁, b₁⟩, -, taken, first⟩ := first.of_cons
  obtain ⟨-, note⟩ := observe_iff.mp taken
  cases note
  have closed := ordered_note ordered b.outstanding (.close f : Label ι φ)
  have reported : Finset.range b.book.disconnects ⊆ d.book.reported :=
    (ordered_run first closed).2.1
  obtain ⟨⟨v, e⟩, -, taken, last⟩ := last.of_cons
  obtain ⟨taken, note⟩ := observe_iff.mp taken
  cases note
  obtain ⟨-, rfl⟩ := Sys.step_openFlush.mp taken
  have seen : c.book.seen g = d.book.reported := by
    rw [(seen_run last (by simp)).2]
    exact Function.update_self ..
  refine Finset.disjoint_left.mpr fun n early late => (Finset.mem_sdiff.mp late).2 ?_
  rw [seen]
  exact reported (Finset.mem_sdiff.mp early).1

theorem close_loss (tallied : Tallied s b.book)
    (few : s.tracker.unacked.toNat + s.tracker.losses < 2 ^ 32) {f : φ}
    (taken : s.step (.close f) = some t) :
    (t.flush f = .returned (.ok ()) ↔ b.book.loss f = 0) ∧
    (b.book.loss f ≠ 0 → ∃ count : UInt32, count.toNat = b.book.loss f ∧
      t.flush f = .returned (.error (.publishLost count))) := by
  have bound := tallied.loss_le f
  obtain ⟨ok, lost⟩ := tallied_close tallied (room_of_few few) taken
  have answer (some : b.book.loss f ≠ 0) : ∃ count : UInt32, count.toNat = b.book.loss f ∧
      t.flush f = .returned (.error (.publishLost count)) := by
    obtain ⟨count, result, size⟩ := lost some
    exact ⟨count, by omega, result⟩
  refine ⟨⟨fun result => ?_, ok⟩, answer⟩
  by_contra some
  obtain ⟨count, -, other⟩ := answer some
  cases result.symm.trans other

theorem losses_are_exact (run : Run ledgered ok (.new, .empty) ls (s, b))
    (few : ls.countP Label.isCount < 2 ^ 32) (short : ls.count .disconnect < 2 ^ 64) :
    (∀ f t, s.step (.close f) = some t →
      (t.flush f = .returned (.ok ()) ↔ b.book.loss f = 0) ∧
      (b.book.loss f ≠ 0 → ∃ count : UInt32, count.toNat = b.book.loss f ∧
        t.flush f = .returned (.error (.publishLost count)))) ∧
    (∀ f t c, ledgered (s, b) (.close f) = some (t, c) →
      Finset.range b.book.disconnects \ b.book.reported ⊆ b.book.window f ∧
      c.book.reported = Finset.range b.book.disconnects) ∧
    (∀ f after t c, s.flush f ≠ .idle →
      Run ledgered ok (s, b) (.disconnect :: after) (t, c) →
      b.book.disconnects ∈ c.book.window f) ∧
    (∀ f g timeout mid after t c,
      Run ledgered ok (s, b) (.close f :: mid ++ .openFlush g timeout :: after) (t, c) →
      Disjoint (b.book.window f) (c.book.window g)) ∧
    (∀ f t c, ledgered (s, b) (.timeOut f) = some (t, c) ∨
      ledgered (s, b) (.cancel f) = some (t, c) → t.tracker = s.tracker ∧ c = b) ∧
    (Run ledgered (fun p l => Obeys disciplined p.1 l) (.new, .empty) ls (s, b) →
      b.outstanding = (ls.foldl Reference.record (.empty : Reference ι)).live.card) := by
  obtain ⟨measured, -, held⟩ := measured_few run few short
  refine ⟨fun f t taken => ?_, fun f t c taken => ?_, fun f after t c opened rest => ?_,
    fun f g timeout mid after t c rest => ?_, fun f t c taken => ?_, fun named => ?_⟩
  · exact close_loss measured.toTallied (held.trans_lt few) taken
  · obtain ⟨-, note⟩ := observe_iff.mp taken
    cases note
    exact ⟨Finset.sdiff_subset_sdiff (Finset.Subset.refl _) (measured.seen f), rfl⟩
  · exact shared_disconnect measured.toOrdered opened rest
  · exact disjoint_windows measured.toOrdered rest
  · rcases taken with taken | taken
    · obtain ⟨taken, note⟩ := observe_iff.mp taken
      obtain ⟨_, _, -, now⟩ := Sys.step_timeOut.mp taken
      exact ⟨by rw [show t = _ from now], note⟩
    · obtain ⟨taken, note⟩ := observe_iff.mp taken
      obtain ⟨-, now⟩ := Sys.step_cancel.mp taken
      exact ⟨by rw [show t = _ from now], note⟩
  · rw [← measured.outstanding, (live_few named few short).size]

end Exact

/-- Two flushes that are open at one disconnect: the one that closes last reports it too. -/
theorem losses_are_exact_overlapping : ∃ (s : Sys Nat Nat) (b : Ledger Nat),
    Run ledgered (Obeys []) (.new, .empty) [.count 0, .openFlush 0 5, .openFlush 1 5,
      .disconnect, .drain 0, .close 0, .drain 1] (s, b) ∧
    ∃ t, s.step (.close 1) = some t ∧ ∃ count : UInt32, count.toNat = 1 ∧
      t.flush 1 = .returned (.error (.publishLost count)) := by
  obtain ⟨s, b, t, h, taken, one⟩ : ∃ (s : Sys Nat Nat) (b : Ledger Nat) (t : Sys Nat Nat),
      exec ledgered [] (.new, .empty) [.count 0, .openFlush 0 5, .openFlush 1 5,
        .disconnect, .drain 0, .close 0, .drain 1] = some (s, b) ∧
      s.step (.close 1) = some t ∧ b.book.loss 1 = 1 := ⟨_, _, _, rfl, rfl, rfl⟩
  have run := Run.of_exec h
  have answers := (losses_are_exact run (by decide) (by decide)).1 1 t taken
  obtain ⟨count, size, result⟩ := answers.2 (by omega)
  exact ⟨s, b, run, t, taken, count, size.trans one, result⟩

/-- One publish was counted and discarded, and `n` disconnects have passed. -/
def worn (n : Nat) : Sys Nat Nat × Ledger Nat :=
  (⟨⟨0, 1, 0, UInt64.ofNat n⟩, Function.update (fun _ => none) 0 (some ⟨some ⟨0⟩, 0, none, false⟩),
      fun _ => .idle, n⟩,
    ⟨⟨Function.update (fun _ => 0) 0 1, n, ∅, fun _ => ∅⟩, 0⟩)

theorem worn_step (n : Nat) : ledgered (worn (n + 1)) .disconnect = some (worn (n + 2)) := by
  have generation : UInt64.ofNat (n + 1) + 1 = UInt64.ofNat (n + 2) :=
    (UInt64.ofNat_add (n + 1) 1).symm
  have nothing : Function.update (Function.update (fun _ : Nat => 0) 0 1) (n + 1) 0 =
      Function.update (fun _ => 0) 0 1 := Function.update_eq_self_iff.mpr (by simp)
  refine observe_iff.mpr ⟨?_, ?_⟩
  · simp only [worn, Sys.step, State.recordDisconnect, generation]
    rfl
  · simp only [worn, Ledger.note, LossBook.note, Ledger.after, nothing]

theorem worn_run (n : Nat) : Run ledgered (fun p l => Obeys disciplined p.1 l) (.new, .empty)
    (.count 0 :: List.replicate (n + 1) .disconnect) (worn (n + 1)) := by
  have obeys (s : Sys Nat Nat) : Obeys disciplined s .disconnect := by
    simp [disciplined, ownTickets, acksOutstanding, releasesUnanswered]
  induction n with
  | zero =>
    have counted : Obeys disciplined (.new : Sys Nat Nat) (.count 0) := by
      simp [disciplined, ownTickets, acksOutstanding, releasesUnanswered]
    have first : Run ledgered (fun p l => Obeys disciplined p.1 l) (.new, .empty) [.count 0] _ :=
      Run.one counted rfl
    exact first.snoc (obeys _) rfl
  | succ n ih =>
    rw [List.replicate_succ', ← List.cons_append]
    exact ih.snoc (obeys _) (worn_step n)

theorem worn_loss (n : Nat) : ∑ d ∈ Finset.range (n + 2),
    Function.update (Function.update (fun _ => 0) 0 1) (n + 1) 1 d = 2 := by
  have early : ∀ d ∈ Finset.range (n + 1),
      Function.update (Function.update (fun _ => 0) 0 1) (n + 1) 1 d =
        Function.update (fun _ : Nat => 0) 0 1 d := fun d member =>
    Function.update_of_ne (Finset.mem_range.mp member).ne _ _
  rw [Finset.sum_range_succ, Finset.sum_congr rfl early, Finset.sum_range_succ']
  simp

/-- A rollback that is stale by a whole round of the generation takes the place of another. -/
theorem worn_flush : ∃ (s t : Sys Nat Nat) (b : Ledger Nat),
    Run ledgered (fun p l => Obeys disciplined p.1 l) (worn 18446744073709551616)
      [.count 1, .release 0, .disconnect, .openFlush 0 5, .drain 0] (s, b) ∧
    s.step (.close 0) = some t ∧ t.flush 0 = .returned (.error (.publishLost 1)) ∧
    b.book.loss 0 = 2 := by
  obtain ⟨s, t, b, h, closes, answer, book⟩ : ∃ (s t : Sys Nat Nat) (b : Ledger Nat),
      exec ledgered (disciplined.map fun rule p => rule p.1) (worn 18446744073709551616)
        [.count 1, .release 0, .disconnect, .openFlush 0 5, .drain 0] = some (s, b) ∧
      s.step (.close 0) = some t ∧ t.flush 0 = .returned (.error (.publishLost 1)) ∧
      b.book = ⟨Function.update (Function.update (fun _ => 0) 0 1) 18446744073709551616 1,
        18446744073709551617, ∅, Function.update (fun _ => ∅) 0 ∅⟩ :=
    ⟨_, _, _, rfl, rfl, rfl, rfl⟩
  refine ⟨s, t, b, (Run.of_exec h).mono fun p l promise rule member => ?_, closes, answer, ?_⟩
  · exact promise _ (List.mem_map_of_mem (f := fun rule (p : Sys Nat Nat × Ledger Nat) => rule p.1)
      member)
  · rw [LossBook.loss, LossBook.window, book]
    simp only [Function.update_self, Finset.sdiff_empty]
    exact worn_loss 18446744073709551615

/-- One publish is discarded, `n` disconnects pass, and its ticket is given back while the next
publish is outstanding. -/
def staleRound (n : Nat) : List (Label Nat Nat) :=
  .count 0 :: List.replicate n .disconnect ++
    [.count 1, .release 0, .disconnect, .openFlush 0 5, .drain 0]

theorem counts_of_staleRound (n : Nat) : (staleRound n).countP Label.isCount = 2 := by
  simp only [staleRound, List.cons_append, List.countP_cons, List.countP_append,
    List.countP_replicate, List.countP_nil, Label.isCount]
  simp

/-- Behind 2^64 disconnects two publishes are lost in one window, and the flush reports one. -/
theorem worn_generation_hides_a_loss : ∃ (s t : Sys Nat Nat) (b : Ledger Nat),
    Run ledgered (fun p l => Obeys disciplined p.1 l) (.new, .empty)
      (staleRound 18446744073709551616) (s, b) ∧
    (staleRound 18446744073709551616).countP Label.isCount = 2 ∧
    s.step (.close 0) = some t ∧ t.flush 0 = .returned (.error (.publishLost 1)) ∧
    b.book.loss 0 = 2 := by
  obtain ⟨n, round⟩ : ∃ n, n + 1 = 18446744073709551616 := ⟨18446744073709551615, rfl⟩
  obtain ⟨s, t, b, flush, closes, answer, loss⟩ := worn_flush
  rw [← round] at flush ⊢
  exact ⟨s, t, b, (worn_run n).append flush, counts_of_staleRound _, closes, answer, loss⟩

end Sparkplug.Delivery
