import Sparkplug.Delivery.Losses

/-! The words of the tracker against counts without a limit. The count a flush reports is
clamped where it is read; the losses it is read from are summed in one 32-bit word before. -/
namespace Sparkplug.Delivery

open Transition

variable {ι φ : Type}

/-- A call of the tracker that a caller or the loop makes. The other labels are the parts of
a flush behind its opening, and the end of a guard that calls nothing. -/
def Label.isOperation : Label ι φ → Bool
  | .count _ | .release _ | .releaseForeign _ | .ack _ | .disconnect | .openFlush _ _ => true
  | .keep _ | .drain _ | .close _ | .timeOut _ | .cancel _ => false

/-- The publishes that were discarded and that no drained flush has reported. -/
def Ledger.unreported (b : Ledger φ) : Nat :=
  ∑ d ∈ Finset.range b.book.disconnects \ b.book.reported, b.book.outstandingAt d

/-- No more than `u32::MAX` publishes are outstanding at one time. -/
def fewOutstanding (p : Sys ι φ × Ledger φ) : Label ι φ → Bool
  | .count _ => p.2.outstanding < 4294967295
  | _ => true

/-- What a disconnect discards and what is unreported before it are no more than `u32::MAX`
publishes together. -/
def fewUnreported (p : Sys ι φ × Ledger φ) : Label ι φ → Bool
  | .disconnect => p.2.unreported + p.2.outstanding ≤ 4294967295
  | _ => true

/-- What a drained flush has to say of a loss of this size. -/
def lossAnswer (loss : Nat) : Except SparkplugError Unit :=
  if loss = 0 then .ok () else .error (.publishLost (UInt32.ofNat (min loss 4294967295)))

theorem Measured.unreported {s : Sys ι φ} {b : Ledger φ} (h : Measured s b) :
    s.tracker.lost.toNat = b.unreported := by
  have split := Finset.sum_sdiff (f := b.book.outstandingAt) h.happened
  have losses := h.losses
  rw [← split, ← h.reported, State.losses] at losses
  unfold Ledger.unreported
  omega

variable [DecidableEq ι] [DecidableEq φ]

/-- The step that `l` takes from `p.1` wraps no word, and a flush that closes answers by the
true loss in its window. -/
structure Saturates (p : Sys ι φ × Ledger φ) (l : Label ι φ) : Prop where
  counts : roomToCount p.1 l = true
  reports : roomToReport p.1 l = true
  reading : ∀ f openedAt, l = .close f → p.1.flush f = .drained openedAt →
    openedAt.toNat ≤ p.1.tracker.reported.toNat + p.1.tracker.lost.toNat
  answer : ∀ f t, l = .close f → p.1.step l = some t →
    t.flush f = .returned (lossAnswer (p.2.book.loss f))

section Steps

variable {s t : Sys ι φ} {b : Ledger φ} {l : Label ι φ}

omit [DecidableEq ι] [DecidableEq φ] in
theorem counts_of_few (h : Measured s b) (few : fewOutstanding (s, b) l = true)
    (short : s.epoch + [l].countP Label.isOperation < 2 ^ 64) : roomToCount s l = true := by
  have outstanding := h.outstanding
  have generation := h.generation
  cases l with
  | count p =>
    have room : b.outstanding < 4294967295 := of_decide_eq_true few
    exact decide_eq_true (by omega)
  | disconnect =>
    have next : s.epoch + 1 < 2 ^ 64 := short
    exact decide_eq_true (by omega)
  | _ => rfl

omit [DecidableEq ι] [DecidableEq φ] in
theorem reports_of_few (h : Measured s b) (few : fewUnreported (s, b) l = true)
    (short : s.tracker.losses < 2 ^ 64) : roomToReport s l = true := by
  cases l with
  | disconnect =>
    have room : b.unreported + b.outstanding ≤ 4294967295 := of_decide_eq_true few
    rw [← h.unreported, ← h.outstanding] at room
    exact decide_eq_true (by omega)
  | close f => exact decide_eq_true short
  | _ => rfl

omit [DecidableEq ι] [DecidableEq φ] in
theorem few_of_reports (h : Measured s b) (reports : roomToReport s l = true) :
    fewUnreported (s, b) l = true := by
  cases l with
  | disconnect =>
    have room : s.tracker.lost.toNat + s.tracker.unacked.toNat < 2 ^ 32 :=
      of_decide_eq_true reports
    rw [h.unreported, h.outstanding] at room
    exact decide_eq_true (Nat.le_of_lt_succ room)
  | _ => rfl

theorem after_le (s : Sys ι φ) (l : Label ι φ) (n : Nat) :
    Ledger.after s l n + (if l = .disconnect then n else 0) + [l].count .disconnect ≤
      n + [l].countP Label.isOperation := by
  have lowered (rolls : Prop) [Decidable rolls] : (if rolls then n - 1 else n) ≤ n + 1 := by
    split <;> omega
  cases l with
  | release p => simpa [Ledger.after, Label.isOperation] using lowered _
  | releaseForeign ticket => simpa [Ledger.after, Label.isOperation] using lowered _
  | ack p =>
    simp only [Ledger.after, Label.isOperation, List.countP_singleton]
    simp
    omega
  | _ => simp [Ledger.after, Label.isOperation]

theorem spent_step (h : Measured s b) (counts : roomToCount s l = true)
    (reports : roomToReport s l = true) (taken : s.step l = some t) :
    t.tracker.unacked.toNat + t.tracker.losses + t.epoch ≤
      s.tracker.unacked.toNat + s.tracker.losses + s.epoch +
        [l].countP Label.isOperation := by
  have unacked := after_step h counts taken
  have losses := losses_step reports taken
  have epoch := Sys.step_epoch taken
  have added := after_le s l b.outstanding
  rw [h.outstanding] at losses ⊢
  omega

theorem flush_at_once {f : φ} (timeout : Duration) (idle : s.flush f = .idle)
    (empty : s.tracker.isDrained = true) : ∃ u v t, s.step (.openFlush f timeout) = some u ∧
      u.step (.drain f) = some v ∧ v.step (.close f) = some t ∧
      t.flush f = .returned (s.tracker.closeFlush s.tracker.reported).1 :=
  ⟨_, _, _, Sys.step_openFlush.mpr ⟨idle, rfl⟩,
    Sys.step_drain.mpr ⟨timeout, s.tracker.reported, by simp, empty, rfl⟩,
    Sys.step_close.mpr ⟨s.tracker.reported, by simp, rfl⟩, by simp⟩

theorem saturates_of_room (h : Measured s b) (counts : roomToCount s l = true)
    (reports : roomToReport s l = true) : Saturates (s, b) l := by
  refine ⟨counts, reports, fun f openedAt closes drains => ?_, fun f t closes taken => ?_⟩
  · have total := h.total (opened_of_drained drains)
    exact (Nat.le_add_right openedAt.toNat _).trans total.ge
  · subst closes
    obtain ⟨ok, lost⟩ := tallied_close h.toTallied reports taken
    by_cases none : b.book.loss f = 0
    · rw [ok none, lossAnswer, if_pos none]
    · obtain ⟨count, result, size⟩ := lost none
      rw [result, lossAnswer, if_neg none, ← size, UInt32.ofNat_toNat]

end Steps

section Runs

variable {ls : List (Label ι φ)} {now : Sys ι φ × Ledger φ}

theorem measured_next {p q : Sys ι φ × Ledger φ} {l : Label ι φ} (h : Measured p.1 p.2)
    (holds : Saturates p l) (taken : ledgered p l = some q) : Measured q.1 q.2 := by
  obtain ⟨taken, note⟩ := observe_iff.mp taken
  rw [note]
  exact measured_step h holds.counts holds.reports taken

theorem measured_run (run : Run ledgered Saturates (.new, .empty) ls now) :
    Measured now.1 now.2 :=
  run.invariant (P := fun p => Measured p.1 p.2) measured_initial
    fun _ _ _ _ h holds taken => measured_next h holds taken

theorem saturates_run
    (run : Run ledgered (fun p l => Obeys [fewOutstanding] p l ∧ fewUnreported p l = true)
      (.new, .empty) ls now)
    (short : ls.countP Label.isOperation < 2 ^ 64) :
    Run ledgered Saturates (.new, .empty) ls now ∧
      now.1.tracker.unacked.toNat + now.1.tracker.losses + now.1.epoch ≤
        ls.countP Label.isOperation := by
  induction run with
  | start => exact ⟨.start _, Nat.le_refl 0⟩
  | @snoc p q ls l before promise taken ih =>
    rw [List.countP_append] at short ⊢
    obtain ⟨saturates, spent⟩ := ih (by omega)
    have measured := measured_run saturates
    obtain ⟨⟨few, -⟩, unreported⟩ := by simpa only [obeys_cons] using promise
    have counts := counts_of_few measured few (by omega)
    have reports := reports_of_few measured unreported (by omega)
    have holds : Saturates p l := saturates_of_room measured counts reports
    have grows := spent_step measured counts reports (observe_iff.mp taken).1
    exact ⟨saturates.snoc holds taken, by omega⟩

theorem outstanding_is_live
    (run : Run ledgered (fun p l => Obeys disciplined p.1 l ∧ Saturates p l)
      (.new, .empty) ls now) :
    now.2.outstanding = (ls.foldl Reference.record (.empty : Reference ι)).live.card := by
  have both : Agrees now.1 (ls.foldl Reference.record .empty) ∧ Measured now.1 now.2 := by
    refine run.follow (R := fun p r => Agrees p.1 r ∧ Measured p.1 p.2)
      ⟨agrees_initial, measured_initial⟩ fun p l q r h promise taken => ?_
    obtain ⟨agrees, measured⟩ := h
    obtain ⟨named, saturates⟩ := promise
    have rules := rules_of_disciplined named saturates.counts
    exact ⟨agrees_step agrees rules (observe_iff.mp taken).1,
      measured_next measured saturates taken⟩
  rw [← both.2.outstanding, both.1.size]

/-- No word wraps and every flush tells the truth exactly when each disconnect finds room
for what it discards. -/
theorem losses_saturate_iff (run : Run ledgered (Obeys [fewOutstanding]) (.new, .empty) ls now)
    (short : ls.countP Label.isOperation < 2 ^ 64) :
    Run ledgered Saturates (.new, .empty) ls now ↔
      Run ledgered (Obeys [fewUnreported]) (.new, .empty) ls now := by
  constructor
  · intro saturates
    refine (saturates.strengthen (P := fun p => Measured p.1 p.2) measured_initial
      (fun p l q h holds taken => measured_next h holds taken) fun p l q h holds _ => ?_).1
    simpa only [obeys_cons, obeys_nil, and_true] using few_of_reports h holds.reports
  · intro unreported
    refine (saturates_run ((run.both unreported).mono fun p l promise => ?_) short).1
    simpa only [obeys_cons, obeys_nil, and_true] using promise

end Runs

theorem losses_saturate_iff_small : ∃ (s : Sys Nat Nat) (b : Ledger Nat),
    Run ledgered (Obeys [fewOutstanding]) (.new, .empty)
      [.count 0, .disconnect, .openFlush 0 5, .drain 0, .close 0] (s, b) ∧
    Run ledgered Saturates (.new, .empty)
      [.count 0, .disconnect, .openFlush 0 5, .drain 0, .close 0] (s, b) ∧
    s.flush 0 = .returned (.error (.publishLost 1)) := by
  obtain ⟨s, b, few, unreported, answer⟩ : ∃ (s : Sys Nat Nat) (b : Ledger Nat),
      exec ledgered [fewOutstanding] (.new, .empty)
        [.count 0, .disconnect, .openFlush 0 5, .drain 0, .close 0] = some (s, b) ∧
      exec ledgered [fewUnreported] (.new, .empty)
        [.count 0, .disconnect, .openFlush 0 5, .drain 0, .close 0] = some (s, b) ∧
      s.flush 0 = .returned (.error (.publishLost 1)) := ⟨_, _, rfl, rfl, rfl⟩
  have run := Run.of_exec few
  exact ⟨s, b, run, (losses_saturate_iff run (by decide)).mpr (Run.of_exec unreported), answer⟩

/-- A publish that is counted and discarded, `n` times over. -/
def rounds (n : Nat) : List (Label Nat Nat) :=
  (List.range n).flatMap fun p => [.count p, .disconnect]

theorem rounds_succ (n : Nat) : rounds (n + 1) = rounds n ++ [.count n, .disconnect] := by
  rw [rounds, List.range_succ, List.flatMap_append]
  rfl

/-- Behind `n` rounds each disconnect has discarded one publish and nobody knows of it. -/
structure Wound (n : Nat) (p : Sys Nat Nat × Ledger Nat) : Prop where
  unacked : p.1.tracker.unacked = 0
  lost : p.1.tracker.lost = UInt32.ofNat n
  reported : p.1.tracker.reported = 0
  fresh : ∀ i, n ≤ i → p.1.publish i = none
  idle : p.1.flush 0 = .idle
  outstanding : p.2.outstanding = 0
  disconnects : p.2.book.disconnects = n
  silent : p.2.book.reported = ∅
  one : ∀ d < n, p.2.book.outstandingAt d = 1

theorem wound_step {n : Nat} {p : Sys Nat Nat × Ledger Nat} (h : Wound n p) :
    ∃ q, Run ledgered (Obeys [fewOutstanding]) p [.count n, .disconnect] q ∧
      Wound (n + 1) q := by
  obtain ⟨s, b⟩ := p
  have none : b.outstanding = 0 := h.outstanding
  have counted := ledgered_of_step (b := b) (Sys.step_count.mpr ⟨h.fresh n le_rfl, rfl⟩)
  have few : Obeys [fewOutstanding] (s, b) (.count n) := by simp [fewOutstanding, none]
  have first := Run.one few counted
  have second := first.snoc (by simp [fewOutstanding]) (ledgered_of_step (l := .disconnect) rfl)
  refine ⟨_, second, rfl, ?_, h.reported, fun i later => ?_, h.idle, rfl, ?_, h.silent,
    fun d early => ?_⟩
  · change s.tracker.lost + (s.tracker.unacked + 1) = _
    rw [h.lost, h.unacked, UInt32.ofNat_add]
    rfl
  · have other : i ≠ n := by omega
    exact (Function.update_of_ne other _ s.publish).trans (h.fresh i (by omega))
  · change b.book.disconnects + 1 = _
    rw [h.disconnects]
  · change Function.update b.book.outstandingAt b.book.disconnects (b.outstanding + 1) d = 1
    rw [h.disconnects, none]
    by_cases last : d = n
    · rw [last, Function.update_self]
    · rw [Function.update_of_ne last]
      exact h.one d (by omega)

theorem rounds_run (n : Nat) :
    ∃ p, Run ledgered (Obeys [fewOutstanding]) (.new, .empty) (rounds n) p ∧ Wound n p := by
  induction n with
  | zero =>
    exact ⟨_, .start _, rfl, rfl, rfl, fun _ _ => rfl, rfl, rfl, rfl, rfl,
      fun d h => absurd h (Nat.not_lt_zero d)⟩
  | succ n ih =>
    obtain ⟨p, run, wound⟩ := ih
    obtain ⟨q, more, wound⟩ := wound_step wound
    rw [rounds_succ]
    exact ⟨q, run.append more, wound⟩

theorem operations_rounds (n : Nat) : (rounds n).countP Label.isOperation = 2 * n := by
  induction n with
  | zero => rfl
  | succ n ih =>
    rw [rounds_succ, List.countP_append, ih]
    rfl

/-- A flush behind the rounds reads no loss once the word of the losses is back at 0. -/
theorem wound_flush {n : Nat} {p : Sys Nat Nat × Ledger Nat} (h : Wound n p)
    (wraps : UInt32.ofNat n = 0) : ∃ (s t : Sys Nat Nat) (b : Ledger Nat),
      Run ledgered (Obeys [fewOutstanding]) p [.openFlush 0 5, .drain 0] (s, b) ∧
      s.step (.close 0) = some t ∧ t.flush 0 = .returned (.ok ()) ∧ b.book.loss 0 = n := by
  obtain ⟨s, b⟩ := p
  have empty : s.tracker.isDrained = true := by
    rw [State.isDrained, h.unacked]
    rfl
  obtain ⟨u, v, t, opened, drained, closed, answer⟩ := flush_at_once 5 h.idle empty
  have few : Obeys [fewOutstanding] (s, b) (.openFlush 0 5) := by simp [fewOutstanding]
  have first := Run.one few (ledgered_of_step opened)
  have second := first.snoc (by simp [fewOutstanding]) (ledgered_of_step drained)
  refine ⟨v, t, _, second, closed, ?_, ?_⟩
  · rw [answer, State.closeFlush, h.reported, h.lost, wraps]
    rfl
  · change ∑ d ∈ Finset.range b.book.disconnects \ Function.update b.book.seen 0 b.book.reported 0,
      b.book.outstandingAt d = n
    rw [Function.update_self, h.silent, Finset.sdiff_empty, h.disconnects,
      Finset.sum_congr rfl fun d hd => h.one d (Finset.mem_range.mp hd)]
    simp

def silentLosses : List (Label Nat Nat) := rounds (2 ^ 32) ++ [.openFlush 0 5, .drain 0]

/-- With one publish outstanding at most, 2^32 of them are lost and no flush tells. -/
theorem large_loss_is_forgotten : ∃ (s t : Sys Nat Nat) (b : Ledger Nat),
    Run ledgered (Obeys [fewOutstanding]) (.new, .empty) silentLosses (s, b) ∧
    silentLosses.countP Label.isOperation < 2 ^ 64 ∧
    s.step (.close 0) = some t ∧ t.flush 0 = .returned (.ok ()) ∧ b.book.loss 0 = 2 ^ 32 := by
  obtain ⟨p, run, wound⟩ := rounds_run (2 ^ 32)
  obtain ⟨s, t, b, flush, closes, answer, loss⟩ := wound_flush wound rfl
  refine ⟨s, t, b, run.append flush, ?_, closes, answer, loss⟩
  rw [silentLosses, List.countP_append, operations_rounds]
  decide

end Sparkplug.Delivery
