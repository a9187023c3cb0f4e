import Sparkplug.Client.Window

/-! Where a number goes out twice. Of the calls with one message, those whose message left in
the window are the ones that let the next message have their number. -/
namespace Sparkplug

open Transition

variable {κ φ : Type}

def Phase.drafting : Phase → Bool
  | .ready _ | .offered _ _ => true
  | _ => false

def Births (ls : List (Instant κ φ)) (c : κ) : Prop :=
  ∃ op, .plain (.start c op) ∈ ls ∧ op.isBirth = true

structure Singles [DecidableEq κ] (ls : List (Instant κ φ)) (w : Window κ φ) : Prop where
  slipped : ∀ c, .slip c ∈ ls →
    w.client.call c = .cancelled ∨ ∃ held guarded, w.client.call c = .unwinding held guarded none
  fresh : ∀ c, (w.client.call c).drafting = true → Births ls c ∨ ∀ p ∈ w.wire, p.1 ≠ c
  once : ∀ c, Births ls c ∨ (w.wire.filter (·.1 = c)).length ≤ 1
  placed : ∀ c m, (c, m) ∈ w.wire → Births ls c ∨ .slip c ∈ ls ∨ w.client.stood c = true ∨
    ∃ held, w.client.call c = .taken held

section Steps

variable [DecidableEq κ] [DecidableEq φ] {client : Client} {w u : Window κ φ} {s t : Sys κ φ}
  {ok : Window κ φ → Instant κ φ → Prop} {ls : List (Instant κ φ)} {l : Instant κ φ} {c : κ}
  {items rest : List (κ × Message)} {m : Message}

omit [DecidableEq φ] in
theorem counted_append_of_stood (stands : s.stood c = true) :
    s.counted none (items ++ [(c, m)]) = s.counted none items ++ [m] := by
  simp [Sys.counted, stands]

omit [DecidableEq φ] in
theorem absent_of_single
    (once : ((items ++ (c, m) :: rest).filter (·.1 = c)).length ≤ 1) : ∀ p ∈ items, p.1 ≠ c := by
  rw [List.filter_append, List.length_append, List.filter_cons_of_pos (by simp)] at once
  intro p member mine
  have found : 0 < (items.filter (·.1 = c)).length :=
    List.length_pos_of_mem (List.mem_filter.mpr ⟨member, by simpa using mine⟩)
  rw [List.length_cons] at once
  omega

omit [DecidableEq κ] [DecidableEq φ] in
theorem births_append {a : Instant κ φ} (births : Births ls c) : Births (ls ++ [a]) c := by
  obtain ⟨op, asked, birth⟩ := births
  exact ⟨op, List.mem_append_left _ asked, birth⟩

omit [DecidableEq φ] in
theorem singles_initial : Singles [] (.new : Window κ φ) := by
  refine ⟨by simp, fun c drafts => ?_, fun c => .inr (Nat.zero_le _), fun c m member => ?_⟩
  · cases drafts
  · cases member

theorem births_of_next {held : Holding} (run : Run (Window.step client) ok .new ls w)
    (takes : w.client.call c = .taken held)
    (more : held.stage + 1 < held.script.drafts.length) : Births ls c := by
  have asked := asked_run (client_of_window run).1
  obtain ⟨op, started⟩ := asked.origin c (by rw [takes]; nofun)
  have built := asked.scripted c op held.script started (by rw [takes]; rfl)
  obtain ⟨l, member, seen⟩ := List.mem_map.mp started
  cases l with
  | slip d => cases seen
  | plain l =>
    cases seen
    refine ⟨op, member, ?_⟩
    by_contra data
    have alone := Client.rest_of_data (by simpa using data) built
    rw [Script.drafts, alone] at more
    simp at more

theorem left_of_leaving {held : Holding} {message : Message}
    (taken : Window.step client w l = some u)
    (offers : w.client.call c = .offered held message)
    (leaves : l = .plain (.accept c) ∨ l = .slip c) :
    (l = .plain (.accept c) ∧ u.client.call c = .taken held) ∨
    (l = .slip c ∧ ∃ guarded, u.client.call c = .unwinding held guarded none) := by
  obtain ⟨moves, -, -⟩ := window_step taken
  obtain ⟨u, ws⟩ := u
  rcases leaves with rfl | rfl
  · refine .inl ⟨rfl, ?_⟩
    dsimp only [Instant.seen] at moves ⊢
    cases moves with
    | accepted offers' kept =>
      cases offers.symm.trans offers'
      exact put_self
  · refine .inr ⟨rfl, ?_⟩
    dsimp only [Instant.seen] at moves ⊢
    cases moves with
    | left waits => cases offers.symm.trans waits
    | cancelled offers' =>
      cases offers.symm.trans offers'
      exact ⟨_, put_self⟩

omit [DecidableEq κ] [DecidableEq φ] in
theorem over_of_stood (stands : s.stood c = true) : (s.call c).over = true := by
  unfold Sys.stood at stands
  split at stands <;> rename_i phase
  · rw [phase]
    rfl
  · cases stands

theorem slipped_step {l : Label κ φ} {t : Sys κ φ} (moves : Sys.Moves client s l t)
    (h : s.call c = .cancelled ∨ ∃ held guarded, s.call c = .unwinding held guarded none) :
    t.call c = .cancelled ∨ ∃ held guarded, t.call c = .unwinding held guarded none := by
  rcases phase_step moves c with same | ⟨before, after, found, left, own⟩
  · rw [same]
    exact h
  · rw [found] at h
    rw [left]
    rcases h with rfl | ⟨held, guarded, rfl⟩
    · cases own
    · cases own with
      | released => exact .inr ⟨_, _, rfl⟩
      | restored => exact .inl rfl

theorem singles_step (run : Run (Window.step client) ok .new ls w) (h : Singles ls w)
    (taken : Window.step client w l = some u) : Singles (ls ++ [l]) u := by
  obtain ⟨moves, wire, slips⟩ := window_step taken
  refine ⟨fun c slipped => ?_, fun c drafts => ?_, fun c => ?_, fun c m member => ?_⟩
  · rcases List.mem_append.mp slipped with earlier | now
    · exact slipped_step moves (h.slipped c earlier)
    · cases List.mem_singleton.mp now
      obtain ⟨held, message, offers⟩ := slips c rfl
      rcases left_of_leaving taken offers (.inr rfl) with ⟨other, -⟩ | ⟨-, guarded, left⟩
      · cases other
      · exact .inr ⟨held, guarded, left⟩
  · rcases leaving_cases w.client l with none | ⟨d, held, message, offers, leaves, one⟩
    · rw [wire, none, List.append_nil]
      rcases phase_step moves c with same | ⟨before, after, found, left, own⟩
      · rw [same] at drafts
        exact (h.fresh c drafts).imp_left births_append
      · rw [left] at drafts
        generalize l.seen = seen at own
        cases own with
        | acquired =>
          refine .inr fun p member mine => ?_
          rcases (counting_run run).placed p.1 p.2 member with ended | ⟨held, holds, -⟩
          · rw [mine, found] at ended; cases ended
          · rw [mine, found] at holds; cases holds
        | offered => exact (h.fresh c (by rw [found]; rfl)).imp_left births_append
        | advanced more => exact .inl (births_append (births_of_next run found more))
        | @restored _ error => cases error <;> cases drafts
        | _ => cases drafts
    · have apart : d ≠ c := by
        rintro rfl
        rcases left_of_leaving taken offers leaves with ⟨-, left⟩ | ⟨-, guarded, left⟩
        · rw [left] at drafts; cases drafts
        · rw [left] at drafts; cases drafts
      have same : u.client.call c = w.client.call c := by
        refine call_of_other moves ?_
        rcases leaves with rfl | rfl
        · exact fun mine => apart (Option.some.inj mine)
        · exact fun mine => apart (Option.some.inj mine)
      rw [same] at drafts
      rw [wire, one]
      refine (h.fresh c drafts).imp births_append fun absent p member => ?_
      rcases List.mem_append.mp member with earlier | now
      · exact absent p earlier
      · cases List.mem_singleton.mp now
        exact apart
  · rcases leaving_cases w.client l with none | ⟨d, held, message, offers, leaves, one⟩
    · rw [wire, none, List.append_nil]
      exact (h.once c).imp_left births_append
    · rw [wire, one, List.filter_append]
      by_cases mine : d = c
      · subst mine
        rcases h.fresh d (by rw [offers]; rfl) with births | absent
        · exact .inl (births_append births)
        · refine .inr ?_
          rw [List.filter_eq_nil_iff.mpr fun p member => by simpa using absent p member]
          simp
      · rw [List.filter_cons_of_neg (by simpa using mine), List.filter_nil, List.append_nil]
        exact (h.once c).imp_left births_append
  · rw [wire] at member
    rcases List.mem_append.mp member with earlier | now
    · rcases h.placed c m earlier with births | slipped | stands | ⟨held, takes⟩
      · exact .inl (births_append births)
      · exact .inr (.inl (List.mem_append_left _ slipped))
      · refine .inr (.inr (.inl ?_))
        unfold Sys.stood
        rw [over_step (over_of_stood stands) moves]
        exact stands
      · rcases phase_step moves c with same | ⟨before, after, found, left, own⟩
        · exact .inr (.inr (.inr ⟨held, same.trans takes⟩))
        · cases takes.symm.trans found
          generalize l.seen = seen at own
          cases own with
          | advanced more => exact .inl (births_append (births_of_next run takes more))
          | committed => exact .inr (.inr (.inl (by simp [Sys.stood, left])))
    · rcases leaving_cases w.client l with none | ⟨d, held, message, offers, leaves, one⟩
      · rw [none] at now
        cases now
      · rw [one] at now
        cases List.mem_singleton.mp now
        rcases left_of_leaving taken offers leaves with ⟨-, left⟩ | ⟨rfl, -⟩
        · exact .inr (.inr (.inr ⟨held, left⟩))
        · exact .inr (.inl (by simp))

theorem singles_run (run : Run (Window.step client) ok .new ls w) : Singles ls w := by
  induction run with
  | start => exact singles_initial
  | snoc before _ taken ih => exact singles_step before ih taken

/-- Of two messages of data calls that leave one behind the other for an edge node, the second
repeats the number of the first where the first left in the window, and counts on by one where
it did not. -/
theorem a_slip_repeats_its_number (run : Run (Window.step client) ok .new ls w)
    (pair : EdgeNode) : ∀ before c m d n after,
      sentFor pair w.wire = before ++ (c, m) :: (d, n) :: after →
      (∀ op, .plain (.start c op) ∈ ls ∨ .plain (.start d op) ∈ ls → op.isBirth = false) →
      m.topic.messageType ≠ .NBIRTH → n.topic.messageType ≠ .NBIRTH →
      ∃ k : UInt8, m.payload.seq = some k.toUInt64 ∧
        (.slip c ∈ ls → n.payload.seq = some k.toUInt64) ∧
        (.slip c ∉ ls → n.payload.seq = some (k + 1).toUInt64) := by
  intro before c m d n after split data dataM dataN
  have singles := singles_run run
  have counting := counting_run run
  have single (e : κ) (mine : e = c ∨ e = d) :
      ((sentFor pair w.wire).filter (·.1 = e)).length ≤ 1 := by
    rcases singles.once e with ⟨op, asked, birth⟩ | once
    · have no : op.isBirth = false := data op (by rcases mine with rfl | rfl <;> simp [asked])
      rw [no] at birth
      cases birth
    · exact (List.filter_sublist.filter _).length_le.trans once
  have split' : sentFor pair w.wire = (before ++ [(c, m)]) ++ (d, n) :: after := by
    rw [split, List.append_assoc]
    rfl
  have absentC := absent_of_single (split ▸ single c (.inl rfl))
  have absentD := absent_of_single (split' ▸ single d (.inr rfl))
  have first := counting.counts pair before (c, m) _ split
  have second := counting.counts pair _ (d, n) after split'
  rw [expected, if_neg dataM, counted_none_of_absent absentC] at first
  rw [expected, if_neg dataN, counted_none_of_absent absentD] at second
  refine ⟨UInt8.ofNat (sinceBirth (w.client.counted none before) + 1), ?_, fun slipped => ?_,
    fun straight => ?_⟩
  · rw [first, toUInt64_ofNat]
  · have standing : w.client.stood c = false := by
      unfold Sys.stood
      rcases singles.slipped c slipped with gone | ⟨held, guarded, unwinds⟩
      · rw [gone]
      · rw [unwinds]
    rw [second, counted_append_of_not standing, toUInt64_ofNat]
  · have member : (c, m) ∈ w.wire := List.mem_of_mem_filter (split ▸ by simp : _ ∈ sentFor pair _)
    have stands : w.client.stood c = true := by
      rcases singles.placed c m member with ⟨op, asked, birth⟩ | slipped | stands | ⟨held, takes⟩
      · rw [data op (.inl asked)] at birth
        cases birth
      · exact absurd slipped straight
      · exact stands
      · -- The message of the next call would have had to wait for this gate.
        rcases counting.turns pair _ (d, n) after split' (c, m) (by simp) with same | ended
        · exact absurd same (absentD (c, m) (by simp))
        · rw [takes] at ended
          cases ended
    rw [second, counted_append_of_stood stands, sinceBirth_append, expected, if_neg dataM,
      ← toUInt64_ofNat, UInt8.ofNat_add (_ + 1)]
    rfl

end Steps

/-- The second of three messages leaves in the window, and the third repeats its 2. -/
theorem a_slip_repeats_its_number_small : ∃ (w : Window Nat Nat) (m₀ m₁ m₂ : Message),
    Run (Window.step plantClient) (Obeys []) .new
      ([.start 0 plantData, .acquire 0, .offer 0, .accept 0, .commit 0, .start 1 plantData,
        .acquire 1, .offer 1].map .plain ++ [.slip 1] ++
        [.restore 1, .start 2 plantData, .acquire 2, .offer 2, .accept 2].map .plain) w ∧
    w.wire = [(0, m₀), (1, m₁), (2, m₂)] ∧
    ∃ k : UInt8, m₁.payload.seq = some k.toUInt64 ∧ m₂.payload.seq = some k.toUInt64 := by
  obtain ⟨w, m₀, m₁, m₂, h, wire, mine, data, data'⟩ : ∃ (w : Window Nat Nat)
      (m₀ m₁ m₂ : Message),
      exec (Window.step plantClient) [] .new
        ([.start 0 plantData, .acquire 0, .offer 0, .accept 0, .commit 0, .start 1 plantData,
          .acquire 1, .offer 1].map .plain ++ [.slip 1] ++
          [.restore 1, .start 2 plantData, .acquire 2, .offer 2, .accept 2].map .plain) =
        some w ∧
      w.wire = [(0, m₀), (1, m₁), (2, m₂)] ∧ sentFor plantNode w.wire = w.wire ∧
      m₁.topic.messageType = .DDATA ∧ m₂.topic.messageType = .DDATA :=
    ⟨_, _, _, _, rfl, rfl, rfl, rfl, rfl⟩
  have run := Run.of_exec h
  rw [← mine] at wire
  obtain ⟨k, first, again, -⟩ := a_slip_repeats_its_number run plantNode [(0, m₀)] 1 m₁ 2 m₂ []
    wire (by simp +contextual [plantData, Operation.isBirth]) (by rw [data]; nofun)
    (by rw [data']; nofun)
  rw [mine] at wire
  exact ⟨w, m₀, m₁, m₂, run, wire, k, first, again (by simp)⟩

end Sparkplug
