import Sparkplug.Client.Stream

/-! What an NBIRTH that went out leaves for the next message of its edge node. The call that
handed it over decides: if it ends without Ok, its reservation brings the old count back. -/
namespace Sparkplug

open Transition

variable {κ φ : Type}

def Phase.endedWithoutOk : Phase → Bool
  | .returned (.error _) => true
  | .cancelled => true
  | _ => false

/-- The client takes no message of this pair. -/
def quiet (pair : EdgeNode) (s : Sys κ φ) : Label κ φ → Bool
  | .accept c =>
    match s.call c with
    | .offered _ message => decide (message.topic.edgeNode ≠ some pair)
    | _ => true
  | _ => true

/-- How the call of the NBIRTH stands, and the last number of its pair with it. -/
def Phase.Restarts (phase : Phase) (pair : EdgeNode) (found last : UInt8) : Prop :=
  match phase with
  | .taken held =>
    held.script.pair = pair ∧ held.reservation.restoreTo = some found ∧ last = 0
  | .ready held =>
    held.script.pair = pair ∧ held.reservation.restoreTo = some found ∧ last = 0 ∧
    held.stage ≠ 0
  | .offered held _ =>
    held.script.pair = pair ∧ held.reservation.restoreTo = some found ∧ last = 0 ∧
    held.stage ≠ 0
  | .unwinding held _ _ =>
    held.script.pair = pair ∧ held.reservation.restoreTo = some found ∧ held.stage ≠ 0
  | .returned (.ok ()) => last = 0
  | .returned (.error _) => last = found
  | .cancelled => last = found
  | _ => False

structure Others (s : Sys κ φ) (c : κ) (pair : EdgeNode) : Prop where
  fresh : ∀ d held, d ≠ c → (s.call d).holding = some held → held.script.pair = pair →
    held.stage = 0
  untaken : ∀ d held, d ≠ c → s.call d = .taken held → held.script.pair ≠ pair

structure Restarted (s : Sys κ φ) (c : κ) (pair : EdgeNode) (found last : UInt8) : Prop where
  gated : Gated s
  atPair : AtPair s pair last
  /-- No other call has handed a message over under its reservation. -/
  fresh : ∀ d held, d ≠ c → (s.call d).holding = some held → held.script.pair = pair →
    held.stage = 0
  untaken : ∀ d held, d ≠ c → s.call d = .taken held → held.script.pair ≠ pair
  restarts : (s.call c).Restarts pair found last

section Restart

variable [DecidableEq κ] [DecidableEq φ] {client : Client} {s t u : Sys κ φ} {l : Label κ φ}
  {c d : κ} {pair : EdgeNode} {found last : UInt8}

omit [DecidableEq κ] [DecidableEq φ] in
theorem Restarted.others (h : Restarted s c pair found last) : Others s c pair :=
  ⟨h.fresh, h.untaken⟩

omit [DecidableEq κ] [DecidableEq φ] in
theorem others_of_holder {held : Holding} (gated : Gated s)
    (holds : (s.call c).holding = some held) (names : held.script.pair = pair) :
    Others s c pair := by
  subst names
  constructor
  · intro d other apart hd same
    exact absurd same (gated.alone holds d other apart hd)
  · intro d other apart takes
    exact gated.alone holds d other apart (by rw [takes]; rfl)

omit [DecidableEq κ] [DecidableEq φ] in
theorem untouched_of_quiet {held : Holding} {message : Message} (h : AtPair s pair last)
    (calm : quiet pair s (.accept c) = true) (offers : s.call c = .offered held message) :
    held.script.pair ≠ pair := by
  rintro rfl
  have apart : message.topic.edgeNode ≠ some held.script.pair := by
    simpa [quiet, offers] using calm
  exact apart (h.names offers).1

theorem others_step (h : Others s c pair) (atPair : AtPair s pair last)
    (calm : quiet pair s l = true) (moves : Sys.Moves client s l t) : Others t c pair := by
  constructor
  · intro d held other holds names
    rcases holding_of_step moves holds with same | first | ⟨before, takes, rfl⟩
    · exact h.fresh d held other same names
    · exact first
    · exact absurd names (h.untaken d before other takes)
  · intro d held other takes
    rcases taken_of_step moves takes with same | ⟨message, offers, rfl⟩
    · exact h.untaken d held other same
    · exact untouched_of_quiet atPair calm offers

theorem carried_of_other (h : Others s c pair) (atPair : AtPair s pair last)
    (calm : quiet pair s l = true) (moves : Sys.Moves client s l t)
    (other : l.caller ≠ some c) : s.carried pair last l = last := by
  cases moves with
  | @accepted d held message delivery offers kept =>
    have apart := untouched_of_quiet atPair calm offers
    simp [Sys.carried, offers, apart]
  | @restored d held error unwinds =>
    have holds : (s.call d).holding = some held := by rw [unwinds]; rfl
    have apart : d ≠ c := by
      rintro rfl
      exact other rfl
    have first := h.fresh d held apart holds
    simp only [Sys.carried, unwinds, ite_eq_right_iff]
    rintro ⟨names, later⟩
    exact absurd (first names) later
  | _ => rfl

theorem restarts_step (h : Restarted s c pair found last) (calm : quiet pair s l = true)
    (moves : Sys.Moves client s l t) :
    (t.call c).Restarts pair found (s.carried pair last l) := by
  have restarts := h.restarts
  by_cases own : l.caller = some c
  · cases moves with
    | rejected idle built => cases own; rw [idle] at restarts; cases restarts
    | started idle built => cases own; rw [idle] at restarts; cases restarts
    | acquired waits free => cases own; rw [waits] at restarts; cases restarts
    | offered ready current built counted =>
      cases own
      rw [ready] at restarts
      rw [put_self]
      exact restarts
    | accepted offers kept =>
      cases own
      rw [offers] at restarts
      exact absurd restarts.1 (untouched_of_quiet h.atPair calm offers)
    | advanced takes more =>
      cases own
      rw [takes] at restarts
      rw [put_self]
      exact ⟨restarts.1, restarts.2.1, restarts.2.2, Nat.succ_ne_zero _⟩
    | committed takes done =>
      cases own
      rw [takes] at restarts
      rw [put_self]
      exact restarts.2.2
    | refused offers =>
      cases own
      rw [offers] at restarts
      rw [put_self]
      exact ⟨restarts.1, restarts.2.1, restarts.2.2.2⟩
    | left waits => cases own; rw [waits] at restarts; cases restarts
    | cancelled offers =>
      cases own
      rw [offers] at restarts
      rw [put_self]
      exact ⟨restarts.1, restarts.2.1, restarts.2.2.2⟩
    | released unwinds rolled =>
      cases own
      rw [unwinds] at restarts
      rw [put_self]
      exact restarts
    | @restored c held error unwinds =>
      cases own
      rw [unwinds] at restarts
      obtain ⟨names, saved, later⟩ := restarts
      have back : s.carried pair last (.restore c) = found := by
        simp [Sys.carried, unwinds, names, later, saved]
      rw [put_self, back]
      cases error <;> rfl
    | happened outside taken => cases own
  · rw [call_of_other moves own, carried_of_other h.others h.atPair calm moves own]
    exact restarts

theorem restarted_step (h : Restarted s c pair found last) (calm : quiet pair s l = true)
    (moves : Sys.Moves client s l t) : ∃ last, Restarted t c pair found last := by
  have others := others_step h.others h.atPair calm moves
  exact ⟨s.carried pair last l, gated_step h.gated moves,
    atPair_step h.gated h.atPair moves, others.fresh, others.untaken,
    restarts_step h calm moves⟩

theorem restarted_of_birth {held : Holding} {birth : Message} (gated : Gated s)
    (h : AtPair s pair last) (offers : s.call c = .offered held birth)
    (names : held.script.pair = pair) (isBirth : birth.topic.messageType = .NBIRTH)
    (saved : held.reservation.restoreTo = some found)
    (moves : Sys.Moves client s (.accept c) t) : Restarted t c pair found 0 := by
  subst names
  have holds : (s.call c).holding = some held := by rw [offers]; rfl
  have zero : s.count held.script.pair = 0 := by
    rw [(h.names offers).2.2, if_pos isBirth]
  have carried : s.carried held.script.pair last (.accept c) = 0 := by
    simp [Sys.carried, offers, zero]
  have gated' := gated_step gated moves
  have atPair' := carried ▸ atPair_step gated h moves
  cases moves with
  | @accepted _ _ _ delivery offers' kept =>
    cases offers.symm.trans offers'
    have holds' : (({ s with
        delivery := delivery
        sent := s.sent ++ [(c, birth)] }.put c (.taken held)).call c).holding = some held := by
      rw [put_self]
      rfl
    have others := others_of_holder gated' holds' rfl
    refine ⟨gated', atPair', others.fresh, others.untaken, ?_⟩
    rw [put_self]
    exact ⟨rfl, saved, rfl⟩

theorem saved_step {held : Holding} (moves : Sys.Moves client s l t)
    (holds : (t.call c).holding = some held) :
    (∃ old, (s.call c).holding = some old ∧ old.script = held.script ∧
      old.reservation = held.reservation) ∨
    (l = .acquire c ∧ held.reservation.restoreTo = some (s.count held.script.pair)) := by
  by_cases own : l = .acquire c
  · subst own
    cases moves with
    | @acquired _ script out waits free =>
      obtain ⟨-, rfl⟩ := Script.reserve_iff.mp free
      rw [put_self] at holds
      cases holds
      exact .inr ⟨rfl, rfl⟩
  · rcases phase_step moves c with same | ⟨before, after, found, left, moved⟩
    · exact .inl ⟨held, by rw [← same, holds], rfl, rfl⟩
    · rw [left] at holds
      rw [found]
      cases moved with
      | acquired => exact absurd rfl own
      | restored => rw [holding_ended] at holds; cases holds
      | rejected => cases holds
      | started => cases holds
      | committed => cases holds
      | left => cases holds
      | advanced more => cases holds; exact .inl ⟨_, rfl, rfl, rfl⟩
      | _ => exact .inl ⟨held, holds, rfl, rfl⟩

/-- What a call would bring back is what its edge node stood at when it took the gate. -/
theorem acquired_at {ok : Sys κ φ → Label κ φ → Prop} {ls : List (Label κ φ)} {held : Holding}
    (run : Run (Sys.step client) ok .new ls s) (holds : (s.call c).holding = some held) :
    ∃ early late r, ls = early ++ .acquire c :: late ∧ Run (Sys.step client) ok .new early r ∧
      held.reservation.restoreTo = some (r.count held.script.pair) := by
  induction run generalizing held with
  | start => cases (holding_new c).symm.trans holds
  | @snoc s t ls l before _ taken ih =>
    rcases saved_step (Sys.moves_of_step taken) holds with ⟨old, held', script, reservation⟩ |
      ⟨rfl, saved⟩
    · obtain ⟨early, late, r, rfl, first, saved⟩ := ih held'
      rw [script, reservation] at saved
      exact ⟨early, late ++ [l], r, by simp, first, saved⟩
    · exact ⟨ls, [], s, rfl, before, saved⟩

/-- After an NBIRTH that the client took, the next message of its edge node carries 1, or 0
as an NBIRTH, unless the call of that NBIRTH has ended without Ok: then it counts on from
what the edge node stood at when that call took the gate. -/
theorem next_after_birth {ok : Sys κ φ → Label κ φ → Prop} {before mid : List (Label κ φ)}
    {held next : Holding} {birth message : Message}
    (first : Run (Sys.step client) ok .new before s)
    (offers : s.call c = .offered held birth) (isBirth : birth.topic.messageType = .NBIRTH)
    (names : birth.topic.edgeNode = some pair)
    (accepted : Sys.step client s (.accept c) = some t)
    (middle : Run (Sys.step client) (Obeys [quiet pair]) t mid u)
    (offersNext : u.call d = .offered next message)
    (namesNext : message.topic.edgeNode = some pair) :
    ∃ early late r, before = early ++ .acquire c :: late ∧
      Run (Sys.step client) ok .new early r ∧
      held.reservation.restoreTo = some (r.count pair) ∧
      message.payload.seq = some
        (if message.topic.messageType = .NBIRTH then (0 : UInt8)
          else if (u.call c).endedWithoutOk then r.count pair + 1 else 1).toUInt64 := by
  have any {ok : Sys κ φ → Label κ φ → Prop} {x y : Sys κ φ} {ls : List (Label κ φ)}
      (run : Run (Sys.step client) ok x ls y) :
      Run (Sys.step client) (fun _ _ => True) x ls y := run.mono fun _ _ _ => trivial
  obtain ⟨gated, at_⟩ := atPair_run first
  obtain ⟨last, atPair⟩ := at_ pair
  have moves := Sys.moves_of_step accepted
  have ours : held.script.pair = pair :=
    Option.some.inj ((offer_run first offers).1.symm.trans names)
  obtain ⟨early, late, r, split, begun, saved⟩ := acquired_at first (by rw [offers]; rfl)
  rw [ours] at saved
  refine ⟨early, late, r, split, begun, saved, ?_⟩
  obtain ⟨last, h⟩ : ∃ last, Restarted u c pair (r.count pair) last := by
    refine middle.invariant (P := fun u => ∃ last, Restarted u c pair (r.count pair) last)
      ⟨0, restarted_of_birth gated atPair offers ours isBirth saved moves⟩
      fun x l y _ h promise taken => ?_
    obtain ⟨last, h⟩ := h
    exact restarted_step h (promise _ (by simp)) (Sys.moves_of_step taken)
  have whole := ((any first).snoc trivial accepted).append (any middle)
  have same : next.script.pair = pair :=
    Option.some.inj ((offer_run whole offersNext).1.symm.trans namesNext)
  subst same
  obtain ⟨-, seq, count⟩ := h.atPair.names offersNext
  rw [seq, count]
  split
  · rfl
  · congr 2
    have restarts := h.restarts
    cases own : u.call c with
    | idle => rw [own] at restarts; cases restarts
    | waiting script => rw [own] at restarts; cases restarts
    | ready held => rw [own] at restarts; simp [restarts.2.2.1, Phase.endedWithoutOk]
    | taken held => rw [own] at restarts; simp [restarts.2.2, Phase.endedWithoutOk]
    | offered held message => rw [own] at restarts; simp [restarts.2.2.1, Phase.endedWithoutOk]
    | cancelled => rw [own] at restarts; simp [show last = _ from restarts, Phase.endedWithoutOk]
    | unwinding held guarded error =>
      -- The gate still belongs to that call, so the offer would be its own.
      rw [own] at restarts
      have holds : (u.call c).holding = some held := by rw [own]; rfl
      have holdsNext : (u.call d).holding = some next := by rw [offersNext]; rfl
      have both := h.gated.exclusive c d held next holds holdsNext restarts.1
      subst both
      cases own.symm.trans offersNext
    | returned result =>
      rw [own] at restarts
      cases result with
      | ok _ => simp [show last = 0 from restarts, Phase.endedWithoutOk]
      | error e => simp [show last = _ from restarts, Phase.endedWithoutOk]

end Restart

theorem next_after_birth_small : ∃ (s t u : Sys Nat Nat) (message : Message),
    Run (Sys.step plantClient) (Obeys []) .new
      [.start 0 plantData, .acquire 0, .offer 0, .accept 0, .commit 0,
        .start 1 (.publishBirth plantDevice ⟨0⟩), .acquire 1, .offer 1] s ∧
    Sys.step plantClient s (.accept 1) = some t ∧
    Run (Sys.step plantClient) (Obeys [quiet plantNode]) t [.next 1, .offer 1] u ∧
    message.payload.seq = some 1 := by
  obtain ⟨s, t, u, held, next, birth, message, h₁, offers, accepted, h₂, offersNext, isBirth,
      names, namesNext, ends, data⟩ : ∃ (s t u : Sys Nat Nat) (held next : Holding)
      (birth message : Message),
      exec (Sys.step plantClient) [] .new
        [.start 0 plantData, .acquire 0, .offer 0, .accept 0, .commit 0,
          .start 1 (.publishBirth plantDevice ⟨0⟩), .acquire 1, .offer 1] = some s ∧
      s.call 1 = .offered held birth ∧ Sys.step plantClient s (.accept 1) = some t ∧
      exec (Sys.step plantClient) [quiet plantNode] t [.next 1, .offer 1] = some u ∧
      u.call 1 = .offered next message ∧ birth.topic.messageType = .NBIRTH ∧
      birth.topic.edgeNode = some plantNode ∧
      message.topic.edgeNode = some plantNode ∧ (u.call 1).endedWithoutOk = false ∧
      message.topic.messageType = .DBIRTH :=
    ⟨_, _, _, _, _, _, _, rfl, rfl, rfl, rfl, rfl, rfl, rfl, rfl, rfl, rfl⟩
  have first := Run.of_exec h₁
  have middle := Run.of_exec h₂
  obtain ⟨_, _, _, -, -, -, number⟩ :=
    next_after_birth first offers isBirth names accepted middle offersNext namesNext
  rw [ends, data] at number
  exact ⟨s, t, u, message, first, accepted, middle, number⟩

/-- The client refuses the DBIRTH, and the next message carries 2 behind the NBIRTH. -/
theorem refused_birth_brings_the_count_back : ∃ (s : Sys Nat Nat) (m₀ birth m₂ : Message),
    Run (Sys.step plantClient) (Obeys []) .new
      [.start 0 plantData, .acquire 0, .offer 0, .accept 0, .commit 0,
        .start 1 (.publishBirth plantDevice ⟨0⟩), .acquire 1, .offer 1, .accept 1, .next 1,
        .offer 1, .refuse 1 .request, .restore 1,
        .start 2 plantData, .acquire 2, .offer 2, .accept 2] s ∧
    streamOf plantNode s.sent = [m₀, birth, m₂] ∧ birth.topic.messageType = .NBIRTH ∧
    birth.payload.seq = some 0 ∧ m₂.topic.messageType = .DDATA ∧ m₂.payload.seq = some 2 := by
  obtain ⟨s, m₀, birth, m₂, h, rest⟩ : ∃ (s : Sys Nat Nat) (m₀ birth m₂ : Message),
      exec (Sys.step plantClient) [] .new
        [.start 0 plantData, .acquire 0, .offer 0, .accept 0, .commit 0,
          .start 1 (.publishBirth plantDevice ⟨0⟩), .acquire 1, .offer 1, .accept 1, .next 1,
          .offer 1, .refuse 1 .request, .restore 1,
          .start 2 plantData, .acquire 2, .offer 2, .accept 2] = some s ∧
      streamOf plantNode s.sent = [m₀, birth, m₂] ∧ birth.topic.messageType = .NBIRTH ∧
      birth.payload.seq = some 0 ∧ m₂.topic.messageType = .DDATA ∧
      m₂.payload.seq = some 2 := ⟨_, _, _, _, rfl, rfl, rfl, rfl, rfl, rfl⟩
  exact ⟨s, m₀, birth, m₂, Run.of_exec h, rest⟩

end Sparkplug
