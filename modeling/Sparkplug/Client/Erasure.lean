import Sparkplug.Client.Gates
import Sparkplug.Client.Tracking
import Sparkplug.Delivery.Erasure

/-! A run beside the same run without the steps of one call that handed no message over.
The two guards of that call unwind in any order with the steps of the others, and what they
restore is what the other run never changed. -/
namespace Sparkplug

open Transition

variable {κ φ : Type}

/-- The counts with a reservation held and the counts without it. -/
structure SeqCounters.Apart (held : Option SeqReservation) (x y : SeqCounters) : Prop where
  elsewhere : ∀ key, (∀ own, held = some own → key ≠ own.key) → y.gate key = x.gate key
  own : ∀ own, held = some own →
    ∃ found, own.restoreTo = some found ∧ y.gate own.key = ⟨found, false⟩

namespace SeqCounters

variable {held : Option SeqReservation} {x y : SeqCounters} {key : String}

theorem Apart.readings {x' y' : SeqCounters} (h : Apart held x y)
    (left : ∀ key, x'.gate key = x.gate key) (right : ∀ key, y'.gate key = y.gate key) :
    Apart held x' y' := by
  constructor
  · intro key apart
    rw [left, right]
    exact h.elsewhere key apart
  · intro own holds
    rw [right]
    exact h.own own holds

theorem Apart.write {gate : Gate} (h : Apart held x y)
    (apart : ∀ own, held = some own → key ≠ own.key) :
    Apart held (x.write key gate) (y.write key gate) := by
  constructor
  · intro other elsewhere
    by_cases same : other = key
    · rw [same, gate_write_self, gate_write_self]
    · rw [gate_write_of_ne same, gate_write_of_ne same]
      exact h.elsewhere other elsewhere
  · intro own holds
    rw [gate_write_of_ne (Ne.symm (apart own holds))]
    exact h.own own holds

theorem Apart.take {gate : Gate} (h : Apart none x y) (free : (x.gate key).locked = false) :
    Apart (some ⟨key, some (x.gate key).count⟩) (x.write key gate) y := by
  constructor
  · intro other elsewhere
    rw [gate_write_of_ne (elsewhere _ rfl)]
    exact h.elsewhere other nofun
  · intro own holds
    cases holds
    refine ⟨_, rfl, ?_⟩
    rw [h.elsewhere key nofun, ← free]

theorem Apart.drop {reservation : SeqReservation} (h : Apart (some reservation) x y) :
    Apart none (x.drop reservation) y := by
  obtain ⟨found, saved, restored⟩ := h.own reservation rfl
  refine ⟨fun key _ => ?_, nofun⟩
  rw [SeqCounters.drop, saved, Option.getD_some]
  by_cases same : key = reservation.key
  · rw [same, gate_write_self, restored]
  · rw [gate_write_of_ne same]
    exact h.elsewhere key fun own holds => by cases holds; exact same

theorem Apart.through {other : SeqReservation} (h : Apart held x y)
    (apart : ∀ own, held = some own → other.key ≠ own.key) :
    y.number other = x.number other ∧ Apart held (x.next other) (y.next other) ∧
    Apart held (x.commit other) (y.commit other) ∧ Apart held (x.drop other) (y.drop other) := by
  have number : y.number other = x.number other :=
    congrArg Gate.count (h.elsewhere other.key apart)
  refine ⟨number, ?_, ?_, ?_⟩
  · rw [next, next, number]
    exact h.write apart
  · change Apart held (x.write other.key ⟨x.number other, false⟩)
      (y.write other.key ⟨y.number other, false⟩)
    rw [number]
    exact h.write apart
  · rw [SeqCounters.drop, SeqCounters.drop, number]
    exact h.write apart

end SeqCounters

namespace Phase

def counting : Phase → Bool
  | .offered _ message => message.options.tracked
  | .unwinding _ guarded _ => guarded
  | _ => false

/-- The call has handed no message over. -/
def Early : Phase → Prop
  | .ready held => held.stage = 0
  | .offered held _ => held.stage = 0
  | .unwinding held _ _ => held.stage = 0
  | .taken _ => False
  | .returned (.ok _) => False
  | _ => True

theorem counting_ended (error : Option ClientError) : (ended error).counting = false := by
  cases error <;> rfl

theorem early_ended (error : Option ClientError) : (ended error).Early := by
  cases error <;> trivial

def reservation (phase : Phase) : Option SeqReservation := phase.holding.map Holding.reservation

theorem reservation_of_none {phase : Phase} (none : phase.holding = none) :
    phase.reservation = .none := by
  rw [reservation, none, Option.map_none]

end Phase

section Run

variable {client : Client} {s t r : Sys κ φ} {l : Label κ φ} {ls : List (Label κ φ)} {c d : κ}

theorem key_of_free {pair : EdgeNode} {own : SeqReservation} (gated : Gated s)
    (free : (s.seq.gate (keyOf pair)).locked = false)
    (holds : (s.call c).reservation = some own) : keyOf pair ≠ own.key := by
  obtain ⟨held, hheld, rfl⟩ := Option.map_eq_some_iff.mp holds
  intro same
  have locked := gated.locked c held hheld
  rw [← gated.keyed c held hheld, ← same, free] at locked
  cases locked

theorem key_of_holder {held : Holding} {own : SeqReservation} (gated : Gated s) (other : d ≠ c)
    (hd : (s.call d).holding = some held) (holds : (s.call c).reservation = some own) :
    held.reservation.key ≠ own.key := by
  obtain ⟨mine, hmine, rfl⟩ := Option.map_eq_some_iff.mp holds
  rw [gated.keyed d held hd, gated.keyed c mine hmine]
  intro same
  exact other (gated.exclusive d c held mine hd hmine (keyOf_injective same))

variable [DecidableEq κ] [DecidableEq φ]

/-- A disconnect falls between the count of this call and its release. -/
def FellWithin (client : Client) (c : κ) (ls : List (Label κ φ)) : Prop :=
  ∃ before after s, ls = before ++ .event .disconnect :: after ∧
    Run (Sys.step client) (Obeys []) .new before s ∧ (s.call c).counting = true

theorem fellWithin_snoc {ok : Sys κ φ → Label κ φ → Prop}
    (run : Run (Sys.step client) ok .new ls s) : FellWithin client c (ls ++ [l]) ↔
      FellWithin client c ls ∨ l = .event .disconnect ∧ (s.call c).counting = true := by
  constructor
  · rintro ⟨before, after, u, split, earlier, counting⟩
    rcases List.eq_nil_or_concat after with rfl | ⟨after, last, rfl⟩
    · obtain ⟨rfl, same⟩ := List.append_inj' split rfl
      cases run.unique earlier
      exact .inr ⟨(List.cons.inj same).1, counting⟩
    · rw [List.concat_eq_append, ← List.cons_append, ← List.append_assoc] at split
      exact .inl ⟨before, after, u, (List.append_inj' split rfl).1, earlier, counting⟩
  · rintro (⟨before, after, u, rfl, earlier, counting⟩ | ⟨rfl, counting⟩)
    · exact ⟨before, after ++ [l], u, by simp, earlier, counting⟩
    · exact ⟨ls, [], s, rfl, run.mono fun _ _ _ => obeys_nil _ _, counting⟩

/-- The run with the steps of `c` on the left, the run without them on the right. -/
structure Unseen (client : Client) (room : Prop) (c : κ) (ls : List (Label κ φ))
    (s r : Sys κ φ) : Prop where
  gated : Gated s
  sent : r.sent = s.sent
  idle : r.call c = .idle
  calls : ∀ d, d ≠ c → r.call d = s.call d
  early : (s.call c).Early
  seq : SeqCounters.Apart (s.call c).reservation s.seq r.seq
  counting : s.delivery.holds (c, 0) = (s.call c).counting
  delivery : Delivery.Without room (FellWithin client c ls) (c, 0) s.delivery r.delivery

theorem unseen_initial (client : Client) (room : Prop) (c : κ) :
    Unseen client room c [] (.new : Sys κ φ) .new := by
  have never : FellWithin client c ([] : List (Label κ φ)) = False := by
    apply eq_false
    rintro ⟨before, after, u, split, -⟩
    simp at split
  constructor
  · exact gated_initial
  · rfl
  · rfl
  · intro _ _
    rfl
  · trivial
  · exact ⟨fun _ _ => rfl, nofun⟩
  · rfl
  · rw [never]
    exact Delivery.without_initial room (c, 0)

theorem Unseen.foreign {room : Prop} {dl : Delivery.Label (κ × Nat) φ}
    (h : Unseen client room c ls s r) (others : l.caller ≠ some c)
    (acks : onTracker client Delivery.acksTaken s l = true) (moves : Sys.Moves client s l t)
    (label : s.trackerLabel client l = some dl) :
    Delivery.ownTickets s.delivery dl = true ∧ dl.publish ≠ some (c, 0) ∧
    (dl = .disconnect ↔ l = .event .disconnect) := by
  have apart {d : κ} (n : Nat) (named : l.caller = some d) : some (d, n) ≠ some (c, 0) := by
    rintro same
    cases same
    exact others named
  cases moves with
  | offered ready current built counted =>
    rw [label_of_offer ready current 0] at label
    obtain ⟨-, same⟩ := Option.ite_none_right_eq_some.mp label
    cases same
    exact ⟨rfl, apart _ rfl, by simp⟩
  | accepted offers kept =>
    rw [label_of_accept offers] at label
    obtain ⟨-, same⟩ := Option.ite_none_right_eq_some.mp label
    cases same
    exact ⟨rfl, apart _ rfl, by simp⟩
  | released unwinds rolled =>
    rw [label_of_release unwinds] at label
    cases label
    exact ⟨rfl, apart _ rfl, by simp⟩
  | happened outside taken =>
    cases label
    refine ⟨?_, ?_, by simp⟩
    · cases dl with
      | releaseForeign ticket => cases outside
      | _ => rfl
    · cases dl with
      | ack p =>
        rintro same
        cases same
        have answers := rule_of_tracker acks rfl
        simp only [Delivery.acksTaken, Bool.and_eq_true, Option.any_eq_true] at answers
        obtain ⟨-, pub, known, accepted⟩ := answers
        rw [h.delivery.refused pub known] at accepted
        cases accepted
      | count p => cases outside
      | keep p => cases outside
      | release p => cases outside
      | _ => simp [Delivery.Label.publish]
  | _ => cases label

theorem Unseen.tracker {room : Prop} {ok : Sys κ φ → Label κ φ → Prop}
    {dl : Delivery.Label (κ × Nat) φ} {delivery : Delivery.Sys (κ × Nat) φ}
    (h : Unseen client room c ls s r) (run : Run (Sys.step client) ok .new ls s)
    (others : l.caller ≠ some c)
    (promise : Obeys (Delivery.answering.map (onTracker client)) s l)
    (wide : room → onTracker client Delivery.roomToReport s l = true)
    (moves : Sys.Moves client s l t) (label : s.trackerLabel client l = some dl)
    (step : s.delivery.step dl = some delivery) :
    ∃ delivery', r.delivery.step dl = some delivery' ∧
      delivery.holds (c, 0) = s.delivery.holds (c, 0) ∧
      Delivery.Without room (FellWithin client c (ls ++ [l])) (c, 0) delivery delivery' := by
  have acks := promise _ (List.mem_map_of_mem (List.mem_cons_self ..))
  obtain ⟨own, elsewhere, disconnects⟩ := h.foreign others acks moves label
  obtain ⟨delivery', taken, without⟩ := h.delivery.shared own
    (obeys_tracker.mp promise dl label) (fun hroom => rule_of_tracker (wide hroom) label)
    elsewhere step
  refine ⟨delivery', taken, ?_, ?_⟩
  · rw [Delivery.Sys.holds, Delivery.entry_elsewhere elsewhere step, Delivery.Sys.holds]
  · rw [propext (fellWithin_snoc run), ← disconnects, ← h.counting]
    exact without

theorem fellWithin_quiet {ok : Sys κ φ → Label κ φ → Prop}
    (run : Run (Sys.step client) ok .new ls s) (connected : l ≠ .event .disconnect) :
    FellWithin client c (ls ++ [l]) = FellWithin client c ls := by
  rw [propext (fellWithin_snoc run)]
  simp [connected]

theorem Unseen.deliver {room : Prop} {ok : Sys κ φ → Label κ φ → Prop} {tracked : Bool}
    {dl : Delivery.Label (κ × Nat) φ} {delivery : Delivery.Sys (κ × Nat) φ}
    (h : Unseen client room c ls s r) (run : Run (Sys.step client) ok .new ls s)
    (others : l.caller ≠ some c)
    (promise : Obeys (Delivery.answering.map (onTracker client)) s l)
    (wide : room → onTracker client Delivery.roomToReport s l = true)
    (moves : Sys.Moves client s l t) (connected : l ≠ .event .disconnect)
    (label : s.trackerLabel client l = if tracked then some dl else none)
    (step : s.deliver tracked dl = some delivery) :
    ∃ delivery', r.deliver tracked dl = some delivery' ∧
      delivery.holds (c, 0) = s.delivery.holds (c, 0) ∧
      Delivery.Without room (FellWithin client c (ls ++ [l])) (c, 0) delivery delivery' := by
  cases tracked with
  | true => exact h.tracker run others promise wide moves label step
  | false =>
    cases Option.some.inj step
    refine ⟨_, rfl, rfl, ?_⟩
    rw [fellWithin_quiet run connected]
    exact h.delivery

theorem Unseen.moved {room : Prop} {ls' : List (Label κ φ)} {x x' : SeqCounters}
    {y y' : Delivery.Sys (κ × Nat) φ} {z z' : List (κ × Message)} {phase : Phase}
    (h : Unseen client room c ls s r) (other : d ≠ c)
    (gated : Gated ((⟨x, y, s.call, z⟩ : Sys κ φ).put d phase))
    (sent : z' = z) (seq : SeqCounters.Apart (s.call c).reservation x x')
    (holds : y.holds (c, 0) = s.delivery.holds (c, 0))
    (delivery : Delivery.Without room (FellWithin client c ls') (c, 0) y y') :
    Unseen client room c ls' ((⟨x, y, s.call, z⟩ : Sys κ φ).put d phase)
      ((⟨x', y', r.call, z'⟩ : Sys κ φ).put d phase) := by
  have same : ((⟨x, y, s.call, z⟩ : Sys κ φ).put d phase).call c = s.call c :=
    put_of_ne (Ne.symm other)
  constructor
  · exact gated
  · exact sent
  · exact (put_of_ne (Ne.symm other)).trans h.idle
  · intro e apart
    by_cases moved : e = d
    · rw [moved, put_self, put_self]
    · rw [put_of_ne moved, put_of_ne moved]
      exact h.calls e apart
  · rw [same]
    exact h.early
  · rw [same]
    exact seq
  · rw [same]
    exact holds.trans h.counting
  · exact delivery

theorem Unseen.shared {room : Prop} {ok : Sys κ φ → Label κ φ → Prop}
    (h : Unseen client room c ls s r) (run : Run (Sys.step client) ok .new ls s)
    (others : l.caller ≠ some c)
    (promise : Obeys (Delivery.answering.map (onTracker client)) s l)
    (wide : room → onTracker client Delivery.roomToReport s l = true)
    (moves : Sys.Moves client s l t) :
    ∃ r', Sys.Moves client r l r' ∧ Unseen client room c (ls ++ [l]) t r' := by
  have gated := gated_step h.gated moves
  have apart {d : κ} (named : l.caller = some d) : d ≠ c := by
    rintro rfl
    exact others named
  have still (connected : l ≠ .event .disconnect) :
      Delivery.Without room (FellWithin client c (ls ++ [l])) (c, 0) s.delivery r.delivery := by
    rw [fellWithin_quiet run connected]
    exact h.delivery
  have through {d : κ} {held : Holding} (other : d ≠ c) (holds : (s.call d).holding = some held) :=
    h.seq.through fun own mine => key_of_holder h.gated other holds mine
  have now := moves
  cases moves with
  | rejected idle built =>
    have other := apart rfl
    exact ⟨_, .rejected ((h.calls _ other).trans idle) built,
      h.moved other gated h.sent h.seq rfl (still nofun)⟩
  | started idle built =>
    have other := apart rfl
    refine ⟨_, .started ((h.calls _ other).trans idle) built,
      h.moved other gated h.sent ?_ rfl (still nofun)⟩
    exact h.seq.readings (fun _ => gate_gateOf) fun _ => gate_gateOf
  | @acquired d script out waits free =>
    have other := apart rfl
    obtain ⟨unlocked, rfl⟩ := Script.reserve_iff.mp free
    -- A free gate is not the one `c` holds, so both runs read it alike.
    have elsewhere (own : SeqReservation) (mine : (s.call c).reservation = some own) :=
      key_of_free h.gated unlocked mine
    have same := h.seq.elsewhere _ elsewhere
    refine ⟨_, .acquired ((h.calls _ other).trans waits)
      (Script.reserve_iff.mpr ⟨by rw [same]; exact unlocked, rfl⟩), ?_⟩
    simp only [same]
    exact h.moved other gated h.sent (h.seq.write elsewhere) rfl (still nofun)
  | @offered d held draft message delivery ready current built counted =>
    have other := apart rfl
    subst built
    obtain ⟨delivery', counted', holds, without⟩ :=
      h.deliver run others promise wide now nofun (label_of_offer ready current _) counted
    have number := (through other (by rw [ready]; rfl)).1
    refine ⟨_, .offered ((h.calls _ other).trans ready) current (by rw [number]) counted', ?_⟩
    exact h.moved other gated h.sent h.seq holds without
  | accepted offers kept =>
    have other := apart rfl
    obtain ⟨delivery', kept', holds, without⟩ :=
      h.deliver run others promise wide now nofun (label_of_accept offers) kept
    refine ⟨_, .accepted ((h.calls _ other).trans offers) kept', ?_⟩
    exact h.moved other gated (by rw [h.sent]) h.seq holds without
  | advanced takes more =>
    have other := apart rfl
    have seq := (through other (by rw [takes]; rfl)).2.1
    exact ⟨_, .advanced ((h.calls _ other).trans takes) more,
      h.moved other gated h.sent seq rfl (still nofun)⟩
  | committed takes last =>
    have other := apart rfl
    have seq := (through other (by rw [takes]; rfl)).2.2.1
    exact ⟨_, .committed ((h.calls _ other).trans takes) last,
      h.moved other gated h.sent seq rfl (still nofun)⟩
  | refused offers =>
    have other := apart rfl
    exact ⟨_, .refused ((h.calls _ other).trans offers),
      h.moved other gated h.sent h.seq rfl (still nofun)⟩
  | left waits =>
    have other := apart rfl
    exact ⟨_, .left ((h.calls _ other).trans waits),
      h.moved other gated h.sent h.seq rfl (still nofun)⟩
  | cancelled offers =>
    have other := apart rfl
    exact ⟨_, .cancelled ((h.calls _ other).trans offers),
      h.moved other gated h.sent h.seq rfl (still nofun)⟩
  | released unwinds rolled =>
    have other := apart rfl
    obtain ⟨delivery', rolled', holds, without⟩ :=
      h.tracker run others promise wide now (label_of_release unwinds) rolled
    refine ⟨_, .released ((h.calls _ other).trans unwinds) rolled', ?_⟩
    exact h.moved other gated h.sent h.seq holds without
  | restored unwinds =>
    have other := apart rfl
    have seq := (through other (by rw [unwinds]; rfl)).2.2.2
    exact ⟨_, .restored ((h.calls _ other).trans unwinds),
      h.moved other gated h.sent seq rfl (still nofun)⟩
  | happened outside taken =>
    obtain ⟨delivery', taken', holds, without⟩ := h.tracker run others promise wide now rfl taken
    exact ⟨_, .happened outside taken', gated, h.sent, h.idle, h.calls, h.early, h.seq,
      holds.trans h.counting, without⟩

theorem Unseen.acted {room : Prop} {ls' : List (Label κ φ)} {x : SeqCounters}
    {y : Delivery.Sys (κ × Nat) φ} {phase : Phase} (h : Unseen client room c ls s r)
    (gated : Gated ((⟨x, y, s.call, s.sent⟩ : Sys κ φ).put c phase)) (early : phase.Early)
    (seq : SeqCounters.Apart phase.reservation x r.seq)
    (counting : y.holds (c, 0) = phase.counting)
    (delivery : Delivery.Without room (FellWithin client c ls') (c, 0) y r.delivery) :
    Unseen client room c ls' ((⟨x, y, s.call, s.sent⟩ : Sys κ φ).put c phase) r := by
  constructor
  · exact gated
  · exact h.sent
  · exact h.idle
  · intro d other
    rw [put_of_ne other]
    exact h.calls d other
  · rw [put_self]
    exact early
  · rw [put_self]
    exact seq
  · rw [put_self]
    exact counting
  · exact delivery

theorem Unseen.erased {room : Prop} {ok : Sys κ φ → Label κ φ → Prop}
    (h : Unseen client room c ls s r) (run : Run (Sys.step client) ok .new ls s)
    (own : l.caller = some c) (unaccepted : l ≠ .accept c)
    (promise : Obeys (Delivery.answering.map (onTracker client)) s l)
    (moves : Sys.Moves client s l t) : Unseen client room c (ls ++ [l]) t r := by
  have gated := gated_step h.gated moves
  have connected : l ≠ .event .disconnect := by
    rintro rfl
    cases own
  have still : Delivery.Without room (FellWithin client c (ls ++ [l])) (c, 0) s.delivery
      r.delivery := by
    rw [fellWithin_quiet run connected]
    exact h.delivery
  have early := h.early
  have seq := h.seq
  have counting := h.counting
  have promise' := obeys_tracker.mp promise
  cases moves with
  | rejected idle built =>
    cases own
    rw [idle] at seq counting
    exact h.acted gated trivial seq counting still
  | started idle built =>
    cases own
    rw [idle] at seq counting
    refine h.acted gated trivial ?_ counting still
    exact seq.readings (fun _ => gate_gateOf) fun _ => rfl
  | acquired waits free =>
    cases own
    rw [waits] at seq counting
    obtain ⟨unlocked, rfl⟩ := Script.reserve_iff.mp free
    exact h.acted gated rfl (seq.take unlocked) counting still
  | @offered c held draft message delivery ready current built counted =>
    cases own
    rw [ready] at early seq counting
    subst built
    change held.stage = 0 at early
    have label : s.trackerLabel client (.offer c) = _ :=
      label_of_offer ready current (s.seq.number held.reservation)
    cases tracked : (draft.message client.role (s.seq.number held.reservation)).options.tracked with
    | false =>
      rw [tracked] at counted
      cases Option.some.inj counted
      exact h.acted gated early seq (counting.trans tracked.symm) still
    | true =>
      rw [tracked] at counted label
      rw [if_pos rfl] at label
      have obeys := promise' _ label
      change s.delivery.step (.count (c, held.stage)) = some delivery at counted
      rw [early] at counted obeys
      refine h.acted gated early seq ?_ (still.erased obeys (.inl rfl) counted)
      exact (Delivery.holds_of_count counted).trans tracked.symm
  | accepted offers kept =>
    cases own
    exact absurd rfl unaccepted
  | advanced takes more =>
    cases own
    rw [takes] at early
    exact early.elim
  | committed takes last =>
    cases own
    rw [takes] at early
    exact early.elim
  | refused offers =>
    cases own
    rw [offers] at early seq counting
    exact h.acted gated early seq counting still
  | left waits =>
    cases own
    rw [waits] at seq counting
    exact h.acted gated trivial seq counting still
  | cancelled offers =>
    cases own
    rw [offers] at early seq counting
    exact h.acted gated early seq counting still
  | @released c held error delivery unwinds rolled =>
    cases own
    rw [unwinds] at early seq counting
    change held.stage = 0 at early
    have obeys := promise' _ (label_of_release unwinds)
    rw [early] at rolled obeys
    exact h.acted gated early seq (Delivery.holds_of_release rolled)
      (still.erased obeys (.inr rfl) rolled)
  | @restored c held error unwinds =>
    cases own
    rw [unwinds] at seq counting
    -- What the reservation writes back is what the other run never changed.
    refine h.acted gated (Phase.early_ended error) ?_ ?_ still
    · rw [Phase.reservation_of_none (holding_ended error)]
      exact seq.drop
    · exact counting.trans (Phase.counting_ended error).symm
  | happened outside taken => cases own

theorem Unseen.promised {room : Prop} (h : Unseen client room c ls s r)
    (others : l.caller ≠ some c)
    (promise : Obeys (Delivery.answering.map (onTracker client)) s l)
    (moves : Sys.Moves client s l t) :
    Obeys (Delivery.answering.map (onTracker client)) r l := by
  have acks := promise _ (List.mem_map_of_mem (List.mem_cons_self ..))
  have same : r.trackerLabel client l = s.trackerLabel client l := by
    cases l with
    | offer d => simp only [Sys.trackerLabel, h.calls d fun same => others (congrArg some same)]
    | accept d => simp only [Sys.trackerLabel, h.calls d fun same => others (congrArg some same)]
    | release d => simp only [Sys.trackerLabel, h.calls d fun same => others (congrArg some same)]
    | _ => rfl
  rw [obeys_tracker, same]
  intro dl label
  have elsewhere := (h.foreign others acks moves label).2.1
  exact h.delivery.promised elsewhere (obeys_tracker.mp promise dl label)

theorem unseen_run {room : Prop} (run : Run (Sys.step client)
      (fun t l => Obeys (Delivery.answering.map (onTracker client)) t l ∧
        (room → onTracker client Delivery.roomToReport t l = true)) .new ls s)
    (unaccepted : .accept c ∉ ls) :
    ∃ r, Run (Sys.step client) (Obeys (Delivery.answering.map (onTracker client))) .new
        (ls.filter fun l => l.caller ≠ some c) r ∧ Unseen client room c ls s r := by
  refine run.erase (R := Unseen client room c) (fun l => l.caller ≠ some c)
    (unseen_initial client room c) ?_ ?_
  · intro bs t l u r before member kept h promise taken
    have others : l.caller ≠ some c := by simpa using kept
    have moves := Sys.moves_of_step taken
    obtain ⟨r', moves', next⟩ := h.shared before others promise.1 promise.2 moves
    exact ⟨r', h.promised others promise.1 moves, Sys.step_of_moves moves', next⟩
  · intro bs t l u r before member dropped h promise taken
    have own : l.caller = some c := by simpa using dropped
    have other : l ≠ .accept c := by
      rintro rfl
      exact unaccepted member
    exact h.erased before own other promise.1 (Sys.moves_of_step taken)

end Run

end Sparkplug
