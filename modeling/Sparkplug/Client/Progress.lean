import Sparkplug.Client.Erasure
import Sparkplug.Client.Window

/-! No publish call is left behind. Each has a bounded number of steps of its own, and while
one is under way a step is open to it or to the call that holds its gate, or one of the two
waits for `rumqttc` to take or refuse its message. -/
namespace Sparkplug

open Transition

variable {κ φ : Type}

namespace Phase

/-- A bound on the steps that the call has left. No script has more than two drafts. -/
def rank : Phase → Nat
  | .idle => 9
  | .waiting script => 3 * script.rest.length + 5
  | .ready held => 3 * (held.script.rest.length - held.stage) + 4
  | .offered held _ => 3 * (held.script.rest.length - held.stage) + 3
  | .taken held => 3 * (held.script.rest.length - held.stage) + 2
  | .unwinding _ true _ => 2
  | .unwinding _ false _ => 1
  | .returned _ | .cancelled => 0

def begun : Phase → Nat → Bool
  | .idle, _ | .waiting _, _ => false
  | .ready held, k => k < held.stage
  | .offered held _, k | .taken held, k | .unwinding held _ _, k => k ≤ held.stage
  | .returned _, _ | .cancelled, _ => true

end Phase

/-- A step that takes its call on and that the crate takes by itself. -/
def Label.forward : Label κ φ → Bool
  | .acquire _ | .offer _ | .next _ | .commit _ | .release _ | .restore _ => true
  | _ => false

/-- What keeps the next step of every call open. -/
structure Open (s : Sys κ φ) : Prop where
  inside : ∀ c held, (s.call c).holding = some held → held.stage < held.script.drafts.length
  fresh : ∀ c k, (s.call c).begun k = false → s.delivery.publish (c, k) = none
  guarded : ∀ c held, (s.call c).holding = some held → (s.call c).counting = true →
    s.delivery.holds (c, held.stage) = true
  owned : ∀ key, (s.seq.gate key).locked = true →
    ∃ c held, (s.call c).holding = some held ∧ keyOf held.script.pair = key

theorem open_initial : Open (.new : Sys κ φ) := by
  refine ⟨fun c held holds => ?_, fun _ _ _ => rfl, fun c held holds => ?_, fun key locked => ?_⟩
  · cases (holding_new c).symm.trans holds
  · cases (holding_new c).symm.trans holds
  · cases locked

section Tracker

variable [DecidableEq κ] [DecidableEq φ] {client : Client} {s t : Sys κ φ} {l : Label κ φ}
  {c : κ} {k : Nat}

theorem entry_of_other {x y : Delivery.Sys (κ × Nat) φ} {dl : Delivery.Label (κ × Nat) φ}
    {p : κ × Nat} (taken : x.step dl = some y)
    (other : dl ≠ .count p ∧ dl ≠ .keep p ∧ dl ≠ .release p) :
    (x.publish p = none → y.publish p = none) ∧ y.holds p = x.holds p := by
  by_cases own : dl.publish = some p
  · cases dl with
    | count q => cases own; exact absurd rfl other.1
    | keep q => cases own; exact absurd rfl other.2.1
    | release q => cases own; exact absurd rfl other.2.2
    | ack q =>
      cases own
      cases Option.some.inj taken
      simp only [Delivery.Sys.holds, Function.update_self]
      cases x.publish p with
      | none => exact ⟨fun _ => rfl, rfl⟩
      | some pub => exact ⟨fun now => (by cases now), rfl⟩
    | _ => cases own
  · have same := Delivery.entry_elsewhere own taken
    exact ⟨fun absent => same.trans absent, by rw [Delivery.Sys.holds, same]; rfl⟩

theorem entry_of_moves (moves : Sys.Moves client s l t)
    (other : l.caller ≠ some c ∨ ∀ held, (s.call c).holding = some held → held.stage ≠ k) :
    (s.delivery.publish (c, k) = none → t.delivery.publish (c, k) = none) ∧
    t.delivery.holds (c, k) = s.delivery.holds (c, k) := by
  have apart {d : κ} {held : Holding} (named : l.caller = some d)
      (holds : (s.call d).holding = some held) : (d, held.stage) ≠ (c, k) := by
    rintro same
    cases same
    rcases other with foreign | later
    · exact foreign named
    · exact later held holds rfl
  rcases tracker_of_moves moves with ⟨-, same⟩ | ⟨dl, label, inner⟩
  · rw [same]
    exact ⟨id, rfl⟩
  · refine entry_of_other inner ?_
    cases moves with
    | @offered d held draft message delivery ready current built counted =>
      rw [label_of_offer ready current 0] at label
      obtain ⟨-, same⟩ := Option.ite_none_right_eq_some.mp label
      cases same
      have elsewhere := apart rfl (by rw [ready]; rfl)
      exact ⟨fun same => elsewhere (Delivery.Label.count.inj same), nofun, nofun⟩
    | @accepted d held message delivery offers kept =>
      rw [label_of_accept offers] at label
      obtain ⟨-, same⟩ := Option.ite_none_right_eq_some.mp label
      cases same
      have elsewhere := apart rfl (by rw [offers]; rfl)
      exact ⟨nofun, fun same => elsewhere (Delivery.Label.keep.inj same), nofun⟩
    | @released d held error delivery unwinds rolled =>
      rw [label_of_release unwinds] at label
      cases label
      have elsewhere := apart rfl (by rw [unwinds]; rfl)
      exact ⟨nofun, nofun, fun same => elsewhere (Delivery.Label.release.inj same)⟩
    | happened outside taken =>
      cases label
      refine ⟨?_, ?_, ?_⟩
      all_goals
        rintro rfl
        cases outside
    | _ => cases label

theorem fresh_step (h : Open s) (moves : Sys.Moves client s l t)
    (absent : (t.call c).begun k = false) : t.delivery.publish (c, k) = none := by
  by_cases own : l.caller = some c
  · have kept (before : (s.call c).begun k = false)
        (other : ∀ held, (s.call c).holding = some held → held.stage ≠ k) :
        t.delivery.publish (c, k) = none :=
      (entry_of_moves moves (.inr other)).1 (h.fresh c k before)
    have later {held : Holding} (holds : (s.call c).holding = some held)
        (beyond : held.stage < k) (before : (s.call c).begun k = false) :
        t.delivery.publish (c, k) = none := by
      refine kept before fun other now => ?_
      cases holds.symm.trans now
      omega
    have outside (nothing : (s.call c).holding = none) (before : (s.call c).begun k = false) :
        t.delivery.publish (c, k) = none := by
      refine kept before fun other now => ?_
      cases nothing.symm.trans now
    cases moves with
    | started idle built => cases own; exact outside (by rw [idle]; rfl) (by rw [idle]; rfl)
    | acquired waits free => cases own; exact outside (by rw [waits]; rfl) (by rw [waits]; rfl)
    | @offered _ held _ _ _ ready current built counted =>
      cases own
      have beyond : held.stage < k := by simpa [Phase.begun] using absent
      exact later (by rw [ready]; rfl) beyond (by simp [ready, Phase.begun, Nat.le_of_lt beyond])
    | @accepted _ held _ _ offers kept =>
      cases own
      have beyond : held.stage < k := by simpa [Phase.begun] using absent
      exact later (by rw [offers]; rfl) beyond (by simp [offers, Phase.begun, beyond])
    | @advanced _ held takes more =>
      cases own
      have beyond : held.stage < k := by simpa [Phase.begun, Nat.succ_le_iff] using absent
      exact later (by rw [takes]; rfl) beyond (by simp [takes, Phase.begun, beyond])
    | @refused _ _ held _ offers =>
      cases own
      have beyond : held.stage < k := by simpa [Phase.begun] using absent
      exact later (by rw [offers]; rfl) beyond (by simp [offers, Phase.begun, beyond])
    | @cancelled _ held _ offers =>
      cases own
      have beyond : held.stage < k := by simpa [Phase.begun] using absent
      exact later (by rw [offers]; rfl) beyond (by simp [offers, Phase.begun, beyond])
    | @released _ held _ _ unwinds rolled =>
      cases own
      have beyond : held.stage < k := by simpa [Phase.begun] using absent
      exact later (by rw [unwinds]; rfl) beyond (by simp [unwinds, Phase.begun, beyond])
    | rejected => cases own; rw [put_self] at absent; cases absent
    | committed => cases own; rw [put_self] at absent; cases absent
    | left => cases own; rw [put_self] at absent; cases absent
    | @restored _ _ error => cases own; rw [put_self] at absent; cases error <;> cases absent
    | happened => cases own
  · rw [call_of_other moves own] at absent
    exact (entry_of_moves moves (.inl own)).1 (h.fresh c k absent)

theorem guarded_step {held : Holding} (h : Open s) (moves : Sys.Moves client s l t)
    (holds : (t.call c).holding = some held) (counts : (t.call c).counting = true) :
    t.delivery.holds (c, held.stage) = true := by
  by_cases own : l.caller = some c
  · cases moves with
    | @offered c held draft message delivery ready current built counted =>
      cases own
      rw [put_self] at holds counts
      cases holds
      change message.options.tracked = true at counts
      rw [Sys.deliver, if_pos counts] at counted
      exact Delivery.holds_of_count counted
    | refused offers =>
      cases own
      rw [put_self] at holds counts
      cases holds
      exact h.guarded _ _ (by rw [offers]; rfl) (by rw [offers]; exact counts)
    | cancelled offers =>
      cases own
      rw [put_self] at holds counts
      cases holds
      exact h.guarded _ _ (by rw [offers]; rfl) (by rw [offers]; exact counts)
    | happened => cases own
    | @restored _ _ error => cases own; rw [put_self] at holds; cases error <;> cases holds
    | _ =>
      cases own
      rw [put_self] at counts
      cases counts
  · rw [call_of_other moves own] at holds counts
    rw [(entry_of_moves moves (.inl own)).2]
    exact h.guarded c held holds counts

end Tracker

section Steps

variable [DecidableEq κ] {client : Client} {s t : Sys κ φ} {l : Label κ φ} {c : κ}
  {key : String} {phase : Phase}

def Owned (s : Sys κ φ) (key : String) : Prop :=
  ∃ c held, (s.call c).holding = some held ∧ keyOf held.script.pair = key

theorem owned_put {u : Sys κ φ} (calls : u.call = s.call) (owned : Owned s key)
    (keeps : ∀ held, (s.call c).holding = some held → keyOf held.script.pair = key →
      ∃ next, phase.holding = some next ∧ next.script.pair = held.script.pair) :
    Owned (u.put c phase) key := by
  obtain ⟨d, held, holds, names⟩ := owned
  by_cases mine : d = c
  · subst mine
    obtain ⟨next, now, same⟩ := keeps held holds names
    exact ⟨d, next, by rw [put_self]; exact now, by rw [same]; exact names⟩
  · exact ⟨d, held, by rw [put_of_ne mine, calls]; exact holds, names⟩

theorem owned_write {pair : EdgeNode} {gate : Gate} (h : ∀ key, (s.seq.gate key).locked = true →
      Owned s key) (own : ∀ held, (s.call c).holding = some held → held.script.pair = pair)
    (keeps : gate.locked = true → ∃ next, phase.holding = some next ∧ next.script.pair = pair)
    (locked : (({ s with seq := s.seq.write (keyOf pair) gate }.put c phase).seq.gate key).locked =
      true) : Owned ({ s with seq := s.seq.write (keyOf pair) gate }.put c phase) key := by
  rw [put_seq] at locked
  by_cases same : key = keyOf pair
  · subst same
    rw [gate_write_self] at locked
    obtain ⟨next, now, rfl⟩ := keeps locked
    exact ⟨c, next, by rw [put_self]; exact now, rfl⟩
  · rw [gate_write_of_ne same] at locked
    refine owned_put rfl (h key locked) fun held holds names => ?_
    rw [own held holds] at names
    exact absurd names.symm same

variable [DecidableEq φ]

theorem owned_step (gated : Gated s) (h : ∀ key, (s.seq.gate key).locked = true → Owned s key)
    (moves : Sys.Moves client s l t) (locked : (t.seq.gate key).locked = true) :
    Owned t key := by
  have mine {c : κ} {held : Holding} (holds : (s.call c).holding = some held) (other : Holding)
      (now : (s.call c).holding = some other) : other.script.pair = held.script.pair := by
    cases holds.symm.trans now
    rfl
  have same {u : Sys κ φ} {c : κ} {phase : Phase} (calls : u.call = s.call)
      (seq : (s.seq.gate key).locked = true) (keeps : phase.holding = (s.call c).holding) :
      Owned (u.put c phase) key :=
    owned_put calls (h key seq) fun held holds _ => ⟨held, keeps.trans holds, rfl⟩
  cases moves with
  | rejected idle built => exact same rfl locked (by rw [idle]; rfl)
  | started idle built =>
    rw [put_seq, gate_gateOf] at locked
    refine same rfl locked ?_
    rw [idle]
    rfl
  | @acquired c script out waits free =>
    obtain ⟨-, rfl⟩ := Script.reserve_iff.mp free
    refine owned_write h (fun held now => ?_) (fun _ => ⟨_, rfl, rfl⟩) locked
    rw [waits] at now
    cases now
  | offered ready current built counted => exact same rfl locked (by rw [ready]; rfl)
  | accepted offers kept => exact same rfl locked (by rw [offers]; rfl)
  | @advanced c held takes more =>
    have holds : (s.call c).holding = some held := by rw [takes]; rfl
    rw [next_of_key (gated.keyed c held holds)] at locked ⊢
    exact owned_write h (mine holds) (fun _ => ⟨_, rfl, rfl⟩) locked
  | @committed c held takes last =>
    have holds : (s.call c).holding = some held := by rw [takes]; rfl
    rw [commit_of_key (gated.keyed c held holds)] at locked ⊢
    exact owned_write h (mine holds) (fun free => by cases free) locked
  | refused offers => exact same rfl locked (by rw [offers]; rfl)
  | left waits => exact same rfl locked (by rw [waits]; rfl)
  | cancelled offers => exact same rfl locked (by rw [offers]; rfl)
  | released unwinds rolled => exact same rfl locked (by rw [unwinds]; rfl)
  | @restored c held error unwinds =>
    have holds : (s.call c).holding = some held := by rw [unwinds]; rfl
    obtain ⟨found, saved⟩ := gated.saved c held holds
    rw [drop_of_key (gated.keyed c held holds) saved] at locked ⊢
    exact owned_write h (mine holds) (fun free => by cases free) locked
  | happened outside taken => exact h key locked

theorem inside_step (h : Open s) (moves : Sys.Moves client s l t) {held : Holding}
    (holds : (t.call c).holding = some held) : held.stage < held.script.drafts.length := by
  rcases phase_step moves c with same | ⟨before, after, found, left, own⟩
  · rw [same] at holds
    exact h.inside c held holds
  · rw [left] at holds
    have earlier := h.inside c
    rw [found] at earlier
    cases own with
    | acquired => cases holds; exact Nat.succ_pos _
    | advanced more => cases holds; exact more
    | @restored _ error => cases error <;> cases holds
    | offered => exact earlier held holds
    | accepted => exact earlier held holds
    | refused => exact earlier held holds
    | cancelled => exact earlier held holds
    | released => exact earlier held holds
    | _ => cases holds

theorem open_step (gated : Gated s) (h : Open s) (moves : Sys.Moves client s l t) : Open t :=
  ⟨fun _ _ holds => inside_step h moves holds, fun _ _ absent => fresh_step h moves absent,
    fun _ _ holds counts => guarded_step h moves holds counts,
    fun _ locked => owned_step gated h.owned moves locked⟩

theorem open_run {ok : Sys κ φ → Label κ φ → Prop} {ls : List (Label κ φ)}
    (run : Run (Sys.step client) ok .new ls s) : Open s := by
  induction run with
  | start => exact open_initial
  | snoc before _ taken ih => exact open_step (atPair_run before).1 ih (Sys.moves_of_step taken)

theorem deliver_total (tracked : Bool) {dl : Delivery.Label (κ × Nat) φ}
    (takes : tracked = true → ∃ delivery, s.delivery.step dl = some delivery) :
    ∃ delivery, s.deliver tracked dl = some delivery := by
  cases tracked with
  | false => exact ⟨_, rfl⟩
  | true => exact takes rfl

theorem ticket_of_holds {x : Delivery.Sys (κ × Nat) φ} {p : κ × Nat} (holds : x.holds p = true) :
    (∃ y, x.step (.keep p) = some y) ∧ ∃ y, x.step (.release p) = some y := by
  obtain ⟨⟨ticket, counted, taken, answered⟩, known, some⟩ := (Option.any_eq_true _ _).mp holds
  cases ticket with
  | none => cases some
  | some ticket =>
    exact ⟨⟨_, Delivery.Sys.step_keep.mpr ⟨_, _, _, _, known, rfl⟩⟩,
      _, Delivery.Sys.step_release.mpr ⟨_, _, _, _, known, rfl⟩⟩

theorem offer_total {held : Holding} (h : Open s) (ready : s.call c = .ready held)
    (tracked : Bool) : ∃ delivery, s.deliver tracked (.count (c, held.stage)) = some delivery := by
  have absent := h.fresh c held.stage (by simp [ready, Phase.begun])
  exact deliver_total tracked fun _ => ⟨_, Delivery.Sys.step_count.mpr ⟨absent, rfl⟩⟩

theorem accept_total {held : Holding} {message : Message} (h : Open s)
    (offers : s.call c = .offered held message) :
    ∃ delivery, s.deliver message.options.tracked (.keep (c, held.stage)) = some delivery := by
  refine deliver_total _ fun counts => (ticket_of_holds ?_).1
  exact h.guarded c held (by rw [offers]; rfl) (by rw [offers]; exact counts)

theorem release_total {held : Holding} {error : Option ClientError} (h : Open s)
    (unwinds : s.call c = .unwinding held true error) :
    ∃ delivery, s.delivery.step (.release (c, held.stage)) = some delivery :=
  (ticket_of_holds (h.guarded c held (by rw [unwinds]; rfl) (by rw [unwinds]; rfl))).2

def CanMove (client : Client) (s : Sys κ φ) (c : κ) : Prop :=
  ∃ l t, l.caller = some c ∧ l.forward = true ∧ Sys.step client s l = some t

/-- The message of this call is offered, and either answer of `rumqttc` takes the call on. A full
channel holds the answer back. -/
def AtClient (client : Client) (s : Sys κ φ) (c : κ) : Prop :=
  (∃ held message, s.call c = .offered held message) ∧
  (∃ t, Sys.step client s (.accept c) = some t) ∧
  ∀ error, ∃ t, Sys.step client s (.refuse c error) = some t

/-- Whoever holds a gate waits for `rumqttc` at most. -/
theorem moves_of_holder {held : Holding} (h : Open s) (holds : (s.call c).holding = some held) :
    CanMove client s c ∨ AtClient client s c := by
  have inside := h.inside c held holds
  cases phase : s.call c with
  | ready other =>
    rw [phase] at holds
    cases holds
    have current : held.draft = some held.script.drafts[held.stage] :=
      List.getElem?_eq_getElem inside
    obtain ⟨delivery, counted⟩ := offer_total h phase (Draft.message client.role
      held.script.drafts[held.stage] (s.seq.number held.reservation)).options.tracked
    exact .inl ⟨.offer c, _, rfl, rfl, Sys.step_of_moves (.offered phase current rfl counted)⟩
  | offered other message =>
    obtain ⟨delivery, kept⟩ := accept_total h phase
    exact .inr ⟨⟨other, message, phase⟩, ⟨_, Sys.step_of_moves (.accepted phase kept)⟩,
      fun error => ⟨_, Sys.step_of_moves (.refused phase)⟩⟩
  | taken other =>
    rw [phase] at holds
    cases holds
    rcases Nat.lt_or_eq_of_le (Nat.succ_le_of_lt inside) with more | last
    · exact .inl ⟨.next c, _, rfl, rfl, Sys.step_of_moves (.advanced phase more)⟩
    · exact .inl ⟨.commit c, _, rfl, rfl, Sys.step_of_moves (.committed phase last)⟩
  | unwinding other guarded error =>
    cases guarded with
    | false => exact .inl ⟨.restore c, _, rfl, rfl, Sys.step_of_moves (.restored phase)⟩
    | true =>
      obtain ⟨delivery, rolled⟩ := release_total h phase
      exact .inl ⟨.release c, _, rfl, rfl, Sys.step_of_moves (.released phase rolled)⟩
  | _ =>
    rw [phase] at holds
    cases holds

/-- The call itself, or the one that holds the gate it waits for. -/
def AheadOf (s : Sys κ φ) (c d : κ) : Prop :=
  d = c ∨ ∃ script held, s.call c = .waiting script ∧ (s.call d).holding = some held ∧
    held.script.pair = script.pair

theorem moves_of_waiting {script : Script} (h : Open s) (waits : s.call c = .waiting script) :
    ∃ d, AheadOf s c d ∧ (CanMove client s d ∨ AtClient client s d) := by
  cases locked : (s.seq.gate (keyOf script.pair)).locked with
  | false =>
    have free := Script.reserve_iff.mpr ⟨locked, rfl⟩
    exact ⟨c, .inl rfl, .inl ⟨.acquire c, _, rfl, rfl,
      Sys.step_of_moves (.acquired waits free)⟩⟩
  | true =>
    obtain ⟨d, held, holds, names⟩ := h.owned _ locked
    exact ⟨d, .inr ⟨script, held, waits, holds, keyOf_injective names⟩, moves_of_holder h holds⟩

theorem rest_of_script {op : Operation} {script : Script} (built : client.script op = .ok script) :
    script.rest.length ≤ 1 := by
  cases data : op.isBirth with
  | false => simp [Client.rest_of_data data built]
  | true =>
    cases op with
    | publishBirth device now => exact Nat.le_of_eq (Client.script_birth built).2.2
    | _ => cases data

/-- Every step of a call lowers its rank, and no other step raises it. -/
theorem rank_step (moves : Sys.Moves client s l t) (c : κ) :
    (t.call c).rank + (if l.caller == some c then 1 else 0) ≤ (s.call c).rank := by
  by_cases own : l.caller = some c
  · rw [if_pos (beq_iff_eq.mpr own)]
    cases moves with
    | rejected idle built => cases own; rw [put_self, idle]; simp [Phase.rank]
    | started idle built =>
      cases own
      have short := rest_of_script built
      rw [put_self, idle]
      simp only [Phase.rank]
      omega
    | acquired waits free => cases own; rw [put_self, waits]; simp [Phase.rank]
    | offered ready current built counted => cases own; rw [put_self, ready]; simp [Phase.rank]
    | accepted offers kept => cases own; rw [put_self, offers]; simp [Phase.rank]
    | @advanced _ held takes more =>
      cases own
      have behind : held.stage < held.script.rest.length := Nat.lt_of_succ_lt_succ more
      rw [put_self, takes]
      simp only [Phase.rank]
      omega
    | committed takes last => cases own; rw [put_self, takes]; simp [Phase.rank]
    | @refused _ _ _ message offers =>
      cases own
      rw [put_self, offers]
      cases message.options.tracked <;> simp [Phase.rank]
    | left waits => cases own; rw [put_self, waits]; simp [Phase.rank]
    | @cancelled _ _ message offers =>
      cases own
      rw [put_self, offers]
      cases message.options.tracked <;> simp [Phase.rank]
    | released unwinds rolled => cases own; rw [put_self, unwinds]; simp [Phase.rank]
    | @restored _ _ error unwinds =>
      cases own
      rw [put_self, unwinds]
      cases error <;> simp [ended, Phase.rank]
    | happened outside taken => cases own
  · rw [call_of_other moves own, if_neg (by simpa using own)]
    exact Nat.le_refl _

theorem own_steps_few {ok : Sys κ φ → Label κ φ → Prop} {ls : List (Label κ φ)}
    (run : Run (Sys.step client) ok .new ls s) (c : κ) :
    (ls.filter fun l => l.caller == some c).length ≤ 9 := by
  have bound := (run.ranked (P := fun _ => True) (fun s => (s.call c).rank)
    (fun l => l.caller == some c) trivial fun t l u _ _ taken =>
      ⟨trivial, rank_step (Sys.moves_of_step taken) c⟩).2
  exact Nat.le_trans (Nat.le_add_right _ _) bound

theorem moves_of_running (h : Open s) (busy : s.call c ≠ .idle)
    (running : (s.call c).over = false) :
    ∃ d, AheadOf s c d ∧ (CanMove client s d ∨ AtClient client s d) := by
  cases phase : s.call c with
  | idle => exact absurd phase busy
  | waiting script => exact moves_of_waiting h phase
  | returned result => rw [phase] at running; cases running
  | cancelled => rw [phase] at running; cases running
  | _ => exact ⟨c, .inl rfl, moves_of_holder h (by rw [phase]; rfl)⟩

omit [DecidableEq κ] [DecidableEq φ] in
theorem unlocked_of_quiet (h : Open s) (quiet : ∀ c, s.call c = .idle ∨ (s.call c).over = true)
    (key : String) : (s.seq.gate key).locked = false := by
  by_contra locked
  rw [Bool.not_eq_false] at locked
  obtain ⟨c, held, holds, -⟩ := h.owned key locked
  rcases quiet c with idle | finished
  · rw [idle] at holds
    cases holds
  · cases phase : s.call c with
    | returned result => rw [phase] at holds; cases holds
    | cancelled => rw [phase] at holds; cases holds
    | _ => rw [phase] at finished; cases finished

/-- Every publish call comes to its end once `rumqttc` takes or refuses what it is offered, also
where messages leave in the window: it takes nine steps at most, and while it is under way it or
the call that holds its gate can go on or has its message at `rumqttc`. At the end every gate is
free. -/
theorem publish_calls_end {ok : Window κ φ → Instant κ φ → Prop} {ls : List (Instant κ φ)}
    {w : Window κ φ} (run : Run (Window.step client) ok .new ls w) :
    (∀ c, (ls.filter fun l => l.seen.caller == some c).length ≤ 9) ∧
    (∀ c, w.client.call c ≠ .idle → (w.client.call c).over = false →
      ∃ d, AheadOf w.client c d ∧ (CanMove client w.client d ∨ AtClient client w.client d)) ∧
    ((∀ c, w.client.call c = .idle ∨ (w.client.call c).over = true) →
      ∀ key, (w.client.seq.gate key).locked = false) := by
  obtain ⟨seen, -⟩ := client_of_window run
  have h := open_run seen
  refine ⟨fun c => ?_, fun c => moves_of_running h, unlocked_of_quiet h⟩
  have few := own_steps_few seen c
  rwa [List.filter_map, List.length_map] at few

end Steps

theorem publish_calls_end_small : ∃ (w : Window Nat Nat) (script : Script),
    Run (Window.step plantClient) (Obeys []) .new
      [.plain (.start 0 plantData), .plain (.start 1 plantData), .plain (.acquire 0)] w ∧
    w.client.call 1 = .waiting script ∧
    ∃ d, AheadOf w.client 1 d ∧
      (CanMove plantClient w.client d ∨ AtClient plantClient w.client d) := by
  obtain ⟨w, script, h, waits⟩ : ∃ (w : Window Nat Nat) (script : Script),
      exec (Window.step plantClient) [] .new
        [.plain (.start 0 plantData), .plain (.start 1 plantData), .plain (.acquire 0)] =
          some w ∧ w.client.call 1 = .waiting script := ⟨_, _, rfl, rfl⟩
  have run := Run.of_exec h
  have moves := (publish_calls_end run).2.1 1 (by rw [waits]; nofun) (by rw [waits]; rfl)
  exact ⟨w, script, run, waits, moves⟩

end Sparkplug
