import Sparkplug.Client.System

/-! Mutual exclusion at the gates: a call that holds a reservation holds the one gate of its
pair, and no other call touches that gate. -/
namespace Sparkplug

variable {κ φ : Type}

/-- A gate is locked while some call holds its reservation, and one call holds it at a time. -/
structure Gated (s : Sys κ φ) : Prop where
  keyed : ∀ c held, (s.call c).holding = some held →
    held.reservation.key = keyOf held.script.pair
  saved : ∀ c held, (s.call c).holding = some held →
    ∃ found, held.reservation.restoreTo = some found
  locked : ∀ c held, (s.call c).holding = some held →
    (s.seq.gate (keyOf held.script.pair)).locked = true
  exclusive : ∀ c d held other, (s.call c).holding = some held →
    (s.call d).holding = some other → held.script.pair = other.script.pair → c = d

theorem holding_new (c : κ) : ((.new : Sys κ φ).call c).holding = none := rfl

theorem gated_initial : Gated (.new : Sys κ φ) := by
  constructor
  · intro c held holds
    cases (holding_new c).symm.trans holds
  · intro c held holds
    cases (holding_new c).symm.trans holds
  · intro c held holds
    cases (holding_new c).symm.trans holds
  · intro c d held other holds
    cases (holding_new c).symm.trans holds

@[simp] theorem holding_ended (error : Option ClientError) : (ended error).holding = none := by
  cases error <;> rfl

section Frame

variable {s t : Sys κ φ} {c d : κ} {phase : Phase}

theorem gated_same (h : Gated s) (gates : ∀ key, t.seq.gate key = s.seq.gate key)
    (holdings : ∀ d, (t.call d).holding = (s.call d).holding) : Gated t := by
  refine ⟨fun c held hc => ?_, fun c held hc => ?_, fun c held hc => ?_,
    fun c d held other hc hd => ?_⟩
  · exact h.keyed c held (by rw [← holdings]; exact hc)
  · exact h.saved c held (by rw [← holdings]; exact hc)
  · rw [gates]
    exact h.locked c held (by rw [← holdings]; exact hc)
  · exact h.exclusive c d held other (by rw [← holdings]; exact hc)
      (by rw [← holdings]; exact hd)

theorem Gated.alone {held : Holding} (h : Gated s) (holds : (s.call c).holding = some held)
    (d : κ) (other : Holding) (apart : d ≠ c) (hd : (s.call d).holding = some other) :
    other.script.pair ≠ held.script.pair := by
  intro same
  exact apart (h.exclusive d c other held hd holds same)

theorem Gated.free {pair : EdgeNode} (h : Gated s)
    (free : (s.seq.gate (keyOf pair)).locked = false) (d : κ) (other : Holding)
    (hd : (s.call d).holding = some other) : other.script.pair ≠ pair := by
  rintro rfl
  have locked := h.locked d other hd
  rw [free] at locked
  cases locked

variable [DecidableEq κ]

@[simp] theorem put_self : (s.put c phase).call c = phase := by simp [Sys.put]

theorem put_of_ne (other : d ≠ c) : (s.put c phase).call d = s.call d := by
  simp [Sys.put, other]

@[simp] theorem put_seq : (s.put c phase).seq = s.seq := rfl
@[simp] theorem put_sent : (s.put c phase).sent = s.sent := rfl
@[simp] theorem put_delivery : (s.put c phase).delivery = s.delivery := rfl

theorem call_of_other [DecidableEq φ] {client : Client} {l : Label κ φ}
    (moves : Sys.Moves client s l t) (other : l.caller ≠ some d) : t.call d = s.call d := by
  have apart (c : κ) (same : l.caller = some c) : d ≠ c := by
    rintro rfl
    exact other same
  cases moves with
  | happened => rfl
  | _ => exact put_of_ne (apart _ rfl)

def Phase.over : Phase → Bool
  | .returned _ | .cancelled => true
  | _ => false

inductive Phase.Moves (client : Client) (c : κ) : Phase → Label κ φ → Phase → Prop where
  | rejected {op e} (built : client.script op = .error e) :
      Moves client c .idle (.start c op) (.returned (.error e))
  | started {op script} (built : client.script op = .ok script) :
      Moves client c .idle (.start c op) (.waiting script)
  | acquired {script reservation} :
      Moves client c (.waiting script) (.acquire c) (.ready ⟨script, 0, reservation⟩)
  | offered {held message} : Moves client c (.ready held) (.offer c) (.offered held message)
  | accepted {held message} : Moves client c (.offered held message) (.accept c) (.taken held)
  | advanced {held} (more : held.stage + 1 < held.script.drafts.length) :
      Moves client c (.taken held) (.next c) (.ready { held with stage := held.stage + 1 })
  | committed {held} : Moves client c (.taken held) (.commit c) (.returned (.ok ()))
  | refused {held message error} : Moves client c (.offered held message) (.refuse c error)
      (.unwinding held message.options.tracked (some error))
  | left {script} : Moves client c (.waiting script) (.cancel c) .cancelled
  | cancelled {held message} : Moves client c (.offered held message) (.cancel c)
      (.unwinding held message.options.tracked none)
  | released {held error} : Moves client c (.unwinding held true error) (.release c)
      (.unwinding held false error)
  | restored {held error} : Moves client c (.unwinding held false error) (.restore c)
      (ended error)

theorem phase_step [DecidableEq φ] {client : Client} {l : Label κ φ}
    (moves : Sys.Moves client s l t) (d : κ) : t.call d = s.call d ∨
      ∃ before after, s.call d = before ∧ t.call d = after ∧
        Phase.Moves client d before l after := by
  by_cases own : l.caller = some d
  · refine .inr ⟨_, _, rfl, rfl, ?_⟩
    cases moves with
    | rejected idle built => cases own; rw [put_self, idle]; exact .rejected built
    | started idle built => cases own; rw [put_self, idle]; exact .started built
    | acquired waits free => cases own; rw [put_self, waits]; exact .acquired
    | offered ready current built counted => cases own; rw [put_self, ready]; exact .offered
    | accepted offers kept => cases own; rw [put_self, offers]; exact .accepted
    | advanced takes more => cases own; rw [put_self, takes]; exact .advanced more
    | committed takes last => cases own; rw [put_self, takes]; exact .committed
    | refused offers => cases own; rw [put_self, offers]; exact .refused
    | left waits => cases own; rw [put_self, waits]; exact .left
    | cancelled offers => cases own; rw [put_self, offers]; exact .cancelled
    | released unwinds rolled => cases own; rw [put_self, unwinds]; exact .released
    | restored unwinds => cases own; rw [put_self, unwinds]; exact .restored
    | happened outside taken => cases own
  · exact .inl (call_of_other moves own)

theorem over_step [DecidableEq φ] {client : Client} {l : Label κ φ}
    (finished : (s.call d).over = true) (moves : Sys.Moves client s l t) : t.call d = s.call d := by
  rcases phase_step moves d with same | ⟨before, after, found, -, own⟩
  · exact same
  · rw [found] at finished
    cases own <;> cases finished

theorem holding_put (same : phase.holding = (s.call c).holding) (d : κ) :
    ((s.put c phase).call d).holding = (s.call d).holding := by
  by_cases other : d = c
  · subst other
    rw [put_self, same]
  · rw [put_of_ne other]

theorem holding_of_put {held : Holding} (holds : ((s.put c phase).call d).holding = some held) :
    (d = c ∧ phase.holding = some held) ∨ (d ≠ c ∧ (s.call d).holding = some held) := by
  by_cases other : d = c
  · subst other
    rw [put_self] at holds
    exact .inl ⟨rfl, holds⟩
  · rw [put_of_ne other] at holds
    exact .inr ⟨other, holds⟩

theorem gated_take (held : Holding) {gate : Gate} (h : Gated s)
    (alone : ∀ d other, d ≠ c → (s.call d).holding = some other →
      other.script.pair ≠ held.script.pair)
    (keyed : held.reservation.key = keyOf held.script.pair)
    (saved : ∃ found, held.reservation.restoreTo = some found) (locked : gate.locked = true)
    (holds : phase.holding = some held) :
    Gated ({ s with seq := s.seq.write (keyOf held.script.pair) gate }.put c phase) := by
  have own {taken : Holding} (now : phase.holding = some taken) : taken = held :=
    Option.some.inj (now.symm.trans holds)
  constructor
  · intro d other hd
    rcases holding_of_put hd with ⟨-, now⟩ | ⟨-, before⟩
    · rw [own now, keyed]
    · exact h.keyed d other before
  · intro d other hd
    rcases holding_of_put hd with ⟨-, now⟩ | ⟨-, before⟩
    · rw [own now]
      exact saved
    · exact h.saved d other before
  · intro d other hd
    rcases holding_of_put hd with ⟨-, now⟩ | ⟨apart, before⟩
    · rw [own now, put_seq, gate_write_self]
      exact locked
    · have distinct := keyOf_injective.ne (alone d other apart before)
      rw [put_seq, gate_write_of_ne distinct]
      exact h.locked d other before
  · intro d e one two hd he same
    rcases holding_of_put hd with ⟨rfl, now⟩ | ⟨apart, before⟩
    · rcases holding_of_put he with ⟨rfl, -⟩ | ⟨apart, before⟩
      · rfl
      · rw [own now] at same
        exact absurd same.symm (alone e two apart before)
    · rcases holding_of_put he with ⟨rfl, now⟩ | ⟨-, before'⟩
      · rw [own now] at same
        exact absurd same (alone d one apart before)
      · exact h.exclusive d e one two before before' same

theorem gated_drop {pair : EdgeNode} {gate : Gate} (h : Gated s)
    (alone : ∀ d other, d ≠ c → (s.call d).holding = some other → other.script.pair ≠ pair)
    (dropped : phase.holding = none) :
    Gated ({ s with seq := s.seq.write (keyOf pair) gate }.put c phase) := by
  have others {d : κ} {held : Holding}
      (hd : (({ s with seq := s.seq.write (keyOf pair) gate }.put c phase).call d).holding =
        some held) : d ≠ c ∧ (s.call d).holding = some held := by
    rcases holding_of_put hd with ⟨-, now⟩ | still
    · cases dropped.symm.trans now
    · exact still
  constructor
  · intro d held hd
    exact h.keyed d held (others hd).2
  · intro d held hd
    exact h.saved d held (others hd).2
  · intro d held hd
    obtain ⟨apart, before⟩ := others hd
    have distinct := keyOf_injective.ne (alone d held apart before)
    rw [put_seq, gate_write_of_ne distinct]
    exact h.locked d held before
  · intro d e one two hd he same
    exact h.exclusive d e one two (others hd).2 (others he).2 same

theorem gated_step [DecidableEq φ] {client : Client} {l : Label κ φ} (h : Gated s)
    (moves : Sys.Moves client s l t) : Gated t := by
  cases moves with
  | rejected idle built => exact gated_same h (fun _ => rfl) (holding_put (by rw [idle]; rfl))
  | started idle built =>
    refine gated_same h (fun key => gate_gateOf) (holding_put ?_)
    change none = (s.call _).holding
    rw [idle]
    rfl
  | acquired waits free =>
    obtain ⟨unlocked, rfl⟩ := Script.reserve_iff.mp free
    exact gated_take ⟨_, 0, _⟩ h (fun d other _ hd => h.free unlocked d other hd) rfl
      ⟨_, rfl⟩ rfl rfl
  | offered ready current built counted =>
    refine gated_same h (fun _ => rfl) (holding_put ?_)
    change some _ = (s.call _).holding
    rw [ready]
    rfl
  | accepted offers kept =>
    refine gated_same h (fun _ => rfl) (holding_put ?_)
    change some _ = (s.call _).holding
    rw [offers]
    rfl
  | @advanced c held takes more =>
    have holds : (s.call c).holding = some held := by rw [takes]; rfl
    have keyed := h.keyed c held holds
    rw [next_of_key keyed]
    have alone := h.alone holds
    exact gated_take { held with stage := held.stage + 1 } h alone keyed
      (h.saved c held holds) rfl rfl
  | @committed c held takes last =>
    have holds : (s.call c).holding = some held := by rw [takes]; rfl
    rw [commit_of_key (h.keyed c held holds)]
    exact gated_drop h (h.alone holds) rfl
  | refused offers => exact gated_same h (fun _ => rfl) (holding_put (by rw [offers]; rfl))
  | left waits => exact gated_same h (fun _ => rfl) (holding_put (by rw [waits]; rfl))
  | cancelled offers => exact gated_same h (fun _ => rfl) (holding_put (by rw [offers]; rfl))
  | released unwinds rolled =>
    refine gated_same h (fun _ => rfl) (holding_put ?_)
    change some _ = (s.call _).holding
    rw [unwinds]
    rfl
  | @restored c held error unwinds =>
    have holds : (s.call c).holding = some held := by rw [unwinds]; rfl
    obtain ⟨found, saved⟩ := h.saved c held holds
    rw [drop_of_key (h.keyed c held holds) saved]
    exact gated_drop h (h.alone holds) (holding_ended error)
  | happened outside taken => exact gated_same h (fun _ => rfl) fun _ => rfl

theorem holding_of_step [DecidableEq φ] {client : Client} {l : Label κ φ} {held : Holding}
    (moves : Sys.Moves client s l t) (holds : (t.call d).holding = some held) :
    (s.call d).holding = some held ∨ held.stage = 0 ∨
    ∃ before, s.call d = .taken before ∧ held = { before with stage := before.stage + 1 } := by
  rcases phase_step moves d with same | ⟨before, after, found, left, own⟩
  · rw [same] at holds
    exact .inl holds
  · rw [left] at holds
    rw [found]
    cases own with
    | acquired => cases holds; exact .inr (.inl rfl)
    | advanced more => cases holds; exact .inr (.inr ⟨_, rfl, rfl⟩)
    | restored => rw [holding_ended] at holds; cases holds
    | offered => exact .inl holds
    | accepted => exact .inl holds
    | refused => exact .inl holds
    | cancelled => exact .inl holds
    | released => exact .inl holds
    | _ => cases holds

theorem taken_of_step [DecidableEq φ] {client : Client} {l : Label κ φ} {held : Holding}
    (moves : Sys.Moves client s l t) (now : t.call d = .taken held) :
    s.call d = .taken held ∨ ∃ message, s.call d = .offered held message ∧ l = .accept d := by
  rcases phase_step moves d with same | ⟨before, after, found, left, own⟩
  · exact .inl (same.symm.trans now)
  · rw [left] at now
    rw [found]
    cases own with
    | accepted => cases now; exact .inr ⟨_, rfl, rfl⟩
    | @restored _ error => cases error <;> cases now
    | _ => cases now

theorem unwinding_of_step [DecidableEq φ] {client : Client} {l : Label κ φ} {held : Holding}
    {guarded : Bool} {error : Option ClientError} (moves : Sys.Moves client s l t)
    (now : t.call d = .unwinding held guarded error) :
    (∃ guarded, s.call d = .unwinding held guarded error) ∨
    ∃ message, s.call d = .offered held message ∧
      ((∃ e, l = .refuse d e) ∨ l = .cancel d) := by
  rcases phase_step moves d with same | ⟨before, after, found, left, own⟩
  · exact .inl ⟨guarded, same.symm.trans now⟩
  · rw [left] at now
    rw [found]
    cases own with
    | refused => cases now; exact .inr ⟨_, rfl, .inl ⟨_, rfl⟩⟩
    | cancelled => cases now; exact .inr ⟨_, rfl, .inr rfl⟩
    | released => cases now; exact .inl ⟨_, rfl⟩
    | @restored _ error => cases error <;> cases now
    | _ => cases now

end Frame

end Sparkplug
