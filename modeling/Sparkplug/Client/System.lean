import Sparkplug.Client.Operation
import Sparkplug.Delivery.System
import Sparkplug.Seq

/-! One client, shared by any number of tasks. Each publish call steps through the awaits
and locks of its future: the gate of its edge node, the count of the tracker, the answer of
the `rumqttc` client, and then either the commit or the two guards that unwind. A future
can be dropped only while it waits, for its gate or for the client, and the client does not
take a message in the instant its call is cancelled. -/
namespace Sparkplug

variable {κ φ : Type}

/-- A call that holds its reservation, and which of its drafts it is at. -/
structure Holding where
  script : Script
  stage : Nat
  reservation : SeqReservation

inductive Phase where
  | idle
  /-- At the gate of the pair, in `lock_owned().await`. -/
  | waiting (script : Script)
  | ready (held : Holding)
  /-- In `client.publish(..).await`, with the count of a tracked message raised. -/
  | offered (held : Holding) (message : Message)
  | taken (held : Holding)
  /-- Refused or cancelled, with the reservation and perhaps the delivery guard to drop. -/
  | unwinding (held : Holding) (guarded : Bool) (error : Option ClientError)
  | returned (result : Except SparkplugError Unit)
  | cancelled

def Phase.holding : Phase → Option Holding
  | .ready held => some held
  | .offered held _ => some held
  | .taken held => some held
  | .unwinding held _ _ => some held
  | _ => none

structure Sys (κ φ : Type) where
  seq : SeqCounters
  delivery : Delivery.Sys (κ × Nat) φ
  call : κ → Phase
  /-- What the client took, in order, with the call that handed it over. -/
  sent : List (κ × Message)

inductive Label (κ φ : Type) where
  | start (c : κ) (op : Operation)
  | acquire (c : κ)
  | offer (c : κ)
  | accept (c : κ)
  /-- `SeqReservation::next` between the two births. -/
  | next (c : κ)
  | commit (c : κ)
  | refuse (c : κ) (error : ClientError)
  | cancel (c : κ)
  /-- The drop of the delivery guard. -/
  | release (c : κ)
  /-- The drop of the reservation. -/
  | restore (c : κ)
  /-- A step of a flush, or an event the loop applies to the tracker. -/
  | event (l : Delivery.Label (κ × Nat) φ)

def Label.caller : Label κ φ → Option κ
  | .start c _ | .acquire c | .offer c | .accept c | .next c | .commit c | .refuse c _
  | .cancel c | .release c | .restore c => some c
  | .event _ => none

def Delivery.Label.isEvent {ι φ : Type} : Delivery.Label ι φ → Bool
  | .count _ | .keep _ | .release _ | .releaseForeign _ => false
  | _ => true

namespace Script

def drawn (script : Script) (current : UInt8) : UInt8 :=
  if script.resets then 0 else current + 1

def reserve (script : Script) (counters : SeqCounters) : Option (SeqReservation × SeqCounters) :=
  if script.resets then counters.reserveReset script.pair else counters.reserve script.pair

theorem reserve_iff {script : Script} {counters : SeqCounters}
    {out : SeqReservation × SeqCounters} :
    script.reserve counters = some out ↔
      (counters.gate (keyOf script.pair)).locked = false ∧
      out = (⟨keyOf script.pair, some (counters.gate (keyOf script.pair)).count⟩,
        counters.write (keyOf script.pair)
          ⟨script.drawn (counters.gate (keyOf script.pair)).count, true⟩) := by
  unfold reserve drawn
  split
  · exact reserveWith_iff
  · exact reserveWith_iff

end Script

def ended (error : Option ClientError) : Phase :=
  error.elim .cancelled fun e => .returned (.error (.publish e))

def Holding.draft (held : Holding) : Option Draft := held.script.drafts[held.stage]?

namespace Sys

variable [DecidableEq κ] [DecidableEq φ]

def new : Sys κ φ := ⟨.new, .new, fun _ => .idle, []⟩

def put (s : Sys κ φ) (c : κ) (phase : Phase) : Sys κ φ :=
  { s with call := Function.update s.call c phase }

/-- The tracker, which only a tracked message reaches. -/
def deliver (s : Sys κ φ) (tracked : Bool) (l : Delivery.Label (κ × Nat) φ) :
    Option (Delivery.Sys (κ × Nat) φ) :=
  if tracked then s.delivery.step l else some s.delivery

def step (client : Client) (s : Sys κ φ) : Label κ φ → Option (Sys κ φ)
  | .start c op =>
    match s.call c with
    | .idle =>
      match client.script op with
      | .error e => some (s.put c (.returned (.error e)))
      | .ok script => some ({ s with seq := s.seq.gateOf script.pair }.put c (.waiting script))
    | _ => none
  | .acquire c =>
    match s.call c with
    | .waiting script => do
      let (reservation, seq) ← script.reserve s.seq
      return { s with seq := seq }.put c (.ready ⟨script, 0, reservation⟩)
    | _ => none
  | .offer c =>
    match s.call c with
    | .ready held => do
      let draft ← held.draft
      let message := draft.message client.role (s.seq.number held.reservation)
      let delivery ← s.deliver message.options.tracked (.count (c, held.stage))
      return { s with delivery := delivery }.put c (.offered held message)
    | _ => none
  | .accept c =>
    match s.call c with
    | .offered held message => do
      let delivery ← s.deliver message.options.tracked (.keep (c, held.stage))
      return { s with delivery := delivery, sent := s.sent ++ [(c, message)] }.put c
        (.taken held)
    | _ => none
  | .next c =>
    match s.call c with
    | .taken held =>
      if held.stage + 1 < held.script.drafts.length then
        some ({ s with seq := s.seq.next held.reservation }.put c
          (.ready { held with stage := held.stage + 1 }))
      else none
    | _ => none
  | .commit c =>
    match s.call c with
    | .taken held =>
      if held.stage + 1 = held.script.drafts.length then
        some ({ s with seq := s.seq.commit held.reservation }.put c (.returned (.ok ())))
      else none
    | _ => none
  | .refuse c error =>
    match s.call c with
    | .offered held message =>
      some (s.put c (.unwinding held message.options.tracked (some error)))
    | _ => none
  | .cancel c =>
    match s.call c with
    | .waiting _ => some (s.put c .cancelled)
    | .offered held message => some (s.put c (.unwinding held message.options.tracked none))
    | _ => none
  | .release c =>
    match s.call c with
    | .unwinding held true error => do
      let delivery ← s.delivery.step (.release (c, held.stage))
      return { s with delivery := delivery }.put c (.unwinding held false error)
    | _ => none
  | .restore c =>
    match s.call c with
    | .unwinding held false error =>
      some ({ s with seq := s.seq.drop held.reservation }.put c (ended error))
    | _ => none
  | .event l =>
    if l.isEvent then (s.delivery.step l).map fun delivery => { s with delivery := delivery }
    else none

section Steps

variable {client : Client} {s t : Sys κ φ}

/-- The transitions of the system, one for each way a step function branch ends. -/
inductive Moves (client : Client) (s : Sys κ φ) : Label κ φ → Sys κ φ → Prop where
  | rejected {c op e} (idle : s.call c = .idle) (built : client.script op = .error e) :
      Moves client s (.start c op) (s.put c (.returned (.error e)))
  | started {c op script} (idle : s.call c = .idle) (built : client.script op = .ok script) :
      Moves client s (.start c op)
        ({ s with seq := s.seq.gateOf script.pair }.put c (.waiting script))
  | acquired {c script out} (waits : s.call c = .waiting script)
      (free : script.reserve s.seq = some out) :
      Moves client s (.acquire c) ({ s with seq := out.2 }.put c (.ready ⟨script, 0, out.1⟩))
  | offered {c held draft message delivery} (ready : s.call c = .ready held)
      (current : held.draft = some draft)
      (built : message = draft.message client.role (s.seq.number held.reservation))
      (counted : s.deliver message.options.tracked (.count (c, held.stage)) = some delivery) :
      Moves client s (.offer c)
        ({ s with delivery := delivery }.put c (.offered held message))
  | accepted {c held message delivery} (offers : s.call c = .offered held message)
      (kept : s.deliver message.options.tracked (.keep (c, held.stage)) = some delivery) :
      Moves client s (.accept c)
        ({ s with delivery := delivery, sent := s.sent ++ [(c, message)] }.put c (.taken held))
  | advanced {c held} (takes : s.call c = .taken held)
      (more : held.stage + 1 < held.script.drafts.length) :
      Moves client s (.next c) ({ s with seq := s.seq.next held.reservation }.put c
        (.ready { held with stage := held.stage + 1 }))
  | committed {c held} (takes : s.call c = .taken held)
      (last : held.stage + 1 = held.script.drafts.length) :
      Moves client s (.commit c)
        ({ s with seq := s.seq.commit held.reservation }.put c (.returned (.ok ())))
  | refused {c error held message} (offers : s.call c = .offered held message) :
      Moves client s (.refuse c error)
        (s.put c (.unwinding held message.options.tracked (some error)))
  | left {c script} (waits : s.call c = .waiting script) :
      Moves client s (.cancel c) (s.put c .cancelled)
  | cancelled {c held message} (offers : s.call c = .offered held message) :
      Moves client s (.cancel c)
        (s.put c (.unwinding held message.options.tracked none))
  | released {c held error delivery} (unwinds : s.call c = .unwinding held true error)
      (rolled : s.delivery.step (.release (c, held.stage)) = some delivery) :
      Moves client s (.release c)
        ({ s with delivery := delivery }.put c (.unwinding held false error))
  | restored {c held error} (unwinds : s.call c = .unwinding held false error) :
      Moves client s (.restore c)
        ({ s with seq := s.seq.drop held.reservation }.put c (ended error))
  | happened {l delivery} (outside : l.isEvent = true)
      (taken : s.delivery.step l = some delivery) :
      Moves client s (.event l) { s with delivery := delivery }

theorem moves_of_step {l : Label κ φ} (taken : step client s l = some t) :
    Moves client s l t := by
  cases l with
  | start c op =>
    simp only [step] at taken
    split at taken
    · rename_i idle
      split at taken <;> rename_i built <;> cases taken
      · exact .rejected idle built
      · exact .started idle built
    · cases taken
  | acquire c =>
    simp only [step] at taken
    split at taken
    · rename_i waits
      obtain ⟨out, free, rest⟩ := Option.bind_eq_some_iff.mp taken
      cases rest
      exact .acquired waits free
    · cases taken
  | offer c =>
    simp only [step] at taken
    split at taken
    · rename_i ready
      obtain ⟨draft, current, rest⟩ := Option.bind_eq_some_iff.mp taken
      obtain ⟨delivery, counted, rest⟩ := Option.bind_eq_some_iff.mp rest
      cases rest
      exact .offered ready current rfl counted
    · cases taken
  | accept c =>
    simp only [step] at taken
    split at taken
    · rename_i offers
      obtain ⟨delivery, kept, rest⟩ := Option.bind_eq_some_iff.mp taken
      cases rest
      exact .accepted offers kept
    · cases taken
  | next c =>
    simp only [step] at taken
    split at taken
    · rename_i takes
      obtain ⟨more, rest⟩ := Option.ite_none_right_eq_some.mp taken
      cases rest
      exact .advanced takes more
    · cases taken
  | commit c =>
    simp only [step] at taken
    split at taken
    · rename_i takes
      obtain ⟨last, rest⟩ := Option.ite_none_right_eq_some.mp taken
      cases rest
      exact .committed takes last
    · cases taken
  | refuse c error =>
    simp only [step] at taken
    split at taken
    · rename_i offers
      cases taken
      exact .refused offers
    · cases taken
  | cancel c =>
    simp only [step] at taken
    split at taken <;> rename_i phase
    · cases taken
      exact .left phase
    · cases taken
      exact .cancelled phase
    · cases taken
  | release c =>
    simp only [step] at taken
    split at taken
    · rename_i unwinds
      obtain ⟨delivery, rolled, rest⟩ := Option.bind_eq_some_iff.mp taken
      cases rest
      exact .released unwinds rolled
    · cases taken
  | restore c =>
    simp only [step] at taken
    split at taken
    · rename_i unwinds
      cases taken
      exact .restored unwinds
    · cases taken
  | event l =>
    obtain ⟨outside, taken⟩ := Option.ite_none_right_eq_some.mp taken
    obtain ⟨delivery, happened, rfl⟩ := Option.map_eq_some_iff.mp taken
    exact .happened outside happened

theorem step_of_moves {l : Label κ φ} (moves : Moves client s l t) :
    step client s l = some t := by
  cases moves with
  | rejected idle built => simp [step, idle, built]
  | started idle built => simp [step, idle, built]
  | acquired waits free => simp [step, waits, free]
  | offered ready current built counted =>
    subst built
    simp [step, ready, current, counted]
  | accepted offers kept => simp [step, offers, kept]
  | advanced takes more => simp [step, takes, more]
  | committed takes last => simp [step, takes, last]
  | refused offers => simp [step, offers]
  | left waits => simp [step, waits]
  | cancelled offers => simp [step, offers]
  | released unwinds rolled => simp [step, unwinds, rolled]
  | restored unwinds => simp [step, unwinds]
  | happened outside taken => simp [step, outside, taken]

end Steps

end Sys

end Sparkplug
