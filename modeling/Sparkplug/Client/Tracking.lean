import Sparkplug.Client.System
import Sparkplug.Transition

/-! The tracker inside the client. Each step of the client takes one step of the tracker or
none, so what every run of the tracker keeps, the tracker of every client keeps. -/
namespace Sparkplug

open Transition

variable {κ φ : Type}

namespace Sys

def trackerLabel (client : Client) (s : Sys κ φ) :
    Label κ φ → Option (Delivery.Label (κ × Nat) φ)
  | .offer c =>
    match s.call c with
    | .ready held => held.draft.bind fun draft =>
      if (wireOptions client.role draft.topic.messageType).tracked then
        some (.count (c, held.stage))
      else none
    | _ => none
  | .accept c =>
    match s.call c with
    | .offered held message =>
      if message.options.tracked then some (.keep (c, held.stage)) else none
    | _ => none
  | .release c =>
    match s.call c with
    | .unwinding held true _ => some (.release (c, held.stage))
    | _ => none
  | .event l => some l
  | _ => none

end Sys

/-- A promise about the tracker, made about the step of the client around it. -/
def onTracker (client : Client)
    (rule : Delivery.Sys (κ × Nat) φ → Delivery.Label (κ × Nat) φ → Bool)
    (s : Sys κ φ) (l : Label κ φ) : Bool :=
  (s.trackerLabel client l).all (rule s.delivery)

section Steps

variable {client : Client} {s t : Sys κ φ} {l : Label κ φ}
  {rule : Delivery.Sys (κ × Nat) φ → Delivery.Label (κ × Nat) φ → Bool}
  {dl : Delivery.Label (κ × Nat) φ}

theorem rule_of_tracker (promise : onTracker client rule s l = true)
    (label : s.trackerLabel client l = some dl) : rule s.delivery dl = true := by
  simpa [onTracker, label] using promise

theorem obeys_tracker
    {rules : List (Delivery.Sys (κ × Nat) φ → Delivery.Label (κ × Nat) φ → Bool)} :
    Obeys (rules.map (onTracker client)) s l ↔
      ∀ dl, s.trackerLabel client l = some dl → Obeys rules s.delivery dl := by
  constructor
  · intro promise dl label rule member
    exact rule_of_tracker (promise _ (List.mem_map_of_mem member)) label
  · intro promise rule member
    obtain ⟨inner, hinner, rfl⟩ := List.mem_map.mp member
    unfold onTracker
    cases label : s.trackerLabel client l with
    | none => rfl
    | some dl => exact promise dl label inner hinner

theorem deliver_of_tracked [DecidableEq κ] [DecidableEq φ] {tracked : Bool}
    {delivery : Delivery.Sys (κ × Nat) φ} (counts : tracked = true)
    (step : s.delivery.step dl = some delivery) : s.deliver tracked dl = some delivery := by
  rw [counts]
  exact step

theorem label_of_offer {c : κ} {held : Holding} {draft : Draft}
    (ready : s.call c = .ready held) (current : held.draft = some draft) (seq : UInt8) :
    s.trackerLabel client (.offer c) =
      if (draft.message client.role seq).options.tracked then some (.count (c, held.stage))
      else none := by
  simp only [Sys.trackerLabel, ready, current, Option.bind_some]
  rfl

theorem label_of_accept {c : κ} {held : Holding} {message : Message}
    (offers : s.call c = .offered held message) : s.trackerLabel client (.accept c) =
      if message.options.tracked then some (.keep (c, held.stage)) else none := by
  simp [Sys.trackerLabel, offers]

theorem label_of_release {c : κ} {held : Holding} {error : Option ClientError}
    (unwinds : s.call c = .unwinding held true error) :
    s.trackerLabel client (.release c) = some (.release (c, held.stage)) := by
  simp [Sys.trackerLabel, unwinds]

variable [DecidableEq κ] [DecidableEq φ]

theorem tracker_of_deliver {tracked : Bool} {delivery : Delivery.Sys (κ × Nat) φ}
    (label : s.trackerLabel client l = if tracked then some dl else none)
    (step : s.deliver tracked dl = some delivery) :
    (s.trackerLabel client l = none ∧ delivery = s.delivery) ∨
    ∃ dl, s.trackerLabel client l = some dl ∧ s.delivery.step dl = some delivery := by
  cases tracked with
  | false => exact .inl ⟨label, Option.some.inj step.symm⟩
  | true => exact .inr ⟨dl, label, step⟩

theorem tracker_of_moves (moves : Sys.Moves client s l t) :
    (s.trackerLabel client l = none ∧ t.delivery = s.delivery) ∨
    ∃ dl, s.trackerLabel client l = some dl ∧ s.delivery.step dl = some t.delivery := by
  cases moves with
  | offered ready current built counted =>
    subst built
    exact tracker_of_deliver (label_of_offer ready current _) counted
  | accepted offers kept => exact tracker_of_deliver (label_of_accept offers) kept
  | released unwinds rolled => exact .inr ⟨_, label_of_release unwinds, rolled⟩
  | happened outside taken => exact .inr ⟨_, rfl, taken⟩
  | _ => exact .inl ⟨rfl, rfl⟩

theorem tracker_run {rules : List (Delivery.Sys (κ × Nat) φ → Delivery.Label (κ × Nat) φ → Bool)}
    {ls : List (Label κ φ)}
    (run : Run (Sys.step client) (Obeys (rules.map (onTracker client))) .new ls s) :
    ∃ dls, Run Delivery.Sys.step (Obeys rules) .new dls s.delivery := by
  have simulated : ∃ dls d, Run Delivery.Sys.step (Obeys rules) .new dls d ∧ d = s.delivery := by
    refine run.simulate (R := fun s d => d = s.delivery) rfl fun t l u d same promise taken => ?_
    subst same
    rcases tracker_of_moves (Sys.moves_of_step taken) with ⟨-, same⟩ | ⟨dl, label, inner⟩
    · exact ⟨[], _, .start _, same.symm⟩
    · exact ⟨[dl], _, .one (obeys_tracker.mp promise dl label) inner, rfl⟩
  obtain ⟨dls, d, inner, rfl⟩ := simulated
  exact ⟨dls, inner⟩

end Steps

end Sparkplug
