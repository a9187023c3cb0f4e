import Sparkplug.Client.Session
import Sparkplug.Client.Stream

/-! What `shutdown` leaves behind. A tracked message is answered or told of, because the
flush of `shutdown` waits for it; an untracked one goes out ahead of the DISCONNECT, where
the DISCONNECT goes out at all. -/
namespace Sparkplug

open EventLoop Transition

variable {κ φ : Type}

def promisesDelivery : Except SparkplugError Unit → Bool
  | .ok () | .error (.shutdownTimeout _) | .error (.disconnect _) => true
  | _ => false

def Shutdown.asked : Shutdown φ → Bool
  | .uncalled | .flushing _ _ | .requesting _ _ => false
  | _ => true

namespace Session

variable [DecidableEq κ] [DecidableEq φ]

/-- No message waits in the channel that the tracker does not count. -/
def spares (s : Session κ φ) : Bool := s.channel.all fun request =>
  match request with
  | .publish _ tracked => tracked
  | .disconnect => true

/-- A promise about the tracker, made about the step of the session around it. -/
def onDelivery (client : Client)
    (rule : Delivery.Sys (κ × Nat) φ → Delivery.Label (κ × Nat) φ → Bool)
    (s : Session κ φ) (l : SessionStep κ φ) : Bool :=
  (s.trackerLabel client l).all (rule s.client.delivery)

/-- A PubAck answers a message that was written. -/
def acksWritten (s : Session κ φ) : SessionStep κ φ → Bool
  | .poll (.pubAck id) => s.written.contains id
  | _ => true

/-- No untracked message is in the channel where a failed poll drops it, or where `shutdown`
ends before the DISCONNECT is written. -/
def sparesUntracked (s : Session κ φ) : SessionStep κ φ → Bool
  | .poll (.failed true) => s.spares
  | .refuse _ | .elapse | .down => s.disconnectWritten || s.spares
  | _ => true

/-- What `rumqttc` and the broker promise: the order of the channel, and that a PubAck answers a
message that was written. -/
def inTurn : List (Session κ φ → SessionStep κ φ → Bool) := [writesInOrder, acksWritten]

/-- The promises of `rumqttc` and the broker, and the two conditions of the client: it takes
each tracked message in the epoch of its count, and it spares the untracked ones. -/
def careful (client : Client) : List (Session κ φ → SessionStep κ φ → Bool) :=
  (Delivery.prompt ++ Delivery.roomy).map (onDelivery client) ++ inTurn ++ [sparesUntracked]

/-- The channel against what was taken and what was written. -/
structure Queued (s : Session κ φ) : Prop where
  untracked : ∀ h ∈ s.accepted, h.2.options.tracked = false →
    h.1 ∈ s.written ∨ .publish h.1 false ∈ s.channel
  early : s.shutdown.asked = false → s.disconnectWritten = false ∧ .disconnect ∉ s.channel
  last : .disconnect ∉ s.channel.dropLast
  done : s.disconnectWritten = true → s.channel = []

/-- The tracker against what was taken and what was written. -/
structure Traced (s : Session κ φ) : Prop where
  sound : Delivery.Sound s.client.delivery
  accounted : Delivery.Accounted s.client.delivery s.told
  flushes : ∀ f error, s.client.delivery.flush f = .returned (.error error) →
    promisesDelivery (.error error) = false
  tracked : ∀ h ∈ s.accepted, h.2.options.tracked = true →
    Delivery.Accepted s.client.delivery h.1
  answered : ∀ id, Delivery.Answered s.client.delivery id → id ∈ s.written
  answering : ∀ id, s.answering = some id → id ∈ s.written

/-- A flush has reported losses since a disconnect behind the acceptance of this message. -/
def Reported (s : Session κ φ) (id : κ × Nat) : Prop :=
  Delivery.Told s.client.delivery s.told id

/-- What each phase of `shutdown` knows of the tracked messages, and at its end of all. -/
def Stands (s : Session κ φ) : Prop :=
  match s.shutdown with
  | .uncalled => True
  | .flushing f _ => s.client.delivery.flush f ≠ .idle ∧
    ∀ h ∈ s.accepted, h.2.options.tracked = true →
      Delivery.Covered s.client.delivery s.told f h.1
  | .requesting flushed _ | .waiting flushed _ => promisesDelivery flushed = true →
    ∀ h ∈ s.accepted, h.2.options.tracked = true →
      Delivery.Answered s.client.delivery h.1 ∨ s.Reported h.1
  | .settled result | .returned result => promisesDelivery result = true →
    ∀ h ∈ s.accepted, h.1 ∈ s.written ∨ s.Reported h.1

section Steps

variable {client : Client} {s t : Session κ φ} {l : SessionStep κ φ}

omit [DecidableEq κ] [DecidableEq φ] in
theorem spares_iff : s.spares = true ↔ ∀ id, .publish id false ∉ s.channel := by
  refine List.all_eq_true.trans ⟨fun tracked id queued => ?_, fun absent request queued => ?_⟩
  · cases tracked _ queued
  · cases request with
    | disconnect => rfl
    | publish id tracked =>
      cases tracked with
      | true => rfl
      | false => exact absurd queued (absent id)

omit [DecidableEq κ] [DecidableEq φ] in
theorem written_of_spares {id : κ × Nat} (spares : s.spares = true)
    (left : id ∈ s.written ∨ .publish id false ∈ s.channel) : id ∈ s.written :=
  left.resolve_right (spares_iff.mp spares id)

omit [DecidableEq κ] in
theorem asked_of_admits {phase : Shutdown φ} {l : Label κ φ} (admitted : phase.admits l = true) :
    phase.asked = false ∧ (phase ≠ .uncalled → ∀ s : Sys κ φ, s.handed l = []) := by
  cases phase with
  | uncalled => exact ⟨rfl, fun called => absurd rfl called⟩
  | flushing f timeout =>
    refine ⟨rfl, fun _ s => ?_⟩
    cases l with
    | event dl => rfl
    | _ => cases admitted
  | _ => cases l <;> cases admitted

omit [DecidableEq κ] [DecidableEq φ] in
theorem queued_initial : Queued (.new : Session κ φ) := by
  refine ⟨?_, fun _ => ⟨rfl, List.not_mem_nil⟩, List.not_mem_nil, fun _ => rfl⟩
  intro m member
  cases member

omit [DecidableEq κ] [DecidableEq φ] in
theorem traced_initial : Traced (.new : Session κ φ) := by
  refine ⟨Delivery.sound_initial, Delivery.accounted_initial, ?_, ?_, ?_, ?_⟩
  · intro f error returned
    cases returned
  · intro m member
    cases member
  · rintro id ⟨pub, held, -⟩
    cases held
  · intro id answers
    cases answers

omit [DecidableEq κ] [DecidableEq φ] in
theorem queued_same (h : Queued s) (channel : t.channel = s.channel)
    (written : t.written = s.written) (accepted : t.accepted = s.accepted)
    (closed : t.disconnectWritten = s.disconnectWritten)
    (asked : t.shutdown.asked = false → s.shutdown.asked = false) : Queued t := by
  refine ⟨?_, ?_, ?_, ?_⟩
  · rw [accepted, written, channel]
    exact h.untracked
  · rw [closed, channel]
    exact fun unasked => h.early (asked unasked)
  · rw [channel]
    exact h.last
  · rw [closed, channel]
    exact h.done

omit [DecidableEq κ] [DecidableEq φ] in
theorem queued_append {more : List ((κ × Nat) × Message)} (h : Queued s)
    (unasked : s.shutdown.asked = false) (channel : t.channel = s.channel ++ more.map requestOf)
    (accepted : t.accepted = s.accepted ++ more) (written : t.written = s.written)
    (closed : t.disconnectWritten = s.disconnectWritten) : Queued t := by
  obtain ⟨unwritten, absent⟩ := h.early unasked
  have none : .disconnect ∉ t.channel := by
    rw [channel]
    simp [absent, requestOf]
  refine ⟨?_, fun _ => ⟨closed.trans unwritten, none⟩,
    fun member => none (List.dropLast_subset _ member), ?_⟩
  · rw [accepted, written, channel]
    intro m member untracked
    rcases List.mem_append.mp member with before | now
    · exact (h.untracked m before untracked).imp_right (List.mem_append_left _)
    · refine .inr (List.mem_append_right _ (List.mem_map.mpr ⟨m, now, ?_⟩))
      rw [requestOf, untracked]
  · intro done
    cases unwritten.symm.trans (closed.symm.trans done)

omit [DecidableEq κ] [DecidableEq φ] in
theorem queued_write {i : Nat} {id : κ × Nat} {tracked : Bool} (h : Queued s)
    (inOrder : writesInOrder s (.write i) = true)
    (waits : s.channel[i]? = some (.publish id tracked)) :
    Queued { s with channel := s.channel.eraseIdx i, written := s.written ++ [id] } := by
  obtain ⟨rest, queued, left⟩ := first_of_order inOrder waits
  rw [left]
  refine ⟨?_, ?_, ?_, ?_⟩
  · intro m member untracked
    rcases h.untracked m member untracked with before | waits
    · exact .inl (List.mem_append_left _ before)
    · rw [queued] at waits
      rcases List.mem_cons.mp waits with now | later
      · cases now
        exact .inl (List.mem_append_right _ (List.mem_singleton_self _))
      · exact .inr later
  · intro unasked
    obtain ⟨unwritten, absent⟩ := h.early unasked
    rw [queued] at absent
    exact ⟨unwritten, fun member => absent (List.mem_cons_of_mem _ member)⟩
  · intro member
    have more := List.ne_nil_of_mem (List.dropLast_subset _ member)
    refine h.last ?_
    rw [queued, List.dropLast_cons_of_ne_nil more]
    exact List.mem_cons_of_mem _ member
  · intro closed
    have empty := h.done closed
    rw [queued] at empty
    cases empty

omit [DecidableEq κ] [DecidableEq φ] in
/-- Nothing was requested behind the DISCONNECT, so it leaves the channel empty. -/
theorem queued_close {i : Nat} (h : Queued s) (inOrder : writesInOrder s (.write i) = true)
    (waits : s.channel[i]? = some .disconnect) :
    Queued { s with channel := s.channel.eraseIdx i, disconnectWritten := true } := by
  obtain ⟨rest, queued, left⟩ := first_of_order inOrder waits
  rw [left]
  have alone : rest = [] := by
    by_contra more
    refine h.last ?_
    rw [queued, List.dropLast_cons_of_ne_nil more]
    exact List.mem_cons_self
  subst alone
  refine ⟨?_, ?_, List.not_mem_nil, fun _ => rfl⟩
  · intro m member untracked
    have before := h.untracked m member untracked
    rw [queued] at before
    refine .inl (before.resolve_right fun waits => ?_)
    cases List.mem_singleton.mp waits
  · intro unasked
    have absent := (h.early unasked).2
    rw [queued] at absent
    exact absurd List.mem_cons_self absent

omit [DecidableEq κ] [DecidableEq φ] in
theorem queued_drop (h : Queued s) (spared : s.spares = true) (channel : t.channel = [])
    (written : t.written = s.written) (accepted : t.accepted = s.accepted)
    (closed : t.disconnectWritten = s.disconnectWritten)
    (phase : t.shutdown = s.shutdown) : Queued t := by
  have absent : .disconnect ∉ t.channel := by
    rw [channel]
    exact List.not_mem_nil
  refine ⟨?_, ?_, fun member => absent (List.dropLast_subset _ member), fun _ => channel⟩
  · rw [accepted, written]
    intro m member untracked
    exact .inl (written_of_spares spared (h.untracked m member untracked))
  · rw [phase, closed]
    exact fun unasked => ⟨(h.early unasked).1, absent⟩

theorem queued_step (h : Queued s) (inOrder : writesInOrder s l = true)
    (spared : sparesUntracked s l = true) (moves : Moves client s l t) : Queued t := by
  cases moves with
  | called admitted taken =>
    exact queued_append h (asked_of_admits admitted).1 rfl rfl rfl rfl
  | wrote waits => exact queued_write h inOrder waits
  | closed waits => exact queued_close h inOrder waits
  | resent => cases inOrder
  | @polled event =>
    cases event with
    | failed drops =>
      cases drops with
      | false => exact queued_same h rfl rfl rfl rfl id
      | true => exact queued_drop h spared rfl rfl rfl rfl rfl
    | _ => exact queued_same h rfl rfl rfl rfl id
  | @requested flushed timeout requests =>
    obtain ⟨unwritten, absent⟩ := h.early (by rw [requests]; rfl)
    refine ⟨?_, ?_, ?_, ?_⟩
    · intro m member untracked
      exact (h.untracked m member untracked).imp_right (List.mem_append_left _)
    · intro unasked
      cases unasked
    · rw [List.dropLast_concat]
      exact absent
    · intro closed
      cases unwritten.symm.trans closed
  | opened uncalled taken =>
    exact queued_same h rfl rfl rfl rfl fun _ => by rw [uncalled]; rfl
  | flushed flushing returned =>
    exact queued_same h rfl rfl rfl rfl fun _ => by rw [flushing]; rfl
  | settled learns ends => exact queued_same h rfl rfl rfl rfl fun unasked => by cases unasked
  | stopped settled => exact queued_same h rfl rfl rfl rfl fun unasked => by cases unasked
  | _ => exact queued_same h rfl rfl rfl rfl id

theorem accepted_of_handed {s t : Sys κ φ} {l : Label κ φ} {h : (κ × Nat) × Message}
    (member : h ∈ s.handed l) (tracked : h.2.options.tracked = true)
    (moves : Sys.Moves client s l t) : Delivery.Accepted t.delivery h.1 := by
  cases moves with
  | accepted offers kept =>
    simp only [Sys.handed, offers, List.mem_singleton] at member
    subst member
    rw [Sys.deliver, if_pos tracked] at kept
    obtain ⟨_, _, _, _, -, rfl⟩ := Delivery.Sys.step_keep.mp kept
    exact ⟨⟨none, _, some s.delivery.epoch, _⟩, _, Function.update_self .., rfl⟩
  | _ => cases member

theorem flushes_step {s t : Delivery.Sys (κ × Nat) φ} {dl : Delivery.Label (κ × Nat) φ}
    (h : ∀ f error, s.flush f = .returned (.error error) →
      promisesDelivery (.error error) = false) (taken : s.step dl = some t) :
    ∀ f error, t.flush f = .returned (.error error) →
      promisesDelivery (.error error) = false := by
  intro f error returned
  rcases Delivery.Sys.step_flush taken f with now | ⟨_, -, -, now⟩ | ⟨_, _, -, -, -, now⟩ |
    ⟨openedAt, -, -, now⟩ | ⟨timeout, _, -, -, now⟩ | ⟨-, -, now⟩
  · exact h f error (now.symm.trans returned)
  · cases now.symm.trans returned
  · cases now.symm.trans returned
  · rw [Delivery.State.closeFlush] at now
    split at now
    · cases now.symm.trans returned
    · cases now.symm.trans returned
      rfl
  · cases now.symm.trans returned
    rfl
  · cases now.symm.trans returned

theorem answering_of_ack {id : κ × Nat} (moves : Moves client s l t)
    (label : s.trackerLabel client l = some (.ack id)) : s.answering = some id := by
  cases moves with
  | @called l next admitted taken =>
    cases Sys.moves_of_step taken with
    | happened outside inner =>
      cases label
      cases phase : s.shutdown <;> rw [phase] at admitted <;> cases admitted
    | offered ready current built counted =>
      rw [trackerLabel, label_of_offer ready current 0] at label
      split at label <;> cases label
    | accepted offers kept =>
      rw [trackerLabel, label_of_accept offers] at label
      split at label <;> cases label
    | released unwinds rolled =>
      rw [trackerLabel, label_of_release unwinds] at label
      cases label
    | _ => cases label
  | answered todo answers taken =>
    simp only [trackerLabel, todo, answers, Option.map_some, Option.some.injEq] at label
    cases label
    exact answers
  | lost todo taken => simp [trackerLabel, todo] at label
  | @signalled call rest todo other =>
    cases call <;> simp_all [trackerLabel, Call.isTracker]
  | settled learns ends =>
    rcases learns with ⟨rfl, -⟩ | ⟨rfl, -⟩ | ⟨error, rfl, -⟩
    all_goals cases label
  | _ => cases label

theorem written_grows {id : κ × Nat} (moves : Moves client s l t) (member : id ∈ s.written) :
    id ∈ t.written := by
  cases moves with
  | wrote queued => exact List.mem_append_left _ member
  | resent before => exact List.mem_append_left _ member
  | @polled event => cases event <;> exact member
  | _ => exact member

omit [DecidableEq φ] in
theorem rules_of_careful {dl : Delivery.Label (κ × Nat) φ} (promise : Obeys (careful client) s l)
    (label : s.trackerLabel client l = some dl) :
    Obeys (Delivery.prompt ++ Delivery.roomy) s.client.delivery dl := by
  intro rule member
  have lifted := promise _ (List.mem_append_left _
    (List.mem_append_left _ (List.mem_map_of_mem member)))
  simpa [onDelivery, label] using lifted

theorem answered_kept {id : κ × Nat} (answered : Delivery.Answered s.client.delivery id)
    (moves : Moves client s l t) : Delivery.Answered t.client.delivery id :=
  tracker_invariant (P := fun d _ => Delivery.Answered d id) moves answered
    fun _ _ _ taken => Delivery.answer_kept answered taken

theorem accepted_kept {id : κ × Nat} (traced : Traced s)
    (accepted : Delivery.Accepted s.client.delivery id) (moves : Moves client s l t) :
    Delivery.Accepted t.client.delivery id :=
  tracker_invariant (P := fun d _ => Delivery.Accepted d id) moves accepted
    fun _ _ _ taken => Delivery.accepted_step traced.sound.timely accepted taken

theorem reported_kept {id : κ × Nat} (traced : Traced s) (reported : s.Reported id)
    (moves : Moves client s l t) : t.Reported id := by
  refine tracker_invariant (P := fun d told => Delivery.Told d told id) moves reported
    fun dl next _ taken => ?_
  have grows := (Delivery.tell_le (l := dl) traced.accounted.bound).1
  exact Delivery.told_grows grows (Delivery.told_step traced.sound.timely reported taken)

theorem busy_kept {f : φ} (busy : s.client.delivery.flush f ≠ .idle)
    (moves : Moves client s l t) : t.client.delivery.flush f ≠ .idle :=
  tracker_invariant (P := fun d _ => d.flush f ≠ .idle) moves busy
    fun _ _ _ taken => Delivery.Sys.step_busy busy taken

theorem covered_kept {f : φ} {id : κ × Nat} (traced : Traced s)
    (accepted : Delivery.Accepted s.client.delivery id)
    (busy : s.client.delivery.flush f ≠ .idle)
    (covered : Delivery.Covered s.client.delivery s.told f id)
    (promise : Obeys (careful client) s l) (moves : Moves client s l t) :
    Delivery.Covered t.client.delivery t.told f id := by
  refine tracker_invariant (P := fun d told => Delivery.Covered d told f id) moves covered
    fun dl next label taken => ?_
  exact Delivery.covered_step traced.sound traced.accounted accepted busy covered
    (rules_of_careful promise label) taken

theorem tracked_step (h : Traced s) (moves : Moves client s l t) : ∀ m ∈ t.accepted,
    m.2.options.tracked = true → Delivery.Accepted t.client.delivery m.1 := by
  intro m member tracked
  have kept (before : m ∈ s.accepted) : Delivery.Accepted t.client.delivery m.1 :=
    accepted_kept h (h.tracked m before tracked) moves
  cases moves with
  | called admitted taken =>
    rcases List.mem_append.mp member with before | now
    · exact kept before
    · exact accepted_of_handed now tracked (Sys.moves_of_step taken)
  | @polled event => cases event <;> exact kept member
  | _ => exact kept member

theorem answering_step (h : Traced s) (promise : Obeys (careful client) s l)
    (moves : Moves client s l t) : ∀ id, t.answering = some id → id ∈ t.written := by
  intro id answers
  have grows (member : id ∈ s.written) : id ∈ t.written := written_grows moves member
  cases moves with
  | @polled event =>
    cases event with
    | pubAck other =>
      cases answers
      have written : acksWritten s (.poll (.pubAck id)) = true := promise _ (by simp [careful, inTurn])
      exact List.contains_iff_mem.mp written
    | _ => exact h.answering id answers
  | _ => exact grows (h.answering id answers)

theorem traced_step (h : Traced s) (promise : Obeys (careful client) s l)
    (moves : Moves client s l t) : Traced t := by
  refine ⟨?_, ?_, ?_, tracked_step h moves, ?_, answering_step h promise moves⟩
  · refine tracker_invariant (P := fun d _ => Delivery.Sound d) moves h.sound ?_
    intro dl next label taken
    exact Delivery.sound_step h.sound (rules_of_careful promise label) taken
  · refine tracker_invariant (P := Delivery.Accounted) moves h.accounted ?_
    intro dl next label taken
    exact Delivery.accounted_step h.sound h.accounted (rules_of_careful promise label) taken
  · refine tracker_invariant (P := fun d _ => ∀ f error, d.flush f = .returned (.error error) →
      promisesDelivery (.error error) = false) moves h.flushes ?_
    intro dl next _ taken
    exact flushes_step h.flushes taken
  · refine tracker_invariant (P := fun d _ => ∀ id, Delivery.Answered d id → id ∈ t.written)
      moves (fun id answer => written_grows moves (h.answered id answer)) ?_
    intro dl next label taken id answer
    rcases Delivery.answered_before answer taken with before | rfl
    · exact written_grows moves (h.answered id before)
    · exact written_grows moves (h.answering id (answering_of_ack moves label))

theorem stands_beside (traced : Traced s) (h : Stands s) (promise : Obeys (careful client) s l)
    (moves : Moves client s l t) (phase : t.shutdown = s.shutdown)
    (accepted : t.accepted = s.accepted) : Stands t := by
  unfold Stands at h ⊢
  rw [phase, accepted]
  cases now : s.shutdown with
  | uncalled => trivial
  | flushing f timeout =>
    rw [now] at h
    refine ⟨busy_kept h.1 moves, fun m member tracked => ?_⟩
    exact covered_kept traced (traced.tracked m member tracked) h.1 (h.2 m member tracked)
      promise moves
  | requesting flushed timeout | waiting flushed timeout =>
    rw [now] at h
    intro clean m member tracked
    exact (h clean m member tracked).imp (answered_kept · moves) (reported_kept traced · moves)
  | settled result | returned result =>
    rw [now] at h
    intro clean m member
    exact (h clean m member).imp (written_grows moves) (reported_kept traced · moves)

omit [DecidableEq κ] [DecidableEq φ] in
theorem Stands.returned {result : Except SparkplugError Unit} (h : Stands s)
    (returned : s.shutdown = .returned result) (promises : promisesDelivery result = true) :
    ∀ h ∈ s.accepted, h.1 ∈ s.written ∨ s.Reported h.1 := by
  unfold Stands at h
  rw [returned] at h
  exact h promises

theorem flushed_of_outcome {flushed : Except SparkplugError Unit} {disconnected : Disconnected}
    {timeout : Duration}
    (clean : promisesDelivery (shutdownOutcome flushed disconnected timeout) = true) :
    promisesDelivery flushed = true := by
  cases flushed with
  | ok _ => rfl
  | error error => exact clean

omit [DecidableEq κ] [DecidableEq φ] in
theorem stands_settled {flushed : Except SparkplugError Unit} {disconnected : Disconnected}
    {timeout : Duration} (queued : Queued s) (traced : Traced s) (h : Stands s)
    (gone : (s.disconnectWritten || s.spares) = true)
    (ends : s.shutdown = .requesting flushed timeout ∨ s.shutdown = .waiting flushed timeout) :
    Stands (s.settle flushed disconnected timeout) := by
  intro clean m member
  have paid : ∀ m ∈ s.accepted, m.2.options.tracked = true →
      Delivery.Answered s.client.delivery m.1 ∨ s.Reported m.1 := by
    unfold Stands at h
    rcases ends with phase | phase
    · rw [phase] at h
      exact h (flushed_of_outcome clean)
    · rw [phase] at h
      exact h (flushed_of_outcome clean)
  cases tracked : m.2.options.tracked with
  | true => exact (paid m member tracked).imp_left (traced.answered m.1)
  | false =>
    left
    have left := queued.untracked m member tracked
    rcases Bool.or_eq_true_iff.mp gone with written | spared
    · rw [queued.done written] at left
      exact left.resolve_right List.not_mem_nil
    · exact written_of_spares spared left

theorem stands_step (queued : Queued s) (traced : Traced s) (h : Stands s)
    (promise : Obeys (careful client) s l) (moves : Moves client s l t) : Stands t := by
  have beside := stands_beside traced h promise moves
  cases moves with
  | @called l next admitted taken =>
    by_cases uncalled : s.shutdown = .uncalled
    · simp only [Stands, uncalled]
    · have none := (asked_of_admits admitted).2 uncalled s.client
      exact beside rfl (by simp [none])
  | @polled event => cases event <;> exact beside rfl rfl
  | @opened f timeout next uncalled taken =>
    refine ⟨?_, fun m member tracked => ?_⟩
    · obtain ⟨-, rfl⟩ := Delivery.Sys.step_openFlush.mp taken
      simp
    · exact Delivery.covered_of_open traced.sound traced.accounted
        (traced.tracked m member tracked) taken
  | @flushed f timeout result flushing returned =>
    intro clean m member tracked
    cases result with
    | error error => exact absurd clean (by rw [traced.flushes f error returned]; nofun)
    | ok _ =>
      unfold Stands at h
      rw [flushing] at h
      rcases h.2 m member tracked with answered | told | ⟨running, -⟩
      · exact .inl answered
      · exact .inr told
      · exact absurd returned running
  | @requested flushed timeout requests =>
    unfold Stands at h
    rw [requests] at h
    exact h
  | @settled l flushed disconnected timeout learns ends =>
    have spared : sparesUntracked s l = true := promise _ (by simp [careful])
    refine stands_settled queued traced h ?_ ends
    rcases learns with ⟨rfl, -⟩ | ⟨rfl, -⟩ | ⟨error, rfl, -⟩
    all_goals exact spared
  | @stopped result settled =>
    unfold Stands at h
    rw [settled] at h
    exact h
  | _ => exact beside rfl rfl

theorem accepted_run {ok : Session κ φ → SessionStep κ φ → Prop} {ls : List (SessionStep κ φ)}
    (run : Run (step client) ok .new ls s) :
    s.accepted.map (fun h => (h.1.1, h.2)) = s.client.sent := by
  refine run.invariant (P := fun s => s.accepted.map (fun h => (h.1.1, h.2)) = s.client.sent) rfl
    fun s l t _ h _ taken => ?_
  cases moves_of_step taken with
  | called admitted inner =>
    rw [List.map_append, h]
    cases Sys.moves_of_step inner with
    | accepted offers kept => simp [Sys.handed, offers]
    | _ => exact List.append_nil _
  | @polled event => cases event <;> exact h
  | _ => exact h

theorem stands_run {ls : List (SessionStep κ φ)}
    (run : Run (step client) (Obeys (careful client)) .new ls s) :
    Queued s ∧ Traced s ∧ Stands s := by
  refine run.invariant (P := fun s => Queued s ∧ Traced s ∧ Stands s)
    ⟨queued_initial, traced_initial, trivial⟩ fun s l t _ h promise taken => ?_
  have moves := moves_of_step taken
  have inOrder : writesInOrder s l = true := promise _ (by simp [careful, inTurn])
  have spared : sparesUntracked s l = true := promise _ (by simp [careful])
  exact ⟨queued_step h.1 inOrder spared moves, traced_step h.2.1 promise moves,
    stands_step h.1 h.2.1 h.2.2 promise moves⟩

/-- In a careful run, `shutdown` leaves no message behind that it does not tell of. -/
theorem shutdown_leaves_nothing_behind {ls : List (SessionStep κ φ)}
    {result : Except SparkplugError Unit}
    (run : Run (step client) (Obeys (careful client)) .new ls s)
    (returned : s.shutdown = .returned result) (promises : promisesDelivery result = true) :
    s.accepted.map (fun h => (h.1.1, h.2)) = s.client.sent ∧
    ∀ h ∈ s.accepted, h.1 ∈ s.written ∨ s.Reported h.1 := by
  exact ⟨accepted_run run, (stands_run run).2.2.returned returned promises⟩

/-- All that a publisher has at hand is tracked. -/
structure Publishes (s : Session κ φ) : Prop where
  offered : ∀ c held message, s.client.call c = .offered held message →
    message.options.tracked = true
  queued : ∀ id, .publish id false ∉ s.channel

theorem offered_of_step {s t : Sys κ φ} {l : Label κ φ} {c : κ} {held : Holding}
    {message : Message} (moves : Sys.Moves client s l t)
    (offers : t.call c = .offered held message) : s.call c = .offered held message ∨
      ∃ draft seq, message = Draft.message client.role draft seq := by
  by_cases own : l = .offer c
  · subst own
    cases moves with
    | offered ready current built counted =>
      rw [put_self] at offers
      cases offers
      exact .inr ⟨_, _, built⟩
  · rcases phase_step moves c with same | ⟨before, after, found, left, moved⟩
    · exact .inl (same.symm.trans offers)
    · rw [left] at offers
      cases moved with
      | offered => exact absurd rfl own
      | @restored _ error => cases error <;> cases offers
      | _ => cases offers

theorem publishes_step (role : client.role = .publisher) (h : Publishes s)
    (moves : Moves client s l t) : Publishes t := by
  have fewer {t : Session κ φ} (same : t.client = s.client)
      (less : ∀ request ∈ t.channel, request ∈ s.channel ∨ request = .disconnect) :
      Publishes t := by
    refine ⟨by rw [same]; exact h.offered, fun id queued => ?_⟩
    rcases less _ queued with before | now
    · exact h.queued id before
    · cases now
  cases moves with
  | @called l next admitted taken =>
    have moves := Sys.moves_of_step taken
    refine ⟨fun c held message offers => ?_, fun id queued => ?_⟩
    · rcases offered_of_step moves offers with before | ⟨draft, seq, rfl⟩
      · exact h.offered c held message before
      · rw [Draft.message, role]
        rfl
    · rcases List.mem_append.mp queued with before | now
      · exact h.queued id before
      · obtain ⟨m, member, same⟩ := List.mem_map.mp now
        cases moves with
        | accepted offers kept =>
          simp only [Sys.handed, offers, List.mem_singleton] at member
          subst member
          rw [requestOf, h.offered _ _ _ offers] at same
          cases same
        | _ => cases member
  | wrote waits => exact fewer rfl fun request member => .inl (List.mem_of_mem_eraseIdx member)
  | closed waits => exact fewer rfl fun request member => .inl (List.mem_of_mem_eraseIdx member)
  | @polled event =>
    cases event with
    | failed drops =>
      cases drops with
      | false => exact ⟨h.offered, h.queued⟩
      | true => exact fewer rfl fun request member => by cases member
    | _ => exact ⟨h.offered, h.queued⟩
  | requested requests =>
    refine fewer rfl fun request member => ?_
    exact (List.mem_append.mp member).imp_right List.mem_singleton.mp
  | _ => exact ⟨h.offered, h.queued⟩

omit [DecidableEq φ] in
theorem careful_of_publishes (h : Publishes s)
    (promise : Obeys ((Delivery.prompt ++ Delivery.roomy).map (onDelivery client) ++ inTurn) s l) :
    Obeys (careful client) s l := by
  have spares := spares_iff.mpr h.queued
  intro rule member
  rcases List.mem_append.mp member with promised | own
  · exact promise rule promised
  · obtain rfl := List.mem_singleton.mp own
    cases l with
    | poll event =>
      cases event with
      | failed drops =>
        cases drops with
        | false => rfl
        | true => exact spares
      | _ => rfl
    | refuse error => simp [sparesUntracked, spares]
    | elapse => simp [sparesUntracked, spares]
    | down => simp [sparesUntracked, spares]
    | _ => rfl

theorem publishes_run {ok : Session κ φ → SessionStep κ φ → Prop} {ls : List (SessionStep κ φ)}
    (role : client.role = .publisher) (run : Run (step client) ok .new ls s) : Publishes s := by
  refine run.invariant ⟨fun c held message offers => ?_, fun id => List.not_mem_nil⟩
    fun _ _ _ _ h _ taken => publishes_step role h (moves_of_step taken)
  cases offers

/-- A publisher has no untracked message at hand or in its channel, and so needs no promise
about them. -/
theorem publisher_leaves_nothing_behind {ok : Session κ φ → SessionStep κ φ → Prop}
    {ls : List (SessionStep κ φ)} (role : client.role = .publisher)
    (run : Run (step client) ok .new ls s) :
    (∀ c held message, s.client.call c = .offered held message →
      message.options.tracked = true) ∧
    (∀ id, .publish id false ∉ s.channel) ∧
    (Run (step client)
      (Obeys ((Delivery.prompt ++ Delivery.roomy).map (onDelivery client) ++ inTurn)) .new ls s →
      ∀ result, s.shutdown = .returned result → promisesDelivery result = true →
        ∀ h ∈ s.accepted, h.1 ∈ s.written ∨ s.Reported h.1) := by
  have publishes := publishes_run role run
  refine ⟨publishes.offered, publishes.queued, fun promised result returned promises => ?_⟩
  have initial : Publishes (.new : Session κ φ) := publishes_run role (.start _ : Run _ ok _ _ _)
  have careful : Run (step client) (Obeys (careful client)) .new ls s ∧ Publishes s :=
    promised.strengthen initial
      (fun s l t h _ taken => publishes_step role h (moves_of_step taken))
      (fun s l t h promise _ => careful_of_publishes h promise)
  exact (stands_run careful.1).2.2.returned returned promises

/-- A failed poll drops a counted message from the channel, and the next flush tells of it. -/
theorem publisher_leaves_nothing_behind_small : ∃ (s : Session Nat Nat) (m : Message),
    Run (step ⟨.sparkplugB, .publisher⟩)
      (Obeys ((Delivery.prompt ++ Delivery.roomy).map (onDelivery ⟨.sparkplugB, .publisher⟩) ++
        inTurn)) .new
      [.poll .connAck, .apply, .call (.start 0 plantData), .call (.acquire 0), .call (.offer 0),
        .call (.accept 0), .call (.commit 0), .poll (.failed true), .apply, .apply,
        .call (.event (.openFlush 1 5)), .call (.event (.drain 1)), .call (.event (.close 1)),
        .shutdown 0 5, .call (.event (.drain 0)), .call (.event (.close 0)), .flushed, .request,
        .down, .stop] s ∧
    s.accepted = [((0, 0), m)] ∧ ((0, 0) ∈ s.written ∨ s.Reported (0, 0)) := by
  obtain ⟨s, m, h, accepted, returned⟩ : ∃ (s : Session Nat Nat) (m : Message),
      exec (step ⟨.sparkplugB, .publisher⟩)
        ((Delivery.prompt ++ Delivery.roomy).map (onDelivery ⟨.sparkplugB, .publisher⟩) ++
          inTurn) .new
        [.poll .connAck, .apply, .call (.start 0 plantData), .call (.acquire 0),
          .call (.offer 0), .call (.accept 0), .call (.commit 0), .poll (.failed true), .apply,
          .apply, .call (.event (.openFlush 1 5)), .call (.event (.drain 1)),
          .call (.event (.close 1)), .shutdown 0 5, .call (.event (.drain 0)),
          .call (.event (.close 0)), .flushed, .request, .down, .stop] = some s ∧
      s.accepted = [((0, 0), m)] ∧ s.shutdown = .returned (.ok ()) := ⟨_, _, rfl, rfl, rfl⟩
  have run := Run.of_exec h
  have nothing := (publisher_leaves_nothing_behind rfl run).2.2 run _ returned rfl
  exact ⟨s, m, run, accepted, nothing ((0, 0), m) (by simp [accepted])⟩

end Steps

/-- A DDATA that waits in the channel goes out ahead of the DISCONNECT. -/
theorem shutdown_leaves_nothing_behind_small : ∃ (s : Session Nat Nat) (m : Message),
    Run (step plantClient) (Obeys (careful plantClient)) .new
      [.poll .connAck, .apply, .call (.start 0 plantData), .call (.acquire 0), .call (.offer 0),
        .call (.accept 0), .call (.commit 0), .shutdown 0 5, .call (.event (.drain 0)),
        .call (.event (.close 0)), .flushed, .request, .write 0, .write 0, .poll .disconnectSent,
        .apply, .down, .stop] s ∧
    s.accepted = [((0, 0), m)] ∧ ((0, 0) ∈ s.written ∨ s.Reported (0, 0)) := by
  obtain ⟨s, m, h, accepted, returned⟩ : ∃ (s : Session Nat Nat) (m : Message),
      exec (step plantClient) (careful plantClient) .new
        [.poll .connAck, .apply, .call (.start 0 plantData), .call (.acquire 0),
          .call (.offer 0), .call (.accept 0), .call (.commit 0), .shutdown 0 5,
          .call (.event (.drain 0)), .call (.event (.close 0)), .flushed, .request, .write 0,
          .write 0, .poll .disconnectSent, .apply, .down, .stop] = some s ∧
      s.accepted = [((0, 0), m)] ∧ s.shutdown = .returned (.ok ()) := ⟨_, _, rfl, rfl, rfl⟩
  have run := Run.of_exec h
  have nothing := (shutdown_leaves_nothing_behind run returned rfl).2
  exact ⟨s, m, run, accepted, nothing ((0, 0), m) (by simp [accepted])⟩

/-- The link is down already, so `shutdown` takes its DISCONNECT for written: the DDATA of an
edge node is still in the channel, and so is that of a publisher whose count was lost before
the client took it. -/
theorem shutdown_leaves_a_message_behind :
    (∃ s : Session Nat Nat,
      Run (step plantClient)
        (Obeys ((Delivery.prompt ++ Delivery.roomy).map (onDelivery plantClient) ++
          inTurn)) .new
        [.poll .connAck, .apply, .poll (.failed true), .apply, .apply,
          .call (.start 0 plantData), .call (.acquire 0), .call (.offer 0), .call (.accept 0),
          .call (.commit 0), .shutdown 0 5, .call (.event (.drain 0)),
          .call (.event (.close 0)), .flushed, .request, .down, .stop] s ∧
      s.client.call 0 = .returned (.ok ()) ∧ s.shutdown = .returned (.ok ()) ∧
      s.written = [] ∧ ¬ s.Reported (0, 0)) ∧
    ∃ s : Session Nat Nat,
      Run (step ⟨.sparkplugB, .publisher⟩)
        (Obeys ((Delivery.answered ++ Delivery.roomy).map
          (onDelivery ⟨.sparkplugB, .publisher⟩) ++ inTurn)) .new
        [.poll .connAck, .apply, .call (.start 0 plantData), .call (.acquire 0),
          .call (.offer 0), .poll (.failed true), .apply, .apply,
          .call (.event (.openFlush 1 5)), .call (.event (.drain 1)),
          .call (.event (.close 1)), .call (.accept 0), .call (.commit 0), .shutdown 0 5,
          .call (.event (.drain 0)), .call (.event (.close 0)), .flushed, .request, .down,
          .stop] s ∧
      s.client.call 0 = .returned (.ok ()) ∧ s.shutdown = .returned (.ok ()) ∧
      s.written = [] ∧ ¬ s.Reported (0, 0) := by
  constructor
  · obtain ⟨s, h, published, returned, written, told⟩ : ∃ s : Session Nat Nat,
        exec (step plantClient)
          ((Delivery.prompt ++ Delivery.roomy).map (onDelivery plantClient) ++ inTurn)
          .new
          [.poll .connAck, .apply, .poll (.failed true), .apply, .apply,
            .call (.start 0 plantData), .call (.acquire 0), .call (.offer 0),
            .call (.accept 0), .call (.commit 0), .shutdown 0 5, .call (.event (.drain 0)),
            .call (.event (.close 0)), .flushed, .request, .down, .stop] = some s ∧
        s.client.call 0 = .returned (.ok ()) ∧ s.shutdown = .returned (.ok ()) ∧
        s.written = [] ∧ s.told = 0 := ⟨_, rfl, rfl, rfl, rfl, rfl⟩
    refine ⟨s, Run.of_exec h, published, returned, written, ?_⟩
    rintro ⟨pub, epoch, -, -, before⟩
    omega
  · obtain ⟨s, h, published, returned, written, told, held⟩ : ∃ s : Session Nat Nat,
        exec (step ⟨.sparkplugB, .publisher⟩)
          ((Delivery.answered ++ Delivery.roomy).map
            (onDelivery ⟨.sparkplugB, .publisher⟩) ++ inTurn) .new
          [.poll .connAck, .apply, .call (.start 0 plantData), .call (.acquire 0),
            .call (.offer 0), .poll (.failed true), .apply, .apply,
            .call (.event (.openFlush 1 5)), .call (.event (.drain 1)),
            .call (.event (.close 1)), .call (.accept 0), .call (.commit 0), .shutdown 0 5,
            .call (.event (.drain 0)), .call (.event (.close 0)), .flushed, .request, .down,
            .stop] = some s ∧
        s.client.call 0 = .returned (.ok ()) ∧ s.shutdown = .returned (.ok ()) ∧
        s.written = [] ∧ s.told = 1 ∧
        s.client.delivery.publish (0, 0) = some ⟨none, 0, some 1, false⟩ :=
      ⟨_, rfl, rfl, rfl, rfl, rfl, rfl⟩
    refine ⟨s, Run.of_exec h, published, returned, written, ?_⟩
    rintro ⟨pub, epoch, found, took, before⟩
    cases held.symm.trans found
    cases took
    omega

end Session

end Sparkplug
