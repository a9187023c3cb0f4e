import Sparkplug.Client.Connect
import Sparkplug.Client.Tracking
import Sparkplug.Delivery.Account

/-! A client with the request channel of `rumqttc`, the loop that empties it, and `shutdown`
of src/sparkplug/client.rs and client/shutdown.rs. The loop makes one call at a time, so a
step of `shutdown` can fall between any two. `rumqttc` reports a DISCONNECT once it is written.
Which request it writes next, whether it repeats one, and what a failed poll leaves of the
channel are up to it: that it keeps the order of its channel is a rule over the steps. -/
namespace Sparkplug

open EventLoop Transition

inductive Disconnected where
  | written
  | unconfirmed
  | refused (error : ClientError)

/-- The answer to the request, if the deadline left time for one, and what
`wait_for_disconnect` returned behind it. -/
def disconnectOutcome (requested : Option (Except ClientError Unit)) (down : Bool) :
    Disconnected :=
  match requested with
  | none => .unconfirmed
  | some (.error error) => .refused error
  | some (.ok ()) => if down then .written else .unconfirmed

def shutdownOutcome (flushed : Except SparkplugError Unit) (disconnected : Disconnected)
    (timeout : Duration) : Except SparkplugError Unit :=
  match flushed, disconnected with
  | .error error, _ => .error error
  | .ok (), .written => .ok ()
  | .ok (), .refused error => .error (.disconnect error)
  | .ok (), .unconfirmed => .error (.shutdownTimeout timeout)

inductive Request (κ : Type) where
  | publish (id : κ × Nat) (tracked : Bool)
  | disconnect
  deriving DecidableEq

/-- What a poll returns, with the message behind a PubAck. All other events change nothing. -/
inductive Poll (κ : Type) where
  | connAck
  | pubAck (id : κ × Nat)
  | brokerDisconnect
  | disconnectSent
  | failed (drops : Bool)

def Poll.polled {κ : Type} : Poll κ → Polled Unit
  | .connAck => .ok (.incoming .connAck)
  | .pubAck _ => .ok (.incoming .pubAck)
  | .brokerDisconnect => .ok (.incoming .disconnect)
  | .disconnectSent => .ok (.outgoing .disconnect)
  | .failed _ => .error ()

/-- Where the one call of `shutdown` is. -/
inductive Shutdown (φ : Type) where
  | uncalled
  | flushing (f : φ) (timeout : Duration)
  | requesting (flushed : Except SparkplugError Unit) (timeout : Duration)
  | waiting (flushed : Except SparkplugError Unit) (timeout : Duration)
  /-- The outcome is chosen and the client is about to drop. -/
  | settled (result : Except SparkplugError Unit)
  | returned (result : Except SparkplugError Unit)

structure Session (κ φ : Type) where
  client : Sys κ φ
  channel : List (Request κ)
  /-- The messages that went out to a broker. -/
  written : List (κ × Nat)
  disconnectWritten : Bool
  linkUp : Bool
  health : Health
  task : Task
  /-- The calls the loop has still to make for the last event. -/
  todo : List Call
  answering : Option (κ × Nat)
  shutdown : Shutdown φ
  /-- Every message the client took, for the statements alone. -/
  accepted : List ((κ × Nat) × Message)
  told : Nat

inductive SessionStep (κ φ : Type) where
  /-- A step of a publish call, or of a flush. -/
  | call (l : Label κ φ)
  /-- `rumqttc` writes this one of the requests that wait. -/
  | write (i : Nat)
  /-- `rumqttc` repeats a message that went out. -/
  | resend (id : κ × Nat)
  | poll (event : Poll κ)
  | apply
  | panic
  | shutdown (f : φ) (timeout : Duration)
  | flushed
  | request
  | refuse (error : ClientError)
  /-- The deadline, or the end of the sender behind the health signal. -/
  | elapse
  | down
  | stop

variable {κ φ : Type}

/-- `shutdown` takes the client by value, so behind it only its own flush is left. The loop
alone reports events. -/
def Shutdown.admits [DecidableEq φ] : Shutdown φ → Label κ φ → Bool
  | .uncalled, .event (.ack _) => false
  | .uncalled, .event .disconnect => false
  | .uncalled, _ => true
  | .flushing f _, .event (.drain g) => g == f
  | .flushing f _, .event (.close g) => g == f
  | .flushing f _, .event (.timeOut g) => g == f
  | _, _ => false

def Sys.handed (s : Sys κ φ) : Label κ φ → List ((κ × Nat) × Message)
  | .accept c =>
    match s.call c with
    | .offered held message => [((c, held.stage), message)]
    | _ => []
  | _ => []

def requestOf (h : (κ × Nat) × Message) : Request κ := .publish h.1 h.2.options.tracked

namespace Session

variable [DecidableEq κ] [DecidableEq φ]

def new : Session κ φ :=
  ⟨.new, [], [], false, false, .disconnected, .running, [], none, .uncalled, [], 0⟩

variable (client : Client) (s : Session κ φ)

/-- The client refuses every request once the loop is gone. -/
def takes : Label κ φ → Bool
  | .accept _ => s.task == .running
  | _ => true

def tells (l : Label κ φ) : Nat :=
  ((s.client.trackerLabel client l).map fun dl => Delivery.tell s.client.delivery dl s.told).getD
    s.told

def polling : Bool := s.task == .running && s.todo.isEmpty

def possible : Poll κ → Bool
  | .connAck => !s.linkUp
  | .disconnectSent => s.disconnectWritten
  | .failed _ => true
  | _ => s.linkUp

def receive (event : Poll κ) : Session κ φ :=
  let next := { s with todo := applyEvent event.polled ++ applyHealth event.polled }
  match event with
  | .connAck => { next with linkUp := true }
  | .pubAck id => { next with answering := some id }
  | .failed drops =>
    { next with linkUp := false, channel := if drops then [] else s.channel }
  | _ => next

def make : Call → Option (Session κ φ)
  | .recordAck => s.answering.bind fun id =>
    (Sys.step client s.client (.event (.ack id))).map fun next => { s with client := next }
  | .recordDisconnect =>
    (Sys.step client s.client (.event .disconnect)).map fun next => { s with client := next }
  | call => some { s with health := call.onHealth s.health }

def settle (flushed : Except SparkplugError Unit) (disconnected : Disconnected)
    (timeout : Duration) : Session κ φ :=
  { s with shutdown := .settled (shutdownOutcome flushed disconnected timeout) }

def step : SessionStep κ φ → Option (Session κ φ)
  | .call l =>
    if s.shutdown.admits l && s.takes l then
      (Sys.step client s.client l).map fun next => { s with
        client := next
        channel := s.channel ++ (s.client.handed l).map requestOf
        accepted := s.accepted ++ s.client.handed l
        told := s.tells client l }
    else none
  | .write i =>
    if s.polling && s.linkUp then
      match s.channel[i]? with
      | some (.publish id _) =>
        some { s with channel := s.channel.eraseIdx i, written := s.written ++ [id] }
      | some .disconnect =>
        some { s with channel := s.channel.eraseIdx i, disconnectWritten := true }
      | none => none
    else none
  | .resend id =>
    if s.polling && s.linkUp && s.written.contains id then
      some { s with written := s.written ++ [id] }
    else none
  | .poll event => if s.polling && s.possible event then some (s.receive event) else none
  | .apply =>
    match s.todo with
    | call :: rest =>
      if s.task = .running then (s.make client call).map fun next => { next with todo := rest }
      else none
    | [] => none
  | .panic => if s.task = .running then some { s with task := .panicked } else none
  | .shutdown f timeout =>
    match s.shutdown with
    | .uncalled =>
      (Sys.step client s.client (.event (.openFlush f timeout))).map fun next =>
        { s with client := next, shutdown := .flushing f timeout }
    | _ => none
  | .flushed =>
    match s.shutdown with
    | .flushing f timeout =>
      match s.client.delivery.flush f with
      | .returned result => some { s with shutdown := .requesting result timeout }
      | _ => none
    | _ => none
  | .request =>
    match s.shutdown with
    | .requesting flushed timeout =>
      if s.task = .running then
        some { s with channel := s.channel ++ [.disconnect], shutdown := .waiting flushed timeout }
      else none
    | _ => none
  | .refuse error =>
    match s.shutdown with
    | .requesting flushed timeout =>
      if s.task = .running then none
      else some (s.settle flushed (disconnectOutcome (some (.error error)) false) timeout)
    | _ => none
  | .elapse =>
    match s.shutdown with
    | .requesting flushed timeout =>
      some (s.settle flushed (disconnectOutcome none false) timeout)
    | .waiting flushed timeout =>
      -- A timeout polls what it wraps before it looks at the clock.
      if s.health = .disconnected then none
      else some (s.settle flushed (disconnectOutcome (some (.ok ())) false) timeout)
    | _ => none
  | .down =>
    match s.shutdown with
    | .waiting flushed timeout =>
      if s.health = .disconnected then
        some (s.settle flushed (disconnectOutcome (some (.ok ())) true) timeout)
      else none
    | _ => none
  | .stop =>
    match s.shutdown with
    | .settled result => some { s with task := .aborted, shutdown := .returned result }
    | _ => none

/-- `rumqttc` writes the requests of its channel first to last, each once. -/
def writesInOrder (_ : Session κ φ) : SessionStep κ φ → Bool
  | .write i => i == 0
  | .resend _ => false
  | _ => true

def trackerLabel : SessionStep κ φ → Option (Delivery.Label (κ × Nat) φ)
  | .call l => s.client.trackerLabel client l
  | .apply =>
    match s.todo with
    | .recordAck :: _ => s.answering.map .ack
    | .recordDisconnect :: _ => some .disconnect
    | _ => none
  | .shutdown f timeout => some (.openFlush f timeout)
  | _ => none

section Steps

variable {client : Client} {s t : Session κ φ}

inductive Moves (client : Client) (s : Session κ φ) : SessionStep κ φ → Session κ φ → Prop where
  | called {l next} (admitted : s.shutdown.admits l = true)
      (taken : Sys.step client s.client l = some next) :
      Moves client s (.call l) { s with
        client := next
        channel := s.channel ++ (s.client.handed l).map requestOf
        accepted := s.accepted ++ s.client.handed l
        told := s.tells client l }
  | wrote {i id tracked} (queued : s.channel[i]? = some (.publish id tracked)) :
      Moves client s (.write i)
        { s with channel := s.channel.eraseIdx i, written := s.written ++ [id] }
  | closed {i} (queued : s.channel[i]? = some .disconnect) :
      Moves client s (.write i)
        { s with channel := s.channel.eraseIdx i, disconnectWritten := true }
  | resent {id} (before : id ∈ s.written) :
      Moves client s (.resend id) { s with written := s.written ++ [id] }
  | polled {event} : Moves client s (.poll event) (s.receive event)
  | answered {id rest next} (todo : s.todo = .recordAck :: rest)
      (answers : s.answering = some id)
      (taken : s.client.delivery.step (.ack id) = some next) :
      Moves client s .apply { s with client := { s.client with delivery := next }, todo := rest }
  | lost {rest next} (todo : s.todo = .recordDisconnect :: rest)
      (taken : s.client.delivery.step .disconnect = some next) :
      Moves client s .apply { s with client := { s.client with delivery := next }, todo := rest }
  | signalled {call rest} (todo : s.todo = call :: rest) (other : call.isTracker = false) :
      Moves client s .apply { s with health := call.onHealth s.health, todo := rest }
  | panicked : Moves client s .panic { s with task := .panicked }
  | opened {f timeout next} (uncalled : s.shutdown = .uncalled)
      (taken : s.client.delivery.step (.openFlush f timeout) = some next) :
      Moves client s (.shutdown f timeout) { s with
        client := { s.client with delivery := next }
        shutdown := .flushing f timeout }
  | flushed {f timeout result} (flushing : s.shutdown = .flushing f timeout)
      (returned : s.client.delivery.flush f = .returned result) :
      Moves client s .flushed { s with shutdown := .requesting result timeout }
  | requested {flushed timeout} (requests : s.shutdown = .requesting flushed timeout) :
      Moves client s .request { s with
        channel := s.channel ++ [.disconnect]
        shutdown := .waiting flushed timeout }
  | settled {l flushed disconnected timeout}
      (learns : (l = .elapse ∧ disconnected = .unconfirmed) ∨
        (l = .down ∧ disconnected = .written) ∨
        ∃ error, l = .refuse error ∧ disconnected = .refused error)
      (ends : s.shutdown = .requesting flushed timeout ∨ s.shutdown = .waiting flushed timeout) :
      Moves client s l (s.settle flushed disconnected timeout)
  | stopped {result} (settled : s.shutdown = .settled result) :
      Moves client s .stop { s with task := .aborted, shutdown := .returned result }

theorem delivery_of_event {s t : Sys κ φ} {dl : Delivery.Label (κ × Nat) φ}
    (taken : Sys.step client s (.event dl) = some t) :
    ∃ next, s.delivery.step dl = some next ∧ t = { s with delivery := next } := by
  cases Sys.moves_of_step taken with
  | happened outside inner => exact ⟨_, inner, rfl⟩

theorem make_cases {call : Call} (made : s.make client call = some t) :
    (∃ id next, call = .recordAck ∧ s.answering = some id ∧
      s.client.delivery.step (.ack id) = some next ∧
      t = { s with client := { s.client with delivery := next } }) ∨
    (∃ next, call = .recordDisconnect ∧ s.client.delivery.step .disconnect = some next ∧
      t = { s with client := { s.client with delivery := next } }) ∨
    (call.isTracker = false ∧ t = { s with health := call.onHealth s.health }) := by
  cases call with
  | recordAck =>
    obtain ⟨id, answers, inner⟩ := Option.bind_eq_some_iff.mp made
    obtain ⟨after, happened, rfl⟩ := Option.map_eq_some_iff.mp inner
    obtain ⟨next, moved, rfl⟩ := delivery_of_event happened
    exact .inl ⟨id, next, rfl, answers, moved, rfl⟩
  | recordDisconnect =>
    simp only [make] at made
    obtain ⟨after, happened, rfl⟩ := Option.map_eq_some_iff.mp made
    obtain ⟨next, moved, rfl⟩ := delivery_of_event happened
    exact .inr (.inl ⟨next, rfl, moved, rfl⟩)
  | _ => exact .inr (.inr ⟨rfl, (Option.some.inj made).symm⟩)

theorem moves_of_step {l : SessionStep κ φ} (taken : step client s l = some t) :
    Moves client s l t := by
  cases l with
  | call l =>
    obtain ⟨guard, taken⟩ := Option.ite_none_right_eq_some.mp taken
    obtain ⟨next, inner, rfl⟩ := Option.map_eq_some_iff.mp taken
    exact .called (Bool.and_eq_true_iff.mp guard).1 inner
  | write i =>
    obtain ⟨-, taken⟩ := Option.ite_none_right_eq_some.mp taken
    split at taken
    · rename_i queued
      cases taken
      exact .wrote queued
    · rename_i queued
      cases taken
      exact .closed queued
    · cases taken
  | resend id =>
    obtain ⟨guard, taken⟩ := Option.ite_none_right_eq_some.mp taken
    cases taken
    exact .resent (List.contains_iff_mem.mp (Bool.and_eq_true_iff.mp guard).2)
  | poll event =>
    obtain ⟨-, taken⟩ := Option.ite_none_right_eq_some.mp taken
    cases taken
    exact .polled
  | apply =>
    simp only [step] at taken
    split at taken
    · rename_i call rest todo
      obtain ⟨-, taken⟩ := Option.ite_none_right_eq_some.mp taken
      obtain ⟨next, made, rfl⟩ := Option.map_eq_some_iff.mp taken
      rcases make_cases made with ⟨id, next, rfl, answers, moved, rfl⟩ | ⟨next, rfl, moved, rfl⟩ |
        ⟨other, rfl⟩
      · exact .answered todo answers moved
      · exact .lost todo moved
      · exact .signalled todo other
    · cases taken
  | panic =>
    obtain ⟨-, taken⟩ := Option.ite_none_right_eq_some.mp taken
    cases taken
    exact .panicked
  | shutdown f timeout =>
    simp only [step] at taken
    split at taken
    · rename_i uncalled
      obtain ⟨after, happened, rfl⟩ := Option.map_eq_some_iff.mp taken
      obtain ⟨next, moved, rfl⟩ := delivery_of_event happened
      exact .opened uncalled moved
    · cases taken
  | flushed =>
    simp only [step] at taken
    split at taken
    · rename_i flushing
      split at taken
      · rename_i returned
        cases taken
        exact .flushed flushing returned
      · cases taken
    · cases taken
  | request =>
    simp only [step] at taken
    split at taken
    · rename_i requests
      obtain ⟨-, taken⟩ := Option.ite_none_right_eq_some.mp taken
      cases taken
      exact .requested requests
    · cases taken
  | refuse error =>
    simp only [step] at taken
    split at taken
    · rename_i requests
      split at taken <;> cases taken
      exact .settled (.inr (.inr ⟨error, rfl, rfl⟩)) (.inl requests)
    · cases taken
  | elapse =>
    simp only [step] at taken
    split at taken
    · rename_i requests
      cases taken
      exact .settled (.inl ⟨rfl, rfl⟩) (.inl requests)
    · rename_i waits
      split at taken <;> cases taken
      exact .settled (.inl ⟨rfl, rfl⟩) (.inr waits)
    · cases taken
  | down =>
    simp only [step] at taken
    split at taken
    · rename_i waits
      split at taken <;> cases taken
      exact .settled (.inr (.inl ⟨rfl, rfl⟩)) (.inr waits)
    · cases taken
  | stop =>
    simp only [step] at taken
    split at taken
    · rename_i settled
      cases taken
      exact .stopped settled
    · cases taken

theorem tracker_of_moves {l : SessionStep κ φ} (moves : Moves client s l t) :
    (t.client.delivery = s.client.delivery ∧ t.told = s.told) ∨
    ∃ dl, s.trackerLabel client l = some dl ∧
      s.client.delivery.step dl = some t.client.delivery ∧
      t.told = Delivery.tell s.client.delivery dl s.told := by
  cases moves with
  | @called l next admitted taken =>
    rcases Sparkplug.tracker_of_moves (Sys.moves_of_step taken) with ⟨label, same⟩ |
      ⟨dl, label, inner⟩
    · exact .inl ⟨same, by simp [tells, label]⟩
    · exact .inr ⟨dl, label, inner, by simp [tells, label]⟩
  | answered todo answers taken =>
    exact .inr ⟨_, by simp [trackerLabel, todo, answers], taken, rfl⟩
  | lost todo taken => exact .inr ⟨_, by simp [trackerLabel, todo], taken, rfl⟩
  | opened uncalled taken => exact .inr ⟨_, rfl, taken, rfl⟩
  | @polled event => cases event <;> exact .inl ⟨rfl, rfl⟩
  | _ => exact .inl ⟨rfl, rfl⟩

omit [DecidableEq κ] [DecidableEq φ] in
theorem first_of_order {i : Nat} {request : Request κ}
    (inOrder : writesInOrder s (.write i) = true) (queued : s.channel[i]? = some request) :
    ∃ rest, s.channel = request :: rest ∧ s.channel.eraseIdx i = rest := by
  obtain rfl : i = 0 := beq_iff_eq.mp inOrder
  cases channel : s.channel with
  | nil => rw [channel] at queued; cases queued
  | cons first rest =>
    rw [channel] at queued
    cases queued
    exact ⟨rest, rfl, rfl⟩

def clientLabel (s : Session κ φ) : SessionStep κ φ → Option (Label κ φ)
  | .call l => some l
  | .apply =>
    match s.todo with
    | .recordAck :: _ => s.answering.map fun id => .event (.ack id)
    | .recordDisconnect :: _ => some (.event .disconnect)
    | _ => none
  | .shutdown f timeout => some (.event (.openFlush f timeout))
  | _ => none

omit [DecidableEq κ] [DecidableEq φ] in
theorem call_of_clientLabel {l : SessionStep κ φ} {cl : Label κ φ} {ls : List (SessionStep κ φ)}
    (label : s.clientLabel l = some cl) : .call cl ∈ ls ++ [l] ∨ ∃ dl, cl = .event dl := by
  cases l with
  | call l =>
    cases label
    exact .inl (by simp)
  | apply =>
    simp only [clientLabel] at label
    split at label
    · obtain ⟨id, -, rfl⟩ := Option.map_eq_some_iff.mp label
      exact .inr ⟨_, rfl⟩
    · cases label
      exact .inr ⟨_, rfl⟩
    · cases label
  | shutdown f timeout =>
    cases label
    exact .inr ⟨_, rfl⟩
  | _ => cases label

/-- A promise about the client, made about the step of the session around it. -/
def onClient (rule : Sys κ φ → Label κ φ → Bool) (s : Session κ φ) (l : SessionStep κ φ) : Bool :=
  (s.clientLabel l).all (rule s.client)

theorem client_of_moves {l : SessionStep κ φ} (moves : Moves client s l t) :
    (s.clientLabel l = none ∧ t.client = s.client) ∨
    ∃ cl, s.clientLabel l = some cl ∧ Sys.step client s.client cl = some t.client := by
  cases moves with
  | called admitted taken => exact .inr ⟨_, rfl, taken⟩
  | answered todo answers taken =>
    exact .inr ⟨_, by simp [clientLabel, todo, answers], Sys.step_of_moves (.happened rfl taken)⟩
  | lost todo taken =>
    exact .inr ⟨_, by simp [clientLabel, todo], Sys.step_of_moves (.happened rfl taken)⟩
  | opened uncalled taken => exact .inr ⟨_, rfl, Sys.step_of_moves (.happened rfl taken)⟩
  | @polled event => cases event <;> exact .inl ⟨rfl, rfl⟩
  | @signalled call rest todo other =>
    refine .inl ⟨?_, rfl⟩
    rw [clientLabel, todo]
    cases call with
    | recordAck => cases other
    | recordDisconnect => cases other
    | _ => rfl
  | settled learns ends =>
    rcases learns with ⟨rfl, -⟩ | ⟨rfl, -⟩ | ⟨error, rfl, -⟩
    all_goals exact .inl ⟨rfl, rfl⟩
  | _ => exact .inl ⟨rfl, rfl⟩

/-- The client of a session makes a run of its own, with the calls the session was given. -/
theorem client_run {rules : List (Sys κ φ → Label κ φ → Bool)} {ls : List (SessionStep κ φ)}
    (run : Run (step client) (Obeys (rules.map onClient)) .new ls s) :
    ∃ cls, Run (Sys.step client) (Obeys rules) .new cls s.client ∧
      ∀ l ∈ cls, .call l ∈ ls ∨ ∃ dl, l = .event dl := by
  induction run with
  | start => exact ⟨[], .start _, fun l member => (by cases member)⟩
  | @snoc t v ls l _ promise taken ih =>
    obtain ⟨cls, before, given⟩ := ih
    have earlier {cl : Label κ φ} (member : cl ∈ cls) :
        .call cl ∈ ls ++ [l] ∨ ∃ dl, cl = .event dl :=
      (given cl member).imp_left (List.mem_append_left _)
    rcases client_of_moves (moves_of_step taken) with ⟨-, same⟩ | ⟨cl, label, inner⟩
    · rw [same]
      exact ⟨cls, before, fun _ => earlier⟩
    · refine ⟨cls ++ [cl], before.snoc (fun rule member => ?_) inner, fun other member => ?_⟩
      · have allowed := promise _ (List.mem_map_of_mem member)
        simpa [onClient, label] using allowed
      · rcases List.mem_append.mp member with member | now
        · exact earlier member
        · cases List.mem_singleton.mp now
          exact call_of_clientLabel label

/-- What a step of the tracker preserves, a step of the session preserves. -/
theorem tracker_invariant {l : SessionStep κ φ} {P : Delivery.Sys (κ × Nat) φ → Nat → Prop}
    (moves : Moves client s l t) (holds : P s.client.delivery s.told)
    (preserves : ∀ dl next, s.trackerLabel client l = some dl →
      s.client.delivery.step dl = some next →
      P next (Delivery.tell s.client.delivery dl s.told)) : P t.client.delivery t.told := by
  rcases tracker_of_moves moves with ⟨same, told⟩ | ⟨dl, label, taken, told⟩
  · rw [same, told]
    exact holds
  · rw [told]
    exact preserves dl _ label taken

end Steps

end Session

end Sparkplug
