import Sparkplug.Client.Shutdown

/-! The session against the loop of src/sparkplug/eventloop.rs, which makes all calls of an
event in one turn, and what the answer of `shutdown` says of both. -/
namespace Sparkplug

open EventLoop Transition

variable {κ φ : Type}

def EventLoop.Call.applied : Call → Bool
  | .recordAck | .recordDisconnect | .sendReplace _ => true
  | _ => false

namespace EventLoop

variable {ε : Type} (event : Polled ε)

def applied (event : Polled ε) : List Call := applyEvent event ++ applyHealth event

theorem turn_applied (l : Loop) :
    (l.turn event).calls.filter Call.applied = l.calls.filter Call.applied ++ applied event := by
  rcases event with e | (_ | _ | _ | _) | (_ | _) <;>
    cases h : l.ready <;> simp [Loop.turn, h, applied, applyEvent, applyHealth,
      List.filter_append, List.filter_cons, Call.applied]

theorem run_applied (script : List (Polled ε)) :
    (Loop.run script).calls.filter Call.applied = script.flatMap applied := by
  induction script using List.reverseRecOn with
  | nil => rfl
  | append_singleton before event ih =>
    rw [Loop.run_concat, turn_applied, ih, List.flatMap_append, List.flatMap_singleton]

theorem health_of_turn (l : Loop) :
    (l.turn event).health = (applied event).foldl Call.onHealth l.health := by
  rw [Loop.turn_health]
  rcases event with e | (_ | _ | _ | _) | (_ | _) <;>
    simp [isConnAck, losesLink, isWrittenDisconnect, applied, applyEvent, applyHealth,
      Call.onHealth]

theorem health_of_tracker {calls : List Call} (health : Health)
    (tracker : ∀ call ∈ calls, call.isTracker = true) :
    calls.foldl Call.onHealth health = health := by
  induction calls with
  | nil => rfl
  | cons call calls ih =>
    obtain ⟨first, rest⟩ := List.forall_mem_cons.mp tracker
    have same : Call.onHealth health call = health := by cases call <;> first | rfl | cases first
    rw [List.foldl_cons, same, ih rest]

theorem tracker_of_applyEvent : ∀ call ∈ applyEvent event, call.isTracker = true := by
  rcases event with e | (_ | _ | _ | _) | (_ | _) <;> simp [applyEvent, Call.isTracker]

theorem applyHealth_short : (applyHealth event).length ≤ 1 := by
  rcases event with e | (_ | _ | _ | _) | (_ | _) <;> simp [applyHealth]

theorem disconnects_of_applied :
    (applied event).count .recordDisconnect = if losesLink event then 1 else 0 := by
  rcases event with e | (_ | _ | _ | _) | (_ | _) <;>
    simp [applied, applyEvent, applyHealth, losesLink]

theorem health_of_run (script : List (Polled ε)) :
    (Loop.run script).health = (script.flatMap applied).foldl Call.onHealth .disconnected := by
  induction script using List.reverseRecOn with
  | nil => rfl
  | append_singleton before event ih =>
    rw [Loop.run_concat, health_of_turn, ih, List.flatMap_append, List.flatMap_singleton,
      List.foldl_append]

theorem disconnects_of_run (script : List (Polled ε)) :
    script.countP losesLink = (script.flatMap applied).count .recordDisconnect := by
  induction script with
  | nil => rfl
  | cons event script ih =>
    rw [List.flatMap_cons, List.count_append, disconnects_of_applied, List.countP_cons, ih,
      Nat.add_comm]

theorem last_of_disconnected {script : List (Polled ε)} {event : Polled ε}
    (down : (Loop.run script).health = .disconnected)
    (last : (script.filter movesHealth).getLast? = some event) :
    losesLink event = true ∨ isWrittenDisconnect event = true := by
  have moves : movesHealth event = true :=
    (List.mem_filter.mp (List.mem_of_getLast? last)).2
  cases ack : isConnAck event with
  | true =>
    have up := (Loop.run_health script).mpr (by simp [last, ack])
    rw [up] at down
    cases down
  | false => simpa [movesHealth, ack] using moves

end EventLoop

def Delivery.Label.asCall {ι : Type} : Delivery.Label ι φ → Option Call
  | .ack _ => some .recordAck
  | .disconnect => some .recordDisconnect
  | _ => none

/-- What a call of the loop does to the tracker, this step does. -/
def Delivery.Sys.MakesCall {ι : Type} [DecidableEq ι] [DecidableEq φ] (d : Delivery.Sys ι φ)
    (dl : Delivery.Label ι φ) : Prop :=
  ∀ call e, dl.asCall = some call → d.step dl = some e → e.tracker = call.onTracker d.tracker

theorem makesCall {ι : Type} [DecidableEq ι] [DecidableEq φ] (d : Delivery.Sys ι φ)
    (dl : Delivery.Label ι φ) : d.MakesCall dl := by
  intro call e same taken
  cases dl with
  | ack p => cases same; cases Option.some.inj taken; rfl
  | disconnect => cases same; cases Option.some.inj taken; rfl
  | _ => cases same

def SessionStep.polled : SessionStep κ φ → Option (Polled Unit)
  | .poll event => some event.polled
  | _ => none

def polled (ls : List (SessionStep κ φ)) : List (Polled Unit) := ls.filterMap SessionStep.polled

theorem polled_concat (ls : List (SessionStep κ φ)) (l : SessionStep κ φ) :
    polled (ls ++ [l]) = polled ls ++ l.polled.toList := by
  cases h : l.polled <;> simp [polled, h]

namespace Session

/-- The session inside the turn of the loop that handles `last`, if there is one: it has made
the calls of all events before it, and these of its own. -/
structure Follows (heard before last : List (Polled Unit)) (done : List Call)
    (s : Session κ φ) : Prop where
  split : heard = before ++ last
  one : last.length ≤ 1
  calls : last.flatMap applied = done ++ s.todo
  health : s.health = done.foldl Call.onHealth (Loop.run before).health
  epoch : s.client.delivery.epoch = before.countP losesLink + done.count .recordDisconnect

section Following

variable {client : Client} {s t : Session κ φ} {l : SessionStep κ φ}
  {heard before last : List (Polled Unit)} {done : List Call}

theorem Follows.caught_up (h : Follows heard before last done s) (nothing : s.todo = []) :
    s.health = (Loop.run heard).health ∧
    s.client.delivery.epoch = heard.countP losesLink := by
  have calls := h.calls
  rw [nothing, List.append_nil] at calls
  rw [h.health, h.epoch, h.split, ← calls]
  match last, h.one with
  | [], _ => simp
  | [event], _ =>
    rw [List.flatMap_singleton, Loop.run_concat, health_of_turn, disconnects_of_applied,
      List.countP_append, List.countP_singleton]
    exact ⟨rfl, rfl⟩

theorem Follows.known (h : Follows heard before last done s) : ∃ known, known <+: heard ∧
    heard.length ≤ known.length + 1 ∧ s.health = (Loop.run known).health := by
  have unmoved (tracker : ∀ call ∈ done, call.isTracker = true) : ∃ known, known <+: heard ∧
      heard.length ≤ known.length + 1 ∧ s.health = (Loop.run known).health := by
    have one := h.one
    refine ⟨before, ⟨last, h.split.symm⟩, ?_, ?_⟩
    · rw [h.split, List.length_append]
      omega
    · rw [h.health, health_of_tracker _ tracker]
  match last, h.one, h.calls with
  | [], _, calls =>
    obtain ⟨rfl, -⟩ := List.append_eq_nil_iff.mp calls.symm
    exact unmoved fun call member => by cases member
  | [event], _, calls =>
    rw [List.flatMap_singleton] at calls
    rcases List.append_eq_append_iff.mp calls with ⟨more, rfl, moved⟩ | ⟨more, made, -⟩
    · cases more with
      | nil =>
        rw [List.append_nil] at unmoved
        exact unmoved (tracker_of_applyEvent event)
      | cons call more =>
        have short := applyHealth_short event
        rw [moved, List.cons_append, List.length_cons, List.length_append] at short
        have nothing : s.todo = [] := List.eq_nil_of_length_eq_zero (by omega)
        exact ⟨heard, List.prefix_refl _, Nat.le_succ _, (h.caught_up nothing).1⟩
    · refine unmoved fun call member => tracker_of_applyEvent event call ?_
      rw [made]
      exact List.mem_append_left _ member

theorem follows_same (h : Follows heard before last done s) (todo : t.todo = s.todo)
    (health : t.health = s.health)
    (epoch : t.client.delivery.epoch = s.client.delivery.epoch) :
    Follows heard before last done t := by
  refine ⟨h.split, h.one, ?_, ?_, ?_⟩
  · rw [todo]
    exact h.calls
  · rw [health]
    exact h.health
  · rw [epoch]
    exact h.epoch

theorem follows_made {call : Call} {rest : List Call} (h : Follows heard before last done s)
    (todo : s.todo = call :: rest) (left : t.todo = rest)
    (health : t.health = call.onHealth s.health)
    (epoch : t.client.delivery.epoch =
      s.client.delivery.epoch + [call].count .recordDisconnect) :
    Follows heard before last (done ++ [call]) t := by
  refine ⟨h.split, h.one, ?_, ?_, ?_⟩
  · rw [h.calls, todo, left]
    simp
  · rw [health, h.health, List.foldl_append]
    rfl
  · rw [epoch, h.epoch, List.count_append, Nat.add_assoc]

variable [DecidableEq κ] [DecidableEq φ]

theorem call_of_admits {l : Label κ φ} {next : Sys κ φ} {dl : Delivery.Label (κ × Nat) φ}
    (admitted : s.shutdown.admits l = true) (taken : Sys.step client s.client l = some next)
    (label : s.client.trackerLabel client l = some dl) : dl.asCall = none := by
  cases Sys.moves_of_step taken with
  | offered ready current built counted =>
    rw [label_of_offer ready current 0] at label
    split at label <;> cases label
    rfl
  | accepted offers kept =>
    rw [label_of_accept offers] at label
    split at label <;> cases label
    rfl
  | released unwinds rolled =>
    rw [label_of_release unwinds] at label
    cases label
    rfl
  | happened outside inner =>
    cases label
    cases dl with
    | ack p => cases phase : s.shutdown <;> rw [phase] at admitted <;> cases admitted
    | disconnect => cases phase : s.shutdown <;> rw [phase] at admitted <;> cases admitted
    | _ => rfl
  | _ => cases label

theorem epoch_of_step {u v : Delivery.Sys (κ × Nat) φ} {dl : Delivery.Label (κ × Nat) φ}
    (other : dl ≠ .disconnect) (taken : u.step dl = some v) : v.epoch = u.epoch := by
  rw [Delivery.Sys.step_epoch taken, List.count_singleton, if_neg (by simpa using other)]
  rfl

theorem epoch_of_call {l : Label κ φ} {next : Sys κ φ} (admitted : s.shutdown.admits l = true)
    (taken : Sys.step client s.client l = some next) :
    next.delivery.epoch = s.client.delivery.epoch := by
  rcases Sparkplug.tracker_of_moves (Sys.moves_of_step taken) with ⟨-, same⟩ | ⟨dl, label, inner⟩
  · rw [same]
  · refine epoch_of_step ?_ inner
    rintro rfl
    cases call_of_admits admitted taken label

theorem follows_step (h : Follows heard before last done s) (taken : step client s l = some t) :
    ∃ before last done, Follows (heard ++ l.polled.toList) before last done t := by
  have silent (none : l.polled = none) {before last : List (Polled Unit)} {done : List Call}
      (now : Follows heard before last done t) :
      ∃ before last done, Follows (heard ++ l.polled.toList) before last done t := by
    rw [none, Option.toList_none, List.append_nil]
    exact ⟨before, last, done, now⟩
  cases l with
  | poll event =>
    obtain ⟨guard, moved⟩ := Option.ite_none_right_eq_some.mp taken
    have nothing : s.todo = [] := by
      simpa [polling] using (Bool.and_eq_true_iff.mp (Bool.and_eq_true_iff.mp guard).1).2
    obtain ⟨health, epoch⟩ := h.caught_up nothing
    cases moved
    have received : (s.receive event).todo = applied event.polled ∧
        (s.receive event).health = s.health ∧ (s.receive event).client = s.client := by
      cases event <;> exact ⟨rfl, rfl, rfl⟩
    obtain ⟨todo, kept, same⟩ := received
    refine ⟨heard, [event.polled], [], rfl, Nat.le_refl _, ?_, ?_, ?_⟩
    · rw [todo, List.flatMap_singleton, List.nil_append]
    · rw [kept, health, List.foldl_nil]
    · rw [same, epoch, List.count_nil, Nat.add_zero]
  | apply =>
    cases moves_of_step taken with
    | answered todo answers inner =>
      refine silent rfl (follows_made h todo rfl rfl ?_)
      exact epoch_of_step (by nofun) inner
    | lost todo inner =>
      refine silent rfl (follows_made h todo rfl rfl ?_)
      exact Delivery.Sys.step_epoch inner
    | signalled todo other =>
      refine silent rfl (follows_made h todo rfl rfl ?_)
      cases ‹Call› <;> first | rfl | cases other
    | settled learns => rcases learns with ⟨now, -⟩ | ⟨now, -⟩ | ⟨_, now, -⟩ <;> cases now
  | call l =>
    cases moves_of_step taken with
    | called admitted inner =>
      exact silent rfl (follows_same h rfl rfl (epoch_of_call admitted inner))
    | settled learns => rcases learns with ⟨now, -⟩ | ⟨now, -⟩ | ⟨_, now, -⟩ <;> cases now
  | shutdown f timeout =>
    cases moves_of_step taken with
    | opened uncalled inner =>
      exact silent rfl (follows_same h rfl rfl (epoch_of_step (by nofun) inner))
    | settled learns => rcases learns with ⟨now, -⟩ | ⟨now, -⟩ | ⟨_, now, -⟩ <;> cases now
  | _ =>
    cases moves_of_step taken
    all_goals exact silent rfl (follows_same h rfl rfl rfl)

theorem follows_run {ok : Session κ φ → SessionStep κ φ → Prop} {ls : List (SessionStep κ φ)}
    (run : Run (step client) ok .new ls s) :
    ∃ before last done, Follows (polled ls) before last done s := by
  induction run with
  | start => exact ⟨[], [], [], rfl, Nat.zero_le _, rfl, rfl, rfl⟩
  | snoc _ _ taken ih =>
    obtain ⟨before, last, done, h⟩ := ih
    rw [polled_concat]
    exact follows_step h taken

/-- The calls of the tracker that the loop makes for these events, of which `dls` had some and
the others are to come. -/
def Records (heard : List (Polled Unit)) (dls : List (Delivery.Label (κ × Nat) φ))
    (todo : List Call) : Prop :=
  (heard.flatMap applied).filter Call.isTracker =
    dls.filterMap Delivery.Label.asCall ++ todo.filter Call.isTracker

theorem records_step {dls : List (Delivery.Label (κ × Nat) φ)} (h : Records heard dls s.todo)
    (run : Run Delivery.Sys.step Delivery.Sys.MakesCall .new dls s.client.delivery)
    (taken : step client s l = some t) :
    ∃ dls', Run Delivery.Sys.step Delivery.Sys.MakesCall .new dls' t.client.delivery ∧
      Records (heard ++ l.polled.toList) dls' t.todo := by
  have silent (none : l.polled = none) (todo : t.todo = s.todo)
      (delivery : t.client.delivery = s.client.delivery) :
      ∃ dls', Run Delivery.Sys.step Delivery.Sys.MakesCall .new dls' t.client.delivery ∧
        Records (heard ++ l.polled.toList) dls' t.todo := by
    rw [none, Option.toList_none, List.append_nil, todo, delivery]
    exact ⟨dls, run, h⟩
  have moved {dl : Delivery.Label (κ × Nat) φ} (none : l.polled = none)
      (inner : s.client.delivery.step dl = some t.client.delivery)
      (todo : s.todo.filter Call.isTracker = dl.asCall.toList ++ t.todo.filter Call.isTracker) :
      ∃ dls', Run Delivery.Sys.step Delivery.Sys.MakesCall .new dls' t.client.delivery ∧
        Records (heard ++ l.polled.toList) dls' t.todo := by
    refine ⟨dls ++ [dl], run.snoc (makesCall _ dl) inner, ?_⟩
    rw [none, Option.toList_none, List.append_nil, Records, h, todo, List.filterMap_append]
    cases called : dl.asCall <;> simp [called]
  cases moves_of_step taken with
  | called admitted inner =>
    rcases Sparkplug.tracker_of_moves (Sys.moves_of_step inner) with ⟨-, same⟩ |
      ⟨dl, label, inside⟩
    · exact silent rfl rfl same
    · refine moved rfl inside ?_
      rw [call_of_admits admitted inner label]
      rfl
  | @polled event =>
    obtain ⟨guard, -⟩ := Option.ite_none_right_eq_some.mp taken
    have nothing : s.todo = [] := by
      simpa [polling] using (Bool.and_eq_true_iff.mp (Bool.and_eq_true_iff.mp guard).1).2
    have received : (s.receive event).todo = applied event.polled ∧
        (s.receive event).client = s.client := by
      cases event <;> exact ⟨rfl, rfl⟩
    obtain ⟨todo, same⟩ := received
    refine ⟨dls, by rw [same]; exact run, ?_⟩
    rw [Records, nothing, List.filter_nil, List.append_nil] at h
    rw [Records, todo, List.flatMap_append, List.filter_append, h]
    simp [SessionStep.polled]
  | answered todo answers inner => exact moved rfl inner (by rw [todo]; rfl)
  | lost todo inner => exact moved rfl inner (by rw [todo]; rfl)
  | @signalled call rest todo other =>
    refine ⟨dls, run, ?_⟩
    rw [Records, todo, List.filter_cons_of_neg (by simp [other])] at h
    simp only [SessionStep.polled, Option.toList_none, List.append_nil]
    exact h
  | opened uncalled inner => exact moved rfl inner rfl
  | settled learns =>
    rcases learns with ⟨rfl, -⟩ | ⟨rfl, -⟩ | ⟨error, rfl, -⟩
    all_goals exact silent rfl rfl rfl
  | _ => exact silent rfl rfl rfl

theorem records_run {ok : Session κ φ → SessionStep κ φ → Prop} {ls : List (SessionStep κ φ)}
    (run : Run (step client) ok .new ls s) :
    ∃ dls, Run Delivery.Sys.step Delivery.Sys.MakesCall .new dls s.client.delivery ∧
      Records (polled ls) dls s.todo := by
  induction run with
  | start => exact ⟨[], .start _, rfl⟩
  | snoc _ _ taken ih =>
    obtain ⟨dls, inner, h⟩ := ih
    rw [polled_concat]
    exact records_step h inner taken

/-- A step of the session can fall between two calls of the loop. Behind every run the signal
and the tracker have had the calls that the loop of the events makes, in its order, up to a
part of the last event. -/
theorem session_follows_the_loop {ok : Session κ φ → SessionStep κ φ → Prop}
    {ls : List (SessionStep κ φ)} (run : Run (step client) ok .new ls s) :
    (∃ ended made dls, ended <+: polled ls ∧ (polled ls).length ≤ ended.length + 1 ∧
      (Loop.run ended).calls.filter Call.applied <+: made ∧
      (Loop.run (polled ls)).calls.filter Call.applied = made ++ s.todo ∧
      s.health = made.foldl Call.onHealth .disconnected ∧
      s.client.delivery.epoch = made.count .recordDisconnect ∧
      Run Delivery.Sys.step Delivery.Sys.MakesCall .new dls s.client.delivery ∧
      dls.filterMap Delivery.Label.asCall = made.filter Call.isTracker) ∧
    (∃ known, known <+: polled ls ∧ (polled ls).length ≤ known.length + 1 ∧
      s.health = (Loop.run known).health) ∧
    (s.todo = [] → s.health = (Loop.run (polled ls)).health ∧
      s.client.delivery.epoch = (polled ls).countP losesLink) := by
  obtain ⟨before, last, done, h⟩ := follows_run run
  obtain ⟨dls, inner, records⟩ := records_run run
  have all : (polled ls).flatMap applied = before.flatMap applied ++ done ++ s.todo := by
    rw [h.split, List.flatMap_append, h.calls, List.append_assoc]
  refine ⟨⟨before, before.flatMap applied ++ done, dls, ⟨last, h.split.symm⟩, ?_, ?_, ?_, ?_, ?_,
    inner, ?_⟩, h.known, h.caught_up⟩
  · rw [h.split, List.length_append]
    exact Nat.add_le_add_left h.one _
  · rw [run_applied]
    exact List.prefix_append _ _
  · rw [run_applied, all]
  · rw [List.foldl_append, ← health_of_run, h.health]
  · rw [List.count_append, ← disconnects_of_run, h.epoch]
  · rw [Records, all, List.filter_append] at records
    exact (List.append_cancel_right records).symm

end Following

theorem session_follows_the_loop_small : ∃ s : Session Nat Nat,
    Run (step plantClient) (Obeys []) .new
      [.poll .connAck, .apply, .poll (.failed true), .apply] s ∧
    s.health = .connected ∧ s.client.delivery.epoch = 1 ∧
    ∃ known, known <+: [.ok (.incoming .connAck), .error ()] ∧
      s.health = (Loop.run known).health := by
  obtain ⟨s, h, health, epoch⟩ : ∃ s : Session Nat Nat, exec (step plantClient) [] .new
      [.poll .connAck, .apply, .poll (.failed true), .apply] = some s ∧
      s.health = .connected ∧ s.client.delivery.epoch = 1 := ⟨_, rfl, rfl, rfl⟩
  have run := Run.of_exec h
  obtain ⟨-, ⟨known, inside, -, same⟩, -⟩ := session_follows_the_loop run
  exact ⟨s, run, health, epoch, known, inside, same⟩

/-- What `shutdown` knows before it chooses its outcome, and what the channel knows of it. -/
structure Asks (ls : List (SessionStep κ φ)) (s : Session κ φ) : Prop where
  unasked : s.shutdown.asked = false → s.disconnectWritten = false ∧ .disconnect ∉ s.channel ∧
    (s.task = .running ∨ .panic ∈ ls)
  called : ∀ f timeout, s.shutdown = .flushing f timeout → .shutdown f timeout ∈ ls
  flushed : ∀ flushed timeout,
    s.shutdown = .requesting flushed timeout ∨ s.shutdown = .waiting flushed timeout →
    ∃ f, .shutdown f timeout ∈ ls ∧ s.client.delivery.flush f = .returned flushed
  written : ∀ event ∈ polled ls, isWrittenDisconnect event = true → s.disconnectWritten = true

section Asking

variable [DecidableEq κ] [DecidableEq φ] {client : Client} {s t : Session κ φ}
  {l : SessionStep κ φ} {ls : List (SessionStep κ φ)}

omit [DecidableEq κ] [DecidableEq φ] in
theorem asks_initial : Asks [] (.new : Session κ φ) := by
  refine ⟨fun _ => ⟨rfl, List.not_mem_nil, .inl rfl⟩, ?_, ?_, ?_⟩
  · intro f timeout now
    cases now
  · rintro flushed timeout (now | now) <;> cases now
  · intro event member
    cases member

theorem returned_kept {f : φ} {result : Except SparkplugError Unit}
    (moves : Moves client s l t) (returned : s.client.delivery.flush f = .returned result) :
    t.client.delivery.flush f = .returned result := by
  rcases tracker_of_moves moves with ⟨same, -⟩ | ⟨dl, -, inner, -⟩
  · rw [same]
    exact returned
  · rcases Delivery.Sys.step_flush inner f with same | ⟨_, -, before, -⟩ | ⟨_, _, -, before, -⟩ |
      ⟨_, -, before, -⟩ | ⟨_, _, -, before, -⟩ | ⟨rfl, -⟩
    · exact same.trans returned
    · cases before.symm.trans returned
    · cases before.symm.trans returned
    · cases before.symm.trans returned
    · cases before.symm.trans returned
    · obtain ⟨⟨_, _, before⟩ | ⟨_, before⟩, -⟩ := Delivery.Sys.step_cancel.mp inner
      · cases before.symm.trans returned
      · cases before.symm.trans returned

theorem disconnectWritten_kept (moves : Moves client s l t)
    (before : s.disconnectWritten = true) : t.disconnectWritten = true := by
  cases moves with
  | closed => rfl
  | @polled event => cases event <;> exact before
  | _ => exact before

theorem written_step (h : ∀ event ∈ polled ls, isWrittenDisconnect event = true →
      s.disconnectWritten = true) (taken : step client s l = some t) :
    ∀ event ∈ polled (ls ++ [l]), isWrittenDisconnect event = true →
      t.disconnectWritten = true := by
  intro event member sent
  have kept := disconnectWritten_kept (moves_of_step taken)
  rw [polled_concat] at member
  rcases List.mem_append.mp member with before | now
  · exact kept (h event before sent)
  · cases l with
    | poll polled =>
      cases List.mem_singleton.mp now
      obtain ⟨guard, -⟩ := Option.ite_none_right_eq_some.mp taken
      cases polled with
      | disconnectSent => exact kept (Bool.and_eq_true_iff.mp guard).2
      | _ => cases sent
    | _ => cases now

theorem asks_step (h : Asks ls s) (taken : step client s l = some t) : Asks (ls ++ [l]) t := by
  have moves := moves_of_step taken
  have written := written_step h.written taken
  have beside (phase : t.shutdown = s.shutdown)
      (unasked : s.shutdown.asked = false → t.disconnectWritten = false ∧
        .disconnect ∉ t.channel ∧ (t.task = .running ∨ .panic ∈ ls ++ [l])) :
      Asks (ls ++ [l]) t := by
    refine ⟨?_, ?_, ?_, written⟩
    · rw [phase]
      exact unasked
    · intro f timeout now
      rw [phase] at now
      exact List.mem_append_left _ (h.called f timeout now)
    · intro flushed timeout now
      rw [phase] at now
      obtain ⟨f, member, returned⟩ := h.flushed flushed timeout now
      exact ⟨f, List.mem_append_left _ member, returned_kept moves returned⟩
  have task {task : Task} (before : task = .running ∨ .panic ∈ ls) :
      task = .running ∨ .panic ∈ ls ++ [l] := before.imp_right (List.mem_append_left _)
  cases moves with
  | @called l next admitted inner =>
    refine beside rfl fun unasked => ?_
    obtain ⟨unsent, absent, alive⟩ := h.unasked unasked
    refine ⟨unsent, fun queued => ?_, task alive⟩
    rcases List.mem_append.mp queued with before | now
    · exact absent before
    · obtain ⟨m, -, same⟩ := List.mem_map.mp now
      cases same
  | wrote waits =>
    refine beside rfl fun unasked => ?_
    obtain ⟨unsent, absent, alive⟩ := h.unasked unasked
    exact ⟨unsent, fun later => absent (List.mem_of_mem_eraseIdx later), task alive⟩
  | closed waits =>
    refine beside rfl fun unasked => ?_
    exact absurd (List.mem_of_getElem? waits) (h.unasked unasked).2.1
  | resent => exact beside rfl fun unasked => (h.unasked unasked).imp_right (.imp_right task)
  | @polled event =>
    have same : (s.receive event).shutdown = s.shutdown ∧ (s.receive event).task = s.task ∧
        (s.receive event).disconnectWritten = s.disconnectWritten ∧
        ((s.receive event).channel = s.channel ∨ (s.receive event).channel = []) := by
      cases event with
      | failed drops => cases drops <;> simp [receive]
      | _ => simp [receive]
    obtain ⟨phase, same, sent, channel⟩ := same
    refine beside phase fun unasked => ?_
    obtain ⟨unsent, absent, alive⟩ := h.unasked unasked
    rw [same, sent]
    rcases channel with kept | dropped
    · rw [kept]
      exact ⟨unsent, absent, task alive⟩
    · rw [dropped]
      exact ⟨unsent, List.not_mem_nil, task alive⟩
  | panicked =>
    refine beside rfl fun unasked => ?_
    obtain ⟨unsent, absent, -⟩ := h.unasked unasked
    exact ⟨unsent, absent, .inr (by simp)⟩
  | @opened f timeout next uncalled inner =>
    obtain ⟨unsent, absent, alive⟩ := h.unasked (by rw [uncalled]; rfl)
    refine ⟨fun _ => ⟨unsent, absent, task alive⟩, fun g other now => ?_, ?_, written⟩
    · cases now
      simp
    · rintro flushed timeout (now | now) <;> cases now
  | @flushed f timeout result flushing returned =>
    obtain ⟨unsent, absent, alive⟩ := h.unasked (by rw [flushing]; rfl)
    refine ⟨fun _ => ⟨unsent, absent, task alive⟩, fun g other now => (by cases now), ?_, written⟩
    rintro flushed timeout (now | now) <;> cases now
    exact ⟨f, List.mem_append_left _ (h.called f timeout flushing), returned⟩
  | @requested flushed timeout requests =>
    refine ⟨fun unasked => (by cases unasked), fun g other now => (by cases now), ?_, written⟩
    rintro flushed timeout (now | now) <;> cases now
    obtain ⟨f, member, returned⟩ := h.flushed flushed timeout (.inl requests)
    exact ⟨f, List.mem_append_left _ member, returned⟩
  | settled learns ends =>
    refine ⟨fun unasked => (by cases unasked), fun g other now => (by cases now), ?_, written⟩
    rintro flushed timeout (now | now) <;> cases now
  | stopped settled =>
    refine ⟨fun unasked => (by cases unasked), fun g other now => (by cases now), ?_, written⟩
    rintro flushed timeout (now | now) <;> cases now
  | answered => exact beside rfl fun unasked => (h.unasked unasked).imp_right (.imp_right task)
  | lost => exact beside rfl fun unasked => (h.unasked unasked).imp_right (.imp_right task)
  | signalled => exact beside rfl fun unasked => (h.unasked unasked).imp_right (.imp_right task)

theorem asks_run {ok : Session κ φ → SessionStep κ φ → Prop}
    (run : Run (step client) ok .new ls s) : Asks ls s := by
  induction run with
  | start => exact asks_initial
  | snoc _ _ taken ih => exact asks_step ih taken

theorem settles_of_returned {ok : Session κ φ → SessionStep κ φ → Prop} {w : Session κ φ}
    {result : Except SparkplugError Unit} (run : Run (step client) ok w ls s)
    (uncalled : w.shutdown = .uncalled)
    (chosen : s.shutdown = .settled result ∨ s.shutdown = .returned result) :
    ∃ before l after u v flushed timeout, ls = before ++ l :: after ∧
      Run (step client) ok w before u ∧ step client u l = some v ∧
      Run (step client) ok v after s ∧
      (u.shutdown = .requesting flushed timeout ∨ u.shutdown = .waiting flushed timeout) ∧
      v.shutdown = .settled result := by
  induction run with
  | start =>
    rw [uncalled] at chosen
    rcases chosen with now | now <;> cases now
  | @snoc s t ls l run promise taken ih =>
    have earlier (chosen : s.shutdown = .settled result ∨ s.shutdown = .returned result) :
        ∃ before l' after u v flushed timeout, ls ++ [l] = before ++ l' :: after ∧
          Run (step client) ok w before u ∧ step client u l' = some v ∧
          Run (step client) ok v after t ∧
          (u.shutdown = .requesting flushed timeout ∨ u.shutdown = .waiting flushed timeout) ∧
          v.shutdown = .settled result := by
      obtain ⟨before, l', after, u, v, flushed, timeout, rfl, first, moved, second, asks, now⟩ :=
        ih chosen
      exact ⟨before, l', after ++ [l], u, v, flushed, timeout, by simp, first, moved,
        second.snoc promise taken, asks, now⟩
    cases moves_of_step taken with
    | @polled event =>
      refine earlier ?_
      cases event <;> exact chosen
    | @settled l flushed disconnected timeout learns ends =>
      rcases chosen with now | now <;> cases now
      exact ⟨ls, l, [], s, _, flushed, timeout, rfl, run, taken, .start _, ends, rfl⟩
    | stopped settled =>
      rcases chosen with now | now <;> cases now
      exact earlier (.inl settled)
    | opened => rcases chosen with now | now <;> cases now
    | flushed => rcases chosen with now | now <;> cases now
    | requested => rcases chosen with now | now <;> cases now
    | _ => exact earlier chosen

theorem choice_of_step {u v : Session κ φ} {flushed result : Except SparkplugError Unit}
    {timeout : Duration} (taken : step client u l = some v)
    (asks : u.shutdown = .requesting flushed timeout ∨ u.shutdown = .waiting flushed timeout)
    (chosen : v.shutdown = .settled result) :
    (l = .elapse ∧ result = shutdownOutcome flushed .unconfirmed timeout) ∨
    (l = .down ∧ u.health = .disconnected ∧
      result = shutdownOutcome flushed .written timeout) ∨
    ∃ error, l = .refuse error ∧ u.shutdown.asked = false ∧ u.task ≠ .running ∧
      v = u.settle flushed (.refused error) timeout ∧
      result = shutdownOutcome flushed (.refused error) timeout := by
  have unchosen : u.shutdown ≠ .settled result := by
    intro now
    rw [now] at asks
    rcases asks with phase | phase <;> cases phase
  cases moves_of_step taken with
  | @polled event => cases event <;> exact absurd chosen unchosen
  | @settled l flushed' disconnected timeout' learns ends =>
    have same : flushed' = flushed ∧ timeout' = timeout := by
      rcases ends with now | now <;> rcases asks with phase | phase <;> rw [phase] at now <;>
        cases now <;> exact ⟨rfl, rfl⟩
    obtain ⟨rfl, rfl⟩ := same
    cases chosen
    rcases learns with ⟨rfl, rfl⟩ | ⟨rfl, rfl⟩ | ⟨error, rfl, rfl⟩
    · exact .inl ⟨rfl, rfl⟩
    · rcases asks with phase | phase <;> simp only [step, phase] at taken
      · cases taken
      · exact .inr (.inl ⟨rfl, (Option.ite_none_right_eq_some.mp taken).1, rfl⟩)
    · rcases asks with phase | phase <;> simp only [step, phase] at taken
      · have gone := (Option.ite_none_left_eq_some.mp taken).1
        exact .inr (.inr ⟨error, rfl, by rw [phase]; rfl, gone, rfl, rfl⟩)
      · cases taken
  | opened => cases chosen
  | flushed => cases chosen
  | requested => cases chosen
  | stopped => cases chosen
  | _ => exact absurd chosen unchosen

/-- `shutdown` has taken the client: nothing is left that can take a step. -/
theorem returned_is_final {ok : Session κ φ → SessionStep κ φ → Prop}
    {result : Except SparkplugError Unit} (run : Run (step client) ok .new ls s)
    (returned : s.shutdown = .returned result) (l : SessionStep κ φ) : step client s l = none := by
  have stopped : ∀ result, s.shutdown = .returned result → s.task = .aborted := by
    refine run.invariant (P := fun s => ∀ result, s.shutdown = .returned result →
      s.task = .aborted) (fun result now => (by cases now)) fun s l t _ h _ taken result now => ?_
    cases moves_of_step taken with
    | @polled event => cases event <;> exact h result now
    | panicked =>
      obtain ⟨alive, -⟩ := Option.ite_none_right_eq_some.mp taken
      rw [h result now] at alive
      cases alive
    | stopped => rfl
    | opened => cases now
    | flushed => cases now
    | requested => cases now
    | settled => cases now
    | _ => exact h result now
  have gone := stopped result returned
  cases l with
  | call l => simp [step, returned, Shutdown.admits]
  | apply =>
    simp only [step, gone]
    split <;> simp
  | _ => simp [step, polling, gone, returned]

theorem unwritten_after {ok : Session κ φ → SessionStep κ φ → Prop} {u : Session κ φ}
    (run : Run (step client) ok u ls s) (dead : u.task ≠ .running)
    (unwritten : u.disconnectWritten = false) : s.disconnectWritten = false := by
  have kept : s.task ≠ .running ∧ s.disconnectWritten = false := by
    refine run.invariant (P := fun s => s.task ≠ .running ∧ s.disconnectWritten = false)
      ⟨dead, unwritten⟩ fun s l t _ h _ taken => ?_
    cases moves_of_step taken with
    | closed =>
      obtain ⟨guard, -⟩ := Option.ite_none_right_eq_some.mp taken
      have alive : s.task = .running := by
        simpa [polling] using (Bool.and_eq_true_iff.mp (Bool.and_eq_true_iff.mp guard).1).1
      exact absurd alive h.1
    | @polled event => cases event <;> exact h
    | panicked => exact ⟨nofun, h.2⟩
    | stopped => exact ⟨nofun, h.2⟩
    | _ => exact h
  exact kept.2

/-- What the answer of `shutdown` says, whatever the loop, the broker and the other calls did:
the flush comes first, a refusal means that the loop is gone, and Ok behind it that the last
event the signal knew of was the written DISCONNECT or a lost link. -/
theorem shutdown_reports {ok : Session κ φ → SessionStep κ φ → Prop}
    {result : Except SparkplugError Unit} (run : Run (step client) ok .new ls s)
    (returned : s.shutdown = .returned result) :
    (∀ l, step client s l = none) ∧ ∃ f timeout flushed, .shutdown f timeout ∈ ls ∧
      s.client.delivery.flush f = .returned flushed ∧
      ((∃ error, flushed = .error error ∧ result = .error error) ∨ flushed = .ok () ∧
        ((result = .error (.shutdownTimeout timeout) ∧ .elapse ∈ ls) ∨
        (∃ error, result = .error (.disconnect error) ∧ .panic ∈ ls ∧
          s.disconnectWritten = false) ∨
        (result = .ok () ∧ ∃ before after known, ls = before ++ .down :: after ∧
          known <+: polled before ∧ (polled before).length ≤ known.length + 1 ∧
          ∀ event, (known.filter movesHealth).getLast? = some event →
            losesLink event = true ∨
            isWrittenDisconnect event = true ∧ s.disconnectWritten = true))) := by
  refine ⟨returned_is_final run returned, ?_⟩
  obtain ⟨before, l, after, u, v, flushed, timeout, rfl, first, taken, second, asks, chosen⟩ :=
    settles_of_returned run rfl (.inr returned)
  have known := asks_run first
  obtain ⟨f, called, answered⟩ := known.flushed flushed timeout asks
  have kept : s.client.delivery.flush f = .returned flushed := by
    refine second.invariant (P := fun s => s.client.delivery.flush f = .returned flushed)
      (returned_kept (moves_of_step taken) answered) fun _ _ _ _ h _ taken => ?_
    exact returned_kept (moves_of_step taken) h
  refine ⟨f, timeout, flushed, List.mem_append_left _ called, kept, ?_⟩
  cases flushed with
  | error error =>
    refine .inl ⟨error, rfl, ?_⟩
    rcases choice_of_step taken asks chosen with ⟨-, now⟩ | ⟨-, -, now⟩ | ⟨_, -, -, -, -, now⟩
    all_goals exact now
  | ok _ =>
    refine .inr ⟨rfl, ?_⟩
    rcases choice_of_step taken asks chosen with ⟨rfl, now⟩ | ⟨rfl, down, now⟩ |
      ⟨error, -, unasked, dead, rfl, now⟩
    · exact .inl ⟨now, by simp⟩
    · obtain ⟨earlier, last, done, follows⟩ := follows_run first
      obtain ⟨heard, inside, close, signal⟩ := follows.known
      refine .inr (.inr ⟨now, before, after, heard, rfl, inside, close, fun event final => ?_⟩)
      refine (last_of_disconnected (signal.symm.trans down) final).imp_right fun sent => ?_
      have member := List.mem_of_mem_filter (List.mem_of_getLast? final)
      have written := known.written event (inside.subset member) sent
      refine ⟨sent, second.invariant (P := fun s => s.disconnectWritten = true)
        (disconnectWritten_kept (moves_of_step taken) written) fun _ _ _ _ h _ taken => ?_⟩
      exact disconnectWritten_kept (moves_of_step taken) h
    · obtain ⟨unwritten, -, alive⟩ := known.unasked unasked
      refine .inr (.inl ⟨error, now, ?_, unwritten_after second dead unwritten⟩)
      exact List.mem_append_left _ (alive.resolve_left dead)

end Asking

/-- The loop has written the DISCONNECT and has reported it when `shutdown` returns. -/
theorem shutdown_reports_small : ∃ s : Session Nat Nat,
    Run (step plantClient) (Obeys []) .new
      [.poll .connAck, .apply, .shutdown 0 5, .call (.event (.drain 0)),
        .call (.event (.close 0)), .flushed, .request, .write 0, .poll .disconnectSent, .apply,
        .down, .stop] s ∧
    s.shutdown = .returned (.ok ()) ∧ ∀ l, step plantClient s l = none := by
  obtain ⟨s, h, returned⟩ : ∃ s : Session Nat Nat, exec (step plantClient) [] .new
      [.poll .connAck, .apply, .shutdown 0 5, .call (.event (.drain 0)),
        .call (.event (.close 0)), .flushed, .request, .write 0, .poll .disconnectSent, .apply,
        .down, .stop] = some s ∧ s.shutdown = .returned (.ok ()) := ⟨_, rfl, rfl⟩
  have run := Run.of_exec h
  exact ⟨s, run, returned, (shutdown_reports run returned).1⟩

end Session

def Delivery.Flush.awaited : Delivery.Flush → Bool
  | .waiting _ _ | .drained _ | .returned _ => true
  | _ => false

def Delivery.Flush.left : Delivery.Flush → Nat
  | .waiting _ _ => 2
  | .drained _ => 1
  | _ => 0

/-- The steps of `shutdown` behind its call. All others are the loop's. -/
def SessionStep.closes : SessionStep κ φ → Bool
  | .call _ | .flushed | .request | .refuse _ | .elapse | .down | .stop => true
  | _ => false

namespace Session

def left (s : Session κ φ) : Nat :=
  match s.shutdown with
  | .uncalled => 7
  | .flushing f _ => (s.client.delivery.flush f).left + 4
  | .requesting _ _ => 3
  | .waiting _ _ => 2
  | .settled _ => 1
  | .returned _ => 0

structure Closes (s : Session κ φ) : Prop where
  called : s.shutdown ≠ .uncalled
  awaited : ∀ f timeout, s.shutdown = .flushing f timeout →
    (s.client.delivery.flush f).awaited = true

section Ending

variable [DecidableEq κ] [DecidableEq φ] {client : Client} {s t : Session κ φ}
  {l : SessionStep κ φ} {ls : List (SessionStep κ φ)}

theorem flush_of_admits {f : φ} {timeout : Duration} {l : Label κ φ} {next : Sys κ φ}
    (admitted : (Shutdown.flushing f timeout).admits l = true)
    (taken : Sys.step client s.client l = some next) :
    (next.delivery.flush f).awaited = true ∧
      (next.delivery.flush f).left + 1 ≤ (s.client.delivery.flush f).left := by
  cases l with
  | event dl =>
    obtain ⟨delivery, inner, rfl⟩ := delivery_of_event taken
    cases dl with
    | drain g =>
      obtain rfl : g = f := by simpa [Shutdown.admits] using admitted
      obtain ⟨_, _, waits, -, rfl⟩ := Delivery.Sys.step_drain.mp inner
      simp [waits, Delivery.Flush.awaited, Delivery.Flush.left]
    | close g =>
      obtain rfl : g = f := by simpa [Shutdown.admits] using admitted
      obtain ⟨_, drains, rfl⟩ := Delivery.Sys.step_close.mp inner
      simp [drains, Delivery.Flush.awaited, Delivery.Flush.left]
    | timeOut g =>
      obtain rfl : g = f := by simpa [Shutdown.admits] using admitted
      obtain ⟨_, _, waits, rfl⟩ := Delivery.Sys.step_timeOut.mp inner
      simp [waits, Delivery.Flush.awaited, Delivery.Flush.left]
    | _ => cases admitted
  | _ => cases admitted

theorem closes_of_open {f : φ} {timeout : Duration}
    (taken : step client s (.shutdown f timeout) = some t) : Closes t ∧ t.left = 6 := by
  cases moves_of_step taken with
  | opened uncalled inner =>
    obtain ⟨-, rfl⟩ := Delivery.Sys.step_openFlush.mp inner
    refine ⟨⟨nofun, fun g other now => ?_⟩, ?_⟩
    · cases now
      simp [Delivery.Flush.awaited]
    · simp [left, Delivery.Flush.left]
  | settled learns => rcases learns with ⟨now, -⟩ | ⟨now, -⟩ | ⟨_, now, -⟩ <;> cases now

/-- Every step of `shutdown` brings it nearer to its end, and the loop cannot set it back. -/
theorem closes_step (h : Closes s) (moves : Moves client s l t) :
    Closes t ∧ t.left + (if l.closes then 1 else 0) ≤ s.left := by
  have beside (phase : t.shutdown = s.shutdown)
      (flush : t.client.delivery.flush = s.client.delivery.flush) (other : l.closes = false) :
      Closes t ∧ t.left + (if l.closes then 1 else 0) ≤ s.left := by
    refine ⟨⟨by rw [phase]; exact h.called, ?_⟩, ?_⟩
    · rw [phase, flush]
      exact h.awaited
    · simp [left, phase, flush, other]
  have apart {phase : Shutdown φ} (now : t.shutdown = phase) (called : phase ≠ .uncalled)
      (behind : ∀ f timeout, phase ≠ .flushing f timeout) : Closes t := by
    refine ⟨by rw [now]; exact called, fun f timeout flushing => ?_⟩
    exact absurd (now.symm.trans flushing) (behind f timeout)
  cases moves with
  | @called l next admitted inner =>
    cases phase : s.shutdown with
    | uncalled => exact absurd phase h.called
    | flushing f timeout =>
      rw [phase] at admitted
      obtain ⟨awaited, less⟩ := flush_of_admits admitted inner
      refine ⟨⟨nofun, fun g other flushing => ?_⟩, ?_⟩
      · cases flushing
        exact awaited
      · simp only [left, phase, SessionStep.closes, if_true]
        omega
    | _ => rw [phase] at admitted; cases admitted
  | @polled event => cases event <;> exact beside rfl rfl rfl
  | answered todo answers inner => cases Option.some.inj inner; exact beside rfl rfl rfl
  | lost todo inner => cases Option.some.inj inner; exact beside rfl rfl rfl
  | opened uncalled => exact absurd uncalled h.called
  | @flushed f timeout result flushing returned =>
    refine ⟨apart rfl nofun nofun, ?_⟩
    simp [left, flushing, SessionStep.closes]
  | requested requests =>
    refine ⟨apart rfl nofun nofun, ?_⟩
    simp [left, requests, SessionStep.closes]
  | settled learns ends =>
    refine ⟨apart rfl nofun nofun, ?_⟩
    rcases ends with now | now <;> rcases learns with ⟨rfl, -⟩ | ⟨rfl, -⟩ | ⟨_, rfl, -⟩ <;>
      simp [left, settle, now, SessionStep.closes]
  | stopped settled =>
    refine ⟨apart rfl nofun nofun, ?_⟩
    simp [left, settled, SessionStep.closes]
  | _ => exact beside rfl rfl rfl

theorem closes_on (h : Closes s) (running : ∀ result, s.shutdown ≠ .returned result) :
    ∃ l t, l.closes = true ∧ step client s l = some t := by
  cases phase : s.shutdown with
  | uncalled => exact absurd phase h.called
  | flushing f timeout =>
    have awaited := h.awaited f timeout phase
    have moves {dl : Delivery.Label (κ × Nat) φ} {next : Delivery.Sys (κ × Nat) φ}
        (admitted : (Shutdown.flushing f timeout).admits (.event dl : Label κ φ) = true)
        (inner : s.client.delivery.step dl = some next) :
        ∃ l t, l.closes = true ∧ step client s l = some t := by
      have outside : dl.isEvent = true := by cases dl <;> first | rfl | cases admitted
      have taken : Sys.step client s.client (.event dl) =
          some { s.client with delivery := next } := Sys.step_of_moves (.happened outside inner)
      refine ⟨.call (.event dl), ?_⟩
      simp [step, takes, phase, admitted, taken, SessionStep.closes]
    cases flush : s.client.delivery.flush f with
    | idle => rw [flush] at awaited; cases awaited
    | waiting deadline openedAt =>
      exact moves (by simp [Shutdown.admits]) (Delivery.Sys.step_timeOut.mpr ⟨_, _, flush, rfl⟩)
    | drained openedAt =>
      exact moves (by simp [Shutdown.admits]) (Delivery.Sys.step_close.mpr ⟨_, flush, rfl⟩)
    | returned result => exact ⟨.flushed, _, rfl, by simp [step, phase, flush]; rfl⟩
    | cancelled => rw [flush] at awaited; cases awaited
  | requesting flushed timeout => exact ⟨.elapse, _, rfl, by simp [step, phase]; rfl⟩
  | waiting flushed timeout =>
    by_cases down : s.health = .disconnected
    · exact ⟨.down, _, rfl, by simp [step, phase, down]; rfl⟩
    · exact ⟨.elapse, _, rfl, by simp [step, phase, down]; rfl⟩
  | settled result => exact ⟨.stop, _, rfl, by simp [step, phase]; rfl⟩
  | returned result => exact absurd phase (running result)

/-- Behind its call `shutdown` takes six steps at most, and until it has returned a step of its
own is open to it, whatever the loop does and also where the loop is gone. -/
theorem shutdown_ends {ok : Session κ φ → SessionStep κ φ → Prop}
    {before after : List (SessionStep κ φ)} {f : φ} {timeout : Duration}
    (run : Run (step client) ok .new (before ++ .shutdown f timeout :: after) s) :
    (after.filter SessionStep.closes).length + s.left ≤ 6 ∧
    ((∃ result, s.shutdown = .returned result) ∨
      ∃ l t, l.closes = true ∧ step client s l = some t) := by
  obtain ⟨u, -, second⟩ := run.split
  obtain ⟨v, -, taken, rest⟩ := second.of_cons
  obtain ⟨opened, six⟩ := closes_of_open taken
  obtain ⟨closes, bound⟩ := rest.ranked left SessionStep.closes opened
    fun _ _ _ h _ taken => closes_step h (moves_of_step taken)
  refine ⟨six ▸ bound, ?_⟩
  by_cases returned : ∃ result, s.shutdown = .returned result
  · exact .inl returned
  · exact .inr (closes_on closes fun result now => returned ⟨result, now⟩)

end Ending

/-- The loop is gone before `shutdown` has sent its request. -/
theorem shutdown_ends_small : ∃ s : Session Nat Nat,
    Run (step plantClient) (Obeys []) .new
      ([.poll .connAck, .apply] ++ .shutdown 0 5 :: [.call (.event (.drain 0)), .panic,
        .call (.event (.close 0)), .flushed]) s ∧
    s.shutdown = .requesting (.ok ()) 5 ∧
    ((∃ result, s.shutdown = .returned result) ∨
      ∃ l t, l.closes = true ∧ step plantClient s l = some t) := by
  obtain ⟨s, h, requests⟩ : ∃ s : Session Nat Nat, exec (step plantClient) [] .new
      ([.poll .connAck, .apply] ++ .shutdown 0 5 :: [.call (.event (.drain 0)), .panic,
        .call (.event (.close 0)), .flushed]) = some s ∧
      s.shutdown = .requesting (.ok ()) 5 := ⟨_, rfl, rfl⟩
  have run := Run.of_exec h
  exact ⟨s, run, requests, (shutdown_ends run).2⟩

end Session

end Sparkplug
