import Sparkplug.Client.Operation
import Sparkplug.EventLoop
import Sparkplug.Transition

/-! `connect_with` of src/sparkplug/client.rs beside the loop task it starts. The oneshot
channel between them answers when the loop has sent the signal, and also when the task is
gone and has dropped the sender. -/
namespace Sparkplug

open EventLoop Transition

inductive Task where
  | running
  | panicked
  | aborted
  deriving DecidableEq, Repr

/-- One step of the loop task, or of the `timeout(timeout, rx)` that waits for it. -/
inductive ConnectStep (ε : Type) where
  | event (polled : Polled ε)
  | panic
  | answer
  | elapse

structure Connecting where
  loop : Loop
  task : Task
  result : Option (Except SparkplugError Client)

variable {ε : Type}

namespace Connecting

def start : Connecting := ⟨.start, .running, none⟩

/-- What the receiver finds: a value, or no sender any more. -/
def answers (s : Connecting) : Bool := s.loop.calls.contains .sendReady || s.task != .running

def step (client : Client) (timeout : Duration) (s : Connecting) :
    ConnectStep ε → Option Connecting
  | .event polled =>
    if s.task = .running then some { s with loop := s.loop.turn polled } else none
  | .panic => if s.task = .running then some { s with task := .panicked } else none
  | .answer =>
    if s.result.isNone && s.answers then some { s with result := some (.ok client) } else none
  | .elapse =>
    -- A timeout polls what it wraps before it looks at the clock.
    if s.result.isNone && !s.answers then
      some { s with task := .aborted, result := some (.error (.connectionTimeout timeout)) }
    else none

end Connecting

/-- What `connect_with` has returned after a schedule of its steps, if anything. -/
def connectWith (version : String) (identity : Identity) (timeout : Duration)
    (schedule : List (ConnectStep ε)) : Option (Except SparkplugError Client) :=
  match Namespace.new version with
  | .error e => some (.error e)
  | .ok ns =>
    (exec (Connecting.step ⟨ns, identity⟩ timeout) [] .start schedule).bind Connecting.result

def ConnectStep.polled : ConnectStep ε → Option (Polled ε)
  | .event polled => some polled
  | _ => none

namespace Connecting

variable {client : Client} {timeout : Duration} {s t : Connecting}

theorem step_cases {l : ConnectStep ε} (taken : step client timeout s l = some t) :
    (∃ polled, l = .event polled ∧ t = { s with loop := s.loop.turn polled }) ∨
    (l = .panic ∧ t = { s with task := .panicked }) ∨
    (l = .answer ∧ s.result = none ∧ s.answers = true ∧
      t = { s with result := some (.ok client) }) ∨
    (l = .elapse ∧ s.result = none ∧
      t = { s with task := .aborted, result := some (.error (.connectionTimeout timeout)) }) := by
  cases l with
  | event polled =>
    obtain ⟨-, now⟩ := Option.ite_none_right_eq_some.mp taken
    exact .inl ⟨polled, rfl, (Option.some.inj now).symm⟩
  | panic =>
    obtain ⟨-, now⟩ := Option.ite_none_right_eq_some.mp taken
    exact .inr (.inl ⟨rfl, (Option.some.inj now).symm⟩)
  | answer =>
    obtain ⟨guard, now⟩ := Option.ite_none_right_eq_some.mp taken
    simp only [Bool.and_eq_true, Option.isNone_iff_eq_none] at guard
    exact .inr (.inr (.inl ⟨rfl, guard.1, guard.2, (Option.some.inj now).symm⟩))
  | elapse =>
    obtain ⟨guard, now⟩ := Option.ite_none_right_eq_some.mp taken
    simp only [Bool.and_eq_true, Option.isNone_iff_eq_none] at guard
    exact .inr (.inr (.inr ⟨rfl, guard.1, (Option.some.inj now).symm⟩))

variable {ok : Connecting → ConnectStep ε → Prop} {ls : List (ConnectStep ε)}

theorem loop_of_run (run : Run (step client timeout) ok start ls s) :
    s.loop = Loop.run (ls.filterMap ConnectStep.polled) := by
  induction run with
  | start => rfl
  | snoc before _ taken ih =>
    rw [List.filterMap_append]
    rcases step_cases taken with ⟨polled, rfl, rfl⟩ | ⟨rfl, rfl⟩ | ⟨rfl, -, -, rfl⟩ | ⟨rfl, -, rfl⟩
    · exact (congrArg (Loop.turn · polled) ih).trans (Loop.run_concat _ polled).symm
    all_goals exact ih.trans (congrArg Loop.run (List.append_nil _).symm)

theorem task_of_run (run : Run (step client timeout) ok start ls s) (sane : .panic ∉ ls) :
    s.task = .running ∨ s.result ≠ none := by
  refine run.invariant (P := fun s => s.task = .running ∨ s.result ≠ none) (.inl rfl) ?_
  intro s l t member h _ taken
  rcases step_cases taken with ⟨_, rfl, rfl⟩ | ⟨rfl, rfl⟩ | ⟨rfl, -, -, rfl⟩ | ⟨rfl, -, rfl⟩
  · exact h
  · exact absurd member sane
  all_goals exact .inr nofun

theorem connAck_of_answers (run : Run (step client timeout) ok start ls s)
    (sane : .panic ∉ ls) (waits : s.result = none) (answers : s.answers = true) :
    ∃ ack, .event ack ∈ ls ∧ isConnAck ack = true := by
  have running := (task_of_run run sane).resolve_right (· waits)
  have sent : .sendReady ∈ s.loop.calls := by simpa [Connecting.answers, running] using answers
  rw [loop_of_run run, ← List.count_pos_iff, Loop.run_sent] at sent
  have polled : (ls.filterMap ConnectStep.polled).any isConnAck = true := by
    by_contra none
    rw [if_neg none] at sent
    cases sent
  obtain ⟨ack, member, first⟩ := List.any_eq_true.mp polled
  obtain ⟨l, hl, same⟩ := List.mem_filterMap.mp member
  cases l with
  | event polled =>
    cases same
    exact ⟨ack, hl, first⟩
  | _ => cases same

theorem connected_of_run (run : Run (step client timeout) ok start ls s)
    (sane : .panic ∉ ls) {out : Client} (returned : s.result = some (.ok out)) :
    ∃ before after, ls = before ++ .answer :: after ∧
      ∃ ack, .event ack ∈ before ∧ isConnAck ack = true := by
  induction run with
  | start => cases returned
  | @snoc t u before l run _ taken ih =>
    have earlier : .panic ∉ before := fun member => sane (List.mem_append_left _ member)
    have extend (prior : t.result = some (.ok out)) : ∃ first after,
        before ++ [l] = first ++ .answer :: after ∧
          ∃ ack, .event ack ∈ first ∧ isConnAck ack = true := by
      obtain ⟨first, after, rfl, acked⟩ := ih earlier prior
      exact ⟨first, after ++ [l], by simp, acked⟩
    rcases step_cases taken with ⟨_, rfl, rfl⟩ | ⟨rfl, rfl⟩ | ⟨rfl, waits, answers, rfl⟩ |
      ⟨rfl, -, rfl⟩
    · exact extend returned
    · exact extend returned
    · exact ⟨before, [], rfl, connAck_of_answers run earlier waits answers⟩
    · cases returned

end Connecting

theorem connectWith_connected {version : String} {identity : Identity} {timeout : Duration}
    {schedule : List (ConnectStep ε)} {client : Client} (sane : .panic ∉ schedule)
    (returned : connectWith version identity timeout schedule = some (.ok client)) :
    ∃ before after, schedule = before ++ .answer :: after ∧
      ∃ ack, .event ack ∈ before ∧ isConnAck ack = true := by
  unfold connectWith at returned
  split at returned
  · cases returned
  · obtain ⟨s, steps, returned⟩ := Option.bind_eq_some_iff.mp returned
    exact Connecting.connected_of_run (Run.of_exec steps) sane returned

/-- The three that the loop drives agree with every script, and a connect that returns Ok
beside it has seen its ConnAck. -/
theorem event_loop_faithful : (∀ script : List (Polled ε), Faithful script) ∧
    ∀ (version : String) (identity : Identity) (timeout : Duration)
      (schedule : List (ConnectStep ε)) (client : Client), .panic ∉ schedule →
      connectWith version identity timeout schedule = some (.ok client) →
      ∃ before after, schedule = before ++ .answer :: after ∧
        ∃ ack, .event ack ∈ before ∧ isConnAck ack = true :=
  ⟨run_faithful, fun _ _ _ _ _ sane returned => connectWith_connected sane returned⟩

/-- The first poll fails, the second brings the ConnAck, and the connect returns behind it. -/
theorem event_loop_faithful_small :
    connectWith "spBv1.0" .publisher 5 ([.event (.error ()),
      .event (.ok (.incoming .connAck)), .answer] : List (ConnectStep Unit)) =
      some (.ok ⟨.sparkplugB, .publisher⟩) ∧
    ∃ before after, ([.event (.error ()), .event (.ok (.incoming .connAck)),
        .answer] : List (ConnectStep Unit)) = before ++ .answer :: after ∧
      ∃ ack, .event ack ∈ before ∧ isConnAck ack = true := by
  have returned : connectWith "spBv1.0" .publisher 5 ([.event (.error ()),
      .event (.ok (.incoming .connAck)), .answer] : List (ConnectStep Unit)) =
      some (.ok ⟨.sparkplugB, .publisher⟩) := rfl
  exact ⟨returned, event_loop_faithful.2 _ _ _ _ _ (by simp) returned⟩

end Sparkplug
