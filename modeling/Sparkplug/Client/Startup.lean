import Sparkplug.Client.Connect

/-! How `connect_with` ends beside its loop, and how the loop waits out a broker that is not
there. -/
namespace Sparkplug

open EventLoop Transition

variable {ε : Type}

namespace EventLoop

def isFailure : Polled ε → Bool
  | .ok _ => false
  | .error _ => true

/-- Any event but a Disconnect of the broker ends a row of errors. -/
def resets : Polled ε → Bool
  | .ok (.incoming packet) => packet != .disconnect
  | .ok (.outgoing _) => true
  | .error _ => false

/-- The errors since the event that ended the row before them. -/
def failures (script : List (Polled ε)) : Nat :=
  (script.reverse.takeWhile fun event => !resets event).countP isFailure

theorem failures_concat (script : List (Polled ε)) (event : Polled ε) :
    failures (script ++ [event]) =
      if resets event then 0 else failures script + if isFailure event then 1 else 0 := by
  unfold failures
  rw [List.reverse_concat]
  cases reset : resets event with
  | true => simp [reset]
  | false => simp [reset, List.countP_cons]

namespace Loop

theorem turn_errors (l : Loop) (event : Polled ε) : (l.turn event).consecutiveErrors =
    if resets event then 0 else l.consecutiveErrors + if isFailure event then 1 else 0 := by
  rcases event with e | (_ | _ | _ | _) | (_ | _) <;> simp [turn, resets, isFailure]

theorem turn_sleeps (l : Loop) (event : Polled ε) (time : Duration) :
    (l.turn event).calls.count (.sleep time) = l.calls.count (.sleep time) +
      if isFailure event ∧ errorBackoff = time then 1 else 0 := by
  rcases event with e | (_ | _ | _ | _) | (_ | _) <;>
    cases h : l.ready <;>
    simp [turn, h, applyEvent, applyHealth, isFailure, List.count_cons]

theorem turn_failure (l : Loop) (e : ε) : (l.turn (.error e)).calls = l.calls ++
    [.recordDisconnect, .sendReplace .disconnected,
      .log (if maxConsecutiveErrors ≤ l.consecutiveErrors + 1 then .error else .warn),
      .sleep errorBackoff] := by
  simp [turn, applyEvent, applyHealth]

theorem run_errors (script : List (Polled ε)) :
    (run script).consecutiveErrors = UInt32.ofNat (failures script) := by
  induction script using List.reverseRecOn with
  | nil => rfl
  | append_singleton before event ih =>
    rw [run_concat, turn_errors, failures_concat, ih]
    split
    · rfl
    · rw [UInt32.ofNat_add]
      split <;> rfl

end Loop

/-- Each poll error costs one pause of the same length and nothing else does, and the log turns
to errors at the fifth in a row, which a Disconnect of the broker does not end. -/
theorem backoff_follows_failures (script : List (Polled ε)) :
    (∀ time, (Loop.run script).calls.count (.sleep time) =
      if errorBackoff = time then script.countP isFailure else 0) ∧
    ∀ before e after, script = before ++ .error e :: after → ∃ rest,
      (Loop.run script).calls = (Loop.run before).calls ++ ([.recordDisconnect,
        .sendReplace .disconnected,
        .log (if 5 ≤ (failures before + 1) % 2 ^ 32 then .error else .warn),
        .sleep errorBackoff] ++ rest) := by
  refine ⟨fun time => ?_, ?_⟩
  · induction script using List.reverseRecOn with
    | nil => simp [Loop.run, Loop.start]
    | append_singleton before event ih =>
      rw [Loop.run_concat, Loop.turn_sleeps, ih, List.countP_append, List.countP_singleton]
      by_cases pause : errorBackoff = time <;> simp [pause]
  · rintro before e after rfl
    obtain ⟨rest, calls⟩ := Loop.run_calls before after (.error e)
    refine ⟨rest, ?_⟩
    have level : maxConsecutiveErrors ≤ UInt32.ofNat (failures before) + 1 ↔
        5 ≤ (failures before + 1) % 2 ^ 32 := by
      rw [UInt32.le_iff_toNat_le, ← UInt32.ofNat_one, ← UInt32.ofNat_add, UInt32.toNat_ofNat']
      rfl
    rw [calls, Loop.turn_failure, Loop.run_errors, List.append_assoc]
    simp only [level]

end EventLoop

def ConnectStep.ends : ConnectStep ε → Bool
  | .answer | .elapse => true
  | _ => false

/-- What the receiver of the oneshot channel can learn from these steps. -/
def Signals (ls : List (ConnectStep ε)) : Prop :=
  .panic ∈ ls ∨ ∃ ack, .event ack ∈ ls ∧ isConnAck ack = true

namespace Connecting

variable {client : Client} {timeout : Duration} {s t : Connecting} {l : ConnectStep ε}
  {ok : Connecting → ConnectStep ε → Prop} {ls : List (ConnectStep ε)}

theorem acked_iff (ls : List (ConnectStep ε)) :
    (ls.filterMap ConnectStep.polled).any isConnAck = true ↔
      ∃ ack, .event ack ∈ ls ∧ isConnAck ack = true := by
  rw [List.any_eq_true]
  constructor
  · rintro ⟨ack, member, first⟩
    obtain ⟨l, among, same⟩ := List.mem_filterMap.mp member
    cases l with
    | event polled =>
      cases same
      exact ⟨ack, among, first⟩
    | _ => cases same
  · rintro ⟨ack, member, first⟩
    exact ⟨ack, List.mem_filterMap.mpr ⟨.event ack, member, rfl⟩, first⟩

theorem quiet_concat (quiet : ∀ l ∈ ls, l.ends = false) (final : l.ends = false) :
    ∀ l' ∈ ls ++ [l], l'.ends = false :=
  List.forall_mem_append.mpr ⟨quiet, List.forall_mem_singleton.mpr final⟩

theorem running_of_waiting (run : Run (step client timeout) ok start ls s)
    (waits : s.result = none) : (s.task = .running ↔ .panic ∉ ls) ∧ ∀ l ∈ ls, l.ends = false := by
  induction run with
  | start => exact ⟨⟨fun _ => List.not_mem_nil, fun _ => rfl⟩, by simp⟩
  | snoc _ _ taken ih =>
    rcases step_cases taken with ⟨_, rfl, rfl⟩ | ⟨rfl, rfl⟩ | ⟨rfl, -, -, rfl⟩ | ⟨rfl, -, rfl⟩
    · obtain ⟨task, quiet⟩ := ih waits
      exact ⟨by simpa using task, quiet_concat quiet rfl⟩
    · obtain ⟨-, quiet⟩ := ih waits
      exact ⟨by simp, quiet_concat quiet rfl⟩
    · cases waits
    · cases waits

theorem answers_iff (run : Run (step client timeout) ok start ls s) (waits : s.result = none) :
    s.answers = true ↔ Signals ls := by
  have task := (running_of_waiting run waits).1
  have sent : s.loop.calls.contains .sendReady = true ↔
      ∃ ack, .event ack ∈ ls ∧ isConnAck ack = true := by
    rw [List.contains_iff_mem, ← List.count_pos_iff, loop_of_run run, Loop.run_sent,
      ← acked_iff]
    split <;> simp_all
  rw [answers, Bool.or_eq_true, sent, bne_iff_ne, ne_eq, task, not_not, Signals, Or.comm]

theorem quiet_step (taken : step client timeout s l = some t) (quiet : l.ends = false) :
    s.task = .running ∧ t.result = s.result := by
  cases l with
  | answer => cases quiet
  | elapse => cases quiet
  | event polled =>
    obtain ⟨alive, now⟩ := Option.ite_none_right_eq_some.mp taken
    cases now
    exact ⟨alive, rfl⟩
  | panic =>
    obtain ⟨alive, now⟩ := Option.ite_none_right_eq_some.mp taken
    cases now
    exact ⟨alive, rfl⟩

theorem ending_step (taken : step client timeout s l = some t) (final : l.ends = true) :
    s.result = none ∧
    ((l = .answer ∧ s.answers = true ∧ t.result = some (.ok client)) ∨
      (l = .elapse ∧ s.answers = false ∧ t.task = .aborted ∧
        t.result = some (.error (.connectionTimeout timeout)))) := by
  cases l with
  | answer =>
    obtain ⟨guard, now⟩ := Option.ite_none_right_eq_some.mp taken
    cases now
    simp only [Bool.and_eq_true, Option.isNone_iff_eq_none] at guard
    exact ⟨guard.1, .inl ⟨rfl, guard.2, rfl⟩⟩
  | elapse =>
    obtain ⟨guard, now⟩ := Option.ite_none_right_eq_some.mp taken
    cases now
    simp only [Bool.and_eq_true, Option.isNone_iff_eq_none, Bool.not_eq_true'] at guard
    exact ⟨guard.1, .inr ⟨rfl, guard.2, rfl, rfl⟩⟩
  | _ => cases final

/-- Where `connect_with` has not returned, no step has ended it. Else the first of them did, on
what the receiver had learned before it, and behind a timeout the loop does nothing more. -/
theorem ends_run (run : Run (step client timeout) ok start ls s) :
    (s.result = none ∧ ∀ l ∈ ls, l.ends = false) ∨
    (s.result = some (.ok client) ∧ ∃ before after, ls = before ++ .answer :: after ∧
      (∀ l ∈ before ++ after, l.ends = false) ∧ Signals before) ∨
    (s.result = some (.error (.connectionTimeout timeout)) ∧ s.task = .aborted ∧
      ∃ before, ls = before ++ [.elapse] ∧ (∀ l ∈ before, l.ends = false) ∧
        ¬ Signals before) := by
  induction run with
  | start => exact .inl ⟨rfl, by simp⟩
  | @snoc s t ls l run promise taken ih =>
    cases final : l.ends with
    | false =>
      obtain ⟨alive, same⟩ := quiet_step taken final
      rcases ih with ⟨waits, quiet⟩ | ⟨returned, before, after, rfl, quiet, signals⟩ |
        ⟨-, gone, -⟩
      · exact .inl ⟨same.trans waits, quiet_concat quiet final⟩
      · refine .inr (.inl ⟨same.trans returned, before, after ++ [l], by simp, ?_, signals⟩)
        rw [← List.append_assoc]
        exact quiet_concat quiet final
      · rw [gone] at alive
        cases alive
    | true =>
      obtain ⟨waits, ends⟩ := ending_step taken final
      have learned := answers_iff run waits
      have quiet := (running_of_waiting run waits).2
      rcases ends with ⟨rfl, answers, returned⟩ | ⟨rfl, silent, gone, returned⟩
      · exact .inr (.inl ⟨returned, ls, [], rfl, by simpa using quiet, learned.mp answers⟩)
      · refine .inr (.inr ⟨returned, gone, ls, rfl, quiet, fun signals => ?_⟩)
        rw [learned.mpr signals] at silent
        cases silent

end Connecting

/-- All that `connect_with` can answer: the check of the namespace comes first; Ok means that a
ConnAck came in, or that the loop is gone; and the deadline that neither did. The schedule ends
with the deadline, because the loop is aborted with it. -/
theorem connect_ends {version : String} {identity : Identity} {timeout : Duration}
    {schedule : List (ConnectStep ε)} {result : Except SparkplugError Client}
    (returned : connectWith version identity timeout schedule = some result) :
    (isUsableSegment version = false ∧ result = .error (.invalidNamespace version)) ∨
    ∃ ns, Namespace.new version = .ok ns ∧
      ((result = .ok ⟨ns, identity⟩ ∧ ∃ before after, schedule = before ++ .answer :: after ∧
          (∀ l ∈ before ++ after, l.ends = false) ∧ Signals before) ∨
        (result = .error (.connectionTimeout timeout) ∧ ∃ before,
          schedule = before ++ [.elapse] ∧ (∀ l ∈ before, l.ends = false) ∧
          ¬ Signals before)) := by
  unfold connectWith at returned
  cases checked : Namespace.new version with
  | error e =>
    rw [checked] at returned
    cases returned
    unfold Namespace.new at checked
    split at checked
    · cases checked
    · rename_i unusable
      cases checked
      exact .inl ⟨by simpa using unusable, rfl⟩
  | ok ns =>
    rw [checked] at returned
    obtain ⟨s, steps, chosen⟩ := Option.bind_eq_some_iff.mp returned
    refine .inr ⟨ns, rfl, ?_⟩
    rcases Connecting.ends_run (Run.of_exec steps) with ⟨waits, -⟩ | ⟨answered, ends⟩ |
      ⟨late, -, ends⟩
    · cases waits.symm.trans chosen
    · cases answered.symm.trans chosen
      exact .inl ⟨rfl, ends⟩
    · cases late.symm.trans chosen
      exact .inr ⟨rfl, ends⟩

/-- The loop task panics before a ConnAck, and `connect_with` returns a client all the same. -/
theorem connect_ends_small :
    connectWith "spBv1.0" .publisher 5 ([.event (.error ()), .panic, .answer] :
      List (ConnectStep Unit)) = some (.ok ⟨.sparkplugB, .publisher⟩) ∧
    ∃ before, Signals (ε := Unit) before ∧ ∀ l ∈ before, l.ends = false := by
  have returned : connectWith "spBv1.0" .publisher 5 ([.event (.error ()), .panic, .answer] :
      List (ConnectStep Unit)) = some (.ok ⟨.sparkplugB, .publisher⟩) := rfl
  rcases connect_ends returned with ⟨-, now⟩ | ⟨ns, -, ⟨-, before, after, -, quiet, signals⟩ |
    ⟨now, -⟩⟩
  · cases now
  · exact ⟨returned, before, signals, fun l member => quiet l (List.mem_append_left _ member)⟩
  · cases now

end Sparkplug
