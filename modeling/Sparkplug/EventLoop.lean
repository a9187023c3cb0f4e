import Mathlib.Data.List.Induction
import Sparkplug.Delivery.Tracker

/-! The poll loop of src/sparkplug/eventloop.rs. What it does to the tracker, the health
signal and the waiting connect is the list of its calls, in order. -/
namespace Sparkplug.EventLoop

inductive Health where
  | connected
  | disconnected
  deriving DecidableEq, Repr

/-- The packets that a match of the loop names, and all others. -/
inductive Packet where
  | connAck
  | pubAck
  | disconnect
  | other
  deriving DecidableEq, Repr

inductive Outgoing where
  | disconnect
  | other
  deriving DecidableEq, Repr

inductive Event where
  | incoming (packet : Packet)
  | outgoing (request : Outgoing)
  deriving DecidableEq, Repr

/-- What one poll returns. The loop reads nothing from a `ConnectionError` but its text. -/
abbrev Polled (ε : Type) := Except ε Event

inductive Level where
  | info
  | warn
  | error
  deriving DecidableEq, Repr

inductive Call where
  | recordAck
  | recordDisconnect
  | sendReplace (next : Health)
  | log (level : Level)
  | sendReady
  | sleep (time : Duration)
  deriving DecidableEq, Repr

def maxConsecutiveErrors : UInt32 := 5

/-- One second. -/
def errorBackoff : Duration := 1000000000

variable {ε : Type}

def applyEvent : Polled ε → List Call
  | .ok (.incoming .pubAck) => [.recordAck]
  | .ok (.incoming .disconnect) | .error _ => [.recordDisconnect]
  | _ => []

def applyHealth : Polled ε → List Call
  | .ok (.incoming .connAck) => [.sendReplace .connected]
  | .ok (.incoming .disconnect) | .ok (.outgoing .disconnect) | .error _ =>
    [.sendReplace .disconnected]
  | _ => []

structure Loop where
  /-- The sender is still there for the first ConnAck to take. -/
  ready : Bool
  consecutiveErrors : UInt32
  calls : List Call
  deriving DecidableEq, Repr

namespace Loop

def start : Loop := ⟨true, 0, []⟩

def turn (l : Loop) (event : Polled ε) : Loop :=
  let calls := l.calls ++ applyEvent event ++ applyHealth event
  match event with
  | .ok (.incoming .connAck) =>
    { ready := false
      consecutiveErrors := 0
      calls := calls ++ .log .info :: if l.ready then [.sendReady] else [] }
  | .ok (.incoming .disconnect) => { l with calls := calls ++ [.log .warn] }
  | .ok _ => { l with consecutiveErrors := 0, calls := calls }
  | .error _ =>
    let errors := l.consecutiveErrors + 1
    let level := if maxConsecutiveErrors ≤ errors then .error else .warn
    { l with
      consecutiveErrors := errors
      calls := calls ++ [.log level, .sleep errorBackoff] }

def run (script : List (Polled ε)) : Loop := script.foldl turn start

end Loop

section Classes

/- How a script reads without the loop: what each poll result is. -/

def isPubAck : Polled ε → Bool
  | .ok (.incoming .pubAck) => true
  | _ => false

def isConnAck : Polled ε → Bool
  | .ok (.incoming .connAck) => true
  | _ => false

def losesLink : Polled ε → Bool
  | .ok (.incoming packet) => packet == .disconnect
  | .ok (.outgoing _) => false
  | .error _ => true

def isWrittenDisconnect : Polled ε → Bool
  | .ok (.outgoing request) => request == .disconnect
  | _ => false

/-- One of the four kinds that health depends on. -/
def movesHealth (event : Polled ε) : Bool :=
  isConnAck event || losesLink event || isWrittenDisconnect event

/-- The one call that the tracker is to receive for an event. -/
def trackerCall (event : Polled ε) : Option Call :=
  if isPubAck event then some .recordAck
  else if losesLink event then some .recordDisconnect
  else none

end Classes

namespace Call

def isTracker : Call → Bool
  | .recordAck | .recordDisconnect => true
  | _ => false

def onTracker (s : Delivery.State) : Call → Delivery.State
  | .recordAck => s.recordAck
  | .recordDisconnect => s.recordDisconnect
  | _ => s

def onHealth (health : Health) : Call → Health
  | .sendReplace next => next
  | _ => health

end Call

/-- The value of the watch channel, which starts at Disconnected. -/
def Loop.health (l : Loop) : Health := l.calls.foldl Call.onHealth .disconnected

namespace Loop

section Turn

variable (l : Loop) (event : Polled ε)

theorem turn_tracker : (l.turn event).calls.filter Call.isTracker =
    l.calls.filter Call.isTracker ++ (trackerCall event).toList := by
  rcases event with e | (_ | _ | _ | _) | (_ | _) <;>
    cases h : l.ready <;> simp [turn, h, applyEvent, applyHealth, trackerCall, isPubAck,
      losesLink, List.filter_append, List.filter_cons, Call.isTracker]

theorem turn_health : (l.turn event).health =
    if isConnAck event then .connected
    else if losesLink event || isWrittenDisconnect event then .disconnected
    else l.health := by
  rcases event with e | (_ | _ | _ | _) | (_ | _) <;>
    cases h : l.ready <;> simp [turn, h, applyEvent, applyHealth, isConnAck, losesLink,
      isWrittenDisconnect, health, Call.onHealth]

theorem turn_ready : (l.turn event).ready = (l.ready && !isConnAck event) := by
  rcases event with e | (_ | _ | _ | _) | (_ | _) <;> simp [turn, isConnAck]

theorem turn_sent : (l.turn event).calls.count .sendReady =
    l.calls.count .sendReady + if l.ready && isConnAck event then 1 else 0 := by
  rcases event with e | (_ | _ | _ | _) | (_ | _) <;>
    cases h : l.ready <;> simp [turn, h, applyEvent, applyHealth, isConnAck]

theorem turn_calls : ∃ rest, (l.turn event).calls =
    l.calls ++ (applyEvent event ++ applyHealth event ++ rest) := by
  rcases event with e | (_ | _ | _ | _) | (_ | _) <;> simp [turn]

theorem turn_first_connAck {event : Polled ε} (first : l.ready = true)
    (ack : isConnAck event = true) : (l.turn event).calls =
      l.calls ++ [.sendReplace .connected, .log .info, .sendReady] := by
  rcases event with e | (_ | _ | _ | _) | (_ | _) <;>
    simp_all [turn, isConnAck, applyEvent, applyHealth]

theorem calls_of_loss {event : Polled ε} (loses : losesLink event = true) :
    applyEvent event ++ applyHealth event = [.recordDisconnect, .sendReplace .disconnected] := by
  rcases event with e | (_ | _ | _ | _) | (_ | _) <;>
    simp_all [losesLink, applyEvent, applyHealth]

end Turn

section Run

variable (script : List (Polled ε))

theorem run_append (before after : List (Polled ε)) :
    run (before ++ after) = after.foldl turn (run before) := List.foldl_append

theorem run_concat (before : List (Polled ε)) (event : Polled ε) :
    run (before ++ [event]) = (run before).turn event := run_append before [event]

theorem foldl_calls (after : List (Polled ε)) (l : Loop) :
    ∃ rest, (after.foldl turn l).calls = l.calls ++ rest := by
  induction after generalizing l with
  | nil => exact ⟨[], (List.append_nil _).symm⟩
  | cons event after ih =>
    obtain ⟨now, hnow⟩ := l.turn_calls event
    obtain ⟨rest, hrest⟩ := ih (l.turn event)
    refine ⟨applyEvent event ++ applyHealth event ++ now ++ rest, ?_⟩
    rw [List.foldl_cons, hrest, hnow, List.append_assoc]

theorem run_calls (before after : List (Polled ε)) (event : Polled ε) :
    ∃ rest, (run (before ++ event :: after)).calls =
      ((run before).turn event).calls ++ rest := by
  rw [run_append, List.foldl_cons]
  exact foldl_calls after _

theorem run_tracker :
    (run script).calls.filter Call.isTracker = script.filterMap trackerCall := by
  induction script using List.reverseRecOn with
  | nil => rfl
  | append_singleton before event ih =>
    have last : [event].filterMap trackerCall = (trackerCall event).toList := by
      cases called : trackerCall event <;> simp [called]
    rw [run_concat, turn_tracker, ih, List.filterMap_append, last]

theorem run_health : (run script).health = .connected ↔
    (script.filter movesHealth).getLast?.any isConnAck = true := by
  induction script using List.reverseRecOn with
  | nil => simp [run, start, health]
  | append_singleton before event ih =>
    rw [run_concat, turn_health, List.filter_append]
    cases ack : isConnAck event with
    | true => simp [movesHealth, ack]
    | false =>
      cases ends : losesLink event || isWrittenDisconnect event with
      | true => simp_all [movesHealth]
      | false => simp_all [movesHealth]

theorem run_ready : (run script).ready = !script.any isConnAck := by
  induction script using List.reverseRecOn with
  | nil => rfl
  | append_singleton before event ih =>
    rw [run_concat, turn_ready, ih, List.any_append, Bool.not_or]
    simp

theorem run_sent : (run script).calls.count .sendReady =
    if script.any isConnAck then 1 else 0 := by
  induction script using List.reverseRecOn with
  | nil => rfl
  | append_singleton before event ih =>
    rw [run_concat, turn_sent, ih, run_ready, List.any_append, List.any_cons, List.any_nil]
    cases before.any isConnAck <;> cases isConnAck event <;> rfl

end Run

end Loop

/-- What the loop makes of a script, for each of the three that it drives. -/
structure Faithful (script : List (Polled ε)) : Prop where
  tracker : (Loop.run script).calls.filter Call.isTracker = script.filterMap trackerCall
  health : (Loop.run script).health = .connected ↔
    (script.filter movesHealth).getLast?.any isConnAck = true
  sent : (Loop.run script).calls.count .sendReady = if script.any isConnAck then 1 else 0
  sentConnected : ∀ before ack after, script = before ++ ack :: after →
    before.any isConnAck = false → isConnAck ack = true →
    ∃ rest, (Loop.run script).calls = (Loop.run before).calls ++
      ([.sendReplace .connected, .log .info, .sendReady] ++ rest)
  lossRecorded : ∀ before event after, script = before ++ event :: after →
    losesLink event = true →
    ∃ rest, (Loop.run script).calls = (Loop.run before).calls ++
      ([.recordDisconnect, .sendReplace .disconnected] ++ rest)

theorem run_faithful (script : List (Polled ε)) : Faithful script where
  tracker := Loop.run_tracker script
  health := Loop.run_health script
  sent := Loop.run_sent script
  sentConnected := by
    rintro before ack after rfl none first
    obtain ⟨rest, hrest⟩ := Loop.run_calls before after ack
    have ready : (Loop.run before).ready = true := by rw [Loop.run_ready, none, Bool.not_false]
    refine ⟨rest, ?_⟩
    rw [hrest, Loop.turn_first_connAck _ ready first, List.append_assoc]
  lossRecorded := by
    rintro before event after rfl loses
    obtain ⟨rest, hrest⟩ := Loop.run_calls before after event
    obtain ⟨own, hown⟩ := (Loop.run before).turn_calls event
    refine ⟨own ++ rest, ?_⟩
    rw [hrest, hown, Loop.calls_of_loss loses]
    simp only [List.append_assoc]

end Sparkplug.EventLoop
