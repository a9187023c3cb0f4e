import Sparkplug.Client.Birth

/-! The window that the gate leaves open: the client can take a message out of the publish
future in the instant in which the caller cancels the call. The message goes to the broker,
and the call unwinds as if it had not. -/
namespace Sparkplug

open Transition

variable {κ φ : Type}

inductive Instant (κ φ : Type) where
  | plain (l : Label κ φ)
  /-- The future is dropped with its message already taken. -/
  | slip (c : κ)

def Instant.seen : Instant κ φ → Label κ φ
  | .plain l => l
  | .slip c => .cancel c

def Phase.message : Phase → Option Message
  | .offered _ message => some message
  | _ => none

def Sys.leaving (s : Sys κ φ) : Instant κ φ → List (κ × Message)
  | .plain (.accept c) | .slip c => ((s.call c).message.map (Prod.mk c)).toList
  | _ => []

structure Window (κ φ : Type) where
  client : Sys κ φ
  /-- What left for the broker, in order, whatever its call was told. -/
  wire : List (κ × Message)

namespace Window

def new : Window κ φ := ⟨.new, []⟩

variable [DecidableEq κ] [DecidableEq φ]

def step (client : Client) (w : Window κ φ) (l : Instant κ φ) : Option (Window κ φ) :=
  match l with
  | .plain _ => (Sys.step client w.client l.seen).map fun s => ⟨s, w.wire ++ w.client.leaving l⟩
  | .slip c =>
    -- A call that waits at its gate has no message for the client to take.
    if (w.client.call c).message.isSome then
      (Sys.step client w.client l.seen).map fun s => ⟨s, w.wire ++ w.client.leaving l⟩
    else none

end Window

section Reading

def Sys.stood (s : Sys κ φ) (c : κ) : Bool :=
  match s.call c with
  | .returned (.ok _) => true
  | _ => false

variable [DecidableEq κ]

/-- The messages of the calls that returned Ok, and of this one call. -/
def Sys.counted (s : Sys κ φ) (own : Option κ) (items : List (κ × Message)) : List Message :=
  (items.filter fun p => some p.1 = own ∨ s.stood p.1).map Prod.snd

/-- Each message carries its place among what its own call and the calls that returned Ok put
in front of it. -/
def Sys.CountsStood (s : Sys κ φ) (items : List (κ × Message)) : Prop :=
  ∀ before p after, items = before ++ p :: after → p.2.payload.seq =
    some (UInt64.ofNat (expected (s.counted (some p.1) before) p.2 % 256))

/-- A message goes out behind those of another call only once that call has ended. -/
def Sys.TakesTurns (s : Sys κ φ) (items : List (κ × Message)) : Prop :=
  ∀ before p after, items = before ++ p :: after →
    ∀ q ∈ before, q.1 = p.1 ∨ (s.call q.1).over = true

variable {s t : Sys κ φ} {own : Option κ} {items : List (κ × Message)} {c : κ} {m : Message}

theorem counted_congr (same : ∀ p ∈ items, some p.1 ≠ own → t.stood p.1 = s.stood p.1) :
    t.counted own items = s.counted own items := by
  unfold Sys.counted
  congr 1
  refine List.filter_congr fun p member => ?_
  by_cases mine : some p.1 = own
  · simp [mine]
  · rw [same p member mine]

theorem counted_append_self : s.counted (some c) (items ++ [(c, m)]) =
    s.counted (some c) items ++ [m] := by
  simp [Sys.counted]

theorem ofNat_expected (before : List Message) : UInt8.ofNat (expected before m) =
    if m.topic.messageType = .NBIRTH then 0 else UInt8.ofNat (sinceBirth before) + 1 := by
  unfold expected
  split
  · rfl
  · rw [UInt8.ofNat_add]
    rfl

theorem counted_append_of_not (stands : s.stood c = false) :
    s.counted none (items ++ [(c, m)]) = s.counted none items := by
  simp [Sys.counted, stands]

theorem counted_none_of_absent (absent : ∀ p ∈ items, p.1 ≠ c) :
    s.counted (some c) items = s.counted none items := by
  unfold Sys.counted
  congr 1
  refine List.filter_congr fun p member => ?_
  simp [absent p member]

theorem counted_stood (stands : t.stood c = true) (others : ∀ d, d ≠ c → t.stood d = s.stood d) :
    t.counted none items = s.counted (some c) items := by
  unfold Sys.counted
  congr 1
  refine List.filter_congr fun p _ => ?_
  by_cases mine : p.1 = c
  · simp [mine, stands]
  · simp [mine, others p.1 mine]

theorem forall_split_append {α : Type} {P : List α → α → Prop} {xs : List α} {x : α}
    (h : ∀ before y after, xs = before ++ y :: after → P before y) (last : P xs x) :
    ∀ before y after, xs ++ [x] = before ++ y :: after → P before y := by
  intro before y after split
  rcases List.eq_nil_or_concat after with rfl | ⟨rest, z, rfl⟩
  · obtain ⟨rfl, same⟩ := List.append_inj' split rfl
    cases (List.cons.inj same).1
    exact last
  · rw [List.concat_eq_append, ← List.cons_append, ← List.append_assoc] at split
    obtain ⟨rfl, -⟩ := List.append_inj' split rfl
    exact h before y rest rfl

theorem countsStood_append (h : s.CountsStood items) (next : m.payload.seq =
      some (UInt64.ofNat (expected (s.counted (some c) items) m % 256))) :
    s.CountsStood (items ++ [(c, m)]) :=
  forall_split_append h next

omit [DecidableEq κ] in
theorem takesTurns_append (h : s.TakesTurns items)
    (next : ∀ q ∈ items, q.1 = c ∨ (s.call q.1).over = true) :
    s.TakesTurns (items ++ [(c, m)]) :=
  forall_split_append h next

end Reading

namespace Window

variable [DecidableEq κ]

def level (w : Window κ φ) (own : Option κ) (pair : EdgeNode) : UInt8 :=
  UInt8.ofNat (sinceBirth (w.client.counted own (sentFor pair w.wire)))

end Window

/-- The last number of a pair against the messages that count, and the number that the guard
at its gate would bring back. -/
structure Linked [DecidableEq κ] (w : Window κ φ) (pair : EdgeNode) (last : UInt8) : Prop where
  rests : (∀ c held, (w.client.call c).holding = some held → held.script.pair ≠ pair) →
    last = w.level none pair
  saved : ∀ c held, (w.client.call c).holding = some held → held.script.pair = pair →
    held.reservation.restoreTo = some (w.level none pair)
  stays : ∀ c held, (w.client.call c).holding = some held → held.script.pair = pair →
    (∀ guarded error, w.client.call c ≠ .unwinding held guarded error) →
    last = w.level (some c) pair

/-- What every run of the client with its window keeps. -/
structure Counting [DecidableEq κ] (w : Window κ φ) : Prop where
  gated : Gated w.client
  placed : ∀ c m, (c, m) ∈ w.wire → (w.client.call c).over = true ∨
    ∃ held, (w.client.call c).holding = some held ∧ m.topic.edgeNode = some held.script.pair
  turns : ∀ pair, w.client.TakesTurns (sentFor pair w.wire)
  counts : ∀ pair, w.client.CountsStood (sentFor pair w.wire)
  linked : ∀ pair, ∃ last, AtPair w.client pair last ∧ Linked w pair last

section Frame

variable [DecidableEq κ] {w u : Window κ φ} {c : κ} {pair stay : EdgeNode} {last now : UInt8}
  {held : Holding}

theorem counting_initial : Counting (.new : Window κ φ) := by
  refine ⟨gated_initial, fun c m member => ?_, fun pair before p after split => ?_,
    fun pair before p after split => ?_, fun pair => ⟨0, atPair_initial pair, ?_⟩⟩
  · cases member
  · simp [Window.new, sentFor] at split
  · simp [Window.new, sentFor] at split
  · refine ⟨fun _ => rfl, fun c held holds => ?_, fun c held holds => ?_⟩
    · cases (holding_new c).symm.trans holds
    · cases (holding_new c).symm.trans holds

theorem Counting.absent (h : Counting w) (busy : (w.client.call c).over = false)
    (away : ∀ held, (w.client.call c).holding = some held → held.script.pair ≠ pair) :
    ∀ p ∈ sentFor pair w.wire, p.1 ≠ c := by
  rintro ⟨d, m⟩ member rfl
  obtain ⟨inside, names⟩ := List.mem_filter.mp member
  rcases h.placed d m inside with ended | ⟨held, holds, own⟩
  · rw [busy] at ended
    cases ended
  · have names : m.topic.edgeNode = some pair := by simpa using names
    exact away held holds (Option.some.inj (own.symm.trans names))

theorem linked_elsewhere (h : Linked w pair last)
    (calls : ∀ d, d ≠ c → u.client.call d = w.client.call d)
    (before : ∀ held, (w.client.call c).holding = some held → held.script.pair ≠ pair)
    (after : ∀ held, (u.client.call c).holding = some held → held.script.pair ≠ pair)
    (levels : ∀ own, u.level own pair = w.level own pair) : Linked u pair last := by
  have apart {d : κ} {held : Holding} (holds : (u.client.call d).holding = some held)
      (names : held.script.pair = pair) : u.client.call d = w.client.call d := by
    refine calls d ?_
    rintro rfl
    exact after held holds names
  refine ⟨fun nobody => ?_, fun d held holds names => ?_, fun d held holds names running => ?_⟩
  · rw [levels]
    refine h.rests fun d held holds => ?_
    by_cases mine : d = c
    · subst mine
      exact before held holds
    · exact nobody d held (by rw [calls d mine]; exact holds)
  · rw [levels]
    have same := apart holds names
    rw [same] at holds
    exact h.saved d held holds names
  · rw [levels]
    have same := apart holds names
    rw [same] at holds running
    exact h.stays d held holds names running

theorem linked_here (calls : ∀ d, d ≠ c → u.client.call d = w.client.call d)
    (alone : ∀ d other, d ≠ c → (w.client.call d).holding = some other →
      other.script.pair ≠ pair)
    (rests : (u.client.call c).holding = none → now = u.level none pair)
    (keeps : ∀ held, (u.client.call c).holding = some held → held.script.pair = pair ∧
      held.reservation.restoreTo = some (u.level none pair) ∧
      ((∀ guarded error, u.client.call c ≠ .unwinding held guarded error) →
        now = u.level (some c) pair)) : Linked u pair now := by
  have mine {d : κ} {held : Holding} (holds : (u.client.call d).holding = some held)
      (names : held.script.pair = pair) : d = c := by
    by_contra other
    rw [calls d other] at holds
    exact alone d held other holds names
  refine ⟨fun nobody => ?_, fun d held holds names => ?_, fun d held holds names running => ?_⟩
  · refine rests (Option.eq_none_iff_forall_ne_some.mpr fun held holds => ?_)
    exact nobody c held holds (keeps held holds).1
  · obtain rfl := mine holds names
    exact (keeps held holds).2.1
  · obtain rfl := mine holds names
    exact (keeps held holds).2.2 running

theorem linked_kept {next : Holding} (linked : Linked w pair last)
    (calls : ∀ d, d ≠ c → u.client.call d = w.client.call d)
    (alone : ∀ d other, d ≠ c → (w.client.call d).holding = some other →
      other.script.pair ≠ pair)
    (holds : (w.client.call c).holding = some held) (names : held.script.pair = pair)
    (keeps : (u.client.call c).holding = some next) (script : next.script = held.script)
    (guards : next.reservation = held.reservation)
    (none : u.level none pair = w.level none pair)
    (stays : (∀ guarded error, u.client.call c ≠ .unwinding next guarded error) →
      now = u.level (some c) pair) : Linked u pair now := by
  refine linked_here calls alone (fun dropped => ?_) fun other here => ?_
  · cases dropped.symm.trans keeps
  · cases here.symm.trans keeps
    refine ⟨by rw [script, names], ?_, stays⟩
    rw [none, guards]
    exact linked.saved c held holds names

theorem linked_unwinds {guarded : Bool} {error : Option ClientError} (linked : Linked w pair last)
    (calls : ∀ d, d ≠ c → u.client.call d = w.client.call d)
    (alone : ∀ d other, d ≠ c → (w.client.call d).holding = some other →
      other.script.pair ≠ pair)
    (holds : (w.client.call c).holding = some held) (names : held.script.pair = pair)
    (unwinds : u.client.call c = .unwinding held guarded error)
    (none : u.level none pair = w.level none pair) : Linked u pair now :=
  linked_kept linked calls alone holds names (by rw [unwinds]; rfl) rfl rfl none
    fun running => absurd unwinds (running guarded error)

end Frame

section Steps

variable [DecidableEq κ] [DecidableEq φ] {client : Client} {w u : Window κ φ} {s t : Sys κ φ}
  {l : Instant κ φ} {c : κ} {pair : EdgeNode} {last : UInt8} {held : Holding} {message : Message}

theorem window_step (taken : Window.step client w l = some u) :
    Sys.Moves client w.client l.seen u.client ∧ u.wire = w.wire ++ w.client.leaving l ∧
    ∀ c, l = .slip c → ∃ held message, w.client.call c = .offered held message := by
  cases l with
  | plain l =>
    obtain ⟨t, moved, rfl⟩ := Option.map_eq_some_iff.mp taken
    exact ⟨Sys.moves_of_step moved, rfl, fun c same => (by cases same)⟩
  | slip c =>
    obtain ⟨waits, taken⟩ := Option.ite_none_right_eq_some.mp taken
    obtain ⟨t, moved, rfl⟩ := Option.map_eq_some_iff.mp taken
    refine ⟨Sys.moves_of_step moved, rfl, fun d same => ?_⟩
    cases same
    cases phase : w.client.call c with
    | offered held message => exact ⟨held, message, rfl⟩
    | _ => rw [phase] at waits; cases waits

theorem others_stand {l : Label κ φ} (moves : Sys.Moves client s l t) (caller : l.caller = some c)
    (d : κ) (other : d ≠ c) : t.call d = s.call d := by
  refine call_of_other moves ?_
  rw [caller]
  exact fun same => other (Option.some.inj same).symm

omit [DecidableEq κ] [DecidableEq φ] in
theorem leaving_cases (s : Sys κ φ) (l : Instant κ φ) : s.leaving l = [] ∨
    ∃ c held message, s.call c = .offered held message ∧
      (l = .plain (.accept c) ∨ l = .slip c) ∧ s.leaving l = [(c, message)] := by
  have leaves (c : κ) : ((s.call c).message.map (Prod.mk c)).toList = [] ∨
      ∃ held message, s.call c = .offered held message ∧
        ((s.call c).message.map (Prod.mk c)).toList = [(c, message)] := by
    cases phase : s.call c with
    | offered held message => exact .inr ⟨held, message, rfl, rfl⟩
    | _ => exact .inl rfl
  cases l with
  | plain l =>
    cases l with
    | accept c =>
      rcases leaves c with none | ⟨held, message, offers, one⟩
      · exact .inl none
      · exact .inr ⟨c, held, message, offers, .inl rfl, one⟩
    | _ => exact .inl rfl
  | slip c =>
    rcases leaves c with none | ⟨held, message, offers, one⟩
    · exact .inl none
    · exact .inr ⟨c, held, message, offers, .inr rfl, one⟩

theorem sent_of_moves {l : Label κ φ} (moves : Sys.Moves client s l t) :
    t.sent = s.sent ++ s.leaving (.plain l) := by
  cases moves with
  | accepted offers kept => simp [Sys.leaving, offers, Phase.message]
  | _ => exact (List.append_nil _).symm

theorem stood_of_moves {l : Label κ φ} (moves : Sys.Moves client s l t) (other : l ≠ .commit c) :
    t.stood c = s.stood c := by
  unfold Sys.stood
  rcases phase_step moves c with same | ⟨before, after, found, left, own⟩
  · rw [same]
  · rw [found, left]
    cases own with
    | committed => exact absurd rfl other
    | @restored _ error => cases error <;> rfl
    | _ => rfl

omit [DecidableEq κ] [DecidableEq φ] in
theorem script_of_holding {phase : Phase} (holds : phase.holding = some held) :
    phase.script = some held.script := by
  cases phase with
  | waiting script => cases holds
  | _ => simp [Phase.script, holds]

theorem busy_of_commit (moves : Sys.Moves client s (.commit c) t) : (s.call c).over = false := by
  cases moves with
  | committed takes last => rw [takes]; rfl

omit [DecidableEq φ] in
theorem level_eq {own : Option κ} (wire : sentFor pair u.wire = sentFor pair w.wire)
    (stood : ∀ p ∈ sentFor pair w.wire, some p.1 ≠ own →
      u.client.stood p.1 = w.client.stood p.1) : u.level own pair = w.level own pair := by
  unfold Window.level
  rw [wire, counted_congr stood]

omit [DecidableEq φ] in
theorem Counting.names (h : Counting w) (offers : w.client.call c = .offered held message) :
    message.topic.edgeNode = some held.script.pair := by
  obtain ⟨last, at_, -⟩ := h.linked held.script.pair
  exact (at_.names offers).1

theorem stream_step (h : Counting w) (taken : Window.step client w l = some u)
    (pair : EdgeNode) : sentFor pair u.wire = sentFor pair w.wire ∨
    ∃ c held message, w.client.call c = .offered held message ∧ held.script.pair = pair ∧
      (l = .plain (.accept c) ∨ l = .slip c) ∧
      sentFor pair u.wire = sentFor pair w.wire ++ [(c, message)] := by
  obtain ⟨-, wire, -⟩ := window_step taken
  rw [wire]
  rcases leaving_cases w.client l with none | ⟨c, held, message, offers, leaves, one⟩
  · rw [none, List.append_nil]
    exact .inl rfl
  · rw [one]
    by_cases own : held.script.pair = pair
    · subst own
      exact .inr ⟨c, held, message, offers, rfl, leaves, sentFor_append_self (h.names offers)⟩
    · exact .inl (sentFor_append_of_ne (h.names offers) (Ne.symm own))

theorem linked_away (h : Counting w) (linked : Linked w pair last)
    (taken : Window.step client w l = some u) (caller : l.seen.caller = some c)
    (before : ∀ held, (w.client.call c).holding = some held → held.script.pair ≠ pair)
    (after : ∀ held, (u.client.call c).holding = some held → held.script.pair ≠ pair) :
    Linked u pair (w.client.carried pair last l.seen) := by
  obtain ⟨moves, -, -⟩ := window_step taken
  have calls := others_stand moves caller
  have carried : w.client.carried pair last l.seen = last := by
    revert caller
    generalize l.seen = seen
    intro caller
    cases seen with
    | accept d =>
      cases caller
      simp only [Sys.carried]
      split <;> rename_i phase
      · rw [if_neg (before _ (by rw [phase]; rfl))]
      · rfl
    | restore d =>
      cases caller
      simp only [Sys.carried]
      split <;> rename_i phase
      · rw [if_neg fun both => before _ (by rw [phase]; rfl) both.1]
      · rfl
    | _ => rfl
  have same : sentFor pair u.wire = sentFor pair w.wire := by
    rcases stream_step h taken pair with same | ⟨d, held, message, offers, own, leaves, -⟩
    · exact same
    · have mine : d = c := by
        rcases leaves with rfl | rfl
        · exact Option.some.inj caller
        · exact Option.some.inj caller
      subst mine
      exact absurd own (before held (by rw [offers]; rfl))
  rw [carried]
  refine linked_elsewhere linked calls before after fun own => level_eq same ?_
  intro p member _
  by_cases mine : p.1 = c
  · refine stood_of_moves moves fun commits => ?_
    rw [commits, mine] at moves
    exact h.absent (busy_of_commit moves) before p member mine
  · unfold Sys.stood
    rw [calls p.1 mine]

theorem level_none (h : Counting w) (taken : Window.step client w l = some u)
    (other : ∀ c, l.seen ≠ .commit c) : u.level none pair = w.level none pair := by
  obtain ⟨moves, -, -⟩ := window_step taken
  have stood (d : κ) : u.client.stood d = w.client.stood d := stood_of_moves moves (other d)
  unfold Window.level
  rw [counted_congr fun p _ _ => stood p.1]
  rcases stream_step h taken pair with same | ⟨d, held, message, offers, -, -, one⟩
  · rw [same]
  · have standing : w.client.stood d = false := by simp [Sys.stood, offers]
    rw [one, counted_append_of_not standing]

omit [DecidableEq φ] in
theorem level_of_waiting {script : Script} (h : Counting w)
    (waits : w.client.call c = .waiting script) : w.level (some c) pair = w.level none pair := by
  have absent : ∀ p ∈ sentFor pair w.wire, p.1 ≠ c := by
    refine h.absent (by rw [waits]; rfl) fun held holds => ?_
    rw [waits] at holds
    cases holds
  unfold Window.level
  rw [counted_none_of_absent absent]

theorem level_of_accept (h : Counting w) (taken : Window.step client w (.plain (.accept c)) = some u)
    (offers : w.client.call c = .offered held message) : u.level (some c) held.script.pair =
      if message.topic.messageType = .NBIRTH then 0
      else w.level (some c) held.script.pair + 1 := by
  obtain ⟨moves, wire, -⟩ := window_step taken
  have stood (d : κ) : u.client.stood d = w.client.stood d :=
    stood_of_moves moves (by simp [Instant.seen])
  have leaves : w.client.leaving (.plain (.accept c)) = [(c, message)] := by
    simp [Sys.leaving, offers, Phase.message]
  unfold Window.level
  rw [wire, leaves, sentFor_append_self (h.names offers), counted_append_self, sinceBirth_append,
    ofNat_expected, counted_congr fun p _ _ => stood p.1]

/-- With the commit the messages of the call count for everyone. -/
theorem level_of_commit (taken : Window.step client w (.plain (.commit c)) = some u) :
    u.level none pair = w.level (some c) pair := by
  obtain ⟨moves, wire, -⟩ := window_step taken
  have stands : u.client.stood c = true := by
    obtain ⟨u, ws⟩ := u
    dsimp only [Instant.seen] at moves
    cases moves with
    | committed takes last => simp [Sys.stood]
  unfold Window.level
  rw [wire, show w.client.leaving (.plain (.commit c)) = [] from rfl, List.append_nil]
  congr 2
  refine counted_stood stands fun d other => stood_of_moves moves ?_
  simpa [Instant.seen] using Ne.symm other

theorem linked_own (h : Counting w) (at_ : AtPair w.client pair last)
    (linked : Linked w pair last) (taken : Window.step client w l = some u)
    (caller : l.seen.caller = some c)
    (own : ∃ held, held.script.pair = pair ∧
      ((w.client.call c).holding = some held ∨ (u.client.call c).holding = some held)) :
    Linked u pair (w.client.carried pair last l.seen) := by
  obtain ⟨moves, wire, slips⟩ := window_step taken
  have calls := others_stand moves caller
  have alone (d : κ) (other : Holding) (apart : d ≠ c)
      (holds : (w.client.call d).holding = some other) : other.script.pair ≠ pair := by
    obtain ⟨held, rfl, before | after⟩ := own
    · exact h.gated.alone before d other apart holds
    · refine (gated_step h.gated moves).alone after d other apart ?_
      rw [calls d apart]
      exact holds
  have kept (other : ∀ c, l.seen ≠ .commit c) : u.level none pair = w.level none pair :=
    level_none h taken other
  have still (quiet : w.client.leaving l = []) (other : ∀ c, l.seen ≠ .commit c) :
      u.level (some c) pair = w.level (some c) pair :=
    level_eq (by rw [wire, quiet, List.append_nil]) fun p _ _ => stood_of_moves moves (other p.1)
  have names {held : Holding} (holds : (w.client.call c).holding = some held) :
      held.script.pair = pair := by
    obtain ⟨other, rfl, before | after⟩ := own
    · rw [Option.some.inj (holds.symm.trans before)]
    · rcases script_step moves (script_of_holding after) with same | ⟨op, -, idle, -⟩
      · rw [Option.some.inj (same.symm.trans (script_of_holding holds))]
      · rw [idle] at holds
        cases holds
  have outside (before : (w.client.call c).holding = none)
      (after : (u.client.call c).holding = none) : False := by
    obtain ⟨held, -, now | now⟩ := own
    · cases before.symm.trans now
    · cases after.symm.trans now
  obtain ⟨u, ws⟩ := u
  cases l with
  | slip d =>
    dsimp only [Instant.seen] at moves calls caller kept ⊢
    cases moves with
    | left waits =>
      obtain ⟨held, message, offers⟩ := slips d rfl
      cases waits.symm.trans offers
    | @cancelled _ held message offers =>
      cases caller
      have holds : (w.client.call c).holding = some held := by rw [offers]; rfl
      exact linked_unwinds linked calls alone holds (names holds) put_self (kept (by simp))
  | plain l =>
    dsimp only [Instant.seen] at moves own calls caller kept still outside ⊢
    cases moves with
    | rejected idle built =>
      cases caller
      exact (outside (by rw [idle]; rfl) (by rw [put_self]; rfl)).elim
    | started idle built =>
      cases caller
      exact (outside (by rw [idle]; rfl) (by rw [put_self]; rfl)).elim
    | left waits =>
      cases caller
      exact (outside (by rw [waits]; rfl) (by rw [put_self]; rfl)).elim
    | @acquired _ script out waits free =>
      cases caller
      obtain ⟨unlocked, rfl⟩ := Script.reserve_iff.mp free
      obtain ⟨held, rfl, before | after⟩ := own
      · rw [waits] at before; cases before
      · rw [put_self] at after
        cases after
        have base : last = w.level none script.pair := linked.rests (h.gated.free unlocked)
        refine linked_here calls alone (fun dropped => ?_) fun other here => ?_
        · rw [put_self] at dropped
          cases dropped
        · rw [put_self] at here
          cases here
          refine ⟨rfl, ?_, fun _ => ?_⟩
          · rw [kept (by simp), ← base, ← at_.resting (h.gated.free unlocked)]
            rfl
          · rw [still rfl (by simp), level_of_waiting h waits]
            exact base
    | @offered _ held draft message delivery ready current built counted =>
      cases caller
      have holds : (w.client.call c).holding = some held := by rw [ready]; rfl
      refine linked_kept linked calls alone holds (names holds) (by rw [put_self]; rfl) rfl rfl
        (kept (by simp)) fun _ => ?_
      rw [still rfl (by simp)]
      exact linked.stays c held holds (names holds) (by rw [ready]; simp)
    | @accepted _ held message delivery offers kept' =>
      cases caller
      have holds : (w.client.call c).holding = some held := by rw [offers]; rfl
      refine linked_kept linked calls alone holds (names holds) (by rw [put_self]; rfl) rfl rfl
        (kept (by simp)) fun _ => ?_
      obtain rfl := names holds
      have before := linked.stays c held holds rfl (by rw [offers]; simp)
      obtain ⟨-, -, count⟩ := at_.names offers
      simp only [Sys.carried, offers, if_true]
      rw [level_of_accept h taken offers, count, before]
    | @advanced _ held takes more =>
      cases caller
      have holds : (w.client.call c).holding = some held := by rw [takes]; rfl
      have keeps : (Phase.ready { held with stage := held.stage + 1 }).holding = some _ := rfl
      refine linked_kept linked calls alone holds (names holds)
        ((congrArg Phase.holding put_self).trans keeps) rfl rfl (kept (by simp)) fun _ => ?_
      rw [still rfl (by simp)]
      exact linked.stays c held holds (names holds) (by rw [takes]; simp)
    | @committed _ held takes done =>
      cases caller
      have holds : (w.client.call c).holding = some held := by rw [takes]; rfl
      refine linked_here calls alone (fun _ => ?_) fun other here => ?_
      · rw [level_of_commit taken]
        exact linked.stays c held holds (names holds) (by rw [takes]; simp)
      · rw [put_self] at here
        cases here
    | @refused _ error held message offers =>
      cases caller
      have holds : (w.client.call c).holding = some held := by rw [offers]; rfl
      exact linked_unwinds linked calls alone holds (names holds) put_self (kept (by simp))
    | @cancelled _ held message offers =>
      cases caller
      have holds : (w.client.call c).holding = some held := by rw [offers]; rfl
      exact linked_unwinds linked calls alone holds (names holds) put_self (kept (by simp))
    | @released _ held error delivery unwinds rolled =>
      cases caller
      have holds : (w.client.call c).holding = some held := by rw [unwinds]; rfl
      exact linked_unwinds linked calls alone holds (names holds) put_self (kept (by simp))
    | @restored _ held error unwinds =>
      cases caller
      have holds : (w.client.call c).holding = some held := by rw [unwinds]; rfl
      refine linked_here calls alone (fun _ => ?_) fun other here => ?_
      · rw [kept (by simp)]
        obtain rfl := names holds
        have saved := linked.saved c held holds rfl
        have tracks := at_.held c held holds rfl
        rw [unwinds] at tracks
        by_cases first : held.stage = 0
        · simp only [Sys.carried, unwinds, first, ne_eq, not_true, and_false, if_false]
          exact Option.some.inj ((tracks first).symm.trans saved)
        · simp [Sys.carried, unwinds, first, saved]
      · rw [put_self, holding_ended] at here
        cases here
    | happened => cases caller

theorem linked_step (h : Counting w) (at_ : AtPair w.client pair last)
    (linked : Linked w pair last) (taken : Window.step client w l = some u) :
    Linked u pair (w.client.carried pair last l.seen) := by
  cases caller : l.seen.caller with
  | none =>
    obtain ⟨moves, wire, -⟩ := window_step taken
    obtain ⟨u, ws⟩ := u
    cases l with
    | slip d => cases caller
    | plain l =>
      dsimp only [Instant.seen] at moves wire caller ⊢
      cases moves with
      | happened outside taken =>
        obtain rfl : ws = w.wire := wire.trans (List.append_nil _)
        exact ⟨linked.rests, linked.saved, linked.stays⟩
      | _ => cases caller
  | some c =>
    by_cases before : ∀ held, (w.client.call c).holding = some held → held.script.pair ≠ pair
    · by_cases after : ∀ held, (u.client.call c).holding = some held → held.script.pair ≠ pair
      · exact linked_away h linked taken caller before after
      · push Not at after
        obtain ⟨held, holds, names⟩ := after
        exact linked_own h at_ linked taken caller ⟨held, names, .inr holds⟩
    · push Not at before
      obtain ⟨held, holds, names⟩ := before
      exact linked_own h at_ linked taken caller ⟨held, names, .inl holds⟩

theorem placed_step {l : Label κ φ} (moves : Sys.Moves client s l t)
    (placed : (s.call c).over = true ∨ ∃ held, (s.call c).holding = some held ∧
      held.script.pair = pair) : (t.call c).over = true ∨
    ∃ held, (t.call c).holding = some held ∧ held.script.pair = pair := by
  rcases placed with ended | ⟨held, holds, names⟩
  · rw [over_step ended moves]
    exact .inl ended
  · rcases phase_step moves c with same | ⟨before, after, found, left, own⟩
    · rw [same]
      exact .inr ⟨held, holds, names⟩
    · rw [found] at holds
      rw [left]
      cases own with
      | rejected built => cases holds
      | started built => cases holds
      | acquired => cases holds
      | left => cases holds
      | committed => exact .inl rfl
      | @restored _ error => cases error <;> exact .inl rfl
      | advanced more => cases holds; exact .inr ⟨_, rfl, names⟩
      | _ => exact .inr ⟨held, holds, names⟩

theorem turns_step {l : Label κ φ} {items : List (κ × Message)} (moves : Sys.Moves client s l t)
    (h : s.TakesTurns items) : t.TakesTurns items := by
  intro before p after split q member
  rcases h before p after split q member with own | ended
  · exact .inl own
  · rw [over_step ended moves]
    exact .inr ended

/-- A commit adds messages to what counts, but none in front of a message of another call. -/
theorem counts_step {l : Label κ φ} {items : List (κ × Message)} (moves : Sys.Moves client s l t)
    (turns : s.TakesTurns items) (h : s.CountsStood items) : t.CountsStood items := by
  intro before p after split
  rw [counted_congr (s := s) fun q member other => ?_]
  · exact h before p after split
  · refine stood_of_moves moves fun commits => ?_
    rcases turns before p after split q member with own | ended
    · exact other (congrArg some own)
    · rw [commits] at moves
      rw [busy_of_commit moves] at ended
      cases ended

theorem counting_step (h : Counting w) (taken : Window.step client w l = some u) :
    Counting u := by
  obtain ⟨moves, wire, -⟩ := window_step taken
  refine ⟨gated_step h.gated moves, fun c m member => ?_, fun pair => ?_, fun pair => ?_,
    fun pair => ?_⟩
  · have before : (w.client.call c).over = true ∨ ∃ held,
        (w.client.call c).holding = some held ∧ m.topic.edgeNode = some held.script.pair := by
      rw [wire] at member
      rcases List.mem_append.mp member with earlier | now
      · exact h.placed c m earlier
      · rcases leaving_cases w.client l with none | ⟨d, held, message, offers, -, one⟩
        · rw [none] at now
          cases now
        · rw [one] at now
          cases List.mem_singleton.mp now
          exact .inr ⟨held, by rw [offers]; rfl, h.names offers⟩
    rcases before with ended | ⟨held, holds, names⟩
    · rw [over_step ended moves]
      exact .inl ended
    · rcases placed_step moves (.inr ⟨held, holds, rfl⟩) with ended | ⟨next, holds', same⟩
      · exact .inl ended
      · exact .inr ⟨next, holds', by rw [names, same]⟩
  · have kept := turns_step moves (h.turns pair)
    rcases stream_step h taken pair with same | ⟨c, held, message, offers, rfl, -, one⟩
    · rw [same]
      exact kept
    · rw [one]
      refine takesTurns_append kept fun q member => ?_
      obtain ⟨inside, names⟩ := List.mem_filter.mp member
      rcases h.placed q.1 q.2 inside with ended | ⟨other, holds, placed⟩
      · rw [over_step ended moves]
        exact .inr ended
      · rw [placed] at names
        exact .inl (h.gated.exclusive q.1 c other held holds (by rw [offers]; rfl)
          (by simpa using names))
  · have kept := counts_step moves (h.turns pair) (h.counts pair)
    rcases stream_step h taken pair with same | ⟨c, held, message, offers, rfl, leaves, one⟩
    · rw [same]
      exact kept
    · obtain ⟨last, at_, linked⟩ := h.linked held.script.pair
      obtain ⟨-, seq, count⟩ := at_.names offers
      have before := linked.stays c held (by rw [offers]; rfl) rfl (by rw [offers]; nofun)
      have stood (d : κ) : u.client.stood d = w.client.stood d := by
        refine stood_of_moves moves ?_
        rcases leaves with rfl | rfl <;> nofun
      rw [one]
      refine countsStood_append kept ?_
      rw [counted_congr fun q _ _ => stood q.1, seq, ← toUInt64_ofNat, ofNat_expected, count,
        before]
      rfl
  · obtain ⟨last, at_, linked⟩ := h.linked pair
    exact ⟨_, atPair_step h.gated at_ moves, linked_step h at_ linked taken⟩

end Steps

section Runs

variable [DecidableEq κ] [DecidableEq φ] {client : Client} {w u : Window κ φ} {s : Sys κ φ}
  {ok : Window κ φ → Instant κ φ → Prop} {ls : List (Instant κ φ)} {l : Instant κ φ} {c : κ}
  {pair : EdgeNode}

theorem counting_run (run : Run (Window.step client) ok .new ls w) : Counting w :=
  run.invariant counting_initial fun _ _ _ _ h _ taken => counting_step h taken

/-- What the crate sees of a run with the window is a run of the client, which knows of every
message on the wire but those of the window. -/
theorem client_of_window (run : Run (Window.step client) ok .new ls w) :
    Run (Sys.step client) (fun _ _ => True) .new (ls.map Instant.seen) w.client ∧
    w.client.sent.Sublist w.wire := by
  induction run with
  | start => exact ⟨.start _, .slnil⟩
  | @snoc w u ls l _ _ taken ih =>
    obtain ⟨run, told⟩ := ih
    obtain ⟨moves, wire, -⟩ := window_step taken
    refine ⟨?_, ?_⟩
    · rw [List.map_append]
      exact run.snoc trivial (Sys.step_of_moves moves)
    · rw [sent_of_moves moves, wire]
      cases l with
      | plain l => exact told.append (List.Sublist.refl _)
      | slip c =>
        rw [show w.client.leaving (.plain (Instant.slip c).seen) = [] from rfl, List.append_nil]
        exact told.trans (List.sublist_append_left ..)

/-- The client of the other modules is the one whose window is never met. -/
theorem window_of_client {ok : Sys κ φ → Label κ φ → Prop} {ls : List (Label κ φ)}
    (run : Run (Sys.step client) ok .new ls s) :
    Run (Window.step client) (fun _ _ => True) .new (ls.map .plain) ⟨s, s.sent⟩ := by
  induction run with
  | start => exact .start _
  | @snoc t u ls l _ _ taken ih =>
    have moved : Window.step client ⟨t, t.sent⟩ (.plain l) = some ⟨u, u.sent⟩ := by
      rw [sent_of_moves (Sys.moves_of_step taken)]
      simp only [Window.step, Instant.seen, taken, Option.map_some]
    rw [List.map_append]
    exact ih.snoc trivial moved

/-- In every run, with births that are cut short and messages that leave in the window, the
number of a message is its place behind the latest NBIRTH among the messages of the calls that
returned Ok and of its own call. -/
theorem numbers_count_what_stood (run : Run (Window.step client) ok .new ls w) (pair : EdgeNode) :
    ∀ before c m after, sentFor pair w.wire = before ++ (c, m) :: after →
      m.payload.seq = some (UInt64.ofNat (if m.topic.messageType = .NBIRTH then 0
        else (sinceBirth (w.client.counted (some c) before) + 1) % 256)) := by
  intro before c m after split
  rw [(counting_run run).counts pair before (c, m) after split, expected]
  split
  · rfl
  · rfl

/-- The same of the client whose window is never met, where no promise about births is left. -/
theorem sent_counts_what_stood {ok : Sys κ φ → Label κ φ → Prop} {ls : List (Label κ φ)}
    (run : Run (Sys.step client) ok .new ls s) (pair : EdgeNode) :
    s.CountsStood (sentFor pair s.sent) :=
  (counting_run (window_of_client run)).counts pair

end Runs

/-- A birth behind a count of 1. Its DBIRTH leaves in the window, and the next message carries 2
where the two births in front of it carry 0 and 1. -/
theorem numbers_count_what_stood_small : ∃ (w : Window Nat Nat) (m₀ m₁ m₂ m₃ : Message),
    Run (Window.step plantClient) (Obeys []) .new
      ([.start 0 plantData, .acquire 0, .offer 0, .accept 0, .commit 0,
        .start 1 (.publishBirth plantDevice ⟨0⟩), .acquire 1, .offer 1, .accept 1, .next 1,
        .offer 1].map .plain ++ [.slip 1] ++
        [.restore 1, .start 2 plantData, .acquire 2, .offer 2, .accept 2].map .plain) w ∧
    w.wire = [(0, m₀), (1, m₁), (1, m₂), (2, m₃)] ∧ m₂.payload.seq = some 1 ∧
    m₃.payload.seq = some 2 := by
  obtain ⟨w, m₀, m₁, m₂, m₃, h, wire, mine, since, data, told, birth⟩ : ∃ (w : Window Nat Nat)
      (m₀ m₁ m₂ m₃ : Message),
      exec (Window.step plantClient) [] .new
        ([.start 0 plantData, .acquire 0, .offer 0, .accept 0, .commit 0,
          .start 1 (.publishBirth plantDevice ⟨0⟩), .acquire 1, .offer 1, .accept 1, .next 1,
          .offer 1].map .plain ++ [.slip 1] ++
          [.restore 1, .start 2 plantData, .acquire 2, .offer 2, .accept 2].map .plain) =
        some w ∧
      w.wire = [(0, m₀), (1, m₁), (1, m₂), (2, m₃)] ∧ sentFor plantNode w.wire = w.wire ∧
      sinceBirth (w.client.counted (some 2) [(0, m₀), (1, m₁), (1, m₂)]) = 1 ∧
      m₃.topic.messageType = .DDATA ∧
      sinceBirth (w.client.counted (some 1) [(0, m₀), (1, m₁)]) = 0 ∧
      m₂.topic.messageType = .DBIRTH :=
    ⟨_, _, _, _, _, rfl, rfl, rfl, rfl, rfl, rfl, rfl⟩
  have run := Run.of_exec h
  rw [← mine] at wire
  have second := numbers_count_what_stood run plantNode [(0, m₀), (1, m₁)] 1 m₂ _ wire
  have last := numbers_count_what_stood run plantNode [(0, m₀), (1, m₁), (1, m₂)] 2 m₃ [] wire
  rw [birth, told] at second
  rw [data, since] at last
  rw [mine] at wire
  exact ⟨w, m₀, m₁, m₂, m₃, run, wire, second, last⟩

end Sparkplug
