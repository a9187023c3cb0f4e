import Sparkplug.Types

/-! The delivery tracker of src/sparkplug/delivery.rs. Each function takes the lock once,
so each is one pure step on the state behind it. The counters are machine words, and an
addition that does not fit wraps, as it does in a release build. -/
namespace Sparkplug.Delivery

structure State where
  unacked : UInt32
  lost : UInt32
  reported : UInt64
  generation : UInt64
  deriving DecidableEq, Repr

structure PublishTicket where
  generation : UInt64
  deriving DecidableEq, Repr

def saturatingSub (a b : UInt32) : UInt32 := if b ≤ a then a - b else 0

/-- `u32::try_from(difference).unwrap_or(u32::MAX)` -/
def clampToU32 (difference : UInt64) : UInt32 :=
  if difference.toNat < 2 ^ 32 then difference.toUInt32 else 4294967295

namespace State

def new : State := ⟨0, 0, 0, 0⟩

def recordPublish (s : State) : PublishTicket × State :=
  (⟨s.generation⟩, { s with unacked := s.unacked + 1 })

def releaseOne (s : State) : State := { s with unacked := saturatingSub s.unacked 1 }

def recordAck (s : State) : State := s.releaseOne

def recordPublishFailed (s : State) (ticket : PublishTicket) : State :=
  if ticket.generation = s.generation then { s with unacked := saturatingSub s.unacked 1 }
  else s

def recordDisconnect (s : State) : State :=
  { s with lost := s.lost + s.unacked, unacked := 0, generation := s.generation + 1 }

/-- The check of `wait_for_drain` under the lock. -/
def isDrained (s : State) : Bool := s.unacked == 0

/-- The end of `flush` under the lock once its wait has drained. -/
def closeFlush (s : State) (openedAt : UInt64) : Except SparkplugError Unit × State :=
  let reported := s.reported + s.lost.toUInt64
  let count := clampToU32 (reported - openedAt)
  (if count = 0 then .ok () else .error (.publishLost count),
    { s with reported := reported, lost := 0 })

/-- The end of `flush` under the lock once its timeout has elapsed. -/
def timeOutFlush (s : State) (timeout : Duration) : Except SparkplugError Unit :=
  .error (.flushTimeout timeout s.unacked)

end State

section Words

theorem toNat_add_of_fits {a b : UInt32} (fits : a.toNat + b.toNat < 2 ^ 32) :
    (a + b).toNat = a.toNat + b.toNat := by
  rw [UInt32.toNat_add]
  exact Nat.mod_eq_of_lt fits

theorem toNat_add64_of_fits {a b : UInt64} (fits : a.toNat + b.toNat < 2 ^ 64) :
    (a + b).toNat = a.toNat + b.toNat := by
  rw [UInt64.toNat_add]
  exact Nat.mod_eq_of_lt fits

theorem toNat_saturatingSub (a b : UInt32) :
    (saturatingSub a b).toNat = a.toNat - b.toNat := by
  unfold saturatingSub
  split
  · rename_i h
    exact UInt32.toNat_sub_of_le _ _ h
  · rename_i h
    have less : a.toNat < b.toNat := UInt32.lt_iff_toNat_lt.mp (UInt32.not_le.mp h)
    change 0 = _
    omega

/-- Below the limit the conversion is exact, and it never turns a loss into none. -/
theorem toNat_clampToU32 (difference : UInt64) :
    (clampToU32 difference).toNat = min difference.toNat 4294967295 := by
  unfold clampToU32
  split
  · rename_i h
    rw [UInt64.toNat_toUInt32, Nat.mod_eq_of_lt h]
    omega
  · rename_i h
    change 4294967295 = _
    omega

end Words

namespace State

variable (s : State)

theorem toNat_recordPublish (fits : s.unacked.toNat + 1 < 2 ^ 32) :
    s.recordPublish.2.unacked.toNat = s.unacked.toNat + 1 :=
  toNat_add_of_fits fits

@[simp] theorem recordPublish_lost : s.recordPublish.2.lost = s.lost := rfl
@[simp] theorem recordPublish_reported : s.recordPublish.2.reported = s.reported := rfl
@[simp] theorem recordPublish_generation : s.recordPublish.2.generation = s.generation := rfl
@[simp] theorem recordPublish_ticket : s.recordPublish.1.generation = s.generation := rfl

@[simp] theorem toNat_recordAck : s.recordAck.unacked.toNat = s.unacked.toNat - 1 :=
  toNat_saturatingSub s.unacked 1

theorem recordAck_of_pos (positive : 0 < s.unacked.toNat) :
    s.recordAck = { s with unacked := s.unacked - 1 } := by
  have least : 1 ≤ s.unacked := UInt32.le_iff_toNat_le.mpr positive
  simp [recordAck, releaseOne, saturatingSub, least]

@[simp] theorem recordAck_lost : s.recordAck.lost = s.lost := rfl
@[simp] theorem recordAck_reported : s.recordAck.reported = s.reported := rfl
@[simp] theorem recordAck_generation : s.recordAck.generation = s.generation := rfl

theorem recordPublishFailed_live {ticket : PublishTicket}
    (same : ticket.generation = s.generation) :
    s.recordPublishFailed ticket = s.recordAck := by
  simp [recordPublishFailed, same, recordAck, releaseOne]

theorem recordPublishFailed_stale {ticket : PublishTicket}
    (older : ticket.generation ≠ s.generation) : s.recordPublishFailed ticket = s := by
  simp [recordPublishFailed, older]

@[simp] theorem recordPublishFailed_lost (ticket : PublishTicket) :
    (s.recordPublishFailed ticket).lost = s.lost := by
  unfold recordPublishFailed
  split <;> rfl

@[simp] theorem recordPublishFailed_reported (ticket : PublishTicket) :
    (s.recordPublishFailed ticket).reported = s.reported := by
  unfold recordPublishFailed
  split <;> rfl

@[simp] theorem recordPublishFailed_generation (ticket : PublishTicket) :
    (s.recordPublishFailed ticket).generation = s.generation := by
  unfold recordPublishFailed
  split <;> rfl

theorem toNat_recordPublishFailed_le (ticket : PublishTicket) :
    (s.recordPublishFailed ticket).unacked.toNat ≤ s.unacked.toNat := by
  by_cases same : ticket.generation = s.generation
  · rw [recordPublishFailed_live s same, toNat_recordAck]
    omega
  · rw [recordPublishFailed_stale s same]

@[simp] theorem recordDisconnect_unacked : s.recordDisconnect.unacked = 0 := rfl
@[simp] theorem recordDisconnect_reported : s.recordDisconnect.reported = s.reported := rfl

theorem toNat_recordDisconnect_lost (fits : s.lost.toNat + s.unacked.toNat < 2 ^ 32) :
    s.recordDisconnect.lost.toNat = s.lost.toNat + s.unacked.toNat :=
  toNat_add_of_fits fits

theorem toNat_recordDisconnect_generation (fits : s.generation.toNat + 1 < 2 ^ 64) :
    s.recordDisconnect.generation.toNat = s.generation.toNat + 1 :=
  toNat_add64_of_fits fits

theorem isDrained_iff : s.isDrained = true ↔ s.unacked.toNat = 0 := by
  simp [isDrained, ← UInt32.toNat_inj]

variable (openedAt : UInt64)

@[simp] theorem closeFlush_unacked : (s.closeFlush openedAt).2.unacked = s.unacked := rfl
@[simp] theorem closeFlush_lost : (s.closeFlush openedAt).2.lost = 0 := rfl
@[simp] theorem closeFlush_generation :
    (s.closeFlush openedAt).2.generation = s.generation := rfl

theorem toNat_closeFlush_reported (fits : s.reported.toNat + s.lost.toNat < 2 ^ 64) :
    (s.closeFlush openedAt).2.reported.toNat = s.reported.toNat + s.lost.toNat := by
  have widened : s.lost.toUInt64.toNat = s.lost.toNat := UInt32.toNat_toUInt64 _
  rw [← widened] at fits ⊢
  exact toNat_add64_of_fits fits

/-- What a drained flush answers: success exactly when nothing was lost since it opened,
and otherwise the loss up to the limit of the count. -/
theorem closeFlush_result {window : Nat}
    (fits : s.reported.toNat + s.lost.toNat < 2 ^ 64)
    (total : s.reported.toNat + s.lost.toNat = openedAt.toNat + window) :
    (window = 0 → (s.closeFlush openedAt).1 = .ok ()) ∧
    (window ≠ 0 → ∃ count : UInt32, (s.closeFlush openedAt).1 = .error (.publishLost count) ∧
      count.toNat = min window 4294967295) := by
  have hrep := s.toNat_closeFlush_reported openedAt fits
  set reported := (s.closeFlush openedAt).2.reported with hreported
  have difference : (reported - openedAt).toNat = window := by
    have least : openedAt ≤ reported := UInt64.le_iff_toNat_le.mpr (by omega)
    rw [UInt64.toNat_sub_of_le _ _ least]
    omega
  have counted : (clampToU32 (reported - openedAt)).toNat = min window 4294967295 := by
    rw [toNat_clampToU32, difference]
  have result : (s.closeFlush openedAt).1 = if clampToU32 (reported - openedAt) = 0 then .ok ()
      else .error (.publishLost (clampToU32 (reported - openedAt))) := rfl
  constructor
  · intro none
    have zero : clampToU32 (reported - openedAt) = 0 := by
      apply UInt32.toNat_inj.mp
      simp [counted, none]
    rw [result, if_pos zero]
  · intro some
    have positive : clampToU32 (reported - openedAt) ≠ 0 := by
      intro zero
      rw [zero] at counted
      change 0 = _ at counted
      omega
    exact ⟨_, by rw [result, if_neg positive], counted⟩

end State

end Sparkplug.Delivery
