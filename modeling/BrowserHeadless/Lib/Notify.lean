/-
  BrowserHeadless.Lib.Notify

  A notification cell for one waiting task.

  `notifyOne` wakes the task's future if it is registered and stores a permit
  otherwise; permits do not add up.  A woken future that is dropped before it is
  polled again passes its notification on, so that no notification gets lost:
  from `notifyOne` on the cell stays `pending` until a poll takes a notification
  out of it.
-/

import Mathlib.Data.List.Basic

namespace BrowserHeadless
namespace Lib

/-- The future of the waiting task. -/
inductive Waiter where
  /-- There is none, or it has not been polled yet. -/
  | absent
  /-- Registered by its first poll. -/
  | waiting
  /-- Woken, and not polled since. -/
  | notified
deriving DecidableEq, Repr

/-- A cell with its stored permit and the future that waits on it. -/
structure Notify where
  permit : Bool
  waiter : Waiter
  /-- A future that finds a permit does not wait. -/
  registered : waiter = .waiting → permit = false
deriving DecidableEq

namespace Notify

def new : Notify := ⟨false, .absent, fun h => nomatch h⟩

/-- `notify_one`. -/
def notifyOne (n : Notify) : Notify :=
  match n.waiter with
  | .waiting => ⟨false, .notified, fun h => nomatch h⟩
  | .absent => ⟨true, .absent, fun h => nomatch h⟩
  | .notified => ⟨true, .notified, fun h => nomatch h⟩

/-- A poll of the future: whether it completes, and what it leaves. -/
def poll (n : Notify) : Bool × Notify :=
  match n.waiter with
  | .notified => (true, ⟨n.permit, .absent, fun h => nomatch h⟩)
  | .absent | .waiting =>
      if n.permit then (true, ⟨false, .absent, fun h => nomatch h⟩)
      else (false, ⟨false, .waiting, fun _ => rfl⟩)

/-- The future is dropped; a notification it has not seen is passed on. -/
def drop (n : Notify) : Notify :=
  ⟨n.permit || n.waiter = .notified, .absent, fun h => nomatch h⟩

/-- A permit is stored, or a notification delivered. -/
def pending (n : Notify) : Bool := n.permit || n.waiter = .notified

@[simp] theorem pending_notifyOne (n : Notify) : n.notifyOne.pending = true := by
  obtain ⟨permit, waiter, h⟩ := n
  cases waiter <;> rfl

/-- A poll completes exactly if a notification is pending. -/
@[simp] theorem poll_fst (n : Notify) : n.poll.1 = n.pending := by
  obtain ⟨permit, waiter, h⟩ := n
  cases waiter <;> cases permit <;> rfl

end Notify
end Lib
end BrowserHeadless
