/-
  BrowserHeadless.Lib.Semaphore

  A fair counting semaphore over waiter names `κ`.

  A released permit goes to the head of the queue when somebody waits and back
  to the free permits otherwise, so the queue is only non-empty while no permit
  is free.  That fact is a field of the structure: a semaphore that parks a
  waiter next to a free permit cannot be built.
-/

import Mathlib.Data.List.Basic

namespace BrowserHeadless
namespace Lib

/-- A counting semaphore with a first-in first-out queue. -/
structure Semaphore (κ : Type) where
  /-- Free permits. -/
  permits : Nat
  /-- Who waits, longest first. -/
  waiters : List κ
  /-- Nobody waits while a permit is free. -/
  queued : waiters ≠ [] → permits = 0
deriving DecidableEq

namespace Semaphore

variable {κ : Type}

/-- A fresh semaphore with `n` free permits. -/
def new (n : Nat) : Semaphore κ := ⟨n, [], fun h => absurd rfl h⟩

/-- The permits a caller could take at once. -/
def availablePermits (s : Semaphore κ) : Nat := s.permits

/-- First poll of an acquire by `k`: takes a free permit (`true`) or joins the
    queue (`false`). -/
def acquire (s : Semaphore κ) (k : κ) : Bool × Semaphore κ :=
  if h : 0 < s.permits then
    (true, ⟨s.permits - 1, s.waiters, fun hw => absurd (s.queued hw) (Nat.ne_of_gt h)⟩)
  else
    -- queued behind those who came first
    (false, ⟨s.permits, s.waiters ++ [k], fun _ => Nat.eq_zero_of_not_pos h⟩)

/-- Give one permit back: to the longest waiter, whose name is returned, or to
    the free permits. -/
def release (s : Semaphore κ) : Option κ × Semaphore κ :=
  match s with
  | ⟨n, [], _⟩ => (none, ⟨n + 1, [], fun h => absurd rfl h⟩)
  | ⟨n, k :: ks, hq⟩ => (some k, ⟨n, ks, fun _ => hq (List.cons_ne_nil k ks)⟩)

/-- A parked waiter gives up: its queue entry goes. -/
def cancel [DecidableEq κ] (s : Semaphore κ) (k : κ) : Semaphore κ :=
  ⟨s.permits, s.waiters.erase k, fun h => s.queued fun hw => h (by simp [hw])⟩

@[simp] theorem waiters_new (n : Nat) : (new n : Semaphore κ).waiters = [] := rfl

/-- A free permit is taken at once. -/
theorem acquire_of_pos {s : Semaphore κ} (h : 0 < s.permits) (k : κ) :
    (s.acquire k).1 = true ∧ (s.acquire k).2.permits = s.permits - 1 ∧
      (s.acquire k).2.waiters = s.waiters := by
  rw [acquire, dif_pos h]
  exact ⟨rfl, rfl, rfl⟩

/-- Without a free permit the caller joins the queue. -/
theorem acquire_of_zero {s : Semaphore κ} (h : s.permits = 0) (k : κ) :
    (s.acquire k).1 = false ∧ (s.acquire k).2.permits = 0 ∧
      (s.acquire k).2.waiters = s.waiters ++ [k] := by
  rw [acquire, dif_neg (by omega)]
  exact ⟨rfl, h, rfl⟩

/-- A permit that nobody waits for becomes free. -/
theorem release_of_nil {s : Semaphore κ} (h : s.waiters = []) :
    s.release.1 = none ∧ s.release.2.permits = s.permits + 1 ∧ s.release.2.waiters = [] := by
  obtain ⟨n, ks, hq⟩ := s
  cases ks with
  | nil => exact ⟨rfl, rfl, rfl⟩
  | cons k ks => cases h

/-- A permit goes to the longest waiter. -/
theorem release_of_cons {s : Semaphore κ} {k : κ} {ks : List κ} (h : s.waiters = k :: ks) :
    s.release.1 = some k ∧ s.release.2.permits = s.permits ∧ s.release.2.waiters = ks := by
  obtain ⟨n, ws, hq⟩ := s
  obtain rfl : ws = k :: ks := h
  exact ⟨rfl, rfl, rfl⟩

end Semaphore
end Lib
end BrowserHeadless
