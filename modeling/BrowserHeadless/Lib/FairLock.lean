/-
  BrowserHeadless.Lib.FairLock

  A fair mutex over the names `κ` of its users: a line in which the first one holds the lock
  and the others wait.

  A user that drops the lock, or gives up waiting for it, leaves the line, and the lock is
  handed to whoever is first then.  Nobody overtakes, so what is ahead of a user (`ahead`) only
  shrinks (`mem_ahead_leave`, `ahead_enter`).
-/

import Mathlib.Data.List.Basic
import Mathlib.Data.List.Nodup
import Mathlib.Data.List.TakeWhile

namespace BrowserHeadless
namespace Lib

/-- A first-in first-out mutex. -/
structure FairLock (κ : Type) where
  /-- Who holds the lock, and then who waits for it, longest first. -/
  line : List κ
  /-- Nobody waits twice. -/
  nodup : line.Nodup
deriving DecidableEq

namespace FairLock

variable {κ : Type}

/-- A lock that nobody uses. -/
def new : FairLock κ := ⟨[], .nil⟩

def holder (l : FairLock κ) : Option κ := l.line.head?

variable [DecidableEq κ]

/-- `k` takes the lock if it is free, and waits otherwise. -/
def enter (l : FairLock κ) (k : κ) : FairLock κ :=
  if h : k ∈ l.line then l
  else ⟨l.line ++ [k], l.nodup.append (List.nodup_singleton k) (by simpa using h)⟩

/-- `k` drops the lock, or gives up waiting. -/
def leave (l : FairLock κ) (k : κ) : FairLock κ := ⟨l.line.erase k, l.nodup.erase k⟩

/-- Who comes before `k`. -/
def ahead (l : FairLock κ) (k : κ) : List κ := l.line.takeWhile fun j => j ≠ k

theorem line_enter {l : FairLock κ} {k : κ} (h : k ∉ l.line) : (l.enter k).line = l.line ++ [k] := by
  rw [enter, dif_neg h]

theorem mem_enter {l : FairLock κ} {j k : κ} : j ∈ (l.enter k).line ↔ j ∈ l.line ∨ j = k := by
  by_cases h : k ∈ l.line
  · rw [enter, dif_pos h]
    constructor
    · exact Or.inl
    · rintro (hj | rfl)
      · exact hj
      · exact h
  · rw [line_enter h, List.mem_append, List.mem_singleton]

theorem mem_leave {l : FairLock κ} {j k : κ} : j ∈ (l.leave k).line ↔ j ∈ l.line ∧ j ≠ k := by
  rw [leave, l.nodup.mem_erase_iff, and_comm]

/-- Who holds the lock has nobody ahead. -/
theorem ahead_holder {l : FairLock κ} {k : κ} (h : l.holder = some k) : l.ahead k = [] := by
  rw [holder, List.head?_eq_some_iff] at h
  obtain ⟨ks, hks⟩ := h
  rw [ahead, hks, List.takeWhile_cons_of_neg (by simp)]

/-- Who comes last has the whole line ahead. -/
theorem ahead_enter_self {l : FairLock κ} {k : κ} (h : k ∉ l.line) :
    (l.enter k).ahead k = l.line := by
  rw [ahead, line_enter h, List.takeWhile_append_of_pos]
  · simp
  · intro j hj
    rw [decide_eq_true_eq]
    rintro rfl
    exact h hj

/-- Nobody comes in ahead of who waits already. -/
theorem ahead_enter {l : FairLock κ} {j k : κ} (h : k ∈ l.line) :
    (l.enter j).ahead k = l.ahead k := by
  by_cases hj : j ∈ l.line
  · rw [enter, dif_pos hj]
  · rw [ahead, ahead, line_enter hj, List.takeWhile_append, if_neg]
    -- the line up to `k` is not the whole line
    intro hlen
    have hall := (List.takeWhile_prefix fun i => decide (i ≠ k)).eq_of_length hlen
    rw [List.takeWhile_eq_self_iff] at hall
    simpa using hall k h

/-- Who is ahead stays there until he leaves. -/
theorem mem_ahead_leave {l : FairLock κ} {i j k : κ} (h : i ∈ l.ahead k) (hij : i ≠ j)
    (hjk : j ≠ k) : i ∈ (l.leave j).ahead k := by
  show i ∈ (l.line.erase j).takeWhile fun a => a ≠ k
  rw [ahead] at h
  generalize l.line = ks at h ⊢
  induction ks with
  | nil => cases h
  | cons a ks ih =>
      by_cases hak : a = k
      · subst hak
        rw [List.takeWhile_cons_of_neg (by simp)] at h
        cases h
      · rw [List.takeWhile_cons_of_pos (by simpa using hak), List.mem_cons] at h
        by_cases haj : a = j
        · subst haj
          rw [List.erase_cons_head]
          exact h.resolve_left hij
        · rw [List.erase_cons_tail (by simpa using haj),
            List.takeWhile_cons_of_pos (by simpa using hak), List.mem_cons]
          exact h.imp_right ih

end FairLock
end Lib
end BrowserHeadless
