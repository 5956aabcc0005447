/-
  BrowserHeadless.Lib.Window

  A stream of tasks of which at most `k` run at the same time, in the manner of
  `buffer_unordered`: tasks start in their order and end in any order.

  Every run works off each task once (`perm_tasks`), never blocks while there is one left
  (`exists_step`), and ends after two steps for each task (`length_add_measure`).
-/

import BrowserHeadless.Lib.System
import Mathlib.Data.List.Perm.Basic

namespace BrowserHeadless
namespace Lib

variable {τ : Type*}

/-- The tasks that wait, those that run, and those that have ended, oldest first. -/
structure Window (τ : Type*) where
  waiting : List τ
  running : List τ
  done : List τ

namespace Window

/-- The next task starts, or a running one ends. -/
inductive Action where
  | start
  | finish (i : Nat)
deriving DecidableEq, Repr

/-- Nothing waits and nothing runs. -/
def Ended (w : Window τ) : Prop := w.waiting = [] ∧ w.running = []

/-- One step of a stream of width `k`. -/
def step (k : Nat) (w : Window τ) : Action → Option (Window τ)
  | .start =>
      match w.waiting with
      | [] => none
      | t :: ts =>
          if w.running.length < k then
            some { w with waiting := ts, running := w.running ++ [t] }
          else none
  | .finish i =>
      w.running[i]?.map fun t =>
        { w with running := w.running.eraseIdx i, done := w.done ++ [t] }

/-- All tasks wait. -/
def new (tasks : List τ) : Window τ := ⟨tasks, [], []⟩

/-- The stream over some tasks. -/
def system (k : Nat) (tasks : List τ) : System (Window τ) Action := ⟨new tasks, step k⟩

variable {k : Nat} {w w' : Window τ} {a : Action}

/-- What a step does. -/
theorem step_cases (h : step k w a = some w') :
    (∃ t ts, a = .start ∧ w.waiting = t :: ts ∧ w.running.length < k ∧
      w' = { w with waiting := ts, running := w.running ++ [t] }) ∨
    ∃ i t, a = .finish i ∧ w.running[i]? = some t ∧
      w' = { w with running := w.running.eraseIdx i, done := w.done ++ [t] } := by
  cases a with
  | start =>
      left
      rw [step] at h
      cases hwait : w.waiting with
      | nil =>
          rw [hwait] at h
          exact absurd h (by simp)
      | cons t ts =>
          simp only [hwait] at h
          by_cases hk : w.running.length < k
          · rw [if_pos hk] at h
            exact ⟨t, ts, rfl, rfl, hk, (Option.some.inj h).symm⟩
          · rw [if_neg hk] at h
            exact absurd h (by simp)
  | finish i =>
      right
      obtain ⟨t, ht, rfl⟩ := Option.map_eq_some_iff.mp h
      exact ⟨i, t, rfl, ht, rfl⟩

/-- No more than `k` tasks run. -/
theorem running_le_step (hw : w.running.length ≤ k) (h : step k w a = some w') :
    w'.running.length ≤ k := by
  obtain ⟨t, ts, -, -, hk, rfl⟩ | ⟨i, t, -, -, rfl⟩ := step_cases h
  · rw [List.length_append, List.length_singleton]
    omega
  · exact Nat.le_trans (List.length_eraseIdx_le _ _) hw

/-- A step keeps the tasks. -/
theorem perm_step (h : step k w a = some w') :
    (w'.done ++ (w'.running ++ w'.waiting)).Perm (w.done ++ (w.running ++ w.waiting)) := by
  obtain ⟨t, ts, -, hwait, -, rfl⟩ | ⟨i, t, -, hi, rfl⟩ := step_cases h
  · rw [hwait]
    simp
  · obtain ⟨hlt, rfl⟩ := List.getElem?_eq_some_iff.mp hi
    show ((w.done ++ [w.running[i]]) ++ (w.running.eraseIdx i ++ w.waiting)).Perm _
    rw [List.append_assoc, List.singleton_append]
    refine List.Perm.append_left _ ?_
    rw [← List.cons_append]
    exact (List.getElem_cons_eraseIdx_perm hlt).append_right _

/-- The steps that are left: two for a task that waits, one for a task that runs. -/
def measure (w : Window τ) : Nat := 2 * w.waiting.length + w.running.length

theorem measure_step (h : step k w a = some w') : w'.measure + 1 = w.measure := by
  obtain ⟨t, ts, -, hwait, -, rfl⟩ | ⟨i, t, -, hi, rfl⟩ := step_cases h
  · show 2 * ts.length + (w.running ++ [t]).length + 1 = 2 * w.waiting.length + w.running.length
    rw [hwait, List.length_append, List.length_singleton, List.length_cons]
    omega
  · obtain ⟨hlt, -⟩ := List.getElem?_eq_some_iff.mp hi
    show 2 * w.waiting.length + (w.running.eraseIdx i).length + 1 =
      2 * w.waiting.length + w.running.length
    rw [List.length_eraseIdx_of_lt hlt]
    omega

/-- While a task is left a step can be taken. -/
theorem exists_step (hk : 0 < k) (h : ¬ w.Ended) : ∃ a w', step k w a = some w' := by
  cases hrun : w.running with
  | nil =>
      cases hwait : w.waiting with
      | nil => exact absurd ⟨hwait, hrun⟩ h
      | cons t ts =>
          refine ⟨.start, ⟨ts, w.running ++ [t], w.done⟩, ?_⟩
          rw [step, hwait]
          exact if_pos (by rw [hrun]; exact hk)
  | cons t ts =>
      refine ⟨.finish 0, ⟨w.waiting, w.running.eraseIdx 0, w.done ++ [t]⟩, ?_⟩
      rw [step, hrun]
      rfl

variable {tasks : List τ} {as : List Action}

theorem running_le_of_exec (h : (system k tasks).exec (new tasks) as = some w) :
    w.running.length ≤ k :=
  System.exec_invariant (fun w => w.running.length ≤ k)
    (fun _ _ _ hw hstep => running_le_step hw hstep) (Nat.zero_le k) h

/-- Every task waits, runs or has ended, once. -/
theorem perm_of_exec (h : (system k tasks).exec (new tasks) as = some w) :
    (w.done ++ (w.running ++ w.waiting)).Perm tasks :=
  System.exec_invariant (fun w => (w.done ++ (w.running ++ w.waiting)).Perm tasks)
    (fun _ _ _ hw hstep => (perm_step hstep).trans hw) (List.Perm.refl tasks) h

/-- A stream that has ended has worked off its tasks. -/
theorem perm_of_ended (h : (system k tasks).exec (new tasks) as = some w) (hend : w.Ended) :
    w.done.Perm tasks := by
  have hperm := perm_of_exec h
  rw [hend.1, hend.2, List.append_nil, List.append_nil] at hperm
  exact hperm

/-- Each step of a run counts. -/
theorem length_add_measure (h : (system k tasks).exec w as = some w') :
    as.length + w'.measure = w.measure := by
  induction as generalizing w with
  | nil =>
      obtain rfl : w = w' := Option.some.inj h
      exact Nat.zero_add _
  | cons a as ih =>
      obtain ⟨u, hstep, hrest⟩ := (system k tasks).exec_cons_eq_some.mp h
      have hu := measure_step hstep
      have hrun := ih hrest
      rw [List.length_cons]
      omega

end Window
end Lib
end BrowserHeadless
