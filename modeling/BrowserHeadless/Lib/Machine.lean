/-
  BrowserHeadless.Lib.Machine

  Machines that answer every input, and the logs of their runs.

  * An invariant speaks of the state and of the log so far (`run_history`).
  * Inputs that leave every state as it is cannot be noticed: without them the other inputs
    get the same answers (`run_filter`).
  * A part of the state is a machine of its own when every step asks it once or not at all,
    and the log tells what it was asked and what it answered; the run of the part is then the
    part of the run (`run_component`).
-/

import Mathlib.Data.List.Induction

namespace BrowserHeadless
namespace Lib

variable {σ τ α β γ δ : Type*}

/-- A machine that answers every input. -/
structure Machine (σ α β : Type*) where
  step : σ → α → σ × β

namespace Machine

variable (M : Machine σ α β)

/-- The state after some inputs, and each input with its answer. -/
def run (s : σ) : List α → σ × List (α × β)
  | [] => (s, [])
  | a :: as =>
      let (s', b) := M.step s a
      let (t, log) := run s' as
      (t, (a, b) :: log)

theorem run_cons (s : σ) (a : α) (as : List α) :
    M.run s (a :: as) =
      ((M.run (M.step s a).1 as).1, (a, (M.step s a).2) :: (M.run (M.step s a).1 as).2) := rfl

/-- The log has the inputs in their order. -/
theorem run_inputs (s : σ) (as : List α) : (M.run s as).2.map Prod.fst = as := by
  induction as generalizing s with
  | nil => rfl
  | cons a as ih => rw [run_cons, List.map_cons, ih]

theorem run_append (s : σ) (as bs : List α) :
    M.run s (as ++ bs) =
      ((M.run (M.run s as).1 bs).1, (M.run s as).2 ++ (M.run (M.run s as).1 bs).2) := by
  induction as generalizing s with
  | nil => rfl
  | cons a as ih => rw [List.cons_append, run_cons, ih, run_cons, List.cons_append]

/-- One more input. -/
theorem run_concat (s : σ) (as : List α) (a : α) :
    M.run s (as ++ [a]) =
      ((M.step (M.run s as).1 a).1,
        (M.run s as).2 ++ [(a, (M.step (M.run s as).1 a).2)]) := by
  rw [run_append]
  rfl

variable {M}

/-- The invariant rule: what holds before any input, and is kept by every step. -/
theorem run_history (Inv : σ → List (α × β) → Prop) {s : σ} (hinit : Inv s [])
    (hstep : ∀ t log a, Inv t log → Inv (M.step t a).1 (log ++ [(a, (M.step t a).2)]))
    (as : List α) : Inv (M.run s as).1 (M.run s as).2 := by
  induction as using List.reverseRecOn with
  | nil => exact hinit
  | append_singleton as a ih =>
      rw [run_concat]
      exact hstep _ _ a ih

/-- What holds of every answer holds of the whole log. -/
theorem forall_mem_log {P : α × β → Prop} (h : ∀ t a, P (a, (M.step t a).2)) (s : σ)
    (as : List α) : ∀ e ∈ (M.run s as).2, P e := by
  refine run_history (fun _ log => ∀ e ∈ log, P e) (fun _ he => absurd he List.not_mem_nil) ?_ as
  intro t log a hlog e he
  rcases List.mem_append.mp he with hold | hnew
  · exact hlog e hold
  · rw [List.mem_singleton.mp hnew]
    exact h t a

/-- Inputs that leave every state as it is make no difference to the others. -/
theorem run_filter {p : α → Bool} (h : ∀ t a, p a = false → (M.step t a).1 = t) (s : σ)
    (as : List α) :
    M.run s (as.filter p) = ((M.run s as).1, (M.run s as).2.filter fun e => p e.1) := by
  induction as generalizing s with
  | nil => rfl
  | cons a as ih =>
      rw [run_cons]
      cases hp : p a with
      | false =>
          rw [List.filter_cons_of_neg (by simp [hp]), List.filter_cons_of_neg (by simp [hp]),
            h s a hp, ih]
      | true =>
          rw [List.filter_cons_of_pos hp, run_cons, ih]
          exact congrArg _ (List.filter_cons_of_pos (p := fun e : α × β => p e.1) hp).symm

/-- The run of a part of the machine, as read off the log. -/
theorem run_component {N : Machine τ γ δ} (view : σ → τ) (asked : α × β → Option (γ × δ))
    (hnone : ∀ t a, asked (a, (M.step t a).2) = none → view (M.step t a).1 = view t)
    (hsome : ∀ t a c d, asked (a, (M.step t a).2) = some (c, d) →
      N.step (view t) c = (view (M.step t a).1, d))
    (s : σ) (as : List α) :
    N.run (view s) (((M.run s as).2.filterMap asked).map Prod.fst) =
      (view (M.run s as).1, (M.run s as).2.filterMap asked) := by
  induction as generalizing s with
  | nil => rfl
  | cons a as ih =>
      rw [run_cons]
      cases hasked : asked (a, (M.step s a).2) with
      | none =>
          rw [List.filterMap_cons_none hasked, ← hnone s a hasked]
          exact ih _
      | some e =>
          obtain ⟨c, d⟩ := e
          rw [List.filterMap_cons_some hasked, List.map_cons, run_cons, hsome s a c d hasked, ih]

end Machine
end Lib
end BrowserHeadless
