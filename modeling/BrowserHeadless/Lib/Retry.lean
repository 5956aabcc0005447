/-
  BrowserHeadless.Lib.Retry

  A loop that makes an attempt again while its answer may pass: a budget of further attempts,
  a pause before each of them.

  Each attempt takes a time of its own, or never ends, and then neither does the loop.  The
  loop answers with the first answer that does not pass, or with the last one of the budget;
  its time is that of all its attempts and of the pauses between them (`retry_history`).  A
  limit for the single attempt is thus one for the loop (`retry_le`), and attempts that all
  take the limit show that there is no smaller one (`retry_eq`).
-/

import Mathlib.Algebra.BigOperators.Intervals
import Mathlib.Algebra.Order.BigOperators.Group.Finset
import Mathlib.Tactic.Abel

namespace BrowserHeadless
namespace Lib

variable {α T : Type}

/-- The attempts from `i` on, with `budget` more after the first of them; `none` when one never
    ends. -/
def retry [Add T] (again : α → Bool) (pause : T) (attempt : Nat → Option (α × T)) :
    Nat → Nat → Option (α × T)
  | 0, i => attempt i
  | budget + 1, i =>
      match attempt i with
      | none => none
      | some (a, t) =>
          if again a = true then
            (retry again pause attempt budget (i + 1)).map fun (b, t') => (b, t + pause + t')
          else some (a, t)

section Rules

variable {again : α → Bool} {attempt : Nat → Option (α × T)}

/-- The loop hangs with its first attempt. -/
theorem retry_eq_none [Add T] {pause : T} {i : Nat} (h : attempt i = none) (budget : Nat) :
    retry again pause attempt budget i = none := by
  cases budget with
  | zero => exact h
  | succ budget => simp only [retry, h]

/-- An answer that passes, within the budget: the pause, and the loop once more. -/
theorem retry_again [Add T] {pause : T} {i budget : Nat} {ended : α × T}
    (h : attempt i = some ended) (hagain : again ended.1 = true) :
    retry again pause attempt (budget + 1) i =
      (retry again pause attempt budget (i + 1)).map fun (b, t') => (b, ended.2 + pause + t') := by
  simp only [retry, h, if_pos hagain]

/-- An answer that does not pass is kept. -/
theorem retry_stop [Add T] {pause : T} {i : Nat} {ended : α × T} (h : attempt i = some ended)
    (hfinal : again ended.1 = false) (budget : Nat) :
    retry again pause attempt budget i = some ended := by
  cases budget with
  | zero => exact h
  | succ budget => simp only [retry, h, hfinal, Bool.false_eq_true, if_false]

variable [AddCommMonoid T] (again) (pause : T) {answer : Nat → α} {time : Nat → T}

/-- When every attempt ends: the answers that pass, the one that is kept, and the time. -/
theorem retry_history (hends : ∀ i, attempt i = some (answer i, time i)) (budget i : Nat) :
    ∃ n, n ≤ budget ∧ (∀ j < n, again (answer (i + j)) = true) ∧
      (again (answer (i + n)) = false ∨ n = budget) ∧
      retry again pause attempt budget i =
        some (answer (i + n), ∑ j ∈ Finset.range (n + 1), time (i + j) + n • pause) := by
  have hfirst : ∀ i, (answer i, time i) =
      (answer (i + 0), ∑ j ∈ Finset.range (0 + 1), time (i + j) + 0 • pause) := by
    simp
  induction budget generalizing i with
  | zero => exact ⟨0, le_rfl, by simp, Or.inr rfl, (hends i).trans (congrArg some (hfirst i))⟩
  | succ budget ih =>
      by_cases hagain : again (answer i) = true
      · obtain ⟨n, hn, hbefore, hlast, hrun⟩ := ih (i + 1)
        have hshift : ∀ j, i + 1 + j = i + (j + 1) := fun j => by omega
        have htime : time i + pause + (∑ j ∈ Finset.range (n + 1), time (i + 1 + j) + n • pause) =
            ∑ j ∈ Finset.range (n + 1 + 1), time (i + j) + (n + 1) • pause := by
          rw [Finset.sum_range_succ' _ (n + 1), succ_nsmul]
          simp only [hshift, Nat.add_zero]
          abel
        refine ⟨n + 1, by omega, fun j hj => ?_, ?_, ?_⟩
        · cases j with
          | zero => exact hagain
          | succ j =>
              rw [← hshift]
              exact hbefore j (by omega)
        · rw [← hshift]
          exact hlast.imp_right fun h => by omega
        · rw [retry_again (hends i) hagain, hrun, hshift n, Option.map_some, ← htime]
      · have hfinal := Bool.eq_false_iff.mpr hagain
        exact ⟨0, Nat.zero_le _, by simp, Or.inl hfinal,
          (retry_stop (hends i) hfinal _).trans (congrArg some (hfirst i))⟩

/-- Attempts that all take the limit and pass use the budget up. -/
theorem retry_eq {limit : T} (hends : ∀ i, attempt i = some (answer i, limit))
    (hagain : ∀ i, again (answer i) = true) (budget i : Nat) :
    retry again pause attempt budget i =
      some (answer (i + budget), (budget + 1) • limit + budget • pause) := by
  obtain ⟨n, -, -, hlast, hrun⟩ :=
    retry_history again pause hends budget i
  rcases hlast with hfinal | rfl
  · rw [hagain] at hfinal
    cases hfinal
  · rw [hrun, Finset.sum_const, Finset.card_range]

/-- A limit for every attempt bounds the loop. -/
theorem retry_le [PartialOrder T] [IsOrderedAddMonoid T] {limit : T} (hlimit : 0 ≤ limit)
    (hpause : 0 ≤ pause) (h : ∀ i, ∃ a t, attempt i = some (a, t) ∧ t ≤ limit) (budget i : Nat) :
    ∃ a t, retry again pause attempt budget i = some (a, t) ∧
      t ≤ (budget + 1) • limit + budget • pause := by
  choose answer time hends hle using h
  obtain ⟨n, hn, -, -, hrun⟩ := retry_history again pause hends budget i
  refine ⟨_, _, hrun, add_le_add ?_ (nsmul_le_nsmul_left hpause hn)⟩
  calc ∑ j ∈ Finset.range (n + 1), time (i + j)
      ≤ (Finset.range (n + 1)).card • limit :=
        Finset.sum_le_card_nsmul _ _ _ fun j _ => hle (i + j)
    _ = (n + 1) • limit := by rw [Finset.card_range]
    _ ≤ (budget + 1) • limit := nsmul_le_nsmul_left hlimit (Nat.succ_le_succ hn)

end Rules

end Lib
end BrowserHeadless
