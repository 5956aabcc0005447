/-
  BrowserHeadless.Lib.Runs

  Infinite runs of a transition system, and runs with a history.

  What must happen is a statement about infinite runs whose scheduler is fair:
  an action is *weakly fair* in a run if it is, again and again, taken or not
  enabled.  `Run.leadsTo_of_fair` is the rule for one such action.  A finite
  schedule that ends in a state with an idle step gives an infinite run
  (`Run.lasso`).

  What a run has done so far is not in its states.  `withHistory` adds a record
  of it, which no step looks at.
-/

import BrowserHeadless.Lib.System

namespace BrowserHeadless
namespace Lib
namespace System

variable {σ α γ : Type*} {M : System σ α}

/-- An infinite run from the initial state. -/
structure Run (M : System σ α) where
  state : Nat → σ
  act : Nat → α
  init : state 0 = M.init
  step : ∀ n, M.step (state n) (act n) = some (state (n + 1))

namespace Run

variable (ρ : M.Run)

/-- The action does not stay enabled for ever without being taken. -/
def WeaklyFair (a : α) : Prop := ∀ n, ∃ m, n ≤ m ∧ (ρ.act m = a ∨ M.step (ρ.state m) a = none)

/-- A state with `P` is followed by one with `Q`, which may be the same. -/
def LeadsTo (P Q : σ → Prop) : Prop := ∀ n, P (ρ.state n) → ∃ m, n ≤ m ∧ Q (ρ.state m)

variable {ρ} {P Q R : σ → Prop}

theorem LeadsTo.refl : ρ.LeadsTo P P := fun n hn => ⟨n, Nat.le_refl n, hn⟩

theorem LeadsTo.trans (hPQ : ρ.LeadsTo P Q) (hQR : ρ.LeadsTo Q R) : ρ.LeadsTo P R := by
  intro n hn
  obtain ⟨m, hnm, hm⟩ := hPQ n hn
  obtain ⟨k, hmk, hk⟩ := hQR m hm
  exact ⟨k, Nat.le_trans hnm hmk, hk⟩

theorem LeadsTo.or (hP : ρ.LeadsTo P R) (hQ : ρ.LeadsTo Q R) :
    ρ.LeadsTo (fun s => P s ∨ Q s) R := by
  intro n hn
  rcases hn with h | h
  · exact hP n h
  · exact hQ n h

/-- The states of a run are reachable. -/
theorem reachable (ρ : M.Run) (n : Nat) : M.Reachable (ρ.state n) := by
  induction n with
  | zero => exact ⟨[], by rw [ρ.init]; rfl⟩
  | succ n ih =>
      obtain ⟨as, has⟩ := ih
      have hone : M.exec (ρ.state n) [ρ.act n] = some (ρ.state (n + 1)) := by
        rw [exec_cons, ρ.step n]
        rfl
      exact ⟨as ++ [ρ.act n], M.exec_trans has hone⟩

/-- The rule for a weakly fair action: every step keeps `P` unless it reaches `Q`,
    and where `P` holds the action is enabled and reaches `Q`. -/
theorem leadsTo_of_fair {a : α} (hfair : ρ.WeaklyFair a)
    (hkeep : ∀ s b s', P s → M.step s b = some s' → P s' ∨ Q s')
    (hact : ∀ s, P s → ∃ s', M.step s a = some s' ∧ Q s') : ρ.LeadsTo P Q := by
  intro n hn
  by_contra hnever
  have hnot : ∀ m, n ≤ m → ¬ Q (ρ.state m) := fun m hm hq => hnever ⟨m, hm, hq⟩
  -- as `Q` is never reached, `P` stays
  have hstay : ∀ m, n ≤ m → P (ρ.state m) := by
    intro m hm
    induction hm with
    | refl => exact hn
    | @step m hm ih =>
        rcases hkeep _ _ _ ih (ρ.step m) with hp | hq
        · exact hp
        · exact absurd hq (hnot (m + 1) (Nat.le_succ_of_le hm))
  obtain ⟨m, hnm, hm⟩ := hfair n
  obtain ⟨s', hs', hq⟩ := hact _ (hstay m hnm)
  rcases hm with htaken | hdisabled
  · have hnext := ρ.step m
    rw [htaken, hs'] at hnext
    obtain rfl := Option.some.inj hnext
    exact hnot (m + 1) (Nat.le_succ_of_le hnm) hq
  · rw [hdisabled] at hs'
    cases hs'

/-- A finite schedule, and then for ever a step that changes nothing. -/
def lasso (as : List α) (b : α) {t : σ} (hrun : M.exec M.init as = some t)
    (hidle : M.step t b = some t) : M.Run where
  state n := (M.exec M.init (as.take n)).getD M.init
  act n := as.getD n b
  init := rfl
  step := by
    intro n
    by_cases hn : n < as.length
    -- within the schedule
    · have htake : as.take (n + 1) = as.take n ++ [as[n]] := (List.take_append_getElem hn).symm
      have hsplit : as.take (n + 1) ++ as.drop (n + 1) = as := List.take_append_drop (n + 1) as
      obtain ⟨u, hu⟩ : ∃ u, M.exec M.init (as.take (n + 1)) = some u := by
        rw [← hsplit, exec_append] at hrun
        obtain ⟨u, hu, -⟩ := Option.bind_eq_some_iff.mp hrun
        exact ⟨u, hu⟩
      have hlast := hu
      rw [htake, exec_append] at hlast
      obtain ⟨v, hv, hone⟩ := Option.bind_eq_some_iff.mp hlast
      obtain ⟨w, hw, hnil⟩ := M.exec_cons_eq_some.mp hone
      obtain rfl : w = u := Option.some.inj hnil
      simpa [hv, hu, List.getD, hn] using hw
    · have hle : as.length ≤ n := Nat.le_of_not_lt hn
      rw [List.take_of_length_le hle, List.take_of_length_le (Nat.le_succ_of_le hle), hrun]
      simpa [List.getD, hle] using hidle

/-- An action that is not enabled at the end of the lasso is treated fairly. -/
theorem weaklyFair_lasso {as : List α} {b : α} {t : σ} {hrun : M.exec M.init as = some t}
    {hidle : M.step t b = some t} {a : α} (ha : M.step t a = none) :
    (lasso as b hrun hidle).WeaklyFair a := by
  intro n
  refine ⟨max n as.length, Nat.le_max_left _ _, Or.inr ?_⟩
  have htake : as.take (max n as.length) = as :=
    List.take_of_length_le (Nat.le_max_right n as.length)
  rw [lasso]
  simpa only [htake, hrun, Option.getD_some] using ha

end Run

/-! ## Histories -/

/-- The system with a record of its run: `record` sees the state before each step and
    the action. -/
def withHistory (M : System σ α) (empty : γ) (record : σ → α → γ → γ) : System (σ × γ) α where
  init := (M.init, empty)
  step p a := (M.step p.1 a).map fun s' => (s', record p.1 a p.2)

variable {empty : γ} {record : σ → α → γ → γ}

theorem withHistory_step_eq_some {p p' : σ × γ} {a : α} :
    (M.withHistory empty record).step p a = some p' ↔
      M.step p.1 a = some p'.1 ∧ p'.2 = record p.1 a p.2 := by
  obtain ⟨s', g'⟩ := p'
  simp only [withHistory, Option.map_eq_some_iff, Prod.mk.injEq]
  constructor
  · rintro ⟨u, hu, rfl, hg⟩
    exact ⟨hu, hg.symm⟩
  · rintro ⟨hu, hg⟩
    exact ⟨s', hu, rfl, hg.symm⟩

/-- The record is no part of the run. -/
theorem exec_withHistory (p : σ × γ) (as : List α) :
    ((M.withHistory empty record).exec p as).map Prod.fst = M.exec p.1 as := by
  induction as generalizing p with
  | nil => rfl
  | cons a as ih =>
      rw [exec_cons, exec_cons]
      cases hstep : M.step p.1 a with
      | none => simp [withHistory, hstep]
      | some s' =>
          have hboth : (M.withHistory empty record).step p a
              = some (s', record p.1 a p.2) := by simp [withHistory, hstep]
          rw [hboth]
          exact ih (s', record p.1 a p.2)

end System
end Lib
end BrowserHeadless
