/-
  BrowserHeadless.Lib.System

  Labelled transition systems whose steps are partial functions of the label.

  All nondeterminism of a concurrent program (which task moves, what a remote
  party answers, when a timer fires) sits in the label, so a run is a list of
  labels, a *schedule*, and running it is a computation:

  * `exec M s as` runs the schedule `as` from `s`; it is `none` as soon as some
    action is not enabled.
  * `Along M P s as` says that `P` holds in every state the run passes through.
  * `Guarded M G s as` says that every step of the run meets the guard `G`,
    which sees the state before the step and the action.

  The rules below package the induction over a run once: an invariant that
  every guarded step keeps holds along every guarded run
  (`along_of_invariant`), and where each unguarded step leaves the property,
  the guard is exact (`along_iff_guarded`).  What the environment promises about
  a whole run is a property the run stays in; `along_of_last` gets it from the
  last state.
-/

import Mathlib.Data.List.Basic

namespace BrowserHeadless
namespace Lib

/-- A transition system with labels `α` over states `σ`. -/
structure System (σ α : Type*) where
  /-- The state a run starts in. -/
  init : σ
  /-- The step an action takes from a state; `none` when it is not enabled. -/
  step : σ → α → Option σ

namespace System

variable {σ α : Type*} (M : System σ α)

/-- Run a schedule from a state. -/
def exec (s : σ) : List α → Option σ
  | [] => some s
  | a :: as => (M.step s a).bind fun s' => exec s' as

/-- `P` holds in every state the schedule passes through, first and last
    state included. -/
def Along (P : σ → Prop) (s : σ) : List α → Prop
  | [] => P s
  | a :: as => P s ∧ ∀ s', M.step s a = some s' → Along P s' as

/-- Every step of the schedule meets `G`, read in the state before the step. -/
def Guarded (G : σ → α → Prop) (s : σ) : List α → Prop
  | [] => True
  | a :: as => G s a ∧ ∀ s', M.step s a = some s' → Guarded G s' as

/-- Some schedule leads from the initial state to `s`. -/
def Reachable (s : σ) : Prop := ∃ as, M.exec M.init as = some s

@[simp] theorem exec_nil (s : σ) : M.exec s [] = some s := rfl

theorem exec_cons (s : σ) (a : α) (as : List α) :
    M.exec s (a :: as) = (M.step s a).bind fun s' => M.exec s' as := rfl

/-- A successful run of `a :: as` takes the step `a` first. -/
theorem exec_cons_eq_some {s t : σ} {a : α} {as : List α} :
    M.exec s (a :: as) = some t ↔ ∃ s', M.step s a = some s' ∧ M.exec s' as = some t := by
  rw [exec_cons, Option.bind_eq_some_iff]

theorem exec_append (s : σ) (as bs : List α) :
    M.exec s (as ++ bs) = (M.exec s as).bind fun s' => M.exec s' bs := by
  induction as generalizing s with
  | nil => rfl
  | cons a as ih =>
      simp only [List.cons_append, exec_cons, Option.bind_assoc]
      congr 1
      funext s'
      exact ih s'

/-- Two consecutive runs are one run. -/
theorem exec_trans {s t u : σ} {as bs : List α}
    (h1 : M.exec s as = some t) (h2 : M.exec t bs = some u) :
    M.exec s (as ++ bs) = some u := by
  rw [exec_append, h1]
  exact h2

variable {M}
variable {P Q : σ → Prop} {G : σ → α → Prop}

theorem Along.head {s : σ} {as : List α} (h : M.Along P s as) : P s := by
  cases as with
  | nil => exact h
  | cons a as => exact h.1

/-- What holds along a run holds in the state it ends in. -/
theorem Along.last {s t : σ} {as : List α}
    (h : M.Along P s as) (hrun : M.exec s as = some t) : P t := by
  induction as generalizing s with
  | nil =>
      cases hrun
      exact h
  | cons a as ih =>
      obtain ⟨s', hstep, hrest⟩ := M.exec_cons_eq_some.mp hrun
      exact ih (h.2 s' hstep) hrest

/-- What holds along a run holds along what follows an initial part of it. -/
theorem Along.suffix {s t : σ} {as bs : List α}
    (h : M.Along P s (as ++ bs)) (hrun : M.exec s as = some t) : M.Along P t bs := by
  induction as generalizing s with
  | nil =>
      cases hrun
      exact h
  | cons a as ih =>
      obtain ⟨s', hstep, hrest⟩ := M.exec_cons_eq_some.mp hrun
      exact ih (h.2 s' hstep) hrest

theorem Along.mono {s : σ} {as : List α}
    (hPQ : ∀ s, P s → Q s) (h : M.Along P s as) : M.Along Q s as := by
  induction as generalizing s with
  | nil => exact hPQ s h
  | cons a as ih => exact ⟨hPQ s h.1, fun s' hs' => ih (h.2 s' hs')⟩

/-- Two properties of the states of a run combine to a third. -/
theorem Along.combine {R : σ → Prop} {s : σ} {as : List α} (hR : ∀ s, P s → Q s → R s)
    (hP : M.Along P s as) (hQ : M.Along Q s as) : M.Along R s as := by
  induction as generalizing s with
  | nil => exact hR s hP hQ
  | cons a as ih => exact ⟨hR s hP.1 hQ.1, fun s' hs' => ih (hP.2 s' hs') (hQ.2 s' hs')⟩

/-- Every run is guarded by the trivial guard. -/
theorem Guarded.trivial (s : σ) (as : List α) : M.Guarded (fun _ _ => True) s as := by
  induction as generalizing s with
  | nil => exact True.intro
  | cons a as ih => exact ⟨True.intro, fun s' _ => ih s'⟩

/-- A schedule of actions that meet the guard in every state is guarded. -/
theorem Guarded.of_forall {s : σ} {as : List α} (h : ∀ a ∈ as, ∀ s, G s a) :
    M.Guarded G s as := by
  induction as generalizing s with
  | nil => exact True.intro
  | cons a as ih =>
      exact ⟨h a List.mem_cons_self s, fun s' _ => ih fun b hb => h b (List.mem_cons_of_mem a hb)⟩

/-- Whether a schedule is guarded can be computed from a guard that can. -/
instance Guarded.instDecidable [∀ s a, Decidable (G s a)] :
    (s : σ) → (as : List α) → Decidable (M.Guarded G s as)
  | _, [] => .isTrue True.intro
  | s, a :: as =>
      match h : M.step s a with
      | none => decidable_of_iff (G s a) (by simp [Guarded, h])
      | some s' =>
          let _ := Guarded.instDecidable s' as
          decidable_of_iff (G s a ∧ M.Guarded G s' as) (by simp [Guarded, h])

/-- A run that meets a guard still meets it after an initial part. -/
theorem Guarded.suffix {s t : σ} {as bs : List α}
    (h : M.Guarded G s (as ++ bs)) (hrun : M.exec s as = some t) : M.Guarded G t bs := by
  induction as generalizing s with
  | nil =>
      cases hrun
      exact h
  | cons a as ih =>
      obtain ⟨s', hstep, hrest⟩ := M.exec_cons_eq_some.mp hrun
      exact ih (h.2 s' hstep) hrest

/-- An initial part of a guarded run is guarded. -/
theorem Guarded.initial {s : σ} {as bs : List α} (h : M.Guarded G s (as ++ bs)) :
    M.Guarded G s as := by
  induction as generalizing s with
  | nil => exact True.intro
  | cons a as ih => exact ⟨h.1, fun s' hs' => ih (h.2 s' hs')⟩

/-- A run that does not meet a guard has a step that does not. -/
theorem exists_of_not_guarded {s t : σ} {as : List α} (hrun : M.exec s as = some t)
    (h : ¬ M.Guarded G s as) :
    ∃ pre a post u, as = pre ++ a :: post ∧ M.exec s pre = some u ∧ ¬ G u a := by
  induction as generalizing s with
  | nil => exact absurd True.intro h
  | cons a as ih =>
      obtain ⟨s', hstep, hrest⟩ := M.exec_cons_eq_some.mp hrun
      by_cases hG : G s a
      · have hlater : ¬ M.Guarded G s' as := by
          intro hlater
          refine h ⟨hG, fun u hu => ?_⟩
          obtain rfl : s' = u := Option.some.inj (hstep.symm.trans hu)
          exact hlater
        obtain ⟨pre, b, post, u, rfl, hpre, hb⟩ := ih hrest hlater
        exact ⟨a :: pre, b, post, u, rfl, M.exec_cons_eq_some.mpr ⟨s', hstep, hpre⟩, hb⟩
      · exact ⟨[], a, as, s, rfl, rfl, hG⟩

/-- A run that meets a guard meets every weaker one. -/
theorem Guarded.mono {G' : σ → α → Prop} (hGG' : ∀ s a, G s a → G' s a) {s : σ} {as : List α}
    (h : M.Guarded G s as) : M.Guarded G' s as := by
  induction as generalizing s with
  | nil => exact True.intro
  | cons a as ih => exact ⟨hGG' s a h.1, fun s' hs' => ih (h.2 s' hs')⟩

/-- The invariant rule for runs: an invariant that each guarded step keeps
    holds along every guarded run. -/
theorem along_of_invariant (Inv : σ → Prop) (G : σ → α → Prop)
    (hstep : ∀ s a s', Inv s → G s a → M.step s a = some s' → Inv s')
    {s : σ} {as : List α} (hs : Inv s) (hG : M.Guarded G s as) : M.Along Inv s as := by
  induction as generalizing s with
  | nil => exact hs
  | cons a as ih =>
      exact ⟨hs, fun s' hs' => ih (hstep s a s' hs hG.1 hs') (hG.2 s' hs')⟩

/-- A property along a run that makes every step meet a guard. -/
theorem Along.guarded (h : ∀ s a, P s → G s a) {s : σ} {as : List α} (hP : M.Along P s as) :
    M.Guarded G s as := by
  induction as generalizing s with
  | nil => exact True.intro
  | cons a as ih => exact ⟨h s a hP.1, fun s' hs' => ih (hP.2 s' hs')⟩

/-- The invariant rule for one run: what every step keeps holds at its end. -/
theorem exec_invariant (Inv : σ → Prop)
    (hstep : ∀ s a s', Inv s → M.step s a = some s' → Inv s')
    {s t : σ} {as : List α} (hs : Inv s) (hrun : M.exec s as = some t) : Inv t :=
  (along_of_invariant Inv (fun _ _ => True) (fun s a s' hi _ h => hstep s a s' hi h)
    hs (Guarded.trivial s as)).last hrun

/-- The invariant rule for reachable states. -/
theorem reachable_invariant (Inv : σ → Prop) (hinit : Inv M.init)
    (hstep : ∀ s a s', Inv s → M.step s a = some s' → Inv s')
    {s : σ} (h : M.Reachable s) : Inv s := by
  obtain ⟨as, hrun⟩ := h
  exact exec_invariant Inv hstep hinit hrun

/-- What holds at the end of a run and is inherited backwards by every step
    holds along the run. -/
theorem along_of_last (E : σ → Prop)
    (hback : ∀ s a s', M.step s a = some s' → E s' → E s)
    {s t : σ} {as : List α} (hrun : M.exec s as = some t) (ht : E t) : M.Along E s as := by
  induction as generalizing s with
  | nil =>
      cases hrun
      exact ht
  | cons a as ih =>
      obtain ⟨s', hstep, hrest⟩ := M.exec_cons_eq_some.mp hrun
      -- the step is a function, so the state reached is the one of the run
      refine ⟨hback s a s' hstep (ih hrest).head, fun u hu => ?_⟩
      obtain rfl : s' = u := Option.some.inj (hstep.symm.trans hu)
      exact ih hrest

/-- An exact guard.  `Inv` holds in every state, and the run stays in `E`; a
    guarded step keeps `P`, and a step into `P` is guarded.  Then the run stays
    in `P` if and only if every one of its steps is guarded. -/
theorem along_iff_guarded (Inv E : σ → Prop)
    (hinv : ∀ s a s', Inv s → M.step s a = some s' → Inv s')
    (hkeep : ∀ s a s', Inv s → E s' → P s → G s a → M.step s a = some s' → P s')
    (hbad : ∀ s a s', Inv s → E s' → M.step s a = some s' → P s' → G s a)
    {s t : σ} {as : List α} (hs : Inv s) (hP : P s) (hrun : M.exec s as = some t)
    (hE : M.Along E s as) : M.Along P s as ↔ M.Guarded G s as := by
  induction as generalizing s with
  | nil => exact ⟨fun _ => True.intro, fun _ => hP⟩
  | cons a as ih =>
      obtain ⟨s', hstep, hrest⟩ := M.exec_cons_eq_some.mp hrun
      have honly : ∀ u, M.step s a = some u → s' = u :=
        fun u hu => Option.some.inj (hstep.symm.trans hu)
      have hE' := hE.2 s' hstep
      constructor
      -- the property after the step makes the step guarded
      · intro h
        have hP' := (h.2 s' hstep).head
        refine ⟨hbad s a s' hs hE'.head hstep hP', fun u hu => ?_⟩
        obtain rfl := honly u hu
        exact (ih (hinv s a s' hs hstep) hP' hrest hE').mp (h.2 s' hstep)
      -- the guard carries the property over the step
      · intro hG
        have hP' := hkeep s a s' hs hE'.head hP hG.1 hstep
        refine ⟨hP, fun u hu => ?_⟩
        obtain rfl := honly u hu
        exact (ih (hinv s a s' hs hstep) hP' hrest hE').mpr (hG.2 s' hstep)

/-- Along the schedule, what `f` shows in a state is related to what it shows in
    that state and in every later one. -/
def Ordered {γ : Type*} (R : γ → γ → Prop) (f : σ → γ) (s : σ) : List α → Prop
  | [] => R (f s) (f s)
  | a :: as => M.Along (fun t => R (f s) (f t)) s (a :: as) ∧
      ∀ s', M.step s a = some s' → Ordered R f s' as

/-- What is shown at one point of an ordered run is related to what is shown at a
    later one. -/
theorem Ordered.rel {γ : Type*} {R : γ → γ → Prop} {f : σ → γ} {s u v : σ} (as bs : List α)
    (h : M.Ordered R f s (as ++ bs)) (hu : M.exec s as = some u) (hv : M.exec u bs = some v) :
    R (f u) (f v) := by
  induction as generalizing s with
  | nil =>
      cases hu
      cases bs with
      | nil =>
          cases hv
          exact h
      | cons b bs => exact h.1.last hv
  | cons a as ih =>
      obtain ⟨s', hstep, hrest⟩ := M.exec_cons_eq_some.mp hu
      exact ih (h.2 s' hstep) hrest

/-- The run of an observer.  Where a step keeps the order exactly if it is guarded,
    the observations along a run are ordered if and only if every step is. -/
theorem ordered_iff_guarded {γ : Type*} {R : γ → γ → Prop} [IsPreorder γ R] {f : σ → γ}
    (Inv : σ → Prop) (hinv : ∀ s a s', Inv s → M.step s a = some s' → Inv s')
    (hstep : ∀ s a s', Inv s → M.step s a = some s' → (R (f s) (f s') ↔ G s a))
    {s t : σ} {as : List α} (hs : Inv s) (hrun : M.exec s as = some t) :
    M.Ordered R f s as ↔ M.Guarded G s as := by
  induction as generalizing s with
  | nil => exact ⟨fun _ => True.intro, fun _ => refl_of R (f s)⟩
  | cons a as ih =>
      obtain ⟨s', hs', hrest⟩ := M.exec_cons_eq_some.mp hrun
      have honly : ∀ u, M.step s a = some u → s' = u :=
        fun u hu => Option.some.inj (hs'.symm.trans hu)
      constructor
      · intro h
        refine ⟨(hstep s a s' hs hs').mp (h.1.2 s' hs').head, fun u hu => ?_⟩
        obtain rfl := honly u hu
        exact (ih (hinv s a s' hs hs') hrest).mp (h.2 s' hs')
      -- the relation to the first state is carried along by transitivity
      · intro hG
        refine ⟨?_, fun u hu => ?_⟩
        · have hal : M.Along (fun t => Inv t ∧ R (f s) (f t)) s (a :: as) := by
            refine along_of_invariant _ G ?_ ⟨hs, refl_of R (f s)⟩ hG
            intro u b u' hu hb hu'
            have hnext := (hstep u b u' hu.1 hu').mpr hb
            exact ⟨hinv u b u' hu.1 hu', trans_of R hu.2 hnext⟩
          exact hal.mono fun t ht => ht.2
        · obtain rfl := honly u hu
          exact (ih (hinv s a s' hs hs') hrest).mpr (hG.2 s' hs')

/-- Every run stays in the trivial property. -/
theorem Along.trivial (s : σ) (as : List α) : M.Along (fun _ => True) s as :=
  along_of_invariant (fun _ => True) (fun _ _ => True) (fun _ _ _ _ _ _ => True.intro)
    True.intro (Guarded.trivial s as)

/-! ## Histories -/

variable (M) in
/-- The steps of a schedule that are taken, each with the states around it. -/
def trace (s : σ) : List α → List (σ × α × σ)
  | [] => []
  | a :: as =>
      match M.step s a with
      | none => []
      | some s' => (s, a, s') :: trace s' as

theorem exec_history_from (Inv : σ → List (σ × α × σ) → Prop)
    (hstep : ∀ u log a u', Inv u log → M.step u a = some u' → Inv u' (log ++ [(u, a, u')]))
    {s t : σ} {log : List (σ × α × σ)} {as : List α} (hs : Inv s log)
    (hrun : M.exec s as = some t) : Inv t (log ++ M.trace s as) := by
  induction as generalizing s log with
  | nil =>
      obtain rfl := Option.some.inj hrun
      rw [trace, List.append_nil]
      exact hs
  | cons a as ih =>
      obtain ⟨u, hu, hrest⟩ := (M.exec_cons_eq_some).mp hrun
      have hlog := ih (hstep s log a u hs hu) hrest
      rw [List.append_assoc] at hlog
      rw [trace, hu]
      exact hlog

/-- The invariant rule for a state together with the steps that led to it. -/
theorem exec_history (Inv : σ → List (σ × α × σ) → Prop) {s t : σ} {as : List α}
    (hinit : Inv s [])
    (hstep : ∀ u log a u', Inv u log → M.step u a = some u' → Inv u' (log ++ [(u, a, u')]))
    (hrun : M.exec s as = some t) : Inv t (M.trace s as) :=
  exec_history_from Inv hstep hinit hrun

end System
end Lib
end BrowserHeadless
