/-
  BrowserHeadless.Lib.TimedLoop

  An event loop with a timer: it takes the next event or, if its stop time comes first,
  ends.  The stop time is computed anew after each event, from the state and the time of
  that event.

  Events take no time, so the loop is at the time of the last event it took.  An event
  that comes exactly at the stop time races with the timer; `timerWins` decides, for each
  list of events that may still come, and the rules below hold for every decision.
-/

import BrowserHeadless.Lib.Fold
import Mathlib.Order.Lattice
import Mathlib.Order.Basic
import Mathlib.Order.MinMax

namespace BrowserHeadless
namespace Lib

variable {σ α ε T : Type} [LinearOrder T]

/-- Consume events until the stop time; the end state, and the time of the end. -/
def consumeUntil (step : σ → α → Except ε σ) (stopAt : σ → T → T) (time : α → T)
    (timerWins : List α → Bool) (now : T) (s : σ) : List α → Except ε (σ × T)
  | [] => .ok (s, max now (stopAt s now))
  | a :: as =>
      if stopAt s now ≤ now then .ok (s, now)
      else if stopAt s now < time a ∨ stopAt s now = time a ∧ timerWins (a :: as) = true then
        .ok (s, stopAt s now)
      else
        match step s a with
        | .ok s' => consumeUntil step stopAt time timerWins (time a) s' as
        | .error e => .error e

/-- Events in the order of their times, from some time on. -/
def SortedFrom (time : α → T) (now : T) (as : List α) : Prop :=
  as.Pairwise (fun a b => time a ≤ time b) ∧ ∀ a ∈ as, now ≤ time a

theorem SortedFrom.tail {time : α → T} {now : T} {a : α} {as : List α}
    (h : SortedFrom time now (a :: as)) : SortedFrom time (time a) as :=
  ⟨(List.pairwise_cons.mp h.1).2, (List.pairwise_cons.mp h.1).1⟩

section Rule

variable {step : σ → α → Except ε σ} {stopAt : σ → T → T} {time : α → T}
  {timerWins : List α → Bool}

/-- One turn of the loop: it ends, or it takes the next event, which is not after the
    stop time. -/
theorem consumeUntil_cons_eq_ok {now end_ : T} {s t : σ} {a : α} {as : List α}
    (h : consumeUntil step stopAt time timerWins now s (a :: as) = .ok (t, end_)) :
    (t = s ∧ end_ = max now (stopAt s now) ∧ (stopAt s now ≤ now ∨ stopAt s now ≤ time a)) ∨
    (now < stopAt s now ∧ time a ≤ stopAt s now ∧ ∃ s', step s a = .ok s' ∧
      consumeUntil step stopAt time timerWins (time a) s' as = .ok (t, end_)) := by
  rw [consumeUntil] at h
  split at h
  next hover =>
      obtain ⟨rfl, rfl⟩ := Prod.mk.inj (Except.ok.inj h)
      exact Or.inl ⟨rfl, (max_eq_left hover).symm, Or.inl hover⟩
  next hover =>
      rw [not_le] at hover
      split at h
      next htimer =>
          obtain ⟨rfl, rfl⟩ := Prod.mk.inj (Except.ok.inj h)
          refine Or.inl ⟨rfl, (max_eq_right hover.le).symm, Or.inr ?_⟩
          rcases htimer with hlate | ⟨htie, -⟩
          · exact hlate.le
          · exact htie.le
      next htimer =>
          rw [not_or, not_lt] at htimer
          cases hstep : step s a with
          | error e =>
              rw [hstep] at h
              cases h
          | ok s' =>
              rw [hstep] at h
              exact Or.inr ⟨hover, htimer.1, s', rfl, h⟩

/-- The invariant rule.  The invariant relates the events taken, those to come, the state
    and the time; an event that is taken comes while the timer runs.  At the end the
    invariant holds of some split of the events, the loop ends at its time or at the
    stop time, whichever is later, and nothing that was left has come before. -/
theorem consumeUntil_history (Inv : List α → List α → σ → T → Prop)
    (hstep : ∀ pre a post s s' now, Inv pre (a :: post) s now → now ≤ time a →
      now < stopAt s now → time a ≤ stopAt s now → step s a = .ok s' →
      Inv (pre ++ [a]) post s' (time a))
    (pre : List α) {as : List α} {now end_ : T} {s t : σ} (hsorted : SortedFrom time now as)
    (hs : Inv pre as s now)
    (h : consumeUntil step stopAt time timerWins now s as = .ok (t, end_)) :
    ∃ taken post last, pre ++ as = taken ++ post ∧ Inv taken post t last ∧
      end_ = max last (stopAt t last) ∧ ∀ b ∈ post, end_ ≤ time b := by
  induction as generalizing pre now s with
  | nil =>
      obtain ⟨rfl, rfl⟩ := Prod.mk.inj (Except.ok.inj h)
      exact ⟨pre, [], now, rfl, hs, rfl, fun b hb => absurd hb List.not_mem_nil⟩
  | cons a as ih =>
      rcases consumeUntil_cons_eq_ok h with ⟨rfl, rfl, hfirst⟩ | ⟨hrun, htime, s', hs', hrest⟩
      · refine ⟨pre, a :: as, now, rfl, hs, rfl, fun b hb => max_le (hsorted.2 b hb) ?_⟩
        rcases hfirst with hover | hlate
        · exact hover.trans (hsorted.2 b hb)
        · rcases List.mem_cons.mp hb with rfl | hmem
          · exact hlate
          · exact hlate.trans (hsorted.tail.2 b hmem)
      · have hnow := hsorted.2 a List.mem_cons_self
        obtain ⟨taken, post, last, hsplit, hend⟩ :=
          ih (pre ++ [a]) hsorted.tail (hstep pre a as s s' now hs hnow hrun htime hs') hrest
        rw [List.append_assoc, List.singleton_append] at hsplit
        exact ⟨taken, post, last, hsplit, hend⟩

/-- The loop without its timer: it consumes the events that it takes. -/
theorem consumeUntil_consume {as : List α} {now end_ : T} {s t : σ}
    (hsorted : SortedFrom time now as)
    (h : consumeUntil step stopAt time timerWins now s as = .ok (t, end_)) :
    ∃ taken post, as = taken ++ post ∧ consume step s taken = .ok t ∧
      ∀ b ∈ post, end_ ≤ time b := by
  obtain ⟨taken, post, -, hsplit, hrun, -, hpost⟩ :=
    consumeUntil_history (fun pre _ u _ => consume step s pre = .ok u)
      (fun pre a _ u u' _ hu _ _ _ hu' => by
        rw [consume_append_ok hu]
        exact consume_cons_ok hu')
      [] hsorted (consume_nil s) h
  exact ⟨taken, post, hsplit, hrun, hpost⟩

/-- A loop fails where a step does. -/
theorem consumeUntil_eq_error {as : List α} {now : T} {s : σ} {e : ε}
    (h : consumeUntil step stopAt time timerWins now s as = .error e) :
    ∃ u a, step u a = .error e := by
  induction as generalizing now s with
  | nil => cases h
  | cons a as ih =>
      rw [consumeUntil] at h
      split at h
      next => cases h
      next =>
          split at h
          next => cases h
          next =>
              cases hstep : step s a with
              | error e' =>
                  rw [hstep] at h
                  have herror : e' = e := Except.error.inj h
                  exact ⟨s, a, herror ▸ hstep⟩
              | ok s' =>
                  rw [hstep] at h
                  exact ih h

end Rule

/-! ## A loop and its projection

A loop that sees fewer events, and whose timer is never set later, ends no later. -/

section Projection

variable {τ β : Type} {step : σ → α → Except ε σ} {step' : τ → β → Except ε τ} {π : σ → τ}
  {keep : α → Option β} {stopAt : σ → T → T} {time : α → T} {timerWins : List α → Bool}

end Projection

end Lib
end BrowserHeadless
