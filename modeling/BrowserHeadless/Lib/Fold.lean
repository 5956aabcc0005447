/-
  BrowserHeadless.Lib.Fold

  Event loops as fallible folds: a step that consumes one event and either
  yields the next state or ends the loop with an error.

  * `consume step s es` consumes the events `es` from state `s`.
  * An invariant may speak of the events consumed so far (`consume_history`).
  * A loop *projects* onto another when part of its state develops by itself:
    the events the projection skips leave that part alone, and on the others it
    takes the step of the second loop (`Projects`).  Then the two loops fail
    together, at the same event, or reach states the projection relates.
-/

import Mathlib.Data.List.Basic

namespace BrowserHeadless
namespace Lib

variable {σ τ α β ε : Type}

/-- A computation in two parts succeeds if both do. -/
theorem bind_eq_ok {x : Except ε α} {f : α → Except ε β} {b : β} :
    x >>= f = .ok b ↔ ∃ a, x = .ok a ∧ f a = .ok b := by
  constructor
  · intro h
    cases x with
    | error e => cases h
    | ok a => exact ⟨a, rfl, h⟩
  · rintro ⟨a, rfl, h⟩
    exact h

/-- Consume a list of events. -/
def consume (step : σ → α → Except ε σ) (s : σ) : List α → Except ε σ
  | [] => .ok s
  | a :: as =>
      match step s a with
      | .ok s' => consume step s' as
      | .error e => .error e

/-- The loop on `as` consumes `pre` and then fails at the event `a`. -/
def FailsAt (step : σ → α → Except ε σ) (s : σ) (as pre : List α) (a : α) (e : ε) : Prop :=
  ∃ post t, as = pre ++ a :: post ∧ consume step s pre = .ok t ∧ step t a = .error e

section Consume

variable {step : σ → α → Except ε σ}

@[simp] theorem consume_nil (s : σ) : consume step s [] = .ok s := rfl

theorem consume_cons_ok {s s' : σ} {a : α} {as : List α} (h : step s a = .ok s') :
    consume step s (a :: as) = consume step s' as := by
  simp only [consume, h]

/-- Consuming `a :: as` succeeds by consuming `a` first. -/
theorem consume_cons_eq_ok {s t : σ} {a : α} {as : List α} :
    consume step s (a :: as) = .ok t ↔ ∃ s', step s a = .ok s' ∧ consume step s' as = .ok t := by
  cases h : step s a with
  | error e => simp [consume, h]
  | ok s' => simp [consume, h]

theorem consume_append_ok {s t : σ} {as bs : List α} (h : consume step s as = .ok t) :
    consume step s (as ++ bs) = consume step t bs := by
  induction as generalizing s with
  | nil =>
      cases h
      rfl
  | cons a as ih =>
      obtain ⟨s', hs', hrest⟩ := consume_cons_eq_ok.mp h
      rw [List.cons_append, consume_cons_ok hs']
      exact ih hrest

theorem consume_append_eq_ok {s u : σ} {as bs : List α} :
    consume step s (as ++ bs) = .ok u ↔
      ∃ t, consume step s as = .ok t ∧ consume step t bs = .ok u := by
  induction as generalizing s with
  | nil => simp
  | cons a as ih =>
      rw [List.cons_append, consume_cons_eq_ok]
      constructor
      · rintro ⟨s', hs', h⟩
        obtain ⟨t, h1, h2⟩ := ih.mp h
        exact ⟨t, consume_cons_eq_ok.mpr ⟨s', hs', h1⟩, h2⟩
      · rintro ⟨t, h1, h2⟩
        obtain ⟨s', hs', h⟩ := consume_cons_eq_ok.mp h1
        exact ⟨s', hs', ih.mpr ⟨t, h, h2⟩⟩

/-- A loop fails at one event, after consuming those before it. -/
theorem failsAt_of_consume {s : σ} {as : List α} {e : ε} (h : consume step s as = .error e) :
    ∃ pre a, FailsAt step s as pre a e := by
  induction as generalizing s with
  | nil => cases h
  | cons a as ih =>
      cases hs : step s a with
      | error e' =>
          simp only [consume, hs, Except.error.injEq] at h
          subst h
          exact ⟨[], a, as, s, rfl, rfl, hs⟩
      | ok s' =>
          rw [consume_cons_ok hs] at h
          obtain ⟨pre, b, post, t, rfl, hpre, hb⟩ := ih h
          exact ⟨a :: pre, b, post, t, rfl, consume_cons_eq_ok.mpr ⟨s', hs, hpre⟩, hb⟩

/-- A loop that fails at an event ends with its error. -/
theorem FailsAt.consume {s : σ} {as pre : List α} {a : α} {e : ε}
    (h : FailsAt step s as pre a e) : consume step s as = .error e := by
  obtain ⟨post, t, rfl, hpre, ha⟩ := h
  rw [consume_append_ok hpre]
  simp only [Lib.consume, ha]

/-- The invariant rule with history: the invariant relates the state to the
    events consumed so far. -/
theorem consume_history (Inv : List α → σ → Prop) {as : List α}
    (hstep : ∀ pre a s s', pre ++ [a] <+: as → Inv pre s → step s a = .ok s' →
      Inv (pre ++ [a]) s')
    {s t : σ} (hs : Inv [] s) (h : consume step s as = .ok t) : Inv as t := by
  -- the events still to come, with those consumed so far
  have key : ∀ (bs pre : List α) (s : σ), pre ++ bs = as → Inv pre s →
      consume step s bs = .ok t → Inv as t := by
    intro bs
    induction bs with
    | nil =>
        intro pre s hpre hs h
        cases h
        rw [← hpre, List.append_nil]
        exact hs
    | cons a bs ih =>
        intro pre s hpre hs h
        obtain ⟨s', hs', hrest⟩ := consume_cons_eq_ok.mp h
        have hsplit : pre ++ [a] ++ bs = as := by simpa using hpre
        exact ih (pre ++ [a]) s' hsplit (hstep pre a s s' ⟨bs, hsplit⟩ hs hs') hrest
  exact key as [] s rfl hs h

/-- The view rule: a part of the state that every event updates by itself is a
    fold of these updates. -/
theorem consume_view (view : σ → τ) (upd : τ → α → τ)
    (hstep : ∀ s a s', step s a = .ok s' → view s' = upd (view s) a)
    {s t : σ} {as : List α} (h : consume step s as = .ok t) :
    view t = as.foldl upd (view s) := by
  refine consume_history (fun pre u => view u = pre.foldl upd (view s)) ?_ rfl h
  intro pre a u u' _ hu hua
  rw [hstep u a u' hua, hu, List.foldl_append]
  rfl

end Consume

/-! ## Projections -/

theorem map_map_except {υ : Type} (x : Except ε σ) (π : σ → τ) (ρ : τ → υ) :
    (x.map π).map ρ = x.map (ρ ∘ π) := by
  cases x <;> rfl

/-- `step` projects onto `step'` along `π`: an event `keep` drops leaves the
    projected state alone, and an event it maps to `b` acts on it as `b`. -/
structure Projects (step : σ → α → Except ε σ) (step' : τ → β → Except ε τ)
    (π : σ → τ) (keep : α → Option β) : Prop where
  skip : ∀ s a, keep a = none → (step s a).map π = .ok (π s)
  keep : ∀ s a b, keep a = some b → (step s a).map π = step' (π s) b

namespace Projects

variable {step : σ → α → Except ε σ} {step' : τ → β → Except ε τ}
variable {π : σ → τ} {keep : α → Option β}

/-- A projected loop consumes the kept events. -/
theorem consume (P : Projects step step' π keep) (s : σ) (as : List α) :
    (Lib.consume step s as).map π = Lib.consume step' (π s) (as.filterMap keep) := by
  induction as generalizing s with
  | nil => rfl
  | cons a as ih =>
      cases hk : keep a with
      | none =>
          -- a skipped event cannot fail, and leaves the projected state
          have hskip := P.skip s a hk
          rw [List.filterMap_cons_none hk]
          cases hs : step s a with
          | error e => simp [hs, Except.map] at hskip
          | ok s' =>
              rw [hs] at hskip
              rw [consume_cons_ok hs, ih s', show π s' = π s from Except.ok.inj hskip]
      | some b =>
          have hkeep := P.keep s a b hk
          rw [List.filterMap_cons_some hk]
          cases hs : step s a with
          | error e =>
              rw [hs] at hkeep
              simp only [Lib.consume, hs, ← hkeep]
              rfl
          | ok s' =>
              rw [hs] at hkeep
              rw [consume_cons_ok hs, ih s', consume_cons_ok hkeep.symm]

/-- A loop ends as its projection does. -/
theorem consume_end (P : Projects step step' π keep) (s : σ) (as : List α) :
    (Lib.consume step s as).map (fun _ => ()) =
      (Lib.consume step' (π s) (as.filterMap keep)).map fun _ => () := by
  rw [← P.consume]
  cases Lib.consume step s as <;> rfl

/-- Only kept events fail. -/
theorem kept_of_error (P : Projects step step' π keep) {s : σ} {a : α} {e : ε}
    (h : step s a = .error e) : ∃ b, keep a = some b ∧ step' (π s) b = .error e := by
  cases hk : keep a with
  | none =>
      have hskip := P.skip s a hk
      rw [h] at hskip
      cases hskip
  | some b =>
      have hkeep := P.keep s a b hk
      rw [h] at hkeep
      exact ⟨b, rfl, hkeep.symm⟩

/-- Projections compose. -/
theorem comp {υ γ : Type} {step'' : υ → γ → Except ε υ} {ρ : τ → υ} {keep' : β → Option γ}
    (P : Projects step step' π keep) (Q : Projects step' step'' ρ keep') :
    Projects step step'' (ρ ∘ π) (fun a => (keep a).bind keep') where
  skip s a hk := by
    cases hka : keep a with
    | none =>
        rw [← map_map_except, P.skip s a hka]
        rfl
    | some b =>
        rw [hka] at hk
        rw [← map_map_except, P.keep s a b hka]
        exact Q.skip (π s) b hk
  keep s a c hk := by
    obtain ⟨b, hab, hbc⟩ := Option.bind_eq_some_iff.mp hk
    rw [← map_map_except, P.keep s a b hab]
    exact Q.keep (π s) b c hbc

/-- Two loops that project onto the same loop, and consume the same events as
    far as that loop sees them, reach related states or fail together. -/
theorem agree {σ₂ α₂ : Type} {step₂ : σ₂ → α₂ → Except ε σ₂} {π₂ : σ₂ → τ}
    {keep₂ : α₂ → Option β} (P : Projects step step' π keep) (Q : Projects step₂ step' π₂ keep₂)
    {s : σ} {s₂ : σ₂} (hs : π s = π₂ s₂) {as : List α} {bs : List α₂}
    (h : as.filterMap keep = bs.filterMap keep₂) :
    (∃ t t₂, Lib.consume step s as = .ok t ∧ Lib.consume step₂ s₂ bs = .ok t₂ ∧ π t = π₂ t₂) ∨
    (∃ e pre a pre₂ b c, FailsAt step s as pre a e ∧ FailsAt step₂ s₂ bs pre₂ b e ∧
      pre.filterMap keep = pre₂.filterMap keep₂ ∧ keep a = some c ∧ keep₂ b = some c) := by
  have hmaps : (Lib.consume step s as).map π = (Lib.consume step₂ s₂ bs).map π₂ := by
    rw [P.consume, Q.consume, h, hs]
  cases has : Lib.consume step s as with
  | ok t =>
      cases hbs : Lib.consume step₂ s₂ bs with
      | ok t₂ =>
          rw [has, hbs] at hmaps
          exact .inl ⟨t, t₂, rfl, rfl, Except.ok.inj hmaps⟩
      | error e =>
          rw [has, hbs] at hmaps
          cases hmaps
  | error e =>
      refine .inr ?_
      obtain ⟨pre, a, post, t, rfl, hpre, ha⟩ := failsAt_of_consume has
      obtain ⟨c, hc, herr⟩ := P.kept_of_error ha
      -- the events of the second loop split where the projected events do
      rw [List.filterMap_append, List.filterMap_cons_some hc] at h
      obtain ⟨pre₂, rest, rfl, hpre₂, hrest⟩ := List.filterMap_eq_append_iff.mp h.symm
      obtain ⟨skipped, b, post₂, rfl, hskip, hb, -⟩ := List.filterMap_eq_cons_iff.mp hrest
      have hsame : pre.filterMap keep = (pre₂ ++ skipped).filterMap keep₂ := by
        rw [List.filterMap_append, hpre₂, List.filterMap_eq_nil_iff.mpr hskip, List.append_nil]
      have hmid : (Lib.consume step₂ s₂ (pre₂ ++ skipped)).map π₂ = .ok (π t) := by
        rw [Q.consume, ← hsame, ← hs, ← P.consume, hpre]
        rfl
      cases hbs : Lib.consume step₂ s₂ (pre₂ ++ skipped) with
      | error e' =>
          rw [hbs] at hmid
          cases hmid
      | ok t₂ =>
          rw [hbs] at hmid
          have ht : π₂ t₂ = π t := Except.ok.inj hmid
          have hstep := Q.keep t₂ b c hb
          rw [ht, herr] at hstep
          cases hb₂ : step₂ t₂ b with
          | ok t' =>
              rw [hb₂] at hstep
              cases hstep
          | error e' =>
              rw [hb₂] at hstep
              obtain rfl : e' = e := Except.error.inj hstep
              exact ⟨e', pre, a, pre₂ ++ skipped, b, c, ⟨post, t, rfl, hpre, ha⟩,
                ⟨post₂, t₂, by simp, hbs, hb₂⟩, hsame, hc, hb⟩

end Projects

end Lib
end BrowserHeadless
