/-
  BrowserHeadless.Lib.Lists

  Facts about lists: counting by position, updates in place, and lists that grow
  at the end.
-/

import Mathlib.Algebra.BigOperators.Group.Finset.Piecewise
import Mathlib.Algebra.Ring.Int.Defs
import Mathlib.Data.List.Basic

namespace BrowserHeadless
namespace Lib

variable {α : Type*}

/-- A predicate counts to zero exactly when it fails at every position. -/
theorem countP_eq_zero_iff_getElem? {p : α → Bool} {l : List α} :
    l.countP p = 0 ↔ ∀ (i : Nat) (x : α), l[i]? = some x → p x = false := by
  rw [List.countP_eq_zero]
  constructor
  · intro h i x hx
    simpa using h x (List.mem_of_getElem? hx)
  · intro h x hx
    obtain ⟨i, hi⟩ := List.mem_iff_getElem?.mp hx
    simpa using h i x hi

/-- A predicate counts to at most one exactly when it holds at no two
    different positions. -/
theorem countP_le_one_iff {p : α → Bool} {l : List α} :
    l.countP p ≤ 1 ↔
      ∀ (i j : Nat) (x y : α), l[i]? = some x → l[j]? = some y → p x = true → p y = true → i = j := by
  induction l with
  | nil => simp
  | cons a l ih =>
      by_cases ha : p a = true
      · have hzero : l.countP p + 1 ≤ 1 ↔ l.countP p = 0 := by omega
        rw [List.countP_cons_of_pos ha, hzero, countP_eq_zero_iff_getElem?]
        constructor
        · intro h i j x y hx hy hpx hpy
          cases i with
          | zero =>
              cases j with
              | zero => rfl
              | succ j => simp [h j y (by simpa using hy)] at hpy
          | succ i => simp [h i x (by simpa using hx)] at hpx
        · intro h i x hx
          by_contra hpx
          have := h 0 (i + 1) a x rfl (by simpa using hx) ha (by simpa using hpx)
          omega
      · rw [List.countP_cons_of_neg ha, ih]
        constructor
        · intro h i j x y hx hy hpx hpy
          cases i with
          | zero =>
              obtain rfl : a = x := by simpa using hx
              exact absurd hpx ha
          | succ i =>
              cases j with
              | zero =>
                  obtain rfl : a = y := by simpa using hy
                  exact absurd hpy ha
              | succ j => rw [h i j x y (by simpa using hx) (by simpa using hy) hpx hpy]
        · intro h i j x y hx hy hpx hpy
          have := h (i + 1) (j + 1) x y (by simpa using hx) (by simpa using hy) hpx hpy
          omega

/-- An update in place that keeps `g` of the element keeps the map of `g`. -/
theorem map_modify_of_eq {β : Type*} (l : List α) (k : Nat) {f : α → α} {g : α → β}
    (h : ∀ a, g (f a) = g a) : (l.modify k f).map g = l.map g := by
  refine List.ext_getElem? fun i => ?_
  rw [List.getElem?_map, List.getElem?_modify, List.getElem?_map]
  cases l[i]? with
  | none => rfl
  | some a =>
      by_cases hk : k = i
      · simp [hk, h]
      · simp [hk]

/-- Replacing an element changes the count by the old and the new one. -/
theorem count_set_add [BEq α] [LawfulBEq α] [DecidableEq α] {l : List α} {i : Nat} {x : α}
    (h : l[i]? = some x) (a b : α) :
    (l.set i a).count b + (if x = b then 1 else 0) = l.count b + (if a = b then 1 else 0) := by
  obtain ⟨hlt, rfl⟩ := List.getElem?_eq_some_iff.mp h
  have hpos : (if l[i] = b then 1 else 0) ≤ l.count b := by
    split
    next heq => exact List.count_pos_iff.mpr (heq ▸ List.getElem_mem hlt)
    next => exact Nat.zero_le _
  rw [List.count_set hlt]
  simp only [beq_iff_eq]
  omega

/-- Updating an element changes how often a predicate holds by the old and the new
    element. -/
theorem countP_modify_add {l : List α} {i : Nat} {x : α} (h : l[i]? = some x) (p : α → Bool)
    (f : α → α) :
    (l.modify i f).countP p + (if p x = true then 1 else 0) =
      l.countP p + (if p (f x) = true then 1 else 0) := by
  induction l generalizing i with
  | nil => simp at h
  | cons a l ih =>
      cases i with
      | zero =>
          obtain rfl : a = x := by simpa using h
          rw [List.modify_zero_cons, List.countP_cons, List.countP_cons]
          omega
      | succ i =>
          have ih := ih (i := i) (by simpa using h)
          rw [List.modify_succ_cons, List.countP_cons, List.countP_cons]
          omega

/-- Updating an element changes a sum over the list by the old and the new element. -/
theorem sum_map_modify {l : List α} {i : Nat} {x : α} (h : l[i]? = some x) (g : α → Int)
    (f : α → α) : ((l.modify i f).map g).sum = (l.map g).sum + (g (f x) - g x) := by
  induction l generalizing i with
  | nil => simp at h
  | cons a l ih =>
      cases i with
      | zero =>
          obtain rfl : a = x := by simpa using h
          rw [List.modify_zero_cons, List.map_cons, List.map_cons, List.sum_cons, List.sum_cons]
          omega
      | succ i =>
          have ih := ih (i := i) (by simpa using h)
          rw [List.modify_succ_cons, List.map_cons, List.map_cons, List.sum_cons, List.sum_cons, ih]
          omega

/-- Indices below `n` are counted one by one. -/
theorem countP_isSome_eq_sum {n : Nat} {l : List (Option Nat)} (h : ∀ i, some i ∈ l → i < n) :
    l.countP Option.isSome = ∑ i ∈ Finset.range n, l.count (some i) := by
  induction l with
  | nil => simp
  | cons x l ih =>
      have ih := ih fun i hi => h i (List.mem_cons_of_mem x hi)
      simp only [List.count_cons, Finset.sum_add_distrib, ← ih]
      cases x with
      | none => simp
      | some k =>
          have hk : k ∈ Finset.range n := Finset.mem_range.mpr (h k List.mem_cons_self)
          simp [Finset.sum_ite_eq, Finset.mem_range.mp hk]

/-- What stands at a position after an element was replaced. -/
theorem getElem?_set_eq_some {l : List α} {i j : Nat} {a b : α} (h : (l.set i a)[j]? = some b) :
    (j = i ∧ b = a) ∨ (j ≠ i ∧ l[j]? = some b) := by
  by_cases hij : i = j
  · subst hij
    obtain ⟨hlt, hb⟩ := List.getElem?_eq_some_iff.mp h
    rw [List.getElem_set_self] at hb
    exact Or.inl ⟨rfl, hb.symm⟩
  · rw [List.getElem?_set_ne hij] at h
    exact Or.inr ⟨Ne.symm hij, h⟩

/-- What stands at a position after one more element came. -/
theorem getElem?_concat_eq_some {l : List α} {j : Nat} {a b : α} (h : (l ++ [a])[j]? = some b) :
    l[j]? = some b ∨ (j = l.length ∧ b = a) := by
  rw [List.getElem?_append] at h
  split at h
  · exact Or.inl h
  · rw [List.getElem?_singleton] at h
    split at h
    next hzero => exact Or.inr ⟨by omega, (Option.some.inj h).symm⟩
    next => cases h

/-- What a `filterMap` makes of one more element. -/
theorem filterMap_concat {β : Type*} (f : α → Option β) (as : List α) (a : α) :
    (as ++ [a]).filterMap f = as.filterMap f ++ (f a).toList := by
  rw [List.filterMap_append]
  cases h : f a <;> simp [h]

/-- A computation over a list succeeds exactly when it does on every element. -/
theorem mapM_isSome_iff {β : Type*} {f : α → Option β} {l : List α} :
    (l.mapM f).isSome ↔ ∀ x ∈ l, (f x).isSome := by
  induction l with
  | nil => simp
  | cons a l ih =>
      rw [List.mapM_cons, List.forall_mem_cons, ← ih]
      cases f a with
      | none => simp
      | some b =>
          cases l.mapM f with
          | none => simp
          | some bs => simp

end Lib
end BrowserHeadless
