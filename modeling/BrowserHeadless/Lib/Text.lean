/-
  BrowserHeadless.Lib.Text

  Texts as lists of characters: blanks trimmed from the two ends, a cut at the first
  separator, and the words between blanks.

  What is blank, and what separates, are parameters.
-/

import BrowserHeadless.Lib.Joined

namespace BrowserHeadless
namespace Lib

variable {α β : Type*}

/-! ## Trimming -/

section Trim

variable {p : α → Bool}

/-- The text without the elements of `p` at its two ends. -/
def trim (p : α → Bool) (xs : List α) : List α := (xs.dropWhile p).rdropWhile p

theorem dropWhile_of_all {xs : List α} (h : ∀ x ∈ xs, p x = true) : xs.dropWhile p = [] :=
  List.dropWhile_eq_nil_iff.mpr h

theorem rdropWhile_append_of_all {xs blanks : List α} (h : ∀ x ∈ blanks, p x = true) :
    (xs ++ blanks).rdropWhile p = xs.rdropWhile p := by
  rw [List.rdropWhile, List.reverse_append,
    List.dropWhile_append_of_pos fun x hx => h x (List.mem_reverse.mp hx), List.rdropWhile]

theorem trim_append_left {xs blanks : List α} (h : ∀ x ∈ blanks, p x = true) :
    trim p (blanks ++ xs) = trim p xs := by
  rw [trim, List.dropWhile_append_of_pos h, trim]

theorem trim_append_right {xs blanks : List α} (h : ∀ x ∈ blanks, p x = true) :
    trim p (xs ++ blanks) = trim p xs := by
  rw [trim, List.dropWhile_append]
  split
  next hempty => rw [dropWhile_of_all h, trim, List.isEmpty_iff.mp hempty]
  next => rw [rdropWhile_append_of_all h, trim]

theorem trim_prefix_dropWhile (xs : List α) : trim p xs <+: xs.dropWhile p :=
  List.rdropWhile_prefix p _

theorem trim_sublist (xs : List α) : (trim p xs).Sublist xs :=
  (trim_prefix_dropWhile xs).sublist.trans (List.dropWhile_suffix p).sublist

theorem mem_of_mem_trim {x : α} {xs : List α} (h : x ∈ trim p xs) : x ∈ xs :=
  (trim_sublist xs).subset h

theorem dropWhile_trim (xs : List α) : (trim p xs).dropWhile p = trim p xs := by
  rw [List.dropWhile_eq_self_iff]
  intro hlen
  have hpre := trim_prefix_dropWhile (p := p) xs
  have hlen' : 0 < (xs.dropWhile p).length := Nat.lt_of_lt_of_le hlen hpre.length_le
  rw [hpre.getElem hlen]
  exact List.dropWhile_eq_self_iff.mp (List.dropWhile_idempotent p xs) hlen'

/-- What is trimmed stays as it is. -/
theorem trim_trim (xs : List α) : trim p (trim p xs) = trim p xs := by
  rw [trim, dropWhile_trim]
  exact List.rdropWhile_idempotent p _

theorem dropWhile_of_trim {xs : List α} (h : trim p xs = xs) : xs.dropWhile p = xs := by
  rw [← h]
  exact dropWhile_trim xs

theorem rdropWhile_of_trim {xs : List α} (h : trim p xs = xs) : xs.rdropWhile p = xs := by
  rw [trim, dropWhile_of_trim h] at h
  exact h

/-- An element outside of `p` keeps what stands on its other side. -/
theorem trim_append_cons {y : α} (hy : p y = false) (xs ys : List α) :
    trim p (xs ++ y :: ys) = xs.dropWhile p ++ y :: ys.rdropWhile p := by
  rw [trim, dropWhile_append_cons hy, rdropWhile_append_cons hy]

/-- Trimmed texts around such an element are one trimmed text. -/
theorem trim_append_cons_of_trim {y : α} (hy : p y = false) {xs ys : List α}
    (hxs : trim p xs = xs) (hys : trim p ys = ys) : trim p (xs ++ y :: ys) = xs ++ y :: ys := by
  rw [trim_append_cons hy, dropWhile_of_trim hxs, rdropWhile_of_trim hys]

/-- The two ends may be trimmed in the other order. -/
theorem dropWhile_rdropWhile (xs : List α) : (xs.rdropWhile p).dropWhile p = trim p xs := by
  by_cases hall : ∀ x ∈ xs, p x = true
  · have hr : ([] ++ xs).rdropWhile p = ([] : List α).rdropWhile p :=
      rdropWhile_append_of_all hall
    rw [List.nil_append] at hr
    rw [hr, trim, dropWhile_of_all hall]
    rfl
  · obtain ⟨y, hy⟩ := not_forall.mp hall
    obtain ⟨hmem, hpy⟩ := Classical.not_imp.mp hy
    obtain ⟨before, behind, rfl⟩ := List.append_of_mem hmem
    have hpy' := Bool.eq_false_iff.mpr hpy
    rw [rdropWhile_append_cons hpy', dropWhile_append_cons hpy', trim_append_cons hpy']

theorem dropWhile_map_of {f : α → β} {q : β → Bool} (h : ∀ x, q (f x) = p x) (xs : List α) :
    (xs.map f).dropWhile q = (xs.dropWhile p).map f := by
  rw [List.dropWhile_map, show q ∘ f = p from funext h]

theorem rdropWhile_map_of {f : α → β} {q : β → Bool} (h : ∀ x, q (f x) = p x) (xs : List α) :
    (xs.map f).rdropWhile q = (xs.rdropWhile p).map f := by
  rw [List.rdropWhile, ← List.map_reverse, dropWhile_map_of h, ← List.map_reverse,
    List.rdropWhile]

theorem trim_map {f : α → β} {q : β → Bool} (h : ∀ x, q (f x) = p x) (xs : List α) :
    trim q (xs.map f) = (trim p xs).map f := by
  rw [trim, dropWhile_map_of h, rdropWhile_map_of h, trim]

end Trim

/-! ## Splitting -/

section SplitMap

variable [BEq α] [LawfulBEq α] [BEq β] [LawfulBEq β]

/-- A function that alone sends the separator to the separator commutes with splitting. -/
theorem splitOn_map {f : α → β} {sep : α} {sep' : β} (h : ∀ x, f x = sep' ↔ x = sep)
    (xs : List α) : (xs.map f).splitOn sep' = (xs.splitOn sep).map (List.map f) := by
  induction xs with
  | nil => rfl
  | cons x xs ih =>
      rw [List.map_cons, List.splitOn_cons_eq_if_modifyHead, List.splitOn_cons_eq_if_modifyHead, ih]
      by_cases hx : x = sep
      · rw [if_pos (by simpa using (h x).mpr hx), if_pos (by simpa using hx), List.map_cons,
          List.map_nil]
      · rw [if_neg (by simpa using mt (h x).mp hx), if_neg (by simpa using hx)]
        cases xs.splitOn sep <;> rfl

omit [BEq α] [LawfulBEq α] [BEq β] [LawfulBEq β] in
theorem map_intercalate (f : α → β) (sep : List α) (parts : List (List α)) :
    (sep.intercalate parts).map f = (sep.map f).intercalate (parts.map (List.map f)) := by
  induction parts with
  | nil => rfl
  | cons part parts ih =>
      cases parts with
      | nil =>
          rw [List.map_cons, List.map_nil, List.intercalate_singleton, List.intercalate_singleton]
      | cons next parts =>
          rw [List.intercalate_cons_cons, List.map_append, List.map_append, ih, List.map_cons,
            List.map_cons, List.map_cons, List.intercalate_cons_cons]

end SplitMap

section SplitOnce

variable [BEq α] {sep : α}

/-- The texts before and behind the first separator. -/
def splitOnce (sep : α) : List α → Option (List α × List α)
  | [] => none
  | x :: xs =>
      if x == sep then some ([], xs)
      else (splitOnce sep xs).map fun parts => (x :: parts.1, parts.2)

variable [LawfulBEq α]

theorem splitOnce_eq_none_iff {xs : List α} : splitOnce sep xs = none ↔ sep ∉ xs := by
  induction xs with
  | nil => simp [splitOnce]
  | cons x xs ih =>
      rw [splitOnce, List.mem_cons, not_or, ← ih, eq_comm (a := sep)]
      by_cases hx : x = sep <;> simp [hx]

theorem splitOnce_append_cons {xs : List α} (h : sep ∉ xs) (ys : List α) :
    splitOnce sep (xs ++ sep :: ys) = some (xs, ys) := by
  induction xs with
  | nil => simp [splitOnce]
  | cons x xs ih =>
      rw [List.mem_cons, not_or] at h
      rw [List.cons_append, splitOnce, if_neg (by simpa using Ne.symm h.1), ih h.2,
        Option.map_some]

theorem splitOnce_eq_some_iff {xs before behind : List α} :
    splitOnce sep xs = some (before, behind) ↔ xs = before ++ sep :: behind ∧ sep ∉ before := by
  constructor
  · intro h
    have hmem : sep ∈ xs := by
      by_contra hno
      rw [splitOnce_eq_none_iff.mpr hno] at h
      exact absurd h (by simp)
    obtain ⟨as, bs, rfl, has⟩ := List.eq_append_cons_of_mem hmem
    rw [splitOnce_append_cons has] at h
    obtain ⟨rfl, rfl⟩ := Prod.mk.inj (Option.some.inj h)
    exact ⟨rfl, has⟩
  · rintro ⟨rfl, hno⟩
    exact splitOnce_append_cons hno behind

end SplitOnce

/-! ## Words -/

section Words

variable {p : α → Bool}

/-- The words between elements of `p`. -/
def words (p : α → Bool) (xs : List α) : List (List α) :=
  (xs.splitOnP p).filter fun word => !word.isEmpty

/-- A text of blanks has no words. -/
theorem words_of_all {xs : List α} (h : ∀ x ∈ xs, p x = true) : words p xs = [] := by
  induction xs with
  | nil => rfl
  | cons x xs ih =>
      rw [List.forall_mem_cons] at h
      rw [words, List.splitOnP_cons_eq_if_modifyHead, if_pos h.1, List.filter_cons_of_neg (by simp)]
      exact ih h.2

/-- A text without blanks is one word. -/
theorem words_of_none {xs : List α} (hne : xs ≠ []) (h : ∀ x ∈ xs, p x = false) :
    words p xs = [xs] := by
  rw [words, List.splitOnP_eq_singleton h, List.filter_cons_of_pos (by simpa using hne),
    List.filter_nil]

end Words

end Lib
end BrowserHeadless
