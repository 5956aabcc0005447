/-
  BrowserHeadless.Lib.Joined

  Words that are split at a separator and joined with it again.

  Words without the separator can be read back from the joined text.  Words that may
  contain it can too, as long as no word goes on, behind a separator, where another one
  ends (`intercalate_injective`).
-/

import Mathlib.Data.List.Basic
import Mathlib.Data.List.DropRight

namespace BrowserHeadless
namespace Lib

variable {α : Type*}

/-- One text that is cut at two separators: in one place, or one cut is behind the other. -/
theorem append_cons_cases {sep : α} {xs xs' ys ys' : List α}
    (heq : xs ++ sep :: ys = xs' ++ sep :: ys') :
    (xs = xs' ∧ ys = ys') ∨ (∃ m, xs' = xs ++ sep :: m) ∨ ∃ m, xs = xs' ++ sep :: m := by
  rcases List.append_eq_append_iff.mp heq with ⟨m, hxs, hys⟩ | ⟨m, hxs, hys⟩
  · cases m with
    | nil =>
        rw [List.append_nil] at hxs
        exact Or.inl ⟨hxs.symm, (List.cons.inj hys).2⟩
    | cons b m =>
        obtain ⟨rfl, -⟩ := List.cons.inj hys
        exact Or.inr (Or.inl ⟨m, hxs⟩)
  · cases m with
    | nil =>
        rw [List.append_nil] at hxs
        exact Or.inl ⟨hxs, (List.cons.inj hys).2.symm⟩
    | cons b m =>
        obtain ⟨rfl, -⟩ := List.cons.inj hys
        exact Or.inr (Or.inr ⟨m, hxs⟩)

/-- Two texts that are cut at the first separator. -/
theorem append_cons_inj_of_notMem {sep : α} {xs xs' ys ys' : List α} (h : sep ∉ xs)
    (h' : sep ∉ xs') (heq : xs ++ sep :: ys = xs' ++ sep :: ys') : xs = xs' ∧ ys = ys' := by
  rcases append_cons_cases heq with hsame | ⟨m, rfl⟩ | ⟨m, rfl⟩
  · exact hsame
  · exact absurd (List.mem_append_right xs List.mem_cons_self) h'
  · exact absurd (List.mem_append_right xs' List.mem_cons_self) h

/-- A separator behind a part without it. -/
theorem append_eq_append_cons_of_notMem {sep : α} {xs ys zs ws : List α} (h : sep ∉ xs)
    (heq : xs ++ ys = zs ++ sep :: ws) : ∃ m, zs = xs ++ m ∧ ys = m ++ sep :: ws := by
  rcases List.append_eq_append_iff.mp heq with ⟨m, hzs, hys⟩ | ⟨m, hxs, hws⟩
  · exact ⟨m, hzs, hys⟩
  · cases m with
    | nil =>
        rw [List.append_nil] at hxs
        exact ⟨[], by rw [hxs, List.append_nil], hws.symm⟩
    | cons b m =>
        obtain ⟨rfl, -⟩ := List.cons.inj hws
        exact absurd (by rw [hxs]; simp) h

/-- And one before a part without it. -/
theorem append_eq_append_cons_of_notMem_right {sep : α} {xs ys zs ws : List α} (h : sep ∉ ys)
    (heq : xs ++ ys = zs ++ sep :: ws) : ∃ m, xs = zs ++ sep :: m := by
  rcases List.append_eq_append_iff.mp heq with ⟨m, hzs, hys⟩ | ⟨m, hxs, hws⟩
  · exact absurd (by rw [hys]; simp) h
  · cases m with
    | nil => exact absurd (by rw [← List.nil_append ys, ← hws]; simp) h
    | cons b m =>
        obtain ⟨rfl, -⟩ := List.cons.inj hws
        exact ⟨m, hxs⟩

/-! ## Cutting at the ends -/

section Ends

variable {p : α → Bool} {y : α}

theorem dropWhile_append_cons (h : p y = false) (xs ys : List α) :
    (xs ++ y :: ys).dropWhile p = xs.dropWhile p ++ y :: ys := by
  rw [List.dropWhile_append, List.dropWhile_cons_of_neg (Bool.eq_false_iff.mp h)]
  split
  next hempty => rw [List.isEmpty_iff.mp hempty, List.nil_append]
  next => rfl

theorem rdropWhile_append_cons (h : p y = false) (xs ys : List α) :
    (xs ++ y :: ys).rdropWhile p = xs ++ y :: ys.rdropWhile p := by
  rw [List.rdropWhile, List.reverse_append, List.reverse_cons, List.append_assoc,
    List.singleton_append, dropWhile_append_cons h, List.reverse_append, List.reverse_cons,
    List.reverse_reverse, List.rdropWhile, List.append_assoc, List.singleton_append]

theorem mem_takeWhile_of_prefix {x : α} {xs ys : List α} (h : xs <+: ys)
    (hx : x ∈ xs.takeWhile p) : x ∈ ys.takeWhile p := by
  obtain ⟨zs, rfl⟩ := h
  rw [List.takeWhile_append]
  split
  next => exact List.mem_append_left _ ((List.takeWhile_prefix p).subset hx)
  next => exact hx

end Ends

/-! ## Splitting -/

section Split

variable [BEq α] [LawfulBEq α] {sep : α}

theorem splitOn_append_of_notMem {xs : List α} (h : sep ∉ xs) (ys : List α) :
    (xs ++ ys).splitOn sep = (ys.splitOn sep).modifyHead (xs ++ ·) := by
  induction xs with
  | nil =>
      rw [List.nil_append]
      cases ys.splitOn sep <;> rfl
  | cons x xs ih =>
      rw [List.mem_cons, not_or] at h
      rw [List.cons_append, List.splitOn_cons_eq_if_modifyHead,
        if_neg (by simpa using Ne.symm h.1), ih h.2]
      cases ys.splitOn sep <;> rfl

/-- The first part starts the text. -/
theorem prefix_of_splitOn {xs first : List α} {more : List (List α)}
    (h : xs.splitOn sep = first :: more) : first <+: xs := by
  have hjoin := (List.intercalate_splitOn sep : [sep].intercalate (xs.splitOn sep) = xs)
  rw [h] at hjoin
  cases more with
  | nil =>
      rw [List.intercalate_singleton] at hjoin
      exact ⟨[], by rw [List.append_nil, hjoin]⟩
  | cons next more =>
      rw [List.intercalate_cons_cons, List.append_assoc] at hjoin
      exact ⟨_, hjoin⟩

/-- The parts do not contain the separator. -/
theorem notMem_of_mem_splitOn {xs part : List α} (h : part ∈ xs.splitOn sep) : sep ∉ part := by
  induction xs generalizing part with
  | nil =>
      rw [List.splitOn_nil, List.mem_singleton] at h
      rw [h]
      exact List.not_mem_nil
  | cons x xs ih =>
      rw [List.splitOn_cons_eq_if_modifyHead] at h
      obtain ⟨first, more, hsplit⟩ := List.exists_cons_of_ne_nil (List.splitOn_ne_nil sep xs)
      rw [hsplit] at h ih
      split at h
      next =>
          rcases List.mem_cons.mp h with rfl | hmem
          · exact List.not_mem_nil
          · exact ih hmem
      next hx =>
          rcases List.mem_cons.mp h with rfl | hmem
          · rw [List.mem_cons, not_or]
            exact ⟨fun heq => hx (by simp [heq]), ih List.mem_cons_self⟩
          · exact ih (List.mem_cons_of_mem _ hmem)

omit [LawfulBEq α] in
theorem length_splitOn (xs : List α) : (xs.splitOn sep).length = xs.count sep + 1 := by
  induction xs with
  | nil => rfl
  | cons x xs ih =>
      rw [List.splitOn_cons_eq_if_modifyHead, List.count_cons]
      split
      next => rw [List.length_cons, ih]
      next => rw [List.length_modifyHead, ih, Nat.add_zero]

end Split

/-! ## Reading joined words -/

/-- No word goes on behind a separator where another one ends. -/
def SelfDelimiting (sep : α) (Word : List α → Prop) : Prop :=
  ∀ w w' rest, Word w → Word w' → w' ≠ w ++ sep :: rest

/-- Self-delimiting words can be read back. -/
theorem intercalate_injective {sep : α} {Word : List α → Prop} (hword : SelfDelimiting sep Word)
    {ws ws' : List (List α)} (hne : ws ≠ []) (hne' : ws' ≠ []) (h : ∀ w ∈ ws, Word w)
    (h' : ∀ w ∈ ws', Word w) (heq : [sep].intercalate ws = [sep].intercalate ws') : ws = ws' := by
  induction ws generalizing ws' with
  | nil => exact absurd rfl hne
  | cons w rest ih =>
      obtain ⟨w', rest', rfl⟩ := List.exists_cons_of_ne_nil hne'
      have hw := h w List.mem_cons_self
      have hw' := h' w' List.mem_cons_self
      cases rest with
      | nil =>
          cases rest' with
          | nil =>
              rw [List.intercalate_singleton, List.intercalate_singleton] at heq
              rw [heq]
          | cons v' rest' =>
              rw [List.intercalate_singleton, List.intercalate_cons_cons, List.append_assoc] at heq
              exact absurd heq (hword w' w _ hw' hw)
      | cons v rest =>
          cases rest' with
          | nil =>
              rw [List.intercalate_singleton, List.intercalate_cons_cons, List.append_assoc] at heq
              exact absurd heq.symm (hword w w' _ hw hw')
          | cons v' rest' =>
              rw [List.intercalate_cons_cons, List.intercalate_cons_cons, List.append_assoc,
                List.append_assoc, List.singleton_append, List.singleton_append] at heq
              -- the first words end together: neither goes on behind the other
              rcases append_cons_cases heq with ⟨hfirst, hrest⟩ | ⟨m, hm⟩ | ⟨m, hm⟩
              · rw [hfirst, ih (List.cons_ne_nil v rest) (List.cons_ne_nil v' rest')
                  (fun x hx => h x (List.mem_cons_of_mem _ hx))
                  (fun x hx => h' x (List.mem_cons_of_mem _ hx)) hrest]
              · exact absurd hm (hword w w' m hw hw')
              · exact absurd hm (hword w' w m hw' hw)

end Lib
end BrowserHeadless
