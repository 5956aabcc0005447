/-
  BrowserHeadless.Lib.Utf8

  Slicing text at a byte index.

  A text is a list of characters, each as wide as its UTF-8 encoding.  `&s[i..]` and
  `&s[..i]` panic unless `i` is at the boundary of two characters or at an end of the
  text; here they have no value.
-/

import Mathlib.Algebra.BigOperators.Group.List.Basic
import Mathlib.Algebra.Order.Ring.Nat

namespace BrowserHeadless
namespace Lib
namespace Utf8

/-- The bytes of a text. -/
def byteLen (s : List Char) : Nat := (s.map Char.utf8Size).sum

@[simp] theorem byteLen_nil : byteLen [] = 0 := rfl

@[simp] theorem byteLen_cons (c : Char) (s : List Char) :
    byteLen (c :: s) = c.utf8Size + byteLen s := rfl

theorem byteLen_append (s t : List Char) : byteLen (s ++ t) = byteLen s + byteLen t := by
  simp only [byteLen, List.map_append, List.sum_append]

/-- The bytes of a string are those of its characters. -/
theorem utf8ByteSize_eq (s : String) : s.utf8ByteSize = byteLen s.toList := by
  obtain ⟨l, rfl⟩ : ∃ l, s = String.ofList l := ⟨s.toList, String.ofList_toList.symm⟩
  rw [String.toList_ofList]
  induction l with
  | nil => rfl
  | cons c l ih =>
      rw [String.ofList_cons, String.utf8ByteSize_append, String.utf8ByteSize_singleton, ih,
        byteLen_cons]

/-- `split_at`: the text before the `i`-th byte and the text from there on. -/
def splitAt : Nat → List Char → Option (List Char × List Char)
  | 0, s => some ([], s)
  | _ + 1, [] => none
  | i + 1, c :: s =>
      if c.utf8Size ≤ i + 1 then (splitAt (i + 1 - c.utf8Size) s).map fun (p, q) => (c :: p, q)
      else none

/-- `&s[i..]`. -/
def sliceFrom (s : String) (i : Nat) : Option String :=
  (splitAt i s.toList).map fun (_, q) => String.ofList q

/-- `&s[..i]`. -/
def sliceTo (s : String) (i : Nat) : Option String :=
  (splitAt i s.toList).map fun (p, _) => String.ofList p

/-- A split puts the text back together, `i` bytes before the cut. -/
theorem of_splitAt_eq_some {i : Nat} {s p q : List Char} (h : splitAt i s = some (p, q)) :
    s = p ++ q ∧ byteLen p = i := by
  induction s generalizing i p q with
  | nil =>
      cases i with
      | zero =>
          cases h
          exact ⟨rfl, rfl⟩
      | succ i => cases h
  | cons c s ih =>
      cases i with
      | zero =>
          cases h
          exact ⟨rfl, rfl⟩
      | succ i =>
          rw [splitAt] at h
          split at h
          case isTrue hfit =>
            obtain ⟨⟨p', q'⟩, hsplit, heq⟩ := Option.map_eq_some_iff.mp h
            obtain ⟨hs, hlen⟩ := ih hsplit
            cases heq
            refine ⟨by rw [hs, List.cons_append], ?_⟩
            rw [byteLen_cons]
            omega
          case isFalse => cases h

/-! ## Where a cut is safe -/

/-- The `i`-th byte of `s` lies inside a character, behind its first byte. -/
def Straddles (s : List Char) (i : Nat) : Prop :=
  ∃ p c q, s = p ++ c :: q ∧ byteLen p < i ∧ i < byteLen p + c.utf8Size

/-- Within the text, a cut fails exactly inside a character. -/
theorem splitAt_isSome_iff {s : List Char} {i : Nat} (hi : i ≤ byteLen s) :
    (splitAt i s).isSome ↔ ¬ Straddles s i := by
  induction s generalizing i with
  | nil =>
      obtain rfl : i = 0 := Nat.le_zero.mp hi
      refine iff_of_true rfl ?_
      rintro ⟨p, c, q, hs, -⟩
      exact List.cons_ne_nil c q (List.append_eq_nil_iff.mp hs.symm).2
  | cons c s ih =>
      have hc := Char.utf8Size_pos c
      rw [byteLen_cons] at hi
      cases i with
      | zero =>
          refine iff_of_true rfl ?_
          rintro ⟨p, d, q, -, hlt, -⟩
          exact Nat.not_lt_zero _ hlt
      | succ i =>
          by_cases hfit : c.utf8Size ≤ i + 1
          · rw [splitAt, if_pos hfit, Option.isSome_map, ih (by omega), not_iff_not]
            constructor
            · rintro ⟨p, d, q, rfl, hlt, hle⟩
              refine ⟨c :: p, d, q, rfl, ?_, ?_⟩
              · rw [byteLen_cons]
                omega
              · rw [byteLen_cons]
                omega
            · rintro ⟨p, d, q, hs, hlt, hle⟩
              cases p with
              | nil =>
                  -- the first character ends before the cut
                  obtain ⟨rfl, -⟩ := List.cons.inj hs
                  rw [byteLen_nil] at hle
                  omega
              | cons e p =>
                  obtain ⟨rfl, rfl⟩ := List.cons.inj hs
                  rw [byteLen_cons] at hlt hle
                  exact ⟨p, d, q, rfl, by omega, by omega⟩
          · rw [splitAt, if_neg hfit]
            refine iff_of_false nofun (not_not_intro ⟨[], c, s, rfl, ?_, ?_⟩)
            · exact Nat.succ_pos i
            · rw [byteLen_nil]
              omega

/-- ASCII text can be cut anywhere. -/
theorem not_straddles_of_ascii {s : List Char} (hs : ∀ c ∈ s, c.utf8Size = 1) (i : Nat) :
    ¬ Straddles s i := by
  rintro ⟨p, c, q, rfl, hlt, hle⟩
  have hc := hs c (List.mem_append_right p List.mem_cons_self)
  omega

end Utf8
end Lib
end BrowserHeadless
