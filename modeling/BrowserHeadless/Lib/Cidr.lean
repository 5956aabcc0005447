/-
  BrowserHeadless.Lib.Cidr

  Blocks of addresses: all addresses that share their leading bits.

  The lemmas take a block of concatenated addresses apart, one part at a time, and
  turn containment into the comparison under a mask that code uses.
-/

import Mathlib.Data.List.Basic

namespace BrowserHeadless
namespace Lib

/-- The block `base/len` of `w`-bit addresses. -/
structure Cidr (w : Nat) where
  base : BitVec w
  len : Nat
deriving DecidableEq, Repr

namespace Cidr

variable {u v w : Nat}

/-- The addresses that agree with `base` on the first `len` bits. -/
def Contains (c : Cidr w) (x : BitVec w) : Prop := x >>> (w - c.len) = c.base >>> (w - c.len)

instance (c : Cidr w) (x : BitVec w) : Decidable (c.Contains x) :=
  inferInstanceAs (Decidable (_ = _))

theorem contains_iff {c : Cidr w} {x : BitVec w} :
    c.Contains x ↔ ∀ i, w - c.len ≤ i → i < w → x.getLsbD i = c.base.getLsbD i := by
  constructor
  · intro h i hlo hi
    have hbit := congrArg (fun y : BitVec w => y.getLsbD (i - (w - c.len))) h
    simpa only [BitVec.getLsbD_ushiftRight, Nat.add_sub_cancel' hlo] using hbit
  · intro h
    refine BitVec.eq_of_getLsbD_eq fun i _ => ?_
    rw [BitVec.getLsbD_ushiftRight, BitVec.getLsbD_ushiftRight]
    by_cases hi : w - c.len + i < w
    · exact h _ (Nat.le_add_right _ _) hi
    · rw [BitVec.getLsbD_of_ge _ _ (Nat.not_lt.mp hi), BitVec.getLsbD_of_ge _ _ (Nat.not_lt.mp hi)]

/-- A block of length `w` is one address. -/
theorem contains_full {base x : BitVec w} : (Cidr.mk base w).Contains x ↔ x = base := by
  rw [contains_iff]
  constructor
  · intro h
    exact BitVec.eq_of_getLsbD_eq fun i hi => h i (by simp) hi
  · rintro rfl _ _ _
    rfl

/-- A block no longer than the first part of the address. -/
theorem contains_append_left {base x : BitVec u} {rest y : BitVec v} {len : Nat} (h : len ≤ u) :
    (Cidr.mk (base ++ rest) len).Contains (x ++ y) ↔ (Cidr.mk base len).Contains x := by
  rw [contains_iff, contains_iff]
  dsimp only
  constructor
  · intro hbits i hlo hi
    have hbit := hbits (i + v) (by omega) (by omega)
    have hge : ¬ i + v < v := by omega
    simpa only [BitVec.getLsbD_append, if_neg hge, Nat.add_sub_cancel] using hbit
  · intro hbits i hlo hi
    have hge : ¬ i < v := by omega
    rw [BitVec.getLsbD_append, BitVec.getLsbD_append, if_neg hge, if_neg hge]
    exact hbits (i - v) (by omega) (by omega)

/-- A block that fixes the first part of the address. -/
theorem contains_append_right {base x : BitVec u} {rest y : BitVec v} {len : Nat} :
    (Cidr.mk (base ++ rest) (u + len)).Contains (x ++ y) ↔
      x = base ∧ (Cidr.mk rest len).Contains y := by
  rw [contains_iff, contains_iff]
  dsimp only
  constructor
  · intro hbits
    constructor
    · refine BitVec.eq_of_getLsbD_eq fun i hi => ?_
      have hbit := hbits (i + v) (by omega) (by omega)
      have hge : ¬ i + v < v := by omega
      simpa only [BitVec.getLsbD_append, if_neg hge, Nat.add_sub_cancel] using hbit
    · intro i hlo hi
      have hbit := hbits i (by omega) (by omega)
      simpa only [BitVec.getLsbD_append, if_pos hi] using hbit
  · rintro ⟨rfl, hbits⟩ i hlo hi
    rw [BitVec.getLsbD_append, BitVec.getLsbD_append]
    split
    next hlt => exact hbits i (by omega) hlt
    next => rfl

/-- A longer block is inside the shorter one that holds its base. -/
theorem Contains.trans {c d : Cidr w} {x : BitVec w} (hlen : c.len ≤ d.len)
    (hbase : c.Contains d.base) (h : d.Contains x) : c.Contains x := by
  rw [contains_iff] at h hbase ⊢
  intro i hlo hi
  rw [h i (by omega) hi]
  exact hbase i hlo hi

/-- Two blocks with an address in common are nested. -/
theorem Contains.nested {c d : Cidr w} {x : BitVec w} (hc : c.Contains x) (hd : d.Contains x)
    (hlen : c.len ≤ d.len) : c.Contains d.base := by
  rw [contains_iff] at hc hd ⊢
  intro i hlo hi
  rw [← hd i (by omega) hi]
  exact hc i hlo hi

/-- Two blocks are apart: neither holds the base of the other. -/
def Apart (c d : Cidr w) : Prop := ¬ c.Contains d.base ∧ ¬ d.Contains c.base

instance apartDecidable (c d : Cidr w) : Decidable (c.Apart d) :=
  inferInstanceAs (Decidable (_ ∧ _))

/-- Blocks that are apart share no address. -/
theorem Apart.not_contains {c d : Cidr w} {x : BitVec w} (h : c.Apart d) (hc : c.Contains x) :
    ¬ d.Contains x := by
  intro hd
  rcases Nat.le_total c.len d.len with hlen | hlen
  · exact h.1 (hc.nested hd hlen)
  · exact h.2 (hd.nested hc hlen)

/-- Comparison under a mask of `len` leading ones. -/
theorem contains_iff_mask {c : Cidr w} {x : BitVec w} :
    c.Contains x ↔ x &&& BitVec.allOnes w <<< (w - c.len) =
      c.base &&& BitVec.allOnes w <<< (w - c.len) := by
  have hmask : ∀ (y : BitVec w) (i : Nat), i < w →
      (y &&& BitVec.allOnes w <<< (w - c.len)).getLsbD i
        = (y.getLsbD i && decide (w - c.len ≤ i)) := by
    intro y i hi
    have hsub : i - (w - c.len) < w := by omega
    have hshift : (BitVec.allOnes w <<< (w - c.len)).getLsbD i = decide (w - c.len ≤ i) := by
      rw [BitVec.getLsbD_shiftLeft, BitVec.getLsbD_allOnes]
      by_cases hlo : i < w - c.len
      · simp only [hi, hlo, Nat.not_le.mpr hlo, decide_true, decide_false, Bool.not_true,
          Bool.and_false, Bool.false_and]
      · simp only [hi, hlo, hsub, Nat.not_lt.mp hlo, decide_true, decide_false, Bool.not_false,
          Bool.and_self]
    rw [BitVec.getLsbD_and, hshift]
  rw [contains_iff]
  constructor
  · intro h
    refine BitVec.eq_of_getLsbD_eq fun i hi => ?_
    rw [hmask x i hi, hmask c.base i hi]
    by_cases hlo : w - c.len ≤ i
    · rw [h i hlo hi]
    · simp [hlo]
  · intro h i hlo hi
    have hbit := congrArg (fun y : BitVec w => y.getLsbD i) h
    simpa [hmask x i hi, hmask c.base i hi, hlo] using hbit

end Cidr
end Lib
end BrowserHeadless
