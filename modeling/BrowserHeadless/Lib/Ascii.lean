/-
  BrowserHeadless.Lib.Ascii

  The case of ASCII letters.  What takes the same value on all letters does not see their
  case (`apply_toLower`).
-/

import Mathlib.Data.List.Basic

namespace BrowserHeadless
namespace Lib

theorem isAlpha_iff (c : Char) : c.isAlpha = true ↔
    (65 ≤ c.toNat ∧ c.toNat ≤ 90) ∨ (97 ≤ c.toNat ∧ c.toNat ≤ 122) := by
  have hupper : c.isUpper = true ↔ 65 ≤ c.toNat ∧ c.toNat ≤ 90 := decide_eq_true_iff
  have hlower : c.isLower = true ↔ 97 ≤ c.toNat ∧ c.toNat ≤ 122 :=
    (Bool.and_eq_true_iff).trans (and_congr decide_eq_true_iff decide_eq_true_iff)
  show (c.isUpper || c.isLower) = true ↔ _
  rw [Bool.or_eq_true, hupper, hlower]

theorem toNat_of_isAlpha {c : Char} (h : c.isAlpha = true) : 65 ≤ c.toNat ∧ c.toNat ≤ 122 := by
  have hrange := (isAlpha_iff c).mp h
  omega

theorem toNat_toLower (c : Char) :
    c.toLower.toNat = if 65 ≤ c.toNat ∧ c.toNat ≤ 90 then c.toNat + 32 else c.toNat := by
  unfold Char.toLower
  split
  next h =>
    have hrange : 65 ≤ c.toNat ∧ c.toNat ≤ 90 := h
    rw [if_pos hrange]
    show (c.val + 32).toNat = c.toNat + 32
    rw [UInt32.toNat_add]
    show (c.toNat + 32) % 2 ^ 32 = c.toNat + 32
    omega
  next h => exact (if_neg h).symm

theorem toNat_toUpper (c : Char) :
    c.toUpper.toNat = if 97 ≤ c.toNat ∧ c.toNat ≤ 122 then c.toNat - 32 else c.toNat := by
  unfold Char.toUpper
  split
  next h =>
    have hrange : 97 ≤ c.toNat ∧ c.toNat ≤ 122 := h
    rw [if_pos hrange]
    have hoffset : ('A'.val - 'a'.val).toNat = 2 ^ 32 - 32 := by decide
    show (c.val + ('A'.val - 'a'.val)).toNat = c.toNat - 32
    rw [UInt32.toNat_add, hoffset]
    show (c.toNat + (2 ^ 32 - 32)) % 2 ^ 32 = c.toNat - 32
    omega
  next h => exact (if_neg h).symm

theorem toLower_toLower (c : Char) : c.toLower.toLower = c.toLower := by
  rw [← Char.toNat_inj, toNat_toLower, toNat_toLower]
  grind

theorem toLower_toUpper (c : Char) : c.toUpper.toLower = c.toLower := by
  rw [← Char.toNat_inj, toNat_toLower, toNat_toLower, toNat_toUpper]
  grind

/-- A letter in lower case is a letter, and any other character stays. -/
theorem toLower_cases (c : Char) :
    (c.isAlpha = true ∧ c.toLower.isAlpha = true) ∨ c.toLower = c := by
  rw [isAlpha_iff, isAlpha_iff, ← Char.toNat_inj, toNat_toLower]
  split <;> omega

theorem toUpper_cases (c : Char) :
    (c.isAlpha = true ∧ c.toUpper.isAlpha = true) ∨ c.toUpper = c := by
  rw [isAlpha_iff, isAlpha_iff, ← Char.toNat_inj, toNat_toUpper]
  split <;> omega

section Letters

variable {β : Type*} {f : Char → β} {b : β}

/-- What takes one value on the letters does not see their case. -/
theorem apply_toLower (h : ∀ c : Char, c.isAlpha = true → f c = b) (c : Char) :
    f c.toLower = f c := by
  rcases toLower_cases c with ⟨hc, hlower⟩ | heq
  · rw [h c hc, h _ hlower]
  · rw [heq]

theorem apply_toUpper (h : ∀ c : Char, c.isAlpha = true → f c = b) (c : Char) :
    f c.toUpper = f c := by
  rcases toUpper_cases c with ⟨hc, hupper⟩ | heq
  · rw [h c hc, h _ hupper]
  · rw [heq]

end Letters

/-- No letter becomes, in another case, a character that is no letter. -/
theorem toLower_eq_iff {x : Char} (hx : x.isAlpha = false) (c : Char) :
    c.toLower = x ↔ c = x := by
  have h := apply_toLower (f := fun c => decide (c = x)) (b := false)
    (fun c hc => decide_eq_false fun heq => by rw [heq, hx] at hc; exact absurd hc (by decide)) c
  exact decide_eq_decide.mp h

end Lib
end BrowserHeadless
