/-
  BrowserHeadless.Lib.JsString

  JSON string literals as JavaScript reads them.

  A JavaScript string token ends at the first quote that is not escaped, so a text that is
  spliced into a script as a JSON literal stays inside its quotes: the token that starts
  with the opening quote has the text as its value and ends with the closing one
  (`readString_escape`).
-/

import Mathlib.Data.List.Basic

namespace BrowserHeadless
namespace Lib

/-! ## Writing -/

/-- A digit of a hexadecimal number, in lower case. -/
def hexDigit (n : Nat) : Char := Char.ofNat (if n < 10 then 48 + n else 87 + n)

/-- The characters that have a short escape, each with its letter. -/
def shortEscapes : List (Char × Char) :=
  [('"', '"'), ('\\', '\\'), ('\x08', 'b'), ('\t', 't'), ('\n', 'n'), ('\x0c', 'f'), ('\r', 'r')]

/-- A character of a JSON string. -/
def escapeChar (c : Char) : List Char :=
  match shortEscapes.find? fun p => p.1 == c with
  | some p => ['\\', p.2]
  | none =>
      if c.toNat < 32 then ['\\', 'u', '0', '0', hexDigit (c.toNat / 16), hexDigit (c.toNat % 16)]
      else [c]

/-- The characters between the quotes. -/
def escape (s : List Char) : List Char := s.flatMap escapeChar

/-! ## Reading -/

/-- The value of a hexadecimal digit. -/
def hexValue (c : Char) : Option Nat :=
  let n := c.toNat
  if 48 ≤ n ∧ n ≤ 57 then some (n - 48)
  else if 97 ≤ n ∧ n ≤ 102 then some (n - 87)
  else if 65 ≤ n ∧ n ≤ 70 then some (n - 55)
  else none

/-- The character with the code of four hexadecimal digits. -/
def readUnicode (a b c d : Char) : Option Char := do
  let a ← hexValue a
  let b ← hexValue b
  let c ← hexValue c
  let d ← hexValue d
  return Char.ofNat (((a * 16 + b) * 16 + c) * 16 + d)

/-- The character that a short escape stands for. -/
def readShort : Char → Option Char
  | 'b' => some '\x08'
  | 't' => some '\t'
  | 'n' => some '\n'
  | 'v' => some '\x0b'
  | 'f' => some '\x0c'
  | 'r' => some '\r'
  | '"' => some '"'
  | '\'' => some '\''
  | '\\' => some '\\'
  | '/' => some '/'
  | _ => none

/-- A string token behind its opening quote: its value, and what comes after the token.
    Escapes that JSON has not are not read. -/
def readString : List Char → Option (List Char × List Char)
  | [] => none
  | c :: s =>
      if c = '"' then some ([], s)
      else if c = '\\' then
        match s with
        | [] => none
        | e :: s =>
            if e = 'u' then
              match s with
              | a :: b :: c :: d :: s =>
                  (readUnicode a b c d).bind fun x =>
                    (readString s).map fun r => (x :: r.1, r.2)
              | _ => none
            else (readShort e).bind fun x => (readString s).map fun r => (x :: r.1, r.2)
      -- no line ends in a string
      else if c = '\n' ∨ c = '\r' then none
      else (readString s).map fun r => (c :: r.1, r.2)

theorem readString_short {e x : Char} (hu : e ≠ 'u') (h : readShort e = some x) (s : List Char) :
    readString ('\\' :: e :: s) = (readString s).map fun r => (x :: r.1, r.2) := by
  rw [readString.eq_def]
  simp only [hu, h, Option.bind_some, if_false, if_true, Char.reduceEq]

theorem readString_unicode {a b c d x : Char} (h : readUnicode a b c d = some x) (s : List Char) :
    readString ('\\' :: 'u' :: a :: b :: c :: d :: s) =
      (readString s).map fun r => (x :: r.1, r.2) := by
  rw [readString.eq_def]
  simp only [h, Option.bind_some, if_false, if_true, Char.reduceEq]

theorem readString_plain {c : Char} (hquote : c ≠ '"') (hslash : c ≠ '\\') (hn : c ≠ '\n')
    (hr : c ≠ '\r') (s : List Char) :
    readString (c :: s) = (readString s).map fun r => (c :: r.1, r.2) := by
  rw [readString.eq_def]
  simp only [hquote, hslash, hn, hr, or_self, if_false]

/-! ## Reading what was written -/

/-- The letters are read back. -/
theorem readShort_shortEscapes :
    ∀ p ∈ shortEscapes, p.2 ≠ 'u' ∧ readShort p.2 = some p.1 := by decide

/-- So are the codes of the other control characters. -/
theorem readUnicode_hexDigit : ∀ n < 32,
    readUnicode '0' '0' (hexDigit (n / 16)) (hexDigit (n % 16)) = some (Char.ofNat n) := by
  decide

theorem readString_escapeChar (c : Char) (s : List Char) :
    readString (escapeChar c ++ s) = (readString s).map fun r => (c :: r.1, r.2) := by
  unfold escapeChar
  cases hfind : shortEscapes.find? fun p => p.1 == c with
  | some p =>
      have hp := List.find?_some hfind
      obtain ⟨hu, hread⟩ := readShort_shortEscapes p (List.mem_of_find?_eq_some hfind)
      rw [beq_iff_eq.mp hp] at hread
      exact readString_short hu hread s
  | none =>
      -- the quote and the backslash are among those that were found
      have hnot : ∀ p ∈ shortEscapes, p.1 ≠ c := fun p hp heq =>
        List.find?_eq_none.mp hfind p hp (beq_iff_eq.mpr heq)
      by_cases hcontrol : c.toNat < 32
      · have hread := readUnicode_hexDigit c.toNat hcontrol
        rw [Char.ofNat_toNat] at hread
        simp only [if_pos hcontrol]
        exact readString_unicode hread s
      · simp only [if_neg hcontrol]
        exact readString_plain (hnot ('"', '"') (by decide)).symm
          (hnot ('\\', '\\') (by decide)).symm (hnot ('\n', 'n') (by decide)).symm
          (hnot ('\r', 'r') (by decide)).symm s

/-- A text that is written as a literal is read as one token, whatever comes behind it. -/
theorem readString_escape (s rest : List Char) :
    readString (escape s ++ '"' :: rest) = some (s, rest) := by
  induction s with
  | nil =>
      rw [escape, List.flatMap_nil, List.nil_append, readString.eq_def]
      simp only [if_true]
  | cons c s ih =>
      rw [escape, List.flatMap_cons, List.append_assoc, ← escape, readString_escapeChar, ih,
        Option.map_some]

end Lib
end BrowserHeadless
