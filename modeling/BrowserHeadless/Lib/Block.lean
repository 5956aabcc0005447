/-
  BrowserHeadless.Lib.Block

  A block of `key: value` lines, an empty line, and a body.

  The body is what comes after the first empty line, whatever is in it: `readBlock` gives
  back the entries and the body from what `writeBlock` made of them
  (`readBlock_writeBlock`), as long as no key or value holds a newline and no key a colon.
-/

import BrowserHeadless.Lib.Text

namespace BrowserHeadless
namespace Lib

/-- A `key: value` line. -/
structure Entry where
  key : List Char
  value : List Char
deriving DecidableEq, Repr

namespace Entry

/-- The line of an entry, without its newline. -/
def line (e : Entry) : List Char := e.key ++ ':' :: ' ' :: e.value

/-- The entry of a line: the key ends at the first colon, and one blank follows it. -/
def ofLine (line : List Char) : Option Entry :=
  match splitOnce ':' line with
  | some (key, ' ' :: value) => some ⟨key, value⟩
  | _ => none

/-- An entry that is read back from its line, and whose line is one line. -/
structure OneLine (e : Entry) : Prop where
  colon : ':' ∉ e.key
  key : '\n' ∉ e.key
  value : '\n' ∉ e.value

variable {e : Entry}

theorem ofLine_line (h : e.OneLine) : ofLine e.line = some e := by
  rw [ofLine, line, splitOnce_append_cons h.colon]
  rfl

theorem line_ne_nil (e : Entry) : e.line ≠ [] := by
  rw [line]
  exact List.append_ne_nil_of_right_ne_nil e.key (List.cons_ne_nil _ _)

theorem newline_notMem_line (h : e.OneLine) : '\n' ∉ e.line := by
  rw [line, List.mem_append, List.mem_cons, List.mem_cons]
  rintro (hkey | hcolon | hblank | hvalue)
  · exact h.key hkey
  · exact absurd hcolon (by decide)
  · exact absurd hblank (by decide)
  · exact h.value hvalue

end Entry

/-! ## Lines up to an empty one -/

/-- Each line with its newline. -/
def writeLines (lines : List (List Char)) : List Char := lines.flatMap fun l => l ++ ['\n']

theorem writeLines_append (lines more : List (List Char)) :
    writeLines (lines ++ more) = writeLines lines ++ writeLines more :=
  List.flatMap_append

/-- The lines up to the first empty one, and what comes after it; `line` is what was read of
    the first of them. -/
def readLines (line : List Char) : List Char → Option (List (List Char) × List Char)
  | [] => none
  | c :: cs =>
      if c = '\n' then
        if line = [] then some ([], cs)
        else (readLines [] cs).map fun r => (line :: r.1, r.2)
      else readLines (line ++ [c]) cs

/-- A line is read to its newline. -/
theorem readLines_line {more : List Char} (h : '\n' ∉ more) (line rest : List Char) :
    readLines line (more ++ '\n' :: rest) =
      if line ++ more = [] then some ([], rest)
      else (readLines [] rest).map fun r => ((line ++ more) :: r.1, r.2) := by
  induction more generalizing line with
  | nil =>
      rw [List.nil_append, readLines, if_pos rfl, List.append_nil]
  | cons c more ih =>
      rw [List.mem_cons, not_or] at h
      rw [List.cons_append, readLines, if_neg (Ne.symm h.1), ih h.2, List.append_assoc,
        List.singleton_append]

/-- Lines that are lines are read back, and so is what follows the empty line. -/
theorem readLines_writeLines {lines : List (List Char)}
    (h : ∀ l ∈ lines, l ≠ [] ∧ '\n' ∉ l) (body : List Char) :
    readLines [] (writeLines lines ++ '\n' :: body) = some (lines, body) := by
  induction lines with
  | nil => rfl
  | cons l lines ih =>
      obtain ⟨hne, hnl⟩ := h l List.mem_cons_self
      have hrest := ih fun l' hl' => h l' (List.mem_cons_of_mem l hl')
      have hsplit : writeLines (l :: lines) ++ '\n' :: body =
          l ++ '\n' :: (writeLines lines ++ '\n' :: body) := by
        simp only [writeLines, List.flatMap_cons, List.append_assoc, List.cons_append,
          List.nil_append]
      rw [hsplit, readLines_line hnl, List.nil_append, if_neg hne, hrest, Option.map_some]

/-! ## Blocks -/

/-- The entries, an empty line, and the body. -/
def writeBlock (entries : List Entry) (body : List Char) : List Char :=
  writeLines (entries.map Entry.line) ++ '\n' :: body

/-- The entries before the first empty line, and the body after it. -/
def readBlock (text : List Char) : Option (List Entry × List Char) :=
  (readLines [] text).bind fun r => (r.1.mapM Entry.ofLine).map fun entries => (entries, r.2)

theorem mapM_ofLine {entries : List Entry} (h : ∀ e ∈ entries, e.OneLine) :
    (entries.map Entry.line).mapM Entry.ofLine = some entries := by
  induction entries with
  | nil => rfl
  | cons e entries ih =>
      rw [List.map_cons, List.mapM_cons, Entry.ofLine_line (h e List.mem_cons_self),
        ih fun e' he' => h e' (List.mem_cons_of_mem e he')]
      rfl

/-- What was written is read back, whatever the body is. -/
theorem readBlock_writeBlock {entries : List Entry} (h : ∀ e ∈ entries, e.OneLine)
    (body : List Char) : readBlock (writeBlock entries body) = some (entries, body) := by
  have hlines : ∀ l ∈ entries.map Entry.line, l ≠ [] ∧ '\n' ∉ l := by
    intro l hl
    obtain ⟨e, he, rfl⟩ := List.mem_map.mp hl
    exact ⟨e.line_ne_nil, Entry.newline_notMem_line (h e he)⟩
  rw [readBlock, writeBlock, readLines_writeLines hlines, Option.bind_some, mapM_ofLine h,
    Option.map_some]

end Lib
end BrowserHeadless
