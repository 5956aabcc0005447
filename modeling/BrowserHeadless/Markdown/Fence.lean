/-
  BrowserHeadless.Markdown.Fence

  The fence around the page content.

  The captured text stands between two lines of three backticks, whatever it holds.  Read
  as CommonMark it is one fenced block exactly when none of its lines is itself a closing
  fence; an empty text gives a block with one empty line.
-/

import BrowserHeadless.Lib.Commonmark
import BrowserHeadless.Markdown.Page

namespace BrowserHeadless
namespace Markdown

open Lib Capture

/-- The captured text with a line feed at its end. -/
def terminated (data : List Char) : List Char :=
  if data.getLast? = some '\n' then data else data ++ ['\n']

theorem terminated_eq (data : List Char) : ∃ p, terminated data = p ++ ['\n'] := by
  unfold terminated
  split
  case isTrue h => exact ⟨data.dropLast, (List.dropLast_append_getLast? '\n' h).symm⟩
  case isFalse => exact ⟨data, rfl⟩

/-- Ending the last line does not change the lines of a text, but it makes one of the
    empty text. -/
theorem lines_terminated {data : List Char} (hdata : data ≠ []) :
    Commonmark.lines (terminated data) = Commonmark.lines data := by
  unfold terminated
  split
  case isTrue => rfl
  case isFalse h => exact Commonmark.lines_concat_newline hdata h

/-- The line of three backticks. -/
def fenceLine : Commonmark.Line := ['`', '`', '`']

theorem toList_pageContent (data : String) :
    (pageContent data).toList
      = '\n' :: (fenceLine ++ '\n' :: (terminated data.toList ++ (fenceLine ++ ['\n']))) := by
  rw [pageContent, terminated]
  simp only [String.toList_append, List.append_assoc]
  split
  · rfl
  · rw [List.append_assoc]
    rfl

/-- The lines written after the heading. -/
theorem lines_pageContent (data : String) :
    Commonmark.lines (pageContent data).toList
      = [] :: fenceLine :: (Commonmark.lines (terminated data.toList) ++ [fenceLine]) := by
  obtain ⟨p, hp⟩ := terminated_eq data.toList
  rw [toList_pageContent, Commonmark.lines_newline, Commonmark.lines_append_newline, hp,
    List.append_assoc, List.singleton_append, Commonmark.lines_append_newline p]
  rfl

/-- The blank line is dropped and the fence opens a block. -/
theorem parse_pageContent (data : String) :
    Commonmark.parse (pageContent data)
      = Commonmark.blocks (some ⟨3, 0, []⟩)
          (Commonmark.lines (terminated data.toList) ++ [fenceLine]) := by
  rw [Commonmark.parse, lines_pageContent]
  rfl

/-- The text that `to_markdown` ends with. -/
theorem toMarkdown_content {checked : Bool} {order : HashMap.Order String String} {lang : Lang}
    {stat : WebPageStat} {r : Rendered} (h : toMarkdown checked order lang stat = some r) :
    r.content = pageContent stat.data := by
  rw [toMarkdown, bind_pure_comp, Option.map_eq_map, Option.map_eq_some_iff] at h
  obtain ⟨cells, -, rfl⟩ := h
  rfl

/-- What is rendered after the heading of the page content is one fenced block with the
    lines of the text exactly when there are such lines and none closes the fence. -/
theorem toMarkdown_fenced_iff {checked : Bool} {order : HashMap.Order String String} {lang : Lang}
    {stat : WebPageStat} {r : Rendered} (h : toMarkdown checked order lang stat = some r) :
    Commonmark.parse r.content = [.fenced (Commonmark.lines stat.data.toList)] ↔
      stat.data ≠ "" ∧
        ∀ l ∈ Commonmark.lines stat.data.toList, Commonmark.closes 3 l = false := by
  rw [toMarkdown_content h, parse_pageContent]
  by_cases hdata : stat.data = ""
  · -- the block has an empty line
    rw [hdata]
    exact iff_of_false (by decide) fun h => h.1 rfl
  · have hne : stat.data.toList ≠ [] := fun h => hdata (String.toList_eq_nil_iff.mp h)
    rw [lines_terminated hne, Commonmark.blocks_fenced_iff rfl, and_iff_right hdata]

theorem toMarkdown_fenced_greeting :
    Commonmark.parse (pageContent "Hello\nworld")
      = [.fenced (Commonmark.lines "Hello\nworld".toList)] :=
  (toMarkdown_fenced_iff
    (r := ⟨[], contentHeading .en, pageContent "Hello\nworld"⟩)
    (rfl : toMarkdown false .arbitrary .en { data := "Hello\nworld" } = some _)).mpr
    ⟨by decide, by decide⟩

/-- A page captured as markdown, with a code block of its own. -/
def notes : WebPageStat where
  data := "# Notes\n```\nnpm test\n```\nDone"

/-- The first fence of the captured text closes the block, and what follows is read as
    part of the report. -/
theorem toMarkdown_notes :
    ∃ r, toMarkdown false .arbitrary .en notes = some r
      ∧ Commonmark.parse r.content
        = [.fenced ["# Notes".toList], .line "npm test".toList, .fenced ["Done".toList]]
      ∧ Commonmark.parse r.content ≠ [.fenced (Commonmark.lines notes.data.toList)] :=
  ⟨_, rfl, by decide, by decide⟩

end Markdown
end BrowserHeadless
