/-
  BrowserHeadless.Lib.Commonmark

  Lines and fenced code blocks of a CommonMark document.

  A line ends with a line feed, a carriage return, the two together, or the document.
  A line of three or more backticks opens a block, and the first later line of at least
  as many backticks closes it; neither is indented by more than three spaces.  Lines
  outside of the blocks are kept as they are, but for blank ones.
-/

import Mathlib.Data.List.Basic

namespace BrowserHeadless
namespace Lib
namespace Commonmark

/-! ## Lines -/

abbrev Line := List Char

/-- Put a character before the first line. -/
def extend (c : Char) : List Line → List Line
  | [] => [[c]]
  | l :: ls => (c :: l) :: ls

/-- The lines of a text, without their endings. -/
def lines : List Char → List Line
  | [] => []
  | c :: s =>
      if c = '\n' then [] :: lines s
      -- a carriage return and a line feed are one ending
      else if c = '\r' then if s.head? = some '\n' then lines s else [] :: lines s
      else extend c (lines s)

theorem lines_newline (s : List Char) : lines ('\n' :: s) = [] :: lines s := rfl

theorem extend_append (c : Char) {ls : List Line} (hls : ls ≠ []) (ms : List Line) :
    extend c (ls ++ ms) = extend c ls ++ ms := by
  cases ls with
  | nil => exact absurd rfl hls
  | cons l ls => rfl

theorem head?_append_newline (p s : List Char) :
    (p ++ '\n' :: s).head? = (p ++ ['\n']).head? := by
  cases p <;> rfl

theorem lines_ne_nil {s : List Char} (hs : s ≠ []) : lines s ≠ [] := by
  induction s with
  | nil => exact absurd rfl hs
  | cons c s ih =>
      unfold lines
      split
      · exact List.cons_ne_nil _ _
      · split
        · split
          case isTrue hlf =>
            refine ih ?_
            rintro rfl
            exact absurd hlf nofun
          case isFalse => exact List.cons_ne_nil _ _
        · cases lines s <;> exact List.cons_ne_nil _ _

/-- Text that ends with a line feed keeps its lines whatever follows. -/
theorem lines_append_newline (p s : List Char) :
    lines (p ++ '\n' :: s) = lines (p ++ ['\n']) ++ lines s := by
  induction p with
  | nil => rfl
  | cons c p ih =>
      rw [List.cons_append, List.cons_append, lines, lines, head?_append_newline p s, ih]
      split
      · rfl
      · split
        · split
          · rfl
          · rfl
        · have hne : p ++ ['\n'] ≠ [] := List.append_ne_nil_of_right_ne_nil p (List.cons_ne_nil _ _)
          exact extend_append c (lines_ne_nil hne) _

/-- A line feed after the last line only ends it. -/
theorem lines_concat_newline {p : List Char} (hp : p ≠ []) (hlast : p.getLast? ≠ some '\n') :
    lines (p ++ ['\n']) = lines p := by
  induction p with
  | nil => exact absurd rfl hp
  | cons c p ih =>
      cases p with
      | nil =>
          have hc : c ≠ '\n' := fun h => hlast (congrArg some h)
          by_cases hcr : c = '\r'
          · rw [hcr]
            rfl
          · rw [List.cons_append, List.nil_append, lines, if_neg hc, if_neg hcr, lines_newline,
              lines.eq_2, if_neg hc, if_neg hcr]
            rfl
      | cons d p =>
          rw [List.getLast?_cons_cons] at hlast
          rw [List.cons_append, lines, ih (List.cons_ne_nil d p) hlast]
          conv_rhs => rw [lines]
          rfl

/-! ## Fenced blocks -/

/-- The spaces a line begins with. -/
def indent (l : Line) : Nat := (l.takeWhile (· = ' ')).length

/-- A line from its first character that is not a space. -/
def unindented (l : Line) : Line := l.dropWhile (· = ' ')

/-- The backticks a line begins with. -/
def fenceLength (l : Line) : Nat := ((unindented l).takeWhile (· = '`')).length

/-- What follows those. -/
def afterFence (l : Line) : Line := (unindented l).dropWhile (· = '`')

/-- The line opens a block; what follows the backticks has none itself. -/
def opens (l : Line) : Bool :=
  decide (indent l ≤ 3) && decide (3 ≤ fenceLength l) && (afterFence l).all (· ≠ '`')

/-- The line closes a block that `n` backticks opened. -/
def closes (n : Nat) (l : Line) : Bool :=
  decide (indent l ≤ 3) && decide (n ≤ fenceLength l)
    && (afterFence l).all fun c => c = ' ' || c = '\t'

/-- The line is blank. -/
def isBlank (l : Line) : Bool := l.all fun c => c = ' ' || c = '\t'

/-- A block of a document: fenced text, or a line that is in no fence. -/
inductive Block where
  | fenced (content : List Line)
  | line (text : Line)
deriving DecidableEq, Repr

/-- An open block: the backticks and the indentation of its first line, and the lines it
    has so far. -/
structure Opened where
  length : Nat
  indentation : Nat
  content : List Line

/-- A line of content loses the indentation of the opening fence, as far as it has it. -/
def strip (k : Nat) (l : Line) : Line := l.drop (min k (indent l))

/-- The blocks of the lines; one that is never closed ends with the document. -/
def blocks : Option Opened → List Line → List Block
  | none, [] => []
  | some b, [] => [.fenced b.content]
  | none, l :: ls =>
      if opens l then blocks (some ⟨fenceLength l, indent l, []⟩) ls
      else if isBlank l then blocks none ls
      else .line l :: blocks none ls
  | some b, l :: ls =>
      if closes b.length l then .fenced b.content :: blocks none ls
      else blocks (some { b with content := b.content ++ [strip b.indentation l] }) ls

/-- The blocks of a document. -/
def parse (s : String) : List Block := blocks none (lines s.toList)

/-- Lines that do not close a block become its content. -/
theorem blocks_append {n : Nat} {p : List Line} (hp : ∀ l ∈ p, closes n l = false)
    (acc ls : List Line) : blocks (some ⟨n, 0, acc⟩) (p ++ ls) = blocks (some ⟨n, 0, acc ++ p⟩) ls := by
  induction p generalizing acc with
  | nil => rw [List.nil_append, List.append_nil]
  | cons l p ih =>
      have hl := hp l List.mem_cons_self
      have hstrip : strip 0 l = l := by rw [strip, Nat.zero_min, List.drop_zero]
      rw [List.cons_append, blocks, if_neg (Bool.eq_false_iff.mp hl),
        ih fun m hm => hp m (List.mem_cons_of_mem l hm), hstrip, List.append_assoc,
        List.singleton_append]

/-- A line that closes a block ends it. -/
theorem blocks_close {n : Nat} {l : Line} (hl : closes n l) (acc ls : List Line) :
    blocks (some ⟨n, 0, acc⟩) (l :: ls) = .fenced acc :: blocks none ls := by
  rw [blocks, if_pos hl]

/-- Lines between two fences are one block exactly when none of them is a fence itself. -/
theorem blocks_fenced_iff {n : Nat} {fence : Line} (hclose : closes n fence) (ls : List Line) :
    blocks (some ⟨n, 0, []⟩) (ls ++ [fence]) = [.fenced ls] ↔ ∀ l ∈ ls, closes n l = false := by
  constructor
  · intro h m hm
    by_contra hcloses
    have hfound : (ls.find? (closes n)).isSome :=
      List.find?_isSome.mpr ⟨m, hm, eq_true_of_ne_false hcloses⟩
    obtain ⟨l, hfirst⟩ := Option.isSome_iff_exists.mp hfound
    obtain ⟨hl, p, q, hls, hp⟩ := List.find?_eq_some_iff_append.mp hfirst
    have hbefore : ∀ l' ∈ p, closes n l' = false := by simpa using hp
    -- the first such line ends the block before it has all the lines
    have hblocks : blocks (some ⟨n, 0, []⟩) (ls ++ [fence])
        = .fenced p :: blocks none (q ++ [fence]) := by
      rw [hls, List.append_assoc, blocks_append hbefore, List.cons_append, blocks_close hl,
        List.nil_append]
    rw [hblocks, List.cons.injEq, Block.fenced.injEq] at h
    have hlen : p.length = (p ++ l :: q).length := by rw [← hls, h.1]
    rw [List.length_append, List.length_cons] at hlen
    omega
  · intro h
    rw [blocks_append h, blocks_close hclose]
    rfl

end Commonmark
end Lib
end BrowserHeadless
