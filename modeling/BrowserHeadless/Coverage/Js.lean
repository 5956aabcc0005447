/-
  BrowserHeadless.Coverage.Js

  `compute_js_coverage` (src/browser/mod.rs): how many bytes of a script were used.

  V8 reports the ranges of all functions of a script with execution counts; a byte is
  used if the innermost range around it has a positive count.  The source does not look
  for innermost ranges: it sweeps over the sorted ends of all ranges and keeps a stack of
  counts.

  `sweep_used` says what any sweep counts: the offsets at which the top of the stack is
  positive.  For ranges that are pairwise disjoint or nested the stack at an offset holds
  the counts of the ranges around it, from the outside in (`stackAfter_eq`); this is an
  induction over the offsets, and its step is where the four keys of the sort matter.
-/

import BrowserHeadless.Lib.Sort
import Mathlib.Data.Int.ConditionallyCompleteOrder
import Mathlib.Data.Int.Interval
import Mathlib.Data.Set.Card

namespace BrowserHeadless
namespace Coverage

/-! ## `compute_js_coverage` -/

/-- `Profiler.CoverageRange`. -/
structure CoverageRange where
  startOffset : Int
  endOffset : Int
  count : Int
deriving DecidableEq

/-- `Profiler.FunctionCoverage`. -/
structure FunctionCoverage where
  ranges : List CoverageRange

/-- `Profiler.ScriptCoverage`. -/
structure ScriptCoverage where
  url : String
  functions : List FunctionCoverage

/-- One end of a range: `(offset, ty, length, count)`; `ty` is 0 for an open and 1 for a
    close event. -/
structure Point where
  offset : Int
  ty : Nat
  len : Int
  count : Int
deriving DecidableEq

/-- The two events of a range.  Between non-negative offsets the `i64` subtraction does
    not overflow. -/
def CoverageRange.points (r : CoverageRange) : List Point :=
  let len := r.endOffset - r.startOffset
  if len ≤ 0 then [] else [⟨r.startOffset, 0, len, r.count⟩, ⟨r.endOffset, 1, len, r.count⟩]

/-- The events of all functions. -/
def ScriptCoverage.points (script : ScriptCoverage) : List Point :=
  script.functions.flatMap fun f => f.ranges.flatMap CoverageRange.points

/-- The order of the events: by offset, at one offset closes before opens, longer opens
    first and shorter closes first. -/
def Point.le (a b : Point) : Prop :=
  a.offset < b.offset ∨ (a.offset = b.offset ∧
    (b.ty < a.ty ∨ (b.ty = a.ty ∧ (if a.ty = 0 then b.len ≤ a.len else a.len ≤ b.len))))

instance : DecidableRel Point.le := fun a b => by
  unfold Point.le
  infer_instance

/-- The variables of the sweep; the top of the stack comes first. -/
structure Sweep where
  stack : List Int
  used : Nat
  lastOffset : Int

/-- One event of the sweep. -/
def Sweep.step (s : Sweep) (p : Point) : Sweep where
  used :=
    if s.stack ≠ [] ∧ s.lastOffset < p.offset ∧ 0 < s.stack.head?.getD 0 then
      s.used + (p.offset - s.lastOffset).toNat
    else s.used
  lastOffset := p.offset
  -- popping an empty stack does nothing
  stack := if p.ty = 0 then p.count :: s.stack else s.stack.tail

/-- The largest close offset. -/
def totalOf (points : List Point) : Nat :=
  (max (((points.filter fun p => p.ty = 1).map Point.offset).max?.getD 0) 0).toNat

/-- `compute_js_coverage`: the used and the total bytes. -/
def computeJsCoverage (script : ScriptCoverage) : Nat × Nat :=
  match script.points.insertionSort Point.le with
  -- no points at all
  | [] => (0, 0)
  | first :: rest =>
      let s := (first :: rest).foldl Sweep.step ⟨[], 0, first.offset⟩
      (s.used, totalOf script.points)

/-! ## What it should compute -/

/-- The ranges of a script, over all functions; those without bytes are ignored. -/
def ScriptCoverage.ranges (script : ScriptCoverage) : List CoverageRange :=
  script.functions.flatMap fun f => f.ranges.filter fun r => r.startOffset < r.endOffset

namespace CoverageRange

/-- The offset lies in the range. -/
def encloses (r : CoverageRange) (x : Int) : Bool := r.startOffset ≤ x && x < r.endOffset

/-- `r` lies inside `r'`. -/
def inside (r r' : CoverageRange) : Bool :=
  r'.startOffset ≤ r.startOffset && r.endOffset ≤ r'.endOffset

/-- The two ranges have no offset in common. -/
def disjoint (r r' : CoverageRange) : Bool :=
  r.endOffset ≤ r'.startOffset || r'.endOffset ≤ r.startOffset

end CoverageRange

/-- Any two ranges are disjoint or nested. -/
def Laminar (rs : List CoverageRange) : Prop :=
  ∀ r ∈ rs, ∀ r' ∈ rs, r.disjoint r' = true ∨ r.inside r' = true ∨ r'.inside r = true

/-- The innermost range around an offset: the last one that lies inside all ranges around
    it. -/
def innermost (rs : List CoverageRange) (x : Int) : Option CoverageRange :=
  let around := rs.filter fun r => r.encloses x
  (around.filter fun r => around.all fun r' => r.inside r').getLast?

/-- The offsets whose innermost range was executed. -/
def usedOffsets (rs : List CoverageRange) : Set Int :=
  { x | ∃ r, innermost rs x = some r ∧ 0 < r.count }

/-- The largest end offset. -/
def maxEnd (rs : List CoverageRange) : Int := (rs.map CoverageRange.endOffset).max?.getD 0

/-! ## What a sweep counts -/

/-- The stack after some events. -/
def stackAfter (stack : List Int) (points : List Point) : List Int :=
  points.foldl (fun st p => if p.ty = 0 then p.count :: st else st.tail) stack

/-- The top of the stack is positive. -/
def hot (stack : List Int) : Bool := 0 < stack.head?.getD 0

theorem hot_iff {stack : List Int} :
    hot stack = true ↔ stack ≠ [] ∧ 0 < stack.head?.getD 0 := by
  rw [hot, decide_eq_true_eq]
  cases stack with
  | nil => simp
  | cons c st => simp

/-- The offsets from `a` up to `b` at which the stack is hot. -/
noncomputable def hotOffsets (stack : List Int) (points : List Point) (a b : Int) : Finset Int :=
  (Finset.Ico a b).filter fun x =>
    hot (stackAfter stack (points.filter fun p => p.offset ≤ x)) = true

/-- The last offset of a sweep. -/
def lastOf (a : Int) (points : List Point) : Int := points.foldl (fun _ p => p.offset) a

theorem le_lastOf {a : Int} {points : List Point}
    (hsorted : (a :: points.map Point.offset).Pairwise (· ≤ ·)) : a ≤ lastOf a points := by
  induction points generalizing a with
  | nil => exact Int.le_refl a
  | cons p points ih =>
      obtain ⟨ha, htail⟩ := List.pairwise_cons.mp hsorted
      exact Int.le_trans (ha p.offset List.mem_cons_self) (ih htail)

/-- Between two events the stack stays as it is: the first span of a sweep. -/
theorem hotOffsets_cons {stack : List Int} {p : Point} {points : List Point} {a b : Int}
    (hap : a ≤ p.offset) (hpb : p.offset ≤ b)
    (hsorted : (p.offset :: points.map Point.offset).Pairwise (· ≤ ·)) :
    hotOffsets stack (p :: points) a b
      = (Finset.Ico a p.offset).filter (fun _ => hot stack = true)
        ∪ hotOffsets (stackAfter stack [p]) points p.offset b := by
  have hafter : ∀ q ∈ points, p.offset ≤ q.offset := by
    intro q hq
    exact (List.pairwise_cons.mp hsorted).1 q.offset (List.mem_map_of_mem hq)
  ext x
  simp only [hotOffsets, Finset.mem_union, Finset.mem_filter, Finset.mem_Ico]
  by_cases hx : x < p.offset
  -- no event so far
  · have hnone : (p :: points).filter (fun q => q.offset ≤ x) = [] := by
      rw [List.filter_eq_nil_iff]
      intro q hq
      rcases List.mem_cons.mp hq with rfl | hq
      · simpa using hx
      · have hle := hafter q hq
        simp only [decide_eq_true_eq]
        omega
    rw [hnone]
    constructor
    · rintro ⟨⟨h1, -⟩, h2⟩
      exact Or.inl ⟨⟨h1, hx⟩, h2⟩
    · rintro (⟨⟨h1, -⟩, h2⟩ | ⟨⟨h1, -⟩, -⟩)
      · exact ⟨⟨h1, by omega⟩, h2⟩
      · omega
  · have hcons : (p :: points).filter (fun q => q.offset ≤ x)
        = p :: points.filter fun q => q.offset ≤ x := by
      rw [List.filter_cons, if_pos (by simpa using hx)]
    rw [hcons]
    constructor
    · rintro ⟨⟨-, h1⟩, h2⟩
      exact Or.inr ⟨⟨by omega, h1⟩, h2⟩
    · rintro (⟨⟨-, h1⟩, -⟩ | ⟨⟨-, h1⟩, h2⟩)
      · exact absurd h1 hx
      · exact ⟨⟨by omega, h1⟩, h2⟩

/-- The hot offsets of the first span, and those of the others. -/
theorem card_hotOffsets_cons {stack : List Int} {p : Point} {points : List Point} {a b : Int}
    (hap : a ≤ p.offset) (hpb : p.offset ≤ b)
    (hsorted : (p.offset :: points.map Point.offset).Pairwise (· ≤ ·)) :
    (hotOffsets stack (p :: points) a b).card
      = (if hot stack = true then (p.offset - a).toNat else 0)
        + (hotOffsets (stackAfter stack [p]) points p.offset b).card := by
  have hdisj : Disjoint ((Finset.Ico a p.offset).filter fun _ => hot stack = true)
      (hotOffsets (stackAfter stack [p]) points p.offset b) := by
    rw [Finset.disjoint_left]
    intro x hx hx'
    rw [Finset.mem_filter, Finset.mem_Ico] at hx
    rw [hotOffsets, Finset.mem_filter, Finset.mem_Ico] at hx'
    omega
  rw [hotOffsets_cons hap hpb hsorted, Finset.card_union_of_disjoint hdisj]
  congr 1
  by_cases hhot : hot stack = true
  · rw [if_pos hhot, Finset.filter_true_of_mem fun _ _ => hhot, Int.card_Ico]
  · rw [if_neg hhot, Finset.filter_false_of_mem fun _ _ => hhot, Finset.card_empty]

/-- A sweep over sorted events adds up the offsets at which its stack is hot. -/
theorem sweep_used {points : List Point} {stack : List Int} {used : Nat} {a : Int}
    (hsorted : (a :: points.map Point.offset).Pairwise (· ≤ ·)) :
    (points.foldl Sweep.step ⟨stack, used, a⟩).used
      = used + (hotOffsets stack points a (lastOf a points)).card := by
  induction points generalizing stack used a with
  | nil => simp [hotOffsets, lastOf]
  | cons p points ih =>
      obtain ⟨ha, htail⟩ := List.pairwise_cons.mp hsorted
      have hap : a ≤ p.offset := ha p.offset List.mem_cons_self
      have hstep : Sweep.step ⟨stack, used, a⟩ p
          = ⟨stackAfter stack [p],
              used + (if hot stack = true then (p.offset - a).toNat else 0), p.offset⟩ := by
        rw [Sweep.step, stackAfter, List.foldl_cons, List.foldl_nil]
        congr 1
        by_cases hhot : hot stack = true
        · have htop := hot_iff.mp hhot
          by_cases hlt : a < p.offset
          · rw [if_pos ⟨htop.1, hlt, htop.2⟩, if_pos hhot]
          -- two events at one offset: the span between them is empty
          · rw [if_neg (fun h => hlt h.2.1), if_pos hhot]
            dsimp only
            omega
        · rw [if_neg (fun h => hhot (hot_iff.mpr ⟨h.1, h.2.2⟩)), if_neg hhot, Nat.add_zero]
      rw [List.foldl_cons, hstep, ih htail]
      have hlast : lastOf a (p :: points) = lastOf p.offset points := rfl
      rw [hlast, card_hotOffsets_cons hap (le_lastOf htail) htail]
      omega

/-! ## The stack of nested ranges -/

/-- The two events of a range with bytes. -/
def CoverageRange.ends (r : CoverageRange) : List Point :=
  [⟨r.startOffset, 0, r.endOffset - r.startOffset, r.count⟩,
    ⟨r.endOffset, 1, r.endOffset - r.startOffset, r.count⟩]

/-- The events in the order of the sweep. -/
def sortedPoints (rs : List CoverageRange) : List Point :=
  (rs.flatMap CoverageRange.ends).insertionSort Point.le

/-- The range that an open event opens. -/
def Point.opened (p : Point) : Option CoverageRange :=
  if p.ty = 0 then some ⟨p.offset, p.offset + p.len, p.count⟩ else none

/-- The ranges in the order in which the sweep opens them. -/
def opening (rs : List CoverageRange) : List CoverageRange :=
  (sortedPoints rs).filterMap Point.opened

instance : Std.Total Point.le where
  total a b := by
    unfold Point.le
    split_ifs <;> omega

instance : IsTrans Point Point.le where
  trans a b c hab hbc := by
    unfold Point.le at *
    split_ifs at * <;> omega

theorem ScriptCoverage.points_eq (script : ScriptCoverage) :
    script.points = script.ranges.flatMap CoverageRange.ends := by
  rw [points, ranges, List.flatMap_assoc]
  congr 1
  funext f
  induction f.ranges with
  | nil => rfl
  | cons r rs ih =>
      rw [List.flatMap_cons, ih, List.filter_cons]
      by_cases hr : r.startOffset < r.endOffset
      · rw [if_pos (by simpa using hr), List.flatMap_cons, CoverageRange.points, if_neg (by omega)]
        rfl
      · rw [if_neg (by simpa using hr), CoverageRange.points, if_pos (by omega)]
        rfl

theorem ScriptCoverage.lt_of_mem_ranges {script : ScriptCoverage} {r : CoverageRange}
    (hr : r ∈ script.ranges) : r.startOffset < r.endOffset := by
  obtain ⟨f, -, hf⟩ := List.mem_flatMap.mp hr
  simpa using (List.mem_filter.mp hf).2

/-- Closing events pop as often as there are. -/
theorem stackAfter_closes {points : List Point} (h : ∀ p ∈ points, p.ty ≠ 0) (stack : List Int) :
    stackAfter stack points = stack.drop points.length := by
  induction points generalizing stack with
  | nil => rfl
  | cons p points ih =>
      have htail : ∀ q ∈ points, q.ty ≠ 0 := fun q hq => h q (List.mem_cons_of_mem p hq)
      have hcons : stackAfter stack (p :: points) = stackAfter stack.tail points := by
        rw [stackAfter, List.foldl_cons, if_neg (h p List.mem_cons_self)]
        rfl
      rw [hcons, ih htail, ← List.drop_one, List.drop_drop, List.length_cons, Nat.add_comm]

/-- Opening events push their counts. -/
theorem stackAfter_opens {points : List Point} (h : ∀ p ∈ points, p.ty = 0) (stack : List Int) :
    stackAfter stack points = (points.map Point.count).reverse ++ stack := by
  induction points generalizing stack with
  | nil => rfl
  | cons p points ih =>
      have htail : ∀ q ∈ points, q.ty = 0 := fun q hq => h q (List.mem_cons_of_mem p hq)
      have hcons : stackAfter stack (p :: points) = stackAfter (p.count :: stack) points := by
        rw [stackAfter, List.foldl_cons, if_pos (h p List.mem_cons_self)]
        rfl
      rw [hcons, ih htail]
      simp

theorem stackAfter_append (stack : List Int) (ps qs : List Point) :
    stackAfter stack (ps ++ qs) = stackAfter (stackAfter stack ps) qs := List.foldl_append ..

section Laminar

variable {rs : List CoverageRange}

theorem sortedPoints_perm (rs : List CoverageRange) :
    (sortedPoints rs).Perm (rs.flatMap CoverageRange.ends) :=
  List.perm_insertionSort _ _

theorem sortedPoints_pairwise : (sortedPoints rs).Pairwise Point.le :=
  List.pairwise_insertionSort _ _

theorem mem_sortedPoints {p : Point} : p ∈ sortedPoints rs ↔ ∃ r ∈ rs, p ∈ r.ends := by
  rw [(sortedPoints_perm _).mem_iff, List.mem_flatMap]

/-- The open events of some ranges are the ranges. -/
theorem filterMap_opened_flatMap (rs : List CoverageRange) :
    (rs.flatMap CoverageRange.ends).filterMap Point.opened = rs := by
  induction rs with
  | nil => rfl
  | cons r rs ih =>
      rw [List.flatMap_cons, List.filterMap_append, ih]
      simp [CoverageRange.ends, Point.opened]

theorem opening_perm (rs : List CoverageRange) : (opening rs).Perm rs := by
  have h := (sortedPoints_perm rs).filterMap Point.opened
  rwa [filterMap_opened_flatMap] at h

/-- Ranges open from left to right, and the longer first. -/
theorem opening_pairwise (rs : List CoverageRange) : (opening rs).Pairwise fun r r' =>
    r.startOffset < r'.startOffset ∨
    (r.startOffset = r'.startOffset ∧ r'.endOffset ≤ r.endOffset) := by
  rw [opening, List.pairwise_filterMap]
  refine sortedPoints_pairwise.imp ?_
  intro p q hpq r hr r' hr'
  rw [Point.opened, Option.ite_none_right_eq_some] at hr hr'
  obtain ⟨hp, hr⟩ := hr
  obtain ⟨hq, hr'⟩ := hr'
  cases hr
  cases hr'
  rw [Point.le, if_pos hp] at hpq
  dsimp only
  omega

/-- The open events at an offset, in the order of the sweep. -/
theorem map_count_opens (points : List Point) (n : Int) :
    ((points.filterMap Point.opened).filter fun r => r.startOffset = n).map CoverageRange.count
      = (points.filter fun p => p.offset = n && p.ty = 0).map Point.count := by
  induction points with
  | nil => rfl
  | cons p points ih =>
      by_cases hty : p.ty = 0
      · rw [List.filterMap_cons_some (b := ⟨p.offset, p.offset + p.len, p.count⟩)
          (by rw [Point.opened, if_pos hty])]
        by_cases hoff : p.offset = n
        · simp [hty, hoff, ih]
        · simp [hty, hoff, ih]
      · rw [List.filterMap_cons_none (by rw [Point.opened, if_neg hty])]
        simp [hty, ih]

/-- As many events close at an offset as ranges end there. -/
theorem length_closes (n : Int) :
    ((sortedPoints rs).filter fun p => p.offset = n && p.ty ≠ 0).length
      = (opening rs).countP fun r => r.endOffset = n := by
  rw [(opening_perm _).countP_eq, ((sortedPoints_perm _).filter _).length_eq,
    ← List.countP_eq_length_filter]
  induction rs with
  | nil => rfl
  | cons r rs ih =>
      rw [List.flatMap_cons, List.countP_append, ih, List.countP_cons]
      by_cases hr : r.endOffset = n
      · simp [CoverageRange.ends, hr]
        omega
      · simp [CoverageRange.ends, hr]

/-- The events before `n + 1`: those before `n`, then the closes and the opens at `n`. -/
theorem filter_lt_succ (n : Int) :
    ((sortedPoints rs).filter fun p => p.offset < n + 1)
      = ((sortedPoints rs).filter fun p => p.offset < n)
        ++ (((sortedPoints rs).filter fun p => p.offset = n && p.ty ≠ 0)
          ++ (sortedPoints rs).filter fun p => p.offset = n && p.ty = 0) := by
  have hor : ((sortedPoints rs).filter fun p => p.offset < n + 1)
      = (sortedPoints rs).filter fun p => decide (p.offset < n) || decide (p.offset = n) := by
    refine List.filter_congr fun p _ => ?_
    rw [← Bool.decide_or, decide_eq_decide]
    omega
  have hat : ((sortedPoints rs).filter fun p => decide (p.offset = n))
      = (sortedPoints rs).filter fun p =>
          (decide (p.offset = n) && decide (p.ty ≠ 0)) ||
            (decide (p.offset = n) && decide (p.ty = 0)) := by
    refine List.filter_congr fun p _ => ?_
    by_cases hty : p.ty = 0 <;> simp [hty]
  rw [hor, Lib.filter_or_eq_append, hat, Lib.filter_or_eq_append]
  · refine sortedPoints_pairwise.imp ?_
    intro p q hpq
    simp only [Bool.and_eq_true, decide_eq_true_eq]
    unfold Point.le at hpq
    omega
  · intro p _
    simp only [Bool.and_eq_true, decide_eq_true_eq]
    omega
  · refine sortedPoints_pairwise.imp ?_
    intro p q hpq
    simp only [decide_eq_true_eq]
    unfold Point.le at hpq
    omega
  · intro p _
    simp only [decide_eq_true_eq]
    omega

/-- The ranges open at `n`: those open before that go on, then those that start. -/
theorem opening_filter_succ (hpos : ∀ r ∈ rs, r.startOffset < r.endOffset) (n : Int) :
    ((opening rs).filter fun r => r.startOffset < n + 1 && n + 1 ≤ r.endOffset)
      = ((opening rs).filter fun r => r.startOffset < n && n < r.endOffset)
        ++ (opening rs).filter fun r => r.startOffset = n := by
  have hor : ((opening rs).filter fun r => r.startOffset < n + 1 && n + 1 ≤ r.endOffset)
      = (opening rs).filter fun r =>
          (decide (r.startOffset < n) && decide (n < r.endOffset)) || decide (r.startOffset = n) := by
    refine List.filter_congr fun r hr => ?_
    have hlt := hpos r ((opening_perm _).subset hr)
    rw [← Bool.decide_and, ← Bool.decide_and, ← Bool.decide_or, decide_eq_decide]
    omega
  rw [hor, Lib.filter_or_eq_append]
  · refine (opening_pairwise _).imp ?_
    intro r r' h
    simp only [Bool.and_eq_true, decide_eq_true_eq]
    omega
  · intro r _
    simp only [Bool.and_eq_true, decide_eq_true_eq]
    omega

/-- Of the ranges open before `n` those that end at `n` were opened last. -/
theorem opening_filter_ends (hpos : ∀ r ∈ rs, r.startOffset < r.endOffset) (hnest : Laminar rs)
    (n : Int) :
    ((opening rs).filter fun r => r.startOffset < n && n ≤ r.endOffset)
      = ((opening rs).filter fun r => r.startOffset < n && n < r.endOffset)
        ++ (opening rs).filter fun r => r.endOffset = n := by
  have hor : ((opening rs).filter fun r => r.startOffset < n && n ≤ r.endOffset)
      = (opening rs).filter fun r =>
          (decide (r.startOffset < n) && decide (n < r.endOffset)) || decide (r.endOffset = n) := by
    refine List.filter_congr fun r hr => ?_
    have hlt := hpos r ((opening_perm _).subset hr)
    rw [← Bool.decide_and, ← Bool.decide_and, ← Bool.decide_or, decide_eq_decide]
    omega
  rw [hor, Lib.filter_or_eq_append]
  · refine (List.Pairwise.and_mem.mp (opening_pairwise _)).imp ?_
    rintro r r' ⟨hr, hr', h⟩
    have hnested := hnest r ((opening_perm _).subset hr) r' ((opening_perm _).subset hr')
    have hlt := hpos r ((opening_perm _).subset hr)
    simp only [CoverageRange.disjoint, CoverageRange.inside, Bool.and_eq_true, Bool.or_eq_true,
      decide_eq_true_eq] at hnested ⊢
    omega
  · intro r _
    simp only [Bool.and_eq_true, decide_eq_true_eq]
    omega

/-- No event is before offset zero. -/
theorem sortedPoints_before_zero (hpos : ∀ r ∈ rs, r.startOffset < r.endOffset)
    (hnonneg : ∀ r ∈ rs, 0 ≤ r.startOffset) :
    ((sortedPoints rs).filter fun p => p.offset < ((0 : Nat) : Int)) = [] := by
  rw [List.filter_eq_nil_iff]
  intro p hp
  obtain ⟨r, hr, hends⟩ := mem_sortedPoints.mp hp
  have h0 := hnonneg r hr
  have hlt := hpos r hr
  simp only [CoverageRange.ends, List.mem_cons, List.not_mem_nil, or_false] at hends
  rcases hends with rfl | rfl
  · simp only [decide_eq_true_eq]
    omega
  · simp only [decide_eq_true_eq]
    omega

/-- Before the events at `n` the stack holds the counts of the ranges around `n - 1`, the
    last one opened on top. -/
theorem stackAfter_eq (hpos : ∀ r ∈ rs, r.startOffset < r.endOffset) (hnest : Laminar rs)
    (hnonneg : ∀ r ∈ rs, 0 ≤ r.startOffset) (n : Nat) :
    stackAfter [] ((sortedPoints rs).filter fun p => p.offset < (n : Int))
      = (((opening rs).filter fun r => r.startOffset < (n : Int) && (n : Int) ≤ r.endOffset).map
          CoverageRange.count).reverse := by
  induction n with
  | zero =>
      have hranges : ((opening rs).filter fun r =>
          r.startOffset < ((0 : Nat) : Int) && ((0 : Nat) : Int) ≤ r.endOffset) = [] := by
        rw [List.filter_eq_nil_iff]
        intro r hr
        have h0 := hnonneg r ((opening_perm _).subset hr)
        simp only [Bool.and_eq_true, decide_eq_true_eq]
        omega
      rw [sortedPoints_before_zero hpos hnonneg, hranges]
      rfl
  | succ n ih =>
      have hcast : ((n + 1 : Nat) : Int) = (n : Int) + 1 := by omega
      have hcloses : ∀ p ∈ (sortedPoints rs).filter (fun p => p.offset = (n : Int) && p.ty ≠ 0),
          p.ty ≠ 0 := by
        intro p hp
        have h := (List.mem_filter.mp hp).2
        simp only [Bool.and_eq_true, decide_eq_true_eq] at h
        exact h.2
      have hopens : ∀ p ∈ (sortedPoints rs).filter (fun p => p.offset = (n : Int) && p.ty = 0),
          p.ty = 0 := by
        intro p hp
        have h := (List.mem_filter.mp hp).2
        simp only [Bool.and_eq_true, decide_eq_true_eq] at h
        exact h.2
      -- the closes pop the ranges that end, the opens push those that start
      rw [hcast, filter_lt_succ, stackAfter_append, ih, stackAfter_append,
        stackAfter_closes hcloses, length_closes, stackAfter_opens hopens, ← map_count_opens,
        opening_filter_succ hpos, opening_filter_ends hpos hnest]
      rw [List.map_append, List.reverse_append, List.drop_append_of_le_length, List.drop_of_length_le,
        List.nil_append, List.map_append, List.reverse_append]
      · rfl
      · simp [List.countP_eq_length_filter]
      · simp [List.countP_eq_length_filter]

/-! ## Innermost ranges -/

/-- The range has the same ends as `m`. -/
def CoverageRange.sameEnds (m r : CoverageRange) : Bool :=
  r.startOffset = m.startOffset && r.endOffset = m.endOffset

/-- Equal ranges open in the order of the list: this is where the sort has to be stable. -/
theorem opening_filter_sameEnds (m : CoverageRange) :
    (opening rs).filter m.sameEnds = rs.filter m.sameEnds := by
  have hfilter : ∀ points : List Point, (points.filterMap Point.opened).filter m.sameEnds
      = (points.filter fun p => (p.opened.filter m.sameEnds).isSome).filterMap Point.opened := by
    intro points
    rw [List.filter_filterMap, List.filterMap_filter]
    refine List.filterMap_congr fun p _ => ?_
    cases p.opened with
    | none => rfl
    | some r => by_cases hr : m.sameEnds r = true <;> simp [Option.filter, hr]
  have hstable := Lib.filter_insertionSort (r := Point.le) (l := rs.flatMap CoverageRange.ends)
    (q := fun p => (p.opened.filter m.sameEnds).isSome) ?_
  · rw [opening, hfilter, sortedPoints, hstable, ← hfilter, filterMap_opened_flatMap]
  -- open events of equal ranges are in order either way
  · refine List.pairwise_of_forall_mem_list fun p hp q hq => ?_
    have hopen : ∀ p : Point, (p.opened.filter m.sameEnds).isSome = true →
        p.ty = 0 ∧ p.offset = m.startOffset ∧ p.offset + p.len = m.endOffset := by
      intro p h
      by_cases hty : p.ty = 0
      · rw [Point.opened, if_pos hty] at h
        simp only [Option.isSome_filter, Option.any_some, CoverageRange.sameEnds, Bool.and_eq_true,
          decide_eq_true_eq] at h
        exact ⟨hty, h⟩
      · simp [Point.opened, hty] at h
    have hp := hopen p (List.mem_filter.mp hp).2
    have hq := hopen q (List.mem_filter.mp hq).2
    unfold Point.le
    rw [if_pos hp.1]
    omega

/-- The last range opened around an offset lies inside the others. -/
theorem inside_of_getLast? (hnest : Laminar rs) {x : Int} {m : CoverageRange}
    (hm : ((opening rs).filter fun r => r.encloses x).getLast? = some m) {r : CoverageRange}
    (hr : r ∈ rs) (hx : r.encloses x = true) : m.inside r = true := by
  obtain ⟨init, hinit⟩ := List.getLast?_eq_some_iff.mp hm
  have hmem : m ∈ (opening rs).filter fun r => r.encloses x := by rw [hinit]; simp
  have hr' : r ∈ (opening rs).filter fun r => r.encloses x :=
    List.mem_filter.mpr ⟨(opening_perm _).symm.subset hr, hx⟩
  rw [hinit] at hr'
  rcases List.mem_append.mp hr' with hbefore | hlast
  · have hpair := (opening_pairwise rs).filter fun r => r.encloses x
    rw [hinit] at hpair
    have horder := (List.pairwise_append.mp hpair).2.2 r hbefore m List.mem_cons_self
    have hnested := hnest r hr m ((opening_perm _).subset (List.mem_filter.mp hmem).1)
    have hmx := (List.mem_filter.mp hmem).2
    simp only [CoverageRange.disjoint, CoverageRange.inside, CoverageRange.encloses,
      Bool.and_eq_true, Bool.or_eq_true, decide_eq_true_eq] at hnested hx hmx ⊢
    omega
  · rw [List.mem_singleton.mp hlast]
    simp [CoverageRange.inside]

/-- Ranges with the same ends enclose the same offsets. -/
theorem encloses_of_sameEnds {m r : CoverageRange} {x : Int} (hmx : m.encloses x = true)
    (heq : m.sameEnds r = true) : r.encloses x = true := by
  simp only [CoverageRange.sameEnds, CoverageRange.encloses, Bool.and_eq_true,
    decide_eq_true_eq] at heq hmx ⊢
  omega

/-- The ranges inside all others around an offset are those with the ends of one of them. -/
theorem filter_inside_all {m : CoverageRange} {x : Int} (hmrs : m ∈ rs) (hmx : m.encloses x = true)
    (hinside : ∀ r ∈ rs, r.encloses x = true → m.inside r = true) :
    (rs.filter fun r => r.encloses x).filter (fun r =>
        (rs.filter fun r => r.encloses x).all fun r' => r.inside r')
      = rs.filter m.sameEnds := by
  rw [List.filter_filter]
  refine List.filter_congr fun r hr => ?_
  rw [Bool.eq_iff_iff, Bool.and_eq_true, List.all_eq_true]
  constructor
  · rintro ⟨hall, hx⟩
    have h1 := hall m (List.mem_filter.mpr ⟨hmrs, hmx⟩)
    have h2 := hinside r hr hx
    simp only [CoverageRange.inside, CoverageRange.sameEnds, Bool.and_eq_true,
      decide_eq_true_eq] at h1 h2 ⊢
    omega
  · intro heq
    refine ⟨fun r' hr' => ?_, encloses_of_sameEnds hmx heq⟩
    have h2 := hinside r' (List.mem_filter.mp hr').1 (List.mem_filter.mp hr').2
    simp only [CoverageRange.inside, CoverageRange.sameEnds, Bool.and_eq_true,
      decide_eq_true_eq] at h2 heq ⊢
    omega

/-- The innermost range is the last one the sweep opens. -/
theorem innermost_eq (hnest : Laminar rs) (x : Int) :
    innermost rs x = ((opening rs).filter fun r => r.encloses x).getLast? := by
  have hperm := (opening_perm rs).filter fun r => r.encloses x
  cases hlast : ((opening rs).filter fun r => r.encloses x).getLast? with
  | none =>
      rw [List.getLast?_eq_none_iff] at hlast
      rw [hlast] at hperm
      rw [innermost, hperm.nil_eq.symm]
      rfl
  | some m =>
      have hmem := List.mem_filter.mp (List.mem_of_getLast? hlast)
      have hmx : m.encloses x = true := hmem.2
      have hmrs : m ∈ rs := (opening_perm _).subset hmem.1
      have hsame := filter_inside_all hmrs hmx fun r hr hx => inside_of_getLast? hnest hlast hr hx
      have haround : (opening rs).filter m.sameEnds
          = ((opening rs).filter fun r => r.encloses x).filter m.sameEnds := by
        rw [List.filter_filter]
        refine List.filter_congr fun r _ => ?_
        rw [Bool.eq_iff_iff, Bool.and_eq_true]
        exact ⟨fun heq => ⟨heq, encloses_of_sameEnds hmx heq⟩, fun h => h.1⟩
      rw [innermost, hsame, ← opening_filter_sameEnds, haround]
      exact Lib.getLast?_filter_of_getLast? hlast (by simp [CoverageRange.sameEnds])

/-- At an offset the stack is hot if and only if the offset is used. -/
theorem hot_stackAfter_iff (hpos : ∀ r ∈ rs, r.startOffset < r.endOffset) (hnest : Laminar rs)
    (hnonneg : ∀ r ∈ rs, 0 ≤ r.startOffset) (x : Nat) :
    hot (stackAfter [] ((sortedPoints rs).filter fun p => p.offset ≤ (x : Int))) = true ↔
      (x : Int) ∈ usedOffsets rs := by
  have hpoints : ((sortedPoints rs).filter fun p => p.offset ≤ (x : Int))
      = (sortedPoints rs).filter fun p => p.offset < ((x + 1 : Nat) : Int) := by
    refine List.filter_congr fun p _ => ?_
    rw [decide_eq_decide]
    omega
  have hranges : ((opening rs).filter fun r =>
        r.startOffset < ((x + 1 : Nat) : Int) && ((x + 1 : Nat) : Int) ≤ r.endOffset)
      = (opening rs).filter fun r => r.encloses (x : Int) := by
    refine List.filter_congr fun r _ => ?_
    rw [CoverageRange.encloses, ← Bool.decide_and, ← Bool.decide_and, decide_eq_decide]
    omega
  rw [hpoints, stackAfter_eq hpos hnest hnonneg, hranges, hot, List.head?_reverse,
    List.getLast?_map, ← innermost_eq hnest, decide_eq_true_eq]
  cases hin : innermost rs (x : Int) with
  | none => simp [usedOffsets, hin]
  | some r => simp [usedOffsets, hin]

end Laminar

/-! ## The result of the sweep -/

/-- No event comes after the last one. -/
theorem offset_le_lastOf {a : Int} {points : List Point}
    (hsorted : (a :: points.map Point.offset).Pairwise (· ≤ ·)) {p : Point} (hp : p ∈ points) :
    p.offset ≤ lastOf a points := by
  induction points generalizing a with
  | nil => cases hp
  | cons q points ih =>
      have htail := (List.pairwise_cons.mp hsorted).2
      rcases List.mem_cons.mp hp with rfl | hp
      · exact le_lastOf htail
      · exact ih htail hp

/-- The last offset is that of an event. -/
theorem exists_offset_eq_lastOf (a : Int) {points : List Point} (h : points ≠ []) :
    ∃ p ∈ points, p.offset = lastOf a points := by
  induction points generalizing a with
  | nil => exact absurd rfl h
  | cons p points ih =>
      cases points with
      | nil => exact ⟨p, List.mem_cons_self, rfl⟩
      | cons q points =>
          obtain ⟨r, hr, heq⟩ := ih p.offset (List.cons_ne_nil q points)
          exact ⟨r, List.mem_cons_of_mem p hr, heq⟩

/-- The largest close offset is the largest end offset. -/
theorem ScriptCoverage.totalOf_eq (script : ScriptCoverage) :
    totalOf script.points = (max (maxEnd script.ranges) 0).toNat := by
  have hcloses : ∀ rs : List CoverageRange,
      ((rs.flatMap CoverageRange.ends).filter fun p => p.ty = 1).map Point.offset
        = rs.map CoverageRange.endOffset := by
    intro rs
    induction rs with
    | nil => rfl
    | cons r rs ih =>
        rw [List.flatMap_cons, List.filter_append, List.map_append, ih]
        simp [CoverageRange.ends]
  rw [totalOf, script.points_eq, hcloses, maxEnd]

/-- What a sweep starts with: its events are sorted, from the first one on. -/
theorem sorted_of_sortedPoints {rs : List CoverageRange} {first : Point} {rest : List Point}
    (h : sortedPoints rs = first :: rest) :
    (first.offset :: (first :: rest).map Point.offset).Pairwise (· ≤ ·) := by
  have hsorted : ((first :: rest).map Point.offset).Pairwise (· ≤ ·) := by
    rw [← h, List.pairwise_map]
    refine sortedPoints_pairwise.imp fun {p q} hpq => ?_
    unfold Point.le at hpq
    omega
  rw [List.map_cons] at hsorted ⊢
  refine List.pairwise_cons.mpr ⟨fun y hy => ?_, hsorted⟩
  rcases List.mem_cons.mp hy with rfl | hy
  · exact Int.le_refl _
  · exact (List.pairwise_cons.mp hsorted).1 y hy

/-- The last event of a sweep is a close event: it is at the largest end offset. -/
theorem lastOf_sortedPoints {rs : List CoverageRange}
    (hpos : ∀ r ∈ rs, r.startOffset < r.endOffset) {first : Point} {rest : List Point}
    (h : sortedPoints rs = first :: rest) : lastOf first.offset (first :: rest) = maxEnd rs := by
  have hsorted := sorted_of_sortedPoints h
  have hle : ∀ r ∈ rs, r.endOffset ≤ lastOf first.offset (first :: rest) := by
    intro r hr
    have hclose : (⟨r.endOffset, 1, r.endOffset - r.startOffset, r.count⟩ : Point)
        ∈ first :: rest := by
      rw [← h]
      exact mem_sortedPoints.mpr ⟨r, hr, by simp [CoverageRange.ends]⟩
    exact offset_le_lastOf hsorted hclose
  obtain ⟨p, hp, hlast⟩ := exists_offset_eq_lastOf first.offset (List.cons_ne_nil first rest)
  rw [← h] at hp
  obtain ⟨r, hr, hends⟩ := mem_sortedPoints.mp hp
  have hend : r.endOffset = lastOf first.offset (first :: rest) := by
    have hlt := hpos r hr
    have hle := hle r hr
    simp only [CoverageRange.ends, List.mem_cons, List.not_mem_nil, or_false] at hends
    -- an open event is followed by its close
    rcases hends with rfl | rfl
    · dsimp only at hlast
      omega
    · exact hlast
  have hmax : (rs.map CoverageRange.endOffset).max? = some (lastOf first.offset (first :: rest)) := by
    rw [List.max?_eq_some_iff]
    refine ⟨hend ▸ List.mem_map_of_mem hr, fun b hb => ?_⟩
    obtain ⟨r', hr', rfl⟩ := List.mem_map.mp hb
    exact hle r' hr'
  rw [maxEnd, hmax]
  rfl

/-- The innermost range around an offset is one of the ranges around it. -/
theorem mem_of_innermost {rs : List CoverageRange} {x : Int} {r : CoverageRange}
    (h : innermost rs x = some r) : r ∈ rs ∧ r.encloses x = true := by
  have hmem := (List.mem_filter.mp (List.mem_of_getLast? h)).1
  exact List.mem_filter.mp hmem

/-- Every range lies between the first and the last event. -/
theorem between_sortedPoints {rs : List CoverageRange}
    (hpos : ∀ r ∈ rs, r.startOffset < r.endOffset) {first : Point} {rest : List Point}
    (h : sortedPoints rs = first :: rest) {r : CoverageRange} (hr : r ∈ rs) :
    first.offset ≤ r.startOffset ∧ r.endOffset ≤ maxEnd rs := by
  have hsorted := sorted_of_sortedPoints h
  have hevent : ∀ p ∈ r.ends, p ∈ first :: rest :=
    fun p hp => h ▸ mem_sortedPoints.mpr ⟨r, hr, hp⟩
  have hopen := hevent ⟨r.startOffset, 0, r.endOffset - r.startOffset, r.count⟩
    List.mem_cons_self
  have hclose := hevent ⟨r.endOffset, 1, r.endOffset - r.startOffset, r.count⟩
    (List.mem_cons_of_mem _ List.mem_cons_self)
  refine ⟨?_, lastOf_sortedPoints hpos h ▸ offset_le_lastOf hsorted hclose⟩
  exact (List.pairwise_cons.mp hsorted).1 r.startOffset
    (List.mem_map_of_mem (f := Point.offset) hopen)

/-- From the first event to the last one, the stack of nested ranges is hot at the used
    offsets. -/
theorem coe_hotOffsets {rs : List CoverageRange} (hpos : ∀ r ∈ rs, r.startOffset < r.endOffset)
    (hnest : Laminar rs) (hnonneg : ∀ r ∈ rs, 0 ≤ r.startOffset) {first : Point}
    {rest : List Point} (h : sortedPoints rs = first :: rest) (hfirst : 0 ≤ first.offset) :
    (hotOffsets [] (first :: rest) first.offset (maxEnd rs) : Set Int) = usedOffsets rs := by
  ext x
  rw [Finset.mem_coe, hotOffsets, Finset.mem_filter, Finset.mem_Ico, ← h]
  constructor
  · rintro ⟨⟨hx, -⟩, hhot⟩
    obtain ⟨n, rfl⟩ := Int.eq_ofNat_of_zero_le (Int.le_trans hfirst hx)
    exact (hot_stackAfter_iff hpos hnest hnonneg n).mp hhot
  · intro hused
    obtain ⟨r, hin, -⟩ := id hused
    obtain ⟨hr, hx⟩ := mem_of_innermost hin
    have hb := between_sortedPoints hpos h hr
    simp only [CoverageRange.encloses, Bool.and_eq_true, decide_eq_true_eq] at hx
    refine ⟨⟨by omega, by omega⟩, ?_⟩
    obtain ⟨n, rfl⟩ := Int.eq_ofNat_of_zero_le (show 0 ≤ x by omega)
    exact (hot_stackAfter_iff hpos hnest hnonneg n).mpr hused

/-- `compute_js_coverage` counts the offsets whose innermost range was executed, up to the
    largest end offset, if the ranges are nested properly; and it never counts more than
    the total. -/
theorem computeJsCoverage_innermost (script : ScriptCoverage)
    (hnonneg : ∀ r ∈ script.ranges, 0 ≤ r.startOffset) :
    (Laminar script.ranges → computeJsCoverage script =
      ((usedOffsets script.ranges).ncard, (maxEnd script.ranges).toNat)) ∧
    (computeJsCoverage script).1 ≤ (computeJsCoverage script).2 := by
  have hpos : ∀ r ∈ script.ranges, r.startOffset < r.endOffset :=
    fun r hr => ScriptCoverage.lt_of_mem_ranges hr
  have hpoints : script.points.insertionSort Point.le = sortedPoints script.ranges := by
    rw [sortedPoints, script.points_eq]
  cases hS : sortedPoints script.ranges with
  | nil =>
      -- no range has bytes
      have hnone : script.ranges = [] := by
        have h := opening_perm script.ranges
        rw [opening, hS] at h
        exact h.nil_eq.symm
      have hzero : computeJsCoverage script = (0, 0) := by rw [computeJsCoverage, hpoints, hS]
      rw [hzero, hnone]
      refine ⟨fun _ => ?_, Nat.le_refl 0⟩
      have hempty : usedOffsets [] = ∅ := by simp [usedOffsets, innermost]
      rw [hempty, Set.ncard_empty]
      rfl
  | cons first rest =>
      have hresult : computeJsCoverage script =
          ((hotOffsets [] (first :: rest) first.offset (maxEnd script.ranges)).card,
            (max (maxEnd script.ranges) 0).toNat) := by
        rw [computeJsCoverage, hpoints, hS]
        dsimp only
        rw [sweep_used (sorted_of_sortedPoints hS), lastOf_sortedPoints hpos hS, Nat.zero_add,
          script.totalOf_eq]
      have hfirst : 0 ≤ first.offset := by
        obtain ⟨r, hr, hends⟩ := mem_sortedPoints.mp (hS ▸ List.mem_cons_self)
        have h0 := hnonneg r hr
        have hlt := hpos r hr
        simp only [CoverageRange.ends, List.mem_cons, List.not_mem_nil, or_false] at hends
        rcases hends with rfl | rfl <;> dsimp only <;> omega
      rw [hresult]
      refine ⟨fun hnest => ?_, ?_⟩
      · rw [← coe_hotOffsets hpos hnest hnonneg hS hfirst, Set.ncard_coe_finset]
        congr 1
        omega
      -- at most every offset from the first event on
      · have hle : (hotOffsets [] (first :: rest) first.offset (maxEnd script.ranges)).card
            ≤ (Finset.Ico first.offset (maxEnd script.ranges)).card := Finset.card_filter_le _ _
        rw [Int.card_Ico] at hle
        dsimp only
        omega

/-- A function with an inner block that was never executed, and an empty range. -/
def nestedScript : ScriptCoverage where
  url := "https://a.b/app.js"
  functions := [⟨[⟨0, 10, 1⟩, ⟨2, 6, 0⟩, ⟨3, 3, 5⟩]⟩, ⟨[⟨2, 4, 2⟩]⟩]

/-- The sweep over `nestedScript` finds eight of its ten bytes used. -/
theorem computeJsCoverage_innermost_nested :
    (∀ r ∈ nestedScript.ranges, 0 ≤ r.startOffset) ∧
    ((Laminar nestedScript.ranges → computeJsCoverage nestedScript =
        ((usedOffsets nestedScript.ranges).ncard, (maxEnd nestedScript.ranges).toNat)) ∧
      (computeJsCoverage nestedScript).1 ≤ (computeJsCoverage nestedScript).2) :=
  ⟨by decide, computeJsCoverage_innermost nestedScript (by decide)⟩

example : computeJsCoverage nestedScript = (8, 10) := by decide

end Coverage
end BrowserHeadless
