/-
  BrowserHeadless.Vitals.Cls

  `aggregate_cls_sources` (src/browser/mod.rs): the layout shifts of a page, grouped by the
  elements that moved.

  The two loops tally the sources of all entries in one list (`bySelector_eq_tally`), so a
  row has the shares of its selector's sources and counts these sources
  (`mem_aggregateClsSources`).
-/

import BrowserHeadless.Collect.Extract
import BrowserHeadless.Lib.Group
import BrowserHeadless.Lib.Sort
import BrowserHeadless.Lib.Text
import Mathlib.Algebra.BigOperators.Ring.List
import Mathlib.Algebra.Order.Field.Rat
import Mathlib.Tactic.FieldSimp

namespace BrowserHeadless
namespace Vitals

open Lib (HashMap tally rankBy)

/-! ## Data -/

/-- `ClsSourceElement`, less the boxes. -/
structure ClsSourceElement (R : Type) where
  tag : String
  id : String
  className : String
  distancePx : R

/-- `ClsEntry`, less its time. -/
structure ClsEntry (R : Type) where
  value : R
  sources : List (ClsSourceElement R)

/-- The accumulator of a selector. -/
structure ClsAgg (R : Type) where
  totalShift : R
  shiftCount : Nat
  maxDistancePx : R

/-- `ClsTopSource`. -/
structure ClsTopSource (R : Type) where
  selector : String
  totalShift : R
  fraction : R
  shiftCount : Nat
  maxDistancePx : R

/-- `format_cls_selector`. -/
def formatClsSelector {R : Type} (src : ClsSourceElement R) : String :=
  if src.id ≠ "" then src.tag ++ "#" ++ src.id
  else if src.className ≠ "" then
    let first := ((Lib.words Collect.isWhitespace src.className.toList).head?.map
      String.ofList).getD ""
    src.tag ++ "." ++ first
  else src.tag

section Aggregate

variable {R : Type} [Zero R] [One R] [Add R] [Div R] [NatCast R] [LinearOrder R]

/-- The body of the inner `for`. -/
def addSource (perSource : R) (agg : ClsAgg R) (src : ClsSourceElement R) : ClsAgg R where
  totalShift := agg.totalShift + perSource
  shiftCount := (agg.shiftCount + 1) % 2 ^ 32
  maxDistancePx :=
    if agg.maxDistancePx < src.distancePx then src.distancePx else agg.maxDistancePx

/-- The body of the outer `for`. -/
def noteClsEntry (bySelector : HashMap String (ClsAgg R)) (entry : ClsEntry R) :
    HashMap String (ClsAgg R) :=
  if entry.sources.isEmpty then bySelector
  else
    let perSource := entry.value / (entry.sources.length : R)
    entry.sources.foldl
      (fun m src =>
        m.upsert (formatClsSelector src) ⟨0, 0, 0⟩ fun agg => addSource perSource agg src)
      bySelector

/-- The map `by_selector`. -/
def bySelector (entries : List (ClsEntry R)) : HashMap String (ClsAgg R) :=
  entries.foldl noteClsEntry ∅

/-- The denominator of the fractions. -/
def totalCls (cls : R) : R := if 0 < cls then cls else 1

/-- The row of a map entry. -/
def clsRow (cls : R) (e : Σ _ : String, ClsAgg R) : ClsTopSource R where
  selector := e.1
  totalShift := e.2.totalShift
  fraction := e.2.totalShift / totalCls cls
  shiftCount := e.2.shiftCount
  maxDistancePx := e.2.maxDistancePx

/-- `aggregate_cls_sources`; `order` is the order in which the map is visited. -/
def aggregateClsSources (order : HashMap.Order String (ClsAgg R)) (cls : R)
    (entries : List (ClsEntry R)) : List (ClsTopSource R) :=
  rankBy ClsTopSource.totalShift ((order.entries (bySelector entries)).map (clsRow cls))

/-! ## One list of sources -/

/-- All sources, each with its share of its entry. -/
def shares (entries : List (ClsEntry R)) : List (R × ClsSourceElement R) :=
  entries.flatMap fun entry =>
    entry.sources.map fun src => (entry.value / (entry.sources.length : R), src)

/-- The shares of a selector. -/
def sharesOf (entries : List (ClsEntry R)) (selector : String) :
    List (R × ClsSourceElement R) :=
  (shares entries).filter fun s => formatClsSelector s.2 = selector

omit [One R] in
/-- The two loops are one loop over the sources. -/
theorem bySelector_eq_tally (entries : List (ClsEntry R)) :
    bySelector entries = tally (fun s => some (formatClsSelector s.2)) ⟨0, 0, 0⟩
      (fun agg s => addSource s.1 agg s.2) ∅ (shares entries) := by
  have hentry : ∀ (m : HashMap String (ClsAgg R)) (entry : ClsEntry R),
      noteClsEntry m entry =
        (entry.sources.map fun src => (entry.value / (entry.sources.length : R), src)).foldl
          (fun m s =>
            m.upsert (formatClsSelector s.2) ⟨0, 0, 0⟩ fun agg => addSource s.1 agg s.2) m := by
    intro m entry
    rw [noteClsEntry, List.foldl_map]
    split
    next hempty => rw [List.isEmpty_iff.mp hempty, List.foldl_nil]
    next => rfl
  have hfold : ∀ m : HashMap String (ClsAgg R), entries.foldl noteClsEntry m =
      tally (fun s => some (formatClsSelector s.2)) ⟨0, 0, 0⟩
        (fun agg s => addSource s.1 agg s.2) m (shares entries) := by
    induction entries with
    | nil => exact fun m => rfl
    | cons entry entries ih =>
        intro m
        have hcons : shares (entry :: entries) = (entry.sources.map fun src =>
            (entry.value / (entry.sources.length : R), src)) ++ shares entries := List.flatMap_cons
        rw [List.foldl_cons, ih, hcons, Lib.tally_append, hentry]
        rfl
  exact hfold ∅

omit [Zero R] [One R] [Div R] [NatCast R] in
/-- The fields of an accumulator. -/
theorem foldl_addSource (l : List (R × ClsSourceElement R)) (agg : ClsAgg R) :
    (l.foldl (fun agg s => addSource s.1 agg s.2) agg).totalShift =
        l.foldl (fun t s => t + s.1) agg.totalShift ∧
      (agg.shiftCount < 2 ^ 32 →
        (l.foldl (fun agg s => addSource s.1 agg s.2) agg).shiftCount =
          (agg.shiftCount + l.length) % 2 ^ 32) := by
  induction l generalizing agg with
  | nil => exact ⟨rfl, fun h => (Nat.mod_eq_of_lt h).symm⟩
  | cons s l ih =>
      obtain ⟨hshift, hcount⟩ := ih (addSource s.1 agg s.2)
      refine ⟨hshift, fun _ => ?_⟩
      rw [List.foldl_cons, hcount (Nat.mod_lt _ (by decide)), List.length_cons]
      show ((agg.shiftCount + 1) % 2 ^ 32 + l.length) % 2 ^ 32 = _
      rw [Nat.mod_add_mod, Nat.add_assoc, Nat.add_comm 1]

omit [One R] in
/-- What the map has under a selector. -/
theorem lookup_bySelector (entries : List (ClsEntry R)) (selector : String) :
    (bySelector entries).lookup selector =
      if sharesOf entries selector = [] then none
      else some ((sharesOf entries selector).foldl (fun agg s => addSource s.1 agg s.2)
        ⟨0, 0, 0⟩) := by
  rw [bySelector_eq_tally, Lib.lookup_tally, Finmap.lookup_empty, Option.getD_none]
  simp only [Option.some.injEq]
  rfl

/-- The rows: one for each selector that has a source, with the sum of its shares and the
    number of its sources. -/
theorem mem_aggregateClsSources {order : HashMap.Order String (ClsAgg R)} {cls : R}
    {entries : List (ClsEntry R)} {row : ClsTopSource R}
    (h : row ∈ aggregateClsSources order cls entries) :
    sharesOf entries row.selector ≠ [] ∧
      row.totalShift = (sharesOf entries row.selector).foldl (fun t s => t + s.1) 0 ∧
      row.fraction = row.totalShift / totalCls cls ∧
      row.shiftCount = (sharesOf entries row.selector).length % 2 ^ 32 := by
  obtain ⟨e, he, rfl⟩ := List.mem_map.mp ((Lib.perm_rankBy _ _).mem_iff.mp h)
  have hlookup := order.lookup_of_mem he
  rw [lookup_bySelector] at hlookup
  split at hlookup
  next => exact absurd hlookup (by simp)
  next hne =>
    obtain ⟨hshift, hcount⟩ := foldl_addSource (sharesOf entries e.1) (⟨0, 0, 0⟩ : ClsAgg R)
    rw [Option.some.inj hlookup] at hshift hcount
    refine ⟨hne, hshift, rfl, ?_⟩
    have hcount' := hcount (show 0 < 2 ^ 32 by decide)
    rw [Nat.zero_add] at hcount'
    exact hcount'

/-- Every selector that has a source has a row. -/
theorem exists_row {entries : List (ClsEntry R)} {selector : String}
    (order : HashMap.Order String (ClsAgg R)) (cls : R) (h : sharesOf entries selector ≠ []) :
    ∃ row ∈ aggregateClsSources order cls entries, row.selector = selector := by
  have hlookup := lookup_bySelector entries selector
  rw [if_neg h] at hlookup
  have hentry := (order.mem_entries (e := ⟨selector, _⟩)).mpr hlookup
  exact ⟨_, (Lib.perm_rankBy _ _).mem_iff.mpr (List.mem_map_of_mem hentry), rfl⟩

/-- A selector has a row exactly if some entry has a source with it. -/
theorem mem_selectors {order : HashMap.Order String (ClsAgg R)} {cls : R}
    {entries : List (ClsEntry R)} {selector : String} :
    selector ∈ (aggregateClsSources order cls entries).map ClsTopSource.selector ↔
      ∃ entry ∈ entries, ∃ src ∈ entry.sources, formatClsSelector src = selector := by
  constructor
  · intro h
    obtain ⟨row, hrow, rfl⟩ := List.mem_map.mp h
    obtain ⟨s, hs⟩ := List.exists_mem_of_ne_nil _ (mem_aggregateClsSources hrow).1
    obtain ⟨hshare, hselector⟩ := List.mem_filter.mp hs
    obtain ⟨entry, hentry, hsrc⟩ := List.mem_flatMap.mp hshare
    obtain ⟨src, hmem, rfl⟩ := List.mem_map.mp hsrc
    exact ⟨entry, hentry, src, hmem, of_decide_eq_true hselector⟩
  · rintro ⟨entry, hentry, src, hsrc, rfl⟩
    have hshare : (entry.value / (entry.sources.length : R), src) ∈
        sharesOf entries (formatClsSelector src) :=
      List.mem_filter.mpr ⟨List.mem_flatMap.mpr ⟨entry, hentry, List.mem_map_of_mem hsrc⟩,
        decide_eq_true rfl⟩
    obtain ⟨row, hrow, hselector⟩ := exists_row order cls (List.ne_nil_of_mem hshare)
    exact List.mem_map.mpr ⟨row, hrow, hselector⟩

/-- No two rows have one selector. -/
theorem nodup_selectors (order : HashMap.Order String (ClsAgg R)) (cls : R)
    (entries : List (ClsEntry R)) :
    ((aggregateClsSources order cls entries).map ClsTopSource.selector).Nodup := by
  refine ((Lib.perm_rankBy _ _).map ClsTopSource.selector).nodup_iff.mpr ?_
  rw [List.map_map]
  exact order.nodupKeys _

end Aggregate

/-! ## Conservation of the shift -/

section Rational

variable {entries : List (ClsEntry ℚ)}

/-- The shift of a selector. -/
def shiftOf (entries : List (ClsEntry ℚ)) (selector : String) : ℚ :=
  ((sharesOf entries selector).map Prod.fst).sum

/-- The entries that have a source. -/
def attributed (entries : List (ClsEntry ℚ)) : List (ClsEntry ℚ) :=
  entries.filter fun entry => !entry.sources.isEmpty

theorem totalShift_eq {order : HashMap.Order String (ClsAgg ℚ)} {cls : ℚ} {row : ClsTopSource ℚ}
    (h : row ∈ aggregateClsSources order cls entries) :
    row.totalShift = shiftOf entries row.selector := by
  rw [(mem_aggregateClsSources h).2.1, Lib.foldl_add, zero_add, shiftOf]

/-- The shares of an entry add up to its value. -/
theorem sum_shares (entries : List (ClsEntry ℚ)) :
    ((shares entries).map Prod.fst).sum = ((attributed entries).map ClsEntry.value).sum := by
  induction entries with
  | nil => rfl
  | cons entry entries ih =>
      have hcons : shares (entry :: entries) = (entry.sources.map fun src =>
          (entry.value / (entry.sources.length : ℚ), src)) ++ shares entries := List.flatMap_cons
      have hone : ((entry.sources.map fun src =>
          (entry.value / (entry.sources.length : ℚ), src)).map Prod.fst).sum =
            entry.sources.length * (entry.value / (entry.sources.length : ℚ)) := by
        rw [List.map_map]
        show (entry.sources.map fun _ => entry.value / (entry.sources.length : ℚ)).sum = _
        rw [List.map_const', List.sum_replicate, nsmul_eq_mul]
      rw [hcons, List.map_append, List.sum_append, ih, hone, attributed, attributed]
      by_cases hempty : entry.sources = []
      · rw [List.filter_cons_of_neg (by simp [hempty]), hempty, List.length_nil, Nat.cast_zero,
          zero_mul, zero_add]
      · have hlen : (entry.sources.length : ℚ) ≠ 0 :=
          Nat.cast_ne_zero.mpr (mt List.length_eq_zero_iff.mp hempty)
        rw [List.filter_cons_of_pos (by simpa using hempty), List.map_cons, List.sum_cons,
          mul_div_cancel₀ _ hlen]

/-- Summing over the rows is summing over the sources. -/
theorem sum_totalShift (order : HashMap.Order String (ClsAgg ℚ)) (cls : ℚ)
    (entries : List (ClsEntry ℚ)) :
    ((aggregateClsSources order cls entries).map ClsTopSource.totalShift).sum =
      ((attributed entries).map ClsEntry.value).sum := by
  have hkeys : ∀ s ∈ shares entries, formatClsSelector s.2 ∈ (bySelector entries).keys := by
    intro s hs
    rw [bySelector_eq_tally]
    exact Lib.mem_keys_tally.mpr ⟨s, hs, rfl⟩
  calc ((aggregateClsSources order cls entries).map ClsTopSource.totalShift).sum
      = ((aggregateClsSources order cls entries).map
          fun row => shiftOf entries row.selector).sum := by
        rw [List.map_congr_left fun row hrow => totalShift_eq hrow]
    _ = ((order.entries (bySelector entries)).map fun e => shiftOf entries e.1).sum := by
        rw [aggregateClsSources, ((Lib.perm_rankBy _ _).map _).sum_eq, List.map_map]
        rfl
    _ = ∑ selector ∈ (bySelector entries).keys, shiftOf entries selector :=
        order.sum_keys _ _
    _ = ((shares entries).map Prod.fst).sum := Lib.sum_filter_key hkeys
    _ = ((attributed entries).map ClsEntry.value).sum := sum_shares entries

/-- The fractions are the shifts over one denominator. -/
theorem sum_fraction (order : HashMap.Order String (ClsAgg ℚ)) (cls : ℚ)
    (entries : List (ClsEntry ℚ)) :
    ((aggregateClsSources order cls entries).map ClsTopSource.fraction).sum =
      ((attributed entries).map ClsEntry.value).sum / totalCls cls := by
  have hfraction : ∀ row ∈ aggregateClsSources order cls entries,
      row.fraction = row.totalShift * (totalCls cls)⁻¹ := fun row hrow => by
    rw [(mem_aggregateClsSources hrow).2.2.1, div_eq_mul_inv]
  rw [List.map_congr_left hfraction, List.sum_map_mul_right, sum_totalShift, div_eq_mul_inv]

theorem sum_attributed_le (h : ∀ entry ∈ entries, 0 ≤ entry.value) :
    ((attributed entries).map ClsEntry.value).sum ≤ (entries.map ClsEntry.value).sum := by
  refine (List.filter_sublist.map _).sum_le_sum fun v hv => ?_
  obtain ⟨entry, hentry, rfl⟩ := List.mem_map.mp hv
  exact h entry hentry

/-- For every order in which the map is visited: the rows carry the values of the entries
    that have a source, their fractions do not exceed the whole, each selector has one row,
    and the largest shift comes first. -/
theorem cls_mass (order : HashMap.Order String (ClsAgg ℚ)) (cls : ℚ)
    (entries : List (ClsEntry ℚ)) (hvalue : ∀ entry ∈ entries, 0 ≤ entry.value) :
    ((aggregateClsSources order cls entries).map ClsTopSource.totalShift).sum =
        ((entries.filter fun entry => !entry.sources.isEmpty).map ClsEntry.value).sum ∧
      (0 < cls → (entries.map ClsEntry.value).sum ≤ cls →
        ((aggregateClsSources order cls entries).map ClsTopSource.fraction).sum ≤ 1) ∧
      ((aggregateClsSources order cls entries).map ClsTopSource.selector).Nodup ∧
      (∀ selector, selector ∈ (aggregateClsSources order cls entries).map ClsTopSource.selector ↔
        ∃ entry ∈ entries, ∃ src ∈ entry.sources, formatClsSelector src = selector) ∧
      (aggregateClsSources order cls entries).Pairwise
        fun row next => next.totalShift ≤ row.totalShift := by
  refine ⟨sum_totalShift order cls entries, fun hcls hsum => ?_, nodup_selectors order cls entries,
    fun selector => ?_, Lib.pairwise_rankBy _ _⟩
  · rw [sum_fraction, totalCls, if_pos hcls, div_le_one hcls]
    exact (sum_attributed_le hvalue).trans hsum
  · rw [mem_selectors]

/-- Two sources of one selector, and an entry without sources. -/
def heroShifts : List (ClsEntry ℚ) :=
  [⟨1 / 2, [⟨"img", "", "hero wide", 10⟩, ⟨"img", "", "hero", 4⟩]⟩, ⟨1 / 4, []⟩]

theorem cls_mass_heroShifts :
    ((aggregateClsSources HashMap.Order.arbitrary 1 heroShifts).map
        ClsTopSource.totalShift).sum = 1 / 2 ∧
      ((aggregateClsSources HashMap.Order.arbitrary 1 heroShifts).map
        ClsTopSource.fraction).sum ≤ 1 := by
  have hvalue : ∀ entry ∈ heroShifts, 0 ≤ entry.value := by
    simp [heroShifts]
  obtain ⟨hsum, hfraction, -⟩ := cls_mass HashMap.Order.arbitrary 1 heroShifts hvalue
  refine ⟨?_, hfraction (by norm_num) ?_⟩
  · rw [hsum]
    simp [heroShifts]
  · norm_num [heroShifts]

end Rational

end Vitals
end BrowserHeadless
