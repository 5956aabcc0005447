/-
  BrowserHeadless.Vitals.LongTasks

  `aggregate_long_tasks` (src/browser/mod.rs): the long tasks of a page, grouped by what they
  are attributed to.

  Every task has one source (`taskSource`), so the map has for each source the row of its
  tasks (`lookup_byTaskSource`), and the five offenders are the leaders of that map.
-/

import BrowserHeadless.Lib.Group
import BrowserHeadless.Lib.Leaderboard

namespace BrowserHeadless
namespace Vitals

open Lib (HashMap leaders)

/-! ## Data -/

/-- `LongTaskRawAttribution`, less the fields that are not read. -/
structure LongTaskRawAttribution where
  containerSrc : String
  containerName : String

/-- `LongTaskRawEntry`, less its time. -/
structure LongTaskRawEntry (R : Type) where
  name : String
  duration : R
  attribution : List LongTaskRawAttribution

/-- `LongTaskOffender`. -/
@[ext] structure LongTaskOffender (R : Type) where
  source : String
  totalDurationMs : R
  maxDurationMs : R
  taskCount : Nat

/-- The closure of `find_map`. -/
def attributionLabel (a : LongTaskRawAttribution) : Option String :=
  if a.containerSrc ≠ "" then some a.containerSrc
  else if a.containerName ≠ "" then some a.containerName
  else none

/-- `source`: the first attribution with a label, else the task's name. -/
def taskSource {R : Type} (entry : LongTaskRawEntry R) : String :=
  (entry.attribution.findSome? attributionLabel).getD
    (if entry.name ≠ "" then entry.name else "(same-page)")

section Aggregate

variable {R : Type} [Zero R] [Add R] [LinearOrder R]

/-- The value of `or_insert_with`. -/
def newLongTaskOffender (source : String) : LongTaskOffender R where
  source := source
  totalDurationMs := 0
  maxDurationMs := 0
  taskCount := 0

/-- The body of the `for`. -/
def addTask (agg : LongTaskOffender R) (entry : LongTaskRawEntry R) : LongTaskOffender R :=
  { agg with
    totalDurationMs := agg.totalDurationMs + entry.duration
    maxDurationMs :=
      if agg.maxDurationMs < entry.duration then entry.duration else agg.maxDurationMs
    taskCount := (agg.taskCount + 1) % 2 ^ 32 }

/-- The map `by_source`. -/
def byTaskSource (raw : List (LongTaskRawEntry R)) : HashMap String (LongTaskOffender R) :=
  raw.foldl
    (fun m entry => m.upsert (taskSource entry) (newLongTaskOffender (taskSource entry))
      fun agg => addTask agg entry) ∅

/-- `aggregate_long_tasks`: the new value of `long_task_top_offenders`; `order` is the order in
    which the map is visited. -/
def aggregateLongTasks (order : HashMap.Order String (LongTaskOffender R))
    (offenders : List (LongTaskOffender R)) (raw : List (LongTaskRawEntry R)) :
    List (LongTaskOffender R) :=
  if raw.isEmpty then offenders
  else leaders LongTaskOffender.totalDurationMs 5 order (byTaskSource raw)

/-! ## The rows -/

/-- The tasks of a source. -/
def tasksOf (raw : List (LongTaskRawEntry R)) (source : String) : List (LongTaskRawEntry R) :=
  raw.filter fun entry => taskSource entry = source

/-- The total duration of the tasks of a source. -/
def taskTotal (raw : List (LongTaskRawEntry R)) (source : String) : R :=
  ((tasksOf raw source).map LongTaskRawEntry.duration).foldl (· + ·) 0

/-- What there is to say about a source. -/
def taskRow (raw : List (LongTaskRawEntry R)) (source : String) : LongTaskOffender R where
  source := source
  totalDurationMs := taskTotal raw source
  maxDurationMs := ((tasksOf raw source).map LongTaskRawEntry.duration).foldl max 0
  taskCount := (tasksOf raw source).length % 2 ^ 32

/-- The sources of a page. -/
def taskSources (raw : List (LongTaskRawEntry R)) : Finset String :=
  (raw.map taskSource).toFinset

/-- The sources with a larger total. -/
def largerSources (raw : List (LongTaskRawEntry R)) (source : String) : Finset String :=
  (taskSources raw).filter fun other => taskTotal raw source < taskTotal raw other

/-- The other sources with a total as large. -/
def rivalSources (raw : List (LongTaskRawEntry R)) (source : String) : Finset String :=
  (taskSources raw).filter fun other =>
    other ≠ source ∧ taskTotal raw source ≤ taskTotal raw other

omit [Zero R] in
theorem foldl_addTask (l : List (LongTaskRawEntry R)) (agg : LongTaskOffender R)
    (hcount : agg.taskCount < 2 ^ 32) (d : LongTaskRawEntry R → LongTaskOffender R) :
    l.foldl (fun agg entry => some (addTask (agg.getD (d entry)) entry)) (some agg) =
      some
        { source := agg.source
          totalDurationMs := (l.map LongTaskRawEntry.duration).foldl (· + ·) agg.totalDurationMs
          maxDurationMs := (l.map LongTaskRawEntry.duration).foldl max agg.maxDurationMs
          taskCount := (agg.taskCount + l.length) % 2 ^ 32 } := by
  induction l generalizing agg with
  | nil =>
      rw [List.foldl_nil, List.length_nil, Nat.add_zero, Nat.mod_eq_of_lt hcount]
      rfl
  | cons entry l ih =>
      rw [List.foldl_cons, Option.getD_some, ih _ (Nat.mod_lt _ (by decide))]
      have hmax : (addTask agg entry).maxDurationMs = max agg.maxDurationMs entry.duration := by
        rw [addTask, max_def_lt]
      have hlength : ((addTask agg entry).taskCount + l.length) % 2 ^ 32 =
          (agg.taskCount + (entry :: l).length) % 2 ^ 32 := by
        rw [addTask, Nat.mod_add_mod, List.length_cons, Nat.add_assoc, Nat.add_comm 1]
      rw [hmax, hlength]
      rfl

omit [Zero R] [Add R] [LinearOrder R] in
theorem mem_taskSources {raw : List (LongTaskRawEntry R)} {source : String} :
    source ∈ taskSources raw ↔ tasksOf raw source ≠ [] := by
  rw [taskSources, List.mem_toFinset, List.mem_map, tasksOf, ne_eq, List.filter_eq_nil_iff]
  push Not
  simp only [decide_eq_true_eq]

/-- The map has the row of each source. -/
theorem lookup_byTaskSource (raw : List (LongTaskRawEntry R)) (source : String) :
    (byTaskSource raw).lookup source =
      if source ∈ taskSources raw then some (taskRow raw source) else none := by
  rw [byTaskSource, Lib.lookup_foldl_upsert, Finmap.lookup_empty]
  have hfilter : (raw.filter fun entry => taskSource entry = source) = tasksOf raw source := rfl
  rw [hfilter]
  cases htasks : tasksOf raw source with
  | nil =>
      rw [if_neg fun hmem => mem_taskSources.mp hmem htasks]
      rfl
  | cons entry l =>
      have hsource : taskSource entry = source := by
        have hmem : entry ∈ tasksOf raw source := htasks ▸ List.mem_cons_self
        exact of_decide_eq_true (List.mem_filter.mp hmem).2
      have hsome : source ∈ taskSources raw := by
        rw [mem_taskSources, htasks]
        exact List.cons_ne_nil entry l
      rw [if_pos hsome, List.foldl_cons, Option.getD_none,
        foldl_addTask l _ (Nat.mod_lt _ (by decide))]
      refine congrArg some (LongTaskOffender.ext hsource ?_ ?_ ?_)
      · rw [taskRow, taskTotal, htasks]
        rfl
      · rw [taskRow, htasks, List.map_cons, List.foldl_cons, max_def_lt]
        rfl
      · rw [taskRow, htasks]
        show ((0 + 1) % 2 ^ 32 + l.length) % 2 ^ 32 = (l.length + 1) % 2 ^ 32
        rw [Nat.mod_add_mod, Nat.add_comm (0 + 1)]

/-! ## The five largest -/

theorem aggregateLongTasks_eq (order : HashMap.Order String (LongTaskOffender R))
    (raw : List (LongTaskRawEntry R)) :
    aggregateLongTasks order [] raw =
      leaders LongTaskOffender.totalDurationMs 5 order (byTaskSource raw) := by
  cases raw with
  | nil =>
      have hlength : (leaders LongTaskOffender.totalDurationMs 5 order
          (byTaskSource ([] : List (LongTaskRawEntry R)))).length = 0 :=
        Lib.length_leaders 5 order _
      exact (List.length_eq_zero_iff.mp hlength).symm
  | cons entry raw => rfl

theorem source_of_lookup {raw : List (LongTaskRawEntry R)} (source : String)
    (row : LongTaskOffender R) (h : (byTaskSource raw).lookup source = some row) :
    row.source = source := by
  rw [lookup_byTaskSource] at h
  split at h
  next => exact congrArg LongTaskOffender.source (Option.some.inj h).symm
  next => cases h

/-- A row of the map. -/
theorem lookup_eq_some_iff {raw : List (LongTaskRawEntry R)} {row : LongTaskOffender R} :
    (byTaskSource raw).lookup row.source = some row ↔
      row.source ∈ taskSources raw ∧ row = taskRow raw row.source := by
  rw [lookup_byTaskSource]
  split
  next hmem =>
      rw [Option.some.injEq]
      exact ⟨fun h => ⟨hmem, h.symm⟩, fun h => h.2.symm⟩
  next hmem => exact iff_of_false (by simp) fun h => hmem h.1

/-- The offenders of a page.  A source can be one if fewer than five have larger totals, and
    is one in any case if fewer than five others have totals as large; it comes with the
    total, the maximum and the number of its tasks. -/
theorem aggregateLongTasks_offenders (raw : List (LongTaskRawEntry R)) :
    (∀ row, (∃ order, row ∈ aggregateLongTasks order [] raw) ↔
      (row.source ∈ taskSources raw ∧ row = taskRow raw row.source) ∧
        (largerSources raw row.source).card < 5) ∧
    (∀ row, (∀ order, row ∈ aggregateLongTasks order [] raw) ↔
      (row.source ∈ taskSources raw ∧ row = taskRow raw row.source) ∧
        (rivalSources raw row.source).card < 5) ∧
    ∀ order,
      (aggregateLongTasks order [] raw).Pairwise
        (fun a b => b.totalDurationMs ≤ a.totalDurationMs) ∧
      ((aggregateLongTasks order [] raw).map LongTaskOffender.source).Nodup ∧
      (aggregateLongTasks order [] raw).length = min 5 (taskSources raw).card := by
  simp only [aggregateLongTasks_eq]
  refine ⟨fun row => ?_, fun row => ?_, fun order => ⟨?_, ?_, ?_⟩⟩
  · rw [Lib.exists_mem_leaders_iff source_of_lookup, lookup_eq_some_iff]
    refine and_congr_right fun hrow => ?_
    rw [Lib.largerEntries, Lib.card_filter_entries (lookup_byTaskSource raw) fun other =>
      row.totalDurationMs < other.totalDurationMs, hrow.2]
    exact Iff.rfl
  · rw [Lib.forall_mem_leaders_iff source_of_lookup, lookup_eq_some_iff]
    refine and_congr_right fun hrow => ?_
    rw [Lib.rivalEntries, Lib.card_filter_entries (lookup_byTaskSource raw) fun other =>
      other.source ≠ row.source ∧ row.totalDurationMs ≤ other.totalDurationMs, hrow.2]
    exact Iff.rfl
  · exact Lib.pairwise_leaders 5 order _
  · exact Lib.nodup_leaders source_of_lookup 5 order
  · rw [Lib.length_leaders, Lib.entries_eq_map (lookup_byTaskSource raw), Multiset.card_map]
    rfl

end Aggregate

end Vitals
end BrowserHeadless
