/-
  BrowserHeadless.Vitals.Loaf

  `aggregate_loaf` (src/browser/mod.rs): the scripts of long animation frames, grouped by
  source URL; and what the counts of both rankings of a page count.

  `shift_count` and `invocation_count` are meant as numbers of entries, but go up with every
  source and every script (`offender_counts_iff`).
-/

import BrowserHeadless.Vitals.Cls

namespace BrowserHeadless
namespace Vitals

open Lib (HashMap rankBy)

/-! ## Data -/

/-- `LoafRawScript`. -/
structure LoafRawScript (R : Type) where
  invokerType : String
  sourceUrl : String
  sourceFunctionName : String
  duration : R
  forcedStyleAndLayoutDuration : R

/-- `LoafRawEntry`, less the times that are not read. -/
structure LoafRawEntry (R : Type) where
  blockingDuration : R
  scripts : List (LoafRawScript R)

/-- `LoafOffender`. -/
structure LoafOffender (R : Type) where
  sourceUrl : String
  sourceFunctionName : String
  invokerType : String
  totalDurationMs : R
  totalForcedStyleLayoutMs : R
  invocationCount : Nat

/-- The fields of `WebVitals` that `aggregate_loaf` sets. -/
structure LoafVitals (R : Type) where
  loafCount : Nat
  loafTotalBlockingDuration : R
  loafTopOffenders : List (LoafOffender R)

section Aggregate

variable {R : Type} [Zero R] [Add R] [LinearOrder R]

/-- The value of `or_insert_with`. -/
def newOffender (s : LoafRawScript R) : LoafOffender R where
  sourceUrl := s.sourceUrl
  sourceFunctionName := s.sourceFunctionName
  invokerType := s.invokerType
  totalDurationMs := 0
  totalForcedStyleLayoutMs := 0
  invocationCount := 0

/-- The body of the inner `for`. -/
def addScript (agg : LoafOffender R) (s : LoafRawScript R) : LoafOffender R :=
  { agg with
    totalDurationMs := agg.totalDurationMs + s.duration
    totalForcedStyleLayoutMs := agg.totalForcedStyleLayoutMs + s.forcedStyleAndLayoutDuration
    invocationCount := (agg.invocationCount + 1) % 2 ^ 32
    sourceFunctionName :=
      if s.sourceFunctionName ≠ "" then s.sourceFunctionName else agg.sourceFunctionName }

/-- The body of the outer `for`. -/
def noteLoafEntry (bySource : HashMap String (LoafOffender R)) (entry : LoafRawEntry R) :
    HashMap String (LoafOffender R) :=
  entry.scripts.foldl
    (fun m s => m.upsert s.sourceUrl (newOffender s) fun agg => addScript agg s) bySource

/-- The map `by_source`. -/
def bySource (raw : List (LoafRawEntry R)) : HashMap String (LoafOffender R) :=
  raw.foldl noteLoafEntry ∅

/-- `aggregate_loaf`; `order` is the order in which the map is visited. -/
def aggregateLoaf (order : HashMap.Order String (LoafOffender R)) (raw : List (LoafRawEntry R)) :
    LoafVitals R where
  loafCount := raw.length % 2 ^ 32
  loafTotalBlockingDuration := (raw.map LoafRawEntry.blockingDuration).foldl (· + ·) 0
  loafTopOffenders :=
    (rankBy LoafOffender.totalDurationMs
      ((order.entries (bySource raw)).map fun e => e.2)).take 5

/-! ## The scripts of a source -/

/-- The scripts of a source URL, over all entries. -/
def scriptsOf (raw : List (LoafRawEntry R)) (url : String) : List (LoafRawScript R) :=
  (raw.flatMap LoafRawEntry.scripts).filter fun s => s.sourceUrl = url

/-- The total duration of a source URL. -/
def totalDuration (raw : List (LoafRawEntry R)) (url : String) : R :=
  (scriptsOf raw url).foldl (fun t s => t + s.duration) 0

/-- The source URLs of all scripts. -/
def sourceUrls (raw : List (LoafRawEntry R)) : Finset String :=
  ((raw.flatMap LoafRawEntry.scripts).map LoafRawScript.sourceUrl).toFinset

omit [LinearOrder R] in
/-- The two loops are one loop over the scripts. -/
theorem lookup_bySource (raw : List (LoafRawEntry R)) (url : String) :
    (bySource raw).lookup url = (scriptsOf raw url).foldl
      (fun agg s => some (addScript (agg.getD (newOffender s)) s)) none := by
  have hfold : ∀ m : HashMap String (LoafOffender R), raw.foldl noteLoafEntry m =
      (raw.flatMap LoafRawEntry.scripts).foldl
        (fun m s => m.upsert s.sourceUrl (newOffender s) fun agg => addScript agg s) m := by
    intro m
    rw [List.foldl_flatMap]
    rfl
  rw [bySource, hfold, Lib.lookup_foldl_upsert, Finmap.lookup_empty, scriptsOf]

omit [Zero R] [LinearOrder R] in
/-- The fields of an accumulator. -/
theorem foldl_addScript (l : List (LoafRawScript R)) (agg : LoafOffender R)
    (d : LoafRawScript R → LoafOffender R) :
    ∃ agg', l.foldl (fun agg s => some (addScript (agg.getD (d s)) s)) (some agg) = some agg' ∧
      agg'.sourceUrl = agg.sourceUrl ∧
      agg'.totalDurationMs = l.foldl (fun t s => t + s.duration) agg.totalDurationMs ∧
      (agg.invocationCount < 2 ^ 32 →
        agg'.invocationCount = (agg.invocationCount + l.length) % 2 ^ 32) := by
  induction l generalizing agg with
  | nil => exact ⟨agg, rfl, rfl, rfl, fun h => (Nat.mod_eq_of_lt h).symm⟩
  | cons s l ih =>
      obtain ⟨agg', hrun, hurl, htotal, hcount⟩ := ih (addScript agg s)
      refine ⟨agg', hrun, hurl, htotal, fun _ => ?_⟩
      rw [hcount (Nat.mod_lt _ (by decide)), List.length_cons]
      show ((agg.invocationCount + 1) % 2 ^ 32 + l.length) % 2 ^ 32 = _
      rw [Nat.mod_add_mod, Nat.add_assoc, Nat.add_comm 1]

omit [LinearOrder R] in
/-- What the map has under a URL. -/
theorem offender_of_lookup {raw : List (LoafRawEntry R)} {url : String} {agg : LoafOffender R}
    (h : (bySource raw).lookup url = some agg) :
    agg.sourceUrl = url ∧ agg.totalDurationMs = totalDuration raw url ∧
      agg.invocationCount = (scriptsOf raw url).length % 2 ^ 32 := by
  rw [lookup_bySource] at h
  rw [totalDuration]
  cases hscripts : scriptsOf raw url with
  | nil =>
      rw [hscripts] at h
      exact absurd h (by simp)
  | cons s l =>
      have hurl : s.sourceUrl = url := by
        have hmem : s ∈ scriptsOf raw url := by
          rw [hscripts]
          exact List.mem_cons_self
        exact of_decide_eq_true (List.mem_filter.mp hmem).2
      obtain ⟨agg', hrun, hsame, htotal, hcount⟩ :=
        foldl_addScript l (addScript (newOffender s) s) newOffender
      rw [hscripts, List.foldl_cons] at h
      obtain rfl := Option.some.inj (hrun.symm.trans h)
      refine ⟨hsame.trans hurl, htotal, ?_⟩
      rw [hcount (Nat.mod_lt _ (by decide)), List.length_cons]
      show ((0 + 1) % 2 ^ 32 + l.length) % 2 ^ 32 = _
      rw [Nat.mod_add_mod, Nat.add_comm]

omit [Zero R] [Add R] [LinearOrder R] in
theorem scriptsOf_ne_nil_iff {raw : List (LoafRawEntry R)} {url : String} :
    scriptsOf raw url ≠ [] ↔ url ∈ sourceUrls raw := by
  rw [sourceUrls, List.mem_toFinset, List.mem_map, scriptsOf, ne_eq, List.filter_eq_nil_iff]
  push Not
  simp only [decide_eq_true_eq]

omit [LinearOrder R] in
/-- The map has the URLs of all scripts. -/
theorem lookup_isSome_iff {raw : List (LoafRawEntry R)} {url : String} :
    ((bySource raw).lookup url).isSome = true ↔ url ∈ sourceUrls raw := by
  rw [← scriptsOf_ne_nil_iff, lookup_bySource]
  cases scriptsOf raw url with
  | nil => simp
  | cons s l =>
      obtain ⟨agg', hrun, -⟩ := foldl_addScript l (addScript (newOffender s) s) newOffender
      rw [List.foldl_cons]
      exact iff_of_true (Option.isSome_iff_exists.mpr ⟨agg', hrun⟩) (List.cons_ne_nil s l)

/-! ## The five largest -/

/-- The source URLs with a larger total duration. -/
def larger (raw : List (LoafRawEntry R)) (url : String) : Finset String :=
  (sourceUrls raw).filter fun other => totalDuration raw url < totalDuration raw other

/-- In any order, the offenders with a larger total are those of the larger URLs. -/
theorem length_filter_entries (order : HashMap.Order String (LoafOffender R))
    (raw : List (LoafRawEntry R)) (url : String) :
    (((order.entries (bySource raw)).map fun e => e.2).filter fun agg =>
      totalDuration raw url < agg.totalDurationMs).length = (larger raw url).card := by
  have hnodup : (((order.entries (bySource raw)).filter fun e =>
      totalDuration raw url < e.2.totalDurationMs).map Sigma.fst).Nodup :=
    (List.filter_sublist.map Sigma.fst).nodup (order.nodupKeys _)
  have hkeys : (((order.entries (bySource raw)).filter fun e =>
      totalDuration raw url < e.2.totalDurationMs).map Sigma.fst).toFinset = larger raw url := by
    refine Finset.ext fun other => ?_
    rw [List.mem_toFinset, List.mem_map, larger, Finset.mem_filter]
    constructor
    · rintro ⟨e, he, rfl⟩
      obtain ⟨hentry, hlarger⟩ := List.mem_filter.mp he
      have hlookup := order.lookup_of_mem hentry
      refine ⟨lookup_isSome_iff.mp (Option.isSome_iff_exists.mpr ⟨_, hlookup⟩), ?_⟩
      rw [← (offender_of_lookup hlookup).2.1]
      exact of_decide_eq_true hlarger
    · rintro ⟨hmem, hlarger⟩
      obtain ⟨agg, hlookup⟩ := Option.isSome_iff_exists.mp (lookup_isSome_iff.mpr hmem)
      refine ⟨⟨other, agg⟩, List.mem_filter.mpr ⟨order.mem_entries.mpr hlookup, ?_⟩, rfl⟩
      rw [← (offender_of_lookup hlookup).2.1] at hlarger
      exact decide_eq_true hlarger
  rw [← hkeys, List.toFinset_card_of_nodup hnodup, List.length_map, List.filter_map,
    List.length_map]
  rfl

/-- An offender of the result. -/
theorem mem_loafTopOffenders {order : HashMap.Order String (LoafOffender R)}
    {raw : List (LoafRawEntry R)} {row : LoafOffender R}
    (h : row ∈ (aggregateLoaf order raw).loafTopOffenders) :
    (bySource raw).lookup row.sourceUrl = some row ∧ (larger raw row.sourceUrl).card < 5 := by
  have hmem := (Lib.perm_rankBy _ _).mem_iff.mp (List.mem_of_mem_take h)
  obtain ⟨e, he, rfl⟩ := List.mem_map.mp hmem
  have hlookup := order.lookup_of_mem he
  obtain ⟨hurl, htotal, -⟩ := offender_of_lookup hlookup
  have hlarger := Lib.length_larger_lt _ h
  rw [htotal, length_filter_entries] at hlarger
  rw [hurl]
  exact ⟨hlookup, hlarger⟩

/-- A URL with fewer than five larger ones is in the result, for some order of the map. -/
theorem exists_mem_loafTopOffenders {raw : List (LoafRawEntry R)} {url : String}
    {agg : LoafOffender R} (hlookup : (bySource raw).lookup url = some agg)
    (hlarger : (larger raw url).card < 5) :
    ∃ order, agg ∈ (aggregateLoaf order raw).loafTopOffenders := by
  have hentry : (⟨url, agg⟩ : Σ _ : String, LoafOffender R) ∈ (bySource raw).entries :=
    Finmap.mem_lookup_iff.mp hlookup
  -- visit this entry first
  obtain ⟨rest, hrest⟩ := Multiset.exists_cons_of_mem hentry
  have hlist : ((⟨url, agg⟩ :: rest.toList : List (Σ _ : String, LoafOffender R)) : Multiset _) =
      (bySource raw).entries := by
    rw [hrest, ← Multiset.cons_coe, Multiset.coe_toList]
  obtain ⟨order, horder⟩ := HashMap.Order.exists_entries hlist
  refine ⟨order, ?_⟩
  have hlen := length_filter_entries order raw url
  rw [← (offender_of_lookup hlookup).2.1, horder, List.map_cons,
    List.filter_cons_of_neg (by simp)] at hlen
  show agg ∈ (rankBy _ ((order.entries (bySource raw)).map fun e => e.2)).take 5
  rw [horder, List.map_cons]
  apply Lib.mem_take_rankBy
  rw [hlen]
  exact hlarger

/-! ## What the counts count -/

/-- The sources of an entry that have a selector. -/
def sourcesWith (selector : String) (entry : ClsEntry R) : Nat :=
  entry.sources.countP fun src => formatClsSelector src = selector

/-- The scripts of an entry that have a source URL. -/
def scriptsWith (url : String) (entry : LoafRawEntry R) : Nat :=
  entry.scripts.countP fun s => s.sourceUrl = url

/-- The entries that have any are fewer than 2^32, and what they have beyond one each is a
    multiple of 2^32. -/
def CountsEntries {α : Type} (c : α → Nat) (l : List α) : Prop :=
  l.countP (fun a => 0 < c a) < 2 ^ 32 ∧ 2 ^ 32 ∣ (l.map fun a => c a - 1).sum

theorem countsEntries_iff {α : Type} (c : α → Nat) (l : List α) :
    (l.map c).sum % 2 ^ 32 = l.countP (fun a => 0 < c a) ↔ CountsEntries c l :=
  Lib.sum_mod_eq_countP_iff (by decide) c l

theorem countsEntries_of_sum_eq_zero {α : Type} {c : α → Nat} {l : List α}
    (h : (l.map c).sum = 0) : CountsEntries c l := by
  rw [← countsEntries_iff, h]
  refine (List.countP_eq_zero.mpr fun a ha => ?_).symm
  have hzero := List.sum_eq_zero_iff.mp h (c a) (List.mem_map_of_mem ha)
  rw [hzero]
  decide

omit [Zero R] [Add R] [LinearOrder R] in
theorem length_sharesOf [Div R] [NatCast R] (entries : List (ClsEntry R)) (selector : String) :
    (sharesOf entries selector).length = (entries.map (sourcesWith selector)).sum := by
  rw [sharesOf, ← List.countP_eq_length_filter, shares, List.countP_flatMap]
  refine congrArg List.sum (List.map_congr_left fun entry _ => ?_)
  rw [Function.comp_apply, List.countP_map, sourcesWith]
  rfl

omit [Zero R] [Add R] [LinearOrder R] in
theorem length_scriptsOf (raw : List (LoafRawEntry R)) (url : String) :
    (scriptsOf raw url).length = (raw.map (scriptsWith url)).sum := by
  rw [scriptsOf, ← List.countP_eq_length_filter, List.countP_flatMap]
  rfl

section Counts

variable [One R] [Div R] [NatCast R]

/-- A row counts the sources of its selector. -/
theorem shiftCount_eq {order : HashMap.Order String (ClsAgg R)} {cls : R}
    {entries : List (ClsEntry R)} {row : ClsTopSource R}
    (h : row ∈ aggregateClsSources order cls entries) :
    row.shiftCount = (entries.map (sourcesWith row.selector)).sum % 2 ^ 32 := by
  rw [(mem_aggregateClsSources h).2.2.2, length_sharesOf]

theorem shiftCounts_iff (order : HashMap.Order String (ClsAgg R)) (cls : R)
    (entries : List (ClsEntry R)) :
    (∀ row ∈ aggregateClsSources order cls entries,
      row.shiftCount = entries.countP fun entry => 0 < sourcesWith row.selector entry) ↔
      ∀ selector, CountsEntries (sourcesWith selector) entries := by
  constructor
  · intro h selector
    by_cases hnil : sharesOf entries selector = []
    · apply countsEntries_of_sum_eq_zero
      rw [← length_sharesOf, hnil, List.length_nil]
    · obtain ⟨row, hrow, rfl⟩ := exists_row order cls hnil
      have hcount := h row hrow
      rw [shiftCount_eq hrow] at hcount
      exact (countsEntries_iff _ _).mp hcount
  · intro h row hrow
    rw [shiftCount_eq hrow]
    exact (countsEntries_iff _ _).mpr (h row.selector)

end Counts

omit [LinearOrder R] in
/-- An accumulator counts the scripts of its source URL. -/
theorem invocationCount_eq {raw : List (LoafRawEntry R)} {url : String} {agg : LoafOffender R}
    (h : (bySource raw).lookup url = some agg) :
    agg.invocationCount = (raw.map (scriptsWith url)).sum % 2 ^ 32 := by
  rw [(offender_of_lookup h).2.2, length_scriptsOf]

theorem invocationCounts_iff (raw : List (LoafRawEntry R)) :
    (∀ order, ∀ row ∈ (aggregateLoaf order raw).loafTopOffenders,
      row.invocationCount = raw.countP fun entry => 0 < scriptsWith row.sourceUrl entry) ↔
      ∀ url, (larger raw url).card < 5 → CountsEntries (scriptsWith url) raw := by
  constructor
  · intro h url hlarger
    by_cases hnil : scriptsOf raw url = []
    · apply countsEntries_of_sum_eq_zero
      rw [← length_scriptsOf, hnil, List.length_nil]
    · have hsome := lookup_isSome_iff.mpr (scriptsOf_ne_nil_iff.mp hnil)
      obtain ⟨agg, hlookup⟩ := Option.isSome_iff_exists.mp hsome
      obtain ⟨order, hrow⟩ := exists_mem_loafTopOffenders hlookup hlarger
      have hcount := h order agg hrow
      rw [invocationCount_eq hlookup, (offender_of_lookup hlookup).1] at hcount
      exact (countsEntries_iff _ _).mp hcount
  · intro h order row hrow
    obtain ⟨hlookup, hlarger⟩ := mem_loafTopOffenders hrow
    rw [invocationCount_eq hlookup]
    exact (countsEntries_iff _ _).mpr (h row.sourceUrl hlarger)

/-- The counts of both rankings are numbers of entries exactly if no row sees the sources or
    the scripts that its entries have beyond one each. -/
theorem offender_counts_iff [One R] [Div R] [NatCast R] :
    (∀ (order : HashMap.Order String (ClsAgg R)) (cls : R) (entries : List (ClsEntry R)),
      (∀ row ∈ aggregateClsSources order cls entries,
        row.shiftCount = entries.countP fun entry => 0 < sourcesWith row.selector entry) ↔
        ∀ selector, CountsEntries (sourcesWith selector) entries) ∧
    ∀ raw : List (LoafRawEntry R),
      (∀ order, ∀ row ∈ (aggregateLoaf order raw).loafTopOffenders,
        row.invocationCount = raw.countP fun entry => 0 < scriptsWith row.sourceUrl entry) ↔
        ∀ url, (larger raw url).card < 5 → CountsEntries (scriptsWith url) raw :=
  ⟨shiftCounts_iff, invocationCounts_iff⟩

end Aggregate

/-- One shift that moves two elements whose selectors are the same. -/
def twinShift : ClsEntry ℚ := ⟨1 / 2, [⟨"img", "", "hero wide", 10⟩, ⟨"img", "", "hero", 4⟩]⟩

/-- One frame in which a file runs two callbacks. -/
def twinFrame : LoafRawEntry ℚ :=
  ⟨60, [⟨"event-listener", "app.js", "onClick", 40, 0⟩,
    ⟨"user-callback", "app.js", "tick", 30, 0⟩]⟩

/-- Both count two where there is one entry. -/
theorem offenderCounts_twins :
    (∃ row ∈ aggregateClsSources HashMap.Order.arbitrary 1 [twinShift],
      row.shiftCount = 2 ∧
        [twinShift].countP (fun entry => 0 < sourcesWith row.selector entry) = 1) ∧
    ∃ order, ∃ row ∈ (aggregateLoaf order [twinFrame]).loafTopOffenders,
      row.invocationCount = 2 ∧
        [twinFrame].countP (fun entry => 0 < scriptsWith row.sourceUrl entry) = 1 := by
  constructor
  · have hne : sharesOf [twinShift] "img.hero" ≠ [] := by
      rw [← List.length_pos_iff, length_sharesOf]
      decide
    obtain ⟨row, hrow, hselector⟩ := exists_row HashMap.Order.arbitrary 1 hne
    refine ⟨row, hrow, ?_, ?_⟩
    · rw [shiftCount_eq hrow, hselector]
      decide
    · rw [hselector]
      decide
  · have hurl : "app.js" ∈ sourceUrls [twinFrame] := by decide
    obtain ⟨agg, hlookup⟩ := Option.isSome_iff_exists.mp (lookup_isSome_iff.mpr hurl)
    have hlarger : (larger [twinFrame] "app.js").card < 5 :=
      Nat.lt_of_le_of_lt (Finset.card_filter_le _ _)
        (show (sourceUrls [twinFrame]).card < 5 by decide)
    obtain ⟨order, hrow⟩ := exists_mem_loafTopOffenders hlookup hlarger
    refine ⟨order, agg, hrow, ?_, ?_⟩
    · rw [invocationCount_eq hlookup]
      decide
    · rw [(offender_of_lookup hlookup).1]
      decide

end Vitals
end BrowserHeadless
