/-
  BrowserHeadless.Coverage.Css

  The coverage part of `collect_summary` (src/browser/mod.rs): the report on used and
  unused bytes of scripts and style sheets.

  Style sheets are known from two sides.  The collect loop notes the header of every
  added sheet; after the loop the browser lists the rules it has seen used.  The report
  joins the two by sheet id and starts from the rules, so a sheet without any record is
  not counted at all, while a script without any used byte is.  `collectCoverage_css_iff`
  says for which captures the counters cover all added sheets.
-/

import BrowserHeadless.Collect.FullLoop
import BrowserHeadless.Coverage.Js
import BrowserHeadless.Lib.Float
import BrowserHeadless.Lib.Group
import Mathlib.Algebra.Order.BigOperators.Group.Finset

namespace BrowserHeadless
namespace Coverage

open Lib (HashMap F64)
open Collect
open Collect.FullLoop (State)

/-! ## The report -/

/-- `CSS.RuleUsage`.  The offsets stay doubles here: their difference is rounded. -/
structure CssRuleUsage where
  styleSheetId : String
  startOffset : F64
  endOffset : F64
  used : Bool
deriving DecidableEq

/-- `CoverageEntry`. -/
structure CoverageEntry where
  url : String
  kind : String
  totalBytes : Nat
  usedBytes : Nat
  unusedBytes : Nat
  unusedRatio : F64
deriving DecidableEq

/-- `CoverageReport`. -/
structure CoverageReport where
  jsTotalBytes : Nat
  jsUsedBytes : Nat
  jsUnusedBytes : Nat
  jsUnusedRatio : F64
  cssTotalBytes : Nat
  cssUsedBytes : Nat
  cssUnusedBytes : Nat
  cssUnusedRatio : F64
  topUnused : List CoverageEntry
deriving DecidableEq

/-- The bytes of a rule. -/
def CssRuleUsage.len (r : CssRuleUsage) : Nat :=
  (F64.maxNum (F64.sub r.endOffset r.startOffset) (F64.ofInt 0)).toU64

/-- `compute_css_coverage`: the used and the total bytes of one sheet. -/
def computeCssCoverage (rules : List CssRuleUsage) (totalBytes : Nat) : Nat × Nat :=
  let used := rules.foldl (fun used r => if r.used then (used + r.len) % 2 ^ 64 else used) 0
  (min used totalBytes, totalBytes)

/-- The variables of the two loops over files: `entries` and one pair of counters. -/
structure Counters where
  entries : List CoverageEntry
  total : Nat := 0
  used : Nat := 0

/-- Count one file.  The counters are `u64`. -/
def Counters.push (t : Counters) (url kind : String) (used total : Nat) : Counters where
  entries := t.entries ++
    [{ url := url
       kind := kind
       totalBytes := total
       usedBytes := used
       unusedBytes := total - used
       unusedRatio := F64.ratio (total - used) total }]
  total := (t.total + total) % 2 ^ 64
  used := (t.used + used) % 2 ^ 64

/-- One script. -/
def jsStep (t : Counters) (script : ScriptCoverage) : Counters :=
  if script.url = "" ∨ !isRealResource script.url then t
  else
    let (used, total) := computeJsCoverage script
    if total = 0 then t else t.push script.url "js" used total

/-- `css_by_sheet`: the records of each sheet. -/
def cssBySheet (cssCoverage : List CssRuleUsage) : HashMap String (List CssRuleUsage) :=
  Lib.tally (fun r => some r.styleSheetId) [] (fun rules r => rules ++ [r]) ∅ cssCoverage

/-- One group of records. -/
def cssStep (stylesheetMeta : HashMap String (String × Nat)) (t : Counters)
    (e : Σ _ : String, List CssRuleUsage) : Counters :=
  match stylesheetMeta.lookup e.1 with
  -- no header was observed for this sheet
  | none => t
  | some (url, total) =>
      if total = 0 then t
      else
        let (used, totalBytes) := computeCssCoverage e.2 total
        t.push url "css" used totalBytes

/-- `x as f64 / total as f64`, and `0.0` without a total. -/
def unusedRatio (unused total : Nat) : F64 :=
  if 0 < total then F64.ratio unused total else F64.ofInt 0

/-- The report, from the replies of the two profilers.  `order` is the iteration order
    of `css_by_sheet`. -/
def coverageReport (order : HashMap.Order String (List CssRuleUsage))
    (stylesheetMeta : HashMap String (String × Nat)) (jsCoverage : List ScriptCoverage)
    (cssCoverage : List CssRuleUsage) : CoverageReport :=
  let js := jsCoverage.foldl jsStep { entries := [] }
  let css := (order.entries (cssBySheet cssCoverage)).foldl (cssStep stylesheetMeta)
    { entries := js.entries }
  { jsTotalBytes := js.total
    jsUsedBytes := js.used
    jsUnusedBytes := js.total - js.used
    jsUnusedRatio := unusedRatio (js.total - js.used) js.total
    cssTotalBytes := css.total
    cssUsedBytes := css.used
    cssUnusedBytes := css.total - css.used
    cssUnusedRatio := unusedRatio (css.total - css.used) css.total
    -- `sort_by_key` is stable
    topUnused :=
      (css.entries.insertionSort fun a b => b.unusedBytes ≤ a.unusedBytes).take 10 }

/-- The `coverage` of the summary after the loop has ended in `s`; `js` and `css` are
    the replies to `takePreciseCoverage` and `stopRuleUsageTracking`. -/
def collectCoverage (c : CollectCaptures) (order : HashMap.Order String (List CssRuleUsage))
    (s : State) (js : Except Error (List ScriptCoverage))
    (css : Except Error (List CssRuleUsage)) : Except Error (Option CoverageReport) :=
  if c.coverage then do
    let jsCoverage ← js
    let cssCoverage ← css
    return some (coverageReport order s.stylesheetMeta jsCoverage cssCoverage)
  else
    return none

/-! ## The style sheets of a run -/

/-- The event announces a style sheet. -/
def styleSheet? : Event → Option EventStyleSheetAdded
  | .styleSheetAdded ev => some ev
  | _ => none

/-- The style sheets that are added in a run. -/
def sheetsAdded (ds : List (Delivery Event)) : List EventStyleSheetAdded :=
  ds.filterMap fun d => styleSheet? d.ev

/-- The length of a sheet in bytes, `length.max(0.0) as u64`. -/
def sheetBytes (ev : EventStyleSheetAdded) : Nat := asU64 (max ev.length 0)

/-- The entry of a sheet in `stylesheet_meta`. -/
def sheetEntry (ev : EventStyleSheetAdded) : Σ _ : String, String × Nat :=
  ⟨ev.styleSheetId,
    (if ev.sourceUrl = "" then "inline:" ++ ev.styleSheetId else ev.sourceUrl, sheetBytes ev)⟩

/-- Only added sheets change `stylesheet_meta`. -/
theorem step_stylesheetMeta {c : CollectCaptures} {parseUrl : String → Option ParsedUrl}
    (hc : c.coverage = true) (s : State) (d : Delivery Event) (s' : State)
    (h : FullLoop.step c parseUrl s d = .ok s') :
    s'.stylesheetMeta = (styleSheet? d.ev).elim s.stylesheetMeta fun ev =>
      s.stylesheetMeta.insert (sheetEntry ev).1 (sheetEntry ev).2 := by
  cases FullLoop.step_cases h with
  | lifecycle ev hev =>
      rw [hev, FullLoop.onLifecycle]
      split <;> rfl
  | skipped ev hev =>
      rw [hev]
      rfl
  | recorded ev hev =>
      rw [hev]
      rfl
  | finished ev hev =>
      rw [hev]
      rfl
  | exception ev hev =>
      rw [hev]
      rfl
  | console ev hev =>
      rw [hev]
      rfl
  | request ev hev =>
      rw [hev, FullLoop.onRequest]
      split <;> rfl
  | failed ev hev =>
      simp only [hev, FullLoop.onFailed]
      split_ifs <;> rfl
  | styleSheet ev hev =>
      rw [hev]
      rfl
  | ignored hsub =>
      -- the style sheet stream is subscribed to
      cases hev : d.ev with
      | styleSheetAdded ev =>
          rw [hev] at hsub
          exact absurd (hc.symm.trans hsub) (by decide)
      | _ => rfl

/-- After a run `stylesheet_meta` holds the added sheets. -/
theorem run_stylesheetMeta {c : CollectCaptures} {parseUrl : String → Option ParsedUrl}
    {url : String} {waitForRequest : List String} {ds : List (Delivery Event)} {s : State}
    (hc : c.coverage = true) (h : FullLoop.run c parseUrl url waitForRequest ds = .ok s) :
    s.stylesheetMeta = ((sheetsAdded ds).map sheetEntry).foldl
      (fun acc e => acc.insert e.1 e.2) (∅ : HashMap String (String × Nat)) := by
  have hview := Lib.consume_view (fun s : State => s.stylesheetMeta)
    (fun m d => (styleSheet? d.ev).elim m fun ev => m.insert (sheetEntry ev).1 (sheetEntry ev).2)
    (step_stylesheetMeta hc) h
  rw [hview, sheetsAdded, List.foldl_map, List.foldl_filterMap]
  congr 1
  funext m d
  cases styleSheet? d.ev <;> rfl

/-! ## The counters of the CSS loop -/

/-- The records of one sheet. -/
def rulesOf (rules : List CssRuleUsage) (k : String) : List CssRuleUsage :=
  rules.filter fun r => r.styleSheetId = k

/-- What the sheet `k` adds to `css_total`. -/
def totalOfSheet (stylesheetMeta : HashMap String (String × Nat)) (k : String) : Nat :=
  (stylesheetMeta.lookup k).elim 0 fun p => p.2

/-- What the sheet `k` adds to `css_used`. -/
def usedOfSheet (stylesheetMeta : HashMap String (String × Nat)) (rules : List CssRuleUsage)
    (k : String) : Nat :=
  (stylesheetMeta.lookup k).elim 0 fun p => (computeCssCoverage (rulesOf rules k) p.2).1

theorem computeCssCoverage_le (rules : List CssRuleUsage) (total : Nat) :
    (computeCssCoverage rules total).1 ≤ total := Nat.min_le_right ..

theorem usedOfSheet_le (stylesheetMeta : HashMap String (String × Nat))
    (rules : List CssRuleUsage) (k : String) :
    usedOfSheet stylesheetMeta rules k ≤ totalOfSheet stylesheetMeta k := by
  unfold usedOfSheet totalOfSheet
  cases stylesheetMeta.lookup k with
  | none => exact Nat.le_refl 0
  | some p => exact computeCssCoverage_le _ _

/-- A sheet whose records are all unused has no used bytes. -/
theorem computeCssCoverage_unused {rules : List CssRuleUsage} (h : ∀ r ∈ rules, r.used = false)
    (total : Nat) : (computeCssCoverage rules total).1 = 0 := by
  have hfold : ∀ l : List CssRuleUsage, (∀ r ∈ l, r.used = false) →
      l.foldl (fun used r => if r.used then (used + r.len) % 2 ^ 64 else used) 0 = 0 := by
    intro l hl
    induction l with
    | nil => rfl
    | cons r l ih =>
        rw [List.foldl_cons, hl r List.mem_cons_self]
        exact ih fun r' hr' => hl r' (List.mem_cons_of_mem r hr')
  simp only [computeCssCoverage, hfold rules h, Nat.zero_min]

/-- What one group adds to the counters. -/
theorem cssStep_counters (stylesheetMeta : HashMap String (String × Nat)) (t : Counters)
    (e : Σ _ : String, List CssRuleUsage) :
    (t.total < 2 ^ 64 → (cssStep stylesheetMeta t e).total =
        (t.total + totalOfSheet stylesheetMeta e.1) % 2 ^ 64) ∧
      (t.used < 2 ^ 64 → (cssStep stylesheetMeta t e).used =
        (t.used + (stylesheetMeta.lookup e.1).elim 0 fun p => (computeCssCoverage e.2 p.2).1)
          % 2 ^ 64) := by
  have hskip : ∀ n : Nat, n < 2 ^ 64 → n = (n + 0) % 2 ^ 64 :=
    fun n hn => (Nat.mod_eq_of_lt hn).symm
  unfold cssStep totalOfSheet
  cases stylesheetMeta.lookup e.1 with
  | none => exact ⟨hskip _, hskip _⟩
  | some p =>
      obtain ⟨url, total⟩ := p
      dsimp only [Option.elim_some]
      by_cases hzero : total = 0
      · -- a skipped sheet has nothing to add
        have hused : (computeCssCoverage e.2 0).1 = 0 :=
          Nat.le_zero.mp (computeCssCoverage_le e.2 0)
        subst hzero
        rw [if_pos rfl, hused]
        exact ⟨hskip _, hskip _⟩
      · rw [if_neg hzero]
        exact ⟨fun _ => rfl, fun _ => rfl⟩

/-- The entries of `css_by_sheet` are the records of each sheet. -/
theorem snd_of_mem_cssBySheet {order : HashMap.Order String (List CssRuleUsage)}
    {rules : List CssRuleUsage} {e : Σ _ : String, List CssRuleUsage}
    (he : e ∈ order.entries (cssBySheet rules)) : e.2 = rulesOf rules e.1 := by
  have hlookup := order.lookup_of_mem he
  rw [cssBySheet, Lib.lookup_tally_append] at hlookup
  split_ifs at hlookup with hnil
  rw [← Option.some.inj hlookup, rulesOf]
  simp only [Option.some.injEq]

/-- The sheets with records. -/
def recorded (rules : List CssRuleUsage) : Finset String := (cssBySheet rules).keys

theorem mem_recorded {rules : List CssRuleUsage} {k : String} :
    k ∈ recorded rules ↔ ∃ r ∈ rules, r.styleSheetId = k := by
  rw [recorded, cssBySheet, Lib.mem_keys_tally]
  simp only [Option.some.injEq]

/-- The counters after the loop, as sums over the sheets with records. -/
theorem cssLoop_counters (order : HashMap.Order String (List CssRuleUsage))
    (stylesheetMeta : HashMap String (String × Nat)) (rules : List CssRuleUsage)
    (es : List CoverageEntry) :
    let css := (order.entries (cssBySheet rules)).foldl (cssStep stylesheetMeta) { entries := es }
    css.total = (∑ k ∈ recorded rules, totalOfSheet stylesheetMeta k) % 2 ^ 64 ∧
      css.used = (∑ k ∈ recorded rules, usedOfSheet stylesheetMeta rules k) % 2 ^ 64 := by
  have hW : 0 < 2 ^ 64 := Nat.two_pow_pos 64
  constructor
  · rw [Lib.foldl_counter Counters.total (fun e => totalOfSheet stylesheetMeta e.1)
      (fun t e => (cssStep_counters stylesheetMeta t e).1) _ hW, order.sum_keys, Nat.zero_add]
    rfl
  · rw [Lib.foldl_counter Counters.used _
      (fun t e => (cssStep_counters stylesheetMeta t e).2) _ hW, Nat.zero_add,
      List.map_congr_left fun e he =>
        show _ = usedOfSheet stylesheetMeta rules e.1 by
          rw [snd_of_mem_cssBySheet he]
          rfl,
      order.sum_keys]
    rfl

/-! ## Sums over the added sheets -/

section Sheets

variable {sheets : List EventStyleSheetAdded} {stylesheetMeta : HashMap String (String × Nat)}

/-- `stylesheet_meta` holds these sheets and no others. -/
def Holds (stylesheetMeta : HashMap String (String × Nat)) (sheets : List EventStyleSheetAdded) :
    Prop :=
  (sheets.map (·.styleSheetId)).Nodup ∧
    ∀ k, stylesheetMeta.lookup k = (sheets.map sheetEntry).dlookup k

theorem Holds.nodupKeys (h : Holds stylesheetMeta sheets) :
    (sheets.map sheetEntry).NodupKeys := by
  rw [List.NodupKeys, List.keys, List.map_map]
  exact h.1

theorem Holds.lookup (h : Holds stylesheetMeta sheets) {ev : EventStyleSheetAdded}
    (hev : ev ∈ sheets) : stylesheetMeta.lookup ev.styleSheetId = some (sheetEntry ev).2 := by
  rw [h.2]
  exact List.mem_dlookup h.nodupKeys (List.mem_map_of_mem hev)

theorem Holds.totalOfSheet (h : Holds stylesheetMeta sheets) {ev : EventStyleSheetAdded}
    (hev : ev ∈ sheets) : totalOfSheet stylesheetMeta ev.styleSheetId = sheetBytes ev := by
  rw [Coverage.totalOfSheet, h.lookup hev]
  rfl

theorem Holds.usedOfSheet (h : Holds stylesheetMeta sheets) (rules : List CssRuleUsage)
    {ev : EventStyleSheetAdded} (hev : ev ∈ sheets) :
    usedOfSheet stylesheetMeta rules ev.styleSheetId =
      (computeCssCoverage (rulesOf rules ev.styleSheetId) (sheetBytes ev)).1 := by
  rw [Coverage.usedOfSheet, h.lookup hev]
  rfl

/-- The ids of the sheets. -/
def idsOf (sheets : List EventStyleSheetAdded) : Finset String :=
  (sheets.map (·.styleSheetId)).toFinset

theorem mem_idsOf {k : String} : k ∈ idsOf sheets ↔ ∃ ev ∈ sheets, ev.styleSheetId = k := by
  rw [idsOf, List.mem_toFinset, List.mem_map]

/-- Other ids count for nothing. -/
theorem Holds.totalOfSheet_eq_zero (h : Holds stylesheetMeta sheets) {k : String}
    (hk : k ∉ idsOf sheets) : Coverage.totalOfSheet stylesheetMeta k = 0 := by
  have hout : (sheets.map sheetEntry).dlookup k = none := by
    refine List.dlookup_eq_none.mpr fun hmem => hk ?_
    rw [List.keys, List.map_map, List.mem_map] at hmem
    exact mem_idsOf.mpr hmem
  rw [Coverage.totalOfSheet, h.2, hout]
  rfl

/-- A sum over the sheets is a sum over their ids. -/
theorem Holds.sum_sheets (h : Holds stylesheetMeta sheets) {g : String → Nat}
    {w : EventStyleSheetAdded → Nat} (hg : ∀ ev ∈ sheets, g ev.styleSheetId = w ev) :
    (sheets.map w).sum = ∑ k ∈ idsOf sheets, g k := by
  rw [idsOf, List.sum_toFinset g h.1, List.map_map]
  exact congrArg List.sum (List.map_congr_left fun ev hev => (hg ev hev).symm)

end Sheets

/-! ## What the counters should be -/

/-- What a sheet contributes to the unused bytes. -/
def sheetUnused (rules : List CssRuleUsage) (ev : EventStyleSheetAdded) : Nat :=
  sheetBytes ev - (computeCssCoverage (rulesOf rules ev.styleSheetId) (sheetBytes ev)).1

/-- The CSS counters cover all added sheets. -/
structure CssCovered (sheets : List EventStyleSheetAdded) (rules : List CssRuleUsage)
    (r : CoverageReport) : Prop where
  total : r.cssTotalBytes = ((sheets.filter fun ev => 0 < sheetBytes ev).map sheetBytes).sum
  split : r.cssUsedBytes + r.cssUnusedBytes = r.cssTotalBytes
  unused : r.cssUnusedBytes = (sheets.map (sheetUnused rules)).sum
  /-- A sheet without a used rule contributes its whole length. -/
  wasted : ∀ ev ∈ sheets, (∀ rule ∈ rules, rule.styleSheetId = ev.styleSheetId →
    rule.used = false) → sheetUnused rules ev = sheetBytes ev

/-- Every sheet with bytes has a record, and the lengths fit into a `u64`. -/
structure Recorded (sheets : List EventStyleSheetAdded) (rules : List CssRuleUsage) : Prop where
  record : ∀ ev ∈ sheets, 0 < sheetBytes ev → ∃ r ∈ rules, r.styleSheetId = ev.styleSheetId
  fits : (sheets.map sheetBytes).sum < 2 ^ 64

theorem sheetUnused_of_unused {rules : List CssRuleUsage} {ev : EventStyleSheetAdded}
    (h : ∀ rule ∈ rules, rule.styleSheetId = ev.styleSheetId → rule.used = false) :
    sheetUnused rules ev = sheetBytes ev := by
  have hnone : ∀ r ∈ rulesOf rules ev.styleSheetId, r.used = false := by
    intro r hr
    obtain ⟨hmem, hid⟩ := List.mem_filter.mp hr
    exact h r hmem (of_decide_eq_true hid)
  rw [sheetUnused, computeCssCoverage_unused hnone, Nat.sub_zero]

/-- Sheets without bytes do not count. -/
theorem sum_filter_sheetBytes (sheets : List EventStyleSheetAdded) :
    ((sheets.filter fun ev => 0 < sheetBytes ev).map sheetBytes).sum =
      (sheets.map sheetBytes).sum := by
  induction sheets with
  | nil => rfl
  | cons ev sheets ih =>
      rw [List.filter_cons]
      by_cases hpos : 0 < sheetBytes ev
      · rw [if_pos (decide_eq_true hpos), List.map_cons, List.map_cons, List.sum_cons,
          List.sum_cons, ih]
      · rw [if_neg (by simpa using hpos), ih, List.map_cons, List.sum_cons]
        omega

/-- The join of headers and records covers the sheets exactly if each has a record. -/
theorem sum_recorded_iff {sheets : List EventStyleSheetAdded}
    {stylesheetMeta : HashMap String (String × Nat)} (h : Holds stylesheetMeta sheets)
    (rules : List CssRuleUsage) :
    ∑ k ∈ recorded rules, totalOfSheet stylesheetMeta k = (sheets.map sheetBytes).sum ↔
      ∀ ev ∈ sheets, 0 < sheetBytes ev → ∃ r ∈ rules, r.styleSheetId = ev.styleSheetId := by
  rw [h.sum_sheets fun ev hev => h.totalOfSheet hev,
    Lib.sum_eq_sum_iff fun k hk => h.totalOfSheet_eq_zero hk]
  constructor
  · intro hall ev hev hpos
    rw [← h.totalOfSheet hev] at hpos
    exact mem_recorded.mp (hall _ (mem_idsOf.mpr ⟨ev, hev, rfl⟩) hpos)
  · intro hall k hk hpos
    obtain ⟨ev, hev, rfl⟩ := mem_idsOf.mp hk
    rw [h.totalOfSheet hev] at hpos
    exact mem_recorded.mpr (hall ev hev hpos)

/-- The CSS counters of the report. -/
theorem coverageReport_css (order : HashMap.Order String (List CssRuleUsage))
    (stylesheetMeta : HashMap String (String × Nat)) (js : List ScriptCoverage)
    (rules : List CssRuleUsage) :
    let r := coverageReport order stylesheetMeta js rules
    r.cssTotalBytes = (∑ k ∈ recorded rules, totalOfSheet stylesheetMeta k) % 2 ^ 64 ∧
      r.cssUsedBytes = (∑ k ∈ recorded rules, usedOfSheet stylesheetMeta rules k) % 2 ^ 64 ∧
      r.cssUnusedBytes = r.cssTotalBytes - r.cssUsedBytes := by
  obtain ⟨htotal, hused⟩ := cssLoop_counters order stylesheetMeta rules
    (js.foldl jsStep { entries := [] }).entries
  exact ⟨htotal, hused, rfl⟩

/-- With a record for every sheet the counters cover all of them. -/
theorem cssCovered_of_recorded {sheets : List EventStyleSheetAdded}
    {stylesheetMeta : HashMap String (String × Nat)} (h : Holds stylesheetMeta sheets)
    (order : HashMap.Order String (List CssRuleUsage)) (js : List ScriptCoverage)
    {rules : List CssRuleUsage} (hrec : Recorded sheets rules) :
    CssCovered sheets rules (coverageReport order stylesheetMeta js rules) := by
  obtain ⟨htotal, hused, hunused⟩ := coverageReport_css order stylesheetMeta js rules
  have hjoin := (sum_recorded_iff h rules).mpr hrec.record
  have hle : ∑ k ∈ recorded rules, usedOfSheet stylesheetMeta rules k ≤
      ∑ k ∈ recorded rules, totalOfSheet stylesheetMeta k :=
    Finset.sum_le_sum fun k _ => usedOfSheet_le stylesheetMeta rules k
  have hfits := hrec.fits
  -- so nothing wraps around
  rw [Nat.mod_eq_of_lt (by omega)] at htotal hused
  -- the sheets without records have no used bytes
  have husedSheets : ∑ k ∈ recorded rules, usedOfSheet stylesheetMeta rules k =
      ∑ k ∈ idsOf sheets, usedOfSheet stylesheetMeta rules k := by
    refine (Lib.sum_eq_sum_iff fun k hk => ?_).mpr fun k hk hpos => ?_
    · exact Nat.le_zero.mp (h.totalOfSheet_eq_zero hk ▸ usedOfSheet_le stylesheetMeta rules k)
    · obtain ⟨ev, hev, rfl⟩ := mem_idsOf.mp hk
      have hbytes := usedOfSheet_le stylesheetMeta rules ev.styleSheetId
      rw [h.totalOfSheet hev] at hbytes
      exact mem_recorded.mpr (hrec.record ev hev (by omega))
  have hsum : (sheets.map (sheetUnused rules)).sum +
      ∑ k ∈ recorded rules, usedOfSheet stylesheetMeta rules k = (sheets.map sheetBytes).sum := by
    rw [husedSheets, ← h.sum_sheets fun ev hev => h.usedOfSheet rules hev, ← List.sum_map_add]
    refine congrArg List.sum (List.map_congr_left fun ev _ => ?_)
    exact Nat.sub_add_cancel (computeCssCoverage_le _ _)
  refine ⟨?_, by omega, by omega, fun ev _ => sheetUnused_of_unused⟩
  rw [sum_filter_sheetBytes, htotal, hjoin]

/-- The report covers the sheets of `stylesheet_meta` exactly if each has a record. -/
theorem coverageReport_css_iff {sheets : List EventStyleSheetAdded}
    {stylesheetMeta : HashMap String (String × Nat)} (h : Holds stylesheetMeta sheets)
    (order : HashMap.Order String (List CssRuleUsage)) (js : List ScriptCoverage)
    (rules : List CssRuleUsage) :
    CssCovered sheets rules (coverageReport order stylesheetMeta js rules) ↔
      Recorded sheets rules := by
  refine ⟨fun hcov => ?_, cssCovered_of_recorded h order js⟩
  have htotal := hcov.total
  rw [(coverageReport_css order stylesheetMeta js rules).1, sum_filter_sheetBytes] at htotal
  have hfits : (sheets.map sheetBytes).sum < 2 ^ 64 :=
    htotal ▸ Nat.mod_lt _ (Nat.two_pow_pos 64)
  -- what is joined is a part of the sheets, so it does not wrap around either
  have hpart : ∑ k ∈ recorded rules, totalOfSheet stylesheetMeta k ≤
      ∑ k ∈ recorded rules ∪ idsOf sheets, totalOfSheet stylesheetMeta k :=
    Finset.sum_le_sum_of_subset Finset.subset_union_left
  have hsheets : ∑ k ∈ recorded rules ∪ idsOf sheets, totalOfSheet stylesheetMeta k =
      (sheets.map sheetBytes).sum := by
    rw [h.sum_sheets fun ev hev => h.totalOfSheet hev]
    exact (Lib.sum_eq_sum_iff fun k hk => h.totalOfSheet_eq_zero hk).mpr
      fun k hk _ => Finset.mem_union_right _ hk
  rw [Nat.mod_eq_of_lt (by omega)] at htotal
  exact ⟨(sum_recorded_iff h rules).mp htotal, hfits⟩

/-- After a run with distinct sheet ids `stylesheet_meta` holds the added sheets. -/
theorem holds_of_run {c : CollectCaptures} {parseUrl : String → Option ParsedUrl}
    {url : String} {waitForRequest : List String} {ds : List (Delivery Event)} {s : State}
    (hc : c.coverage = true) (hrun : FullLoop.run c parseUrl url waitForRequest ds = .ok s)
    (hids : ((sheetsAdded ds).map (·.styleSheetId)).Nodup) :
    Holds s.stylesheetMeta (sheetsAdded ds) := by
  refine ⟨hids, fun k => ?_⟩
  have hkeys : ((sheetsAdded ds).map sheetEntry).NodupKeys := by
    rw [List.NodupKeys, List.keys, List.map_map]
    exact hids
  rw [run_stylesheetMeta hc hrun, HashMap.lookup_foldl_insert hkeys, Finmap.lookup_empty,
    Option.or_none]

/-- A report is made, and its CSS counters cover all added sheets exactly if each sheet
    with bytes has a record and the lengths fit into a `u64`. -/
theorem collectCoverage_css_iff {c : CollectCaptures} {parseUrl : String → Option ParsedUrl}
    {url : String} {waitForRequest : List String} {ds : List (Delivery Event)} {s : State}
    (hc : c.coverage = true) (hrun : FullLoop.run c parseUrl url waitForRequest ds = .ok s)
    (hids : ((sheetsAdded ds).map (·.styleSheetId)).Nodup)
    (order : HashMap.Order String (List CssRuleUsage)) (js : List ScriptCoverage)
    (rules : List CssRuleUsage) :
    ∃ report, collectCoverage c order s (.ok js) (.ok rules) = .ok (some report) ∧
      (CssCovered (sheetsAdded ds) rules report ↔ Recorded (sheetsAdded ds) rules) := by
  refine ⟨coverageReport order s.stylesheetMeta js rules, ?_,
    coverageReport_css_iff (holds_of_run hc hrun hids) order js rules⟩
  rw [collectCoverage, if_pos hc]
  rfl

/-- A style sheet of ten bytes. -/
def tenBytes : EventStyleSheetAdded := ⟨"1", "https://a/x.css", 10⟩

/-- The state after the sheet has been added. -/
def tenBytesAdded : State := FullLoop.onStyleSheet tenBytes (.init "https://a/" [])

theorem run_tenBytes : FullLoop.run { coverage := true } (fun _ => none) "https://a/" []
    [{ ev := .styleSheetAdded tenBytes }] = .ok tenBytesAdded := rfl

/-- One rule of the sheet, of four bytes. -/
def fourBytes : CssRuleUsage := ⟨"1", F64.ofInt 2, F64.ofInt 6, true⟩

theorem recorded_tenBytes : Recorded [tenBytes] [fourBytes] := by
  refine ⟨fun ev hev _ => ⟨fourBytes, List.mem_singleton.mpr rfl, ?_⟩, by decide +kernel⟩
  rw [List.mem_singleton.mp hev]
  rfl

/-- One used rule: the sheet is counted. -/
theorem collectCoverage_css_iff_used :
    FullLoop.run { coverage := true } (fun _ => none) "https://a/" []
        [{ ev := .styleSheetAdded tenBytes }] = .ok tenBytesAdded ∧
      ∃ report, collectCoverage { coverage := true } HashMap.Order.arbitrary tenBytesAdded (.ok [])
          (.ok [fourBytes]) = .ok (some report) ∧ CssCovered [tenBytes] [fourBytes] report := by
  obtain ⟨report, hreport, hiff⟩ := collectCoverage_css_iff (c := { coverage := true }) rfl
    run_tenBytes (List.nodup_singleton _) HashMap.Order.arbitrary [] [fourBytes]
  exact ⟨run_tenBytes, report, hreport, hiff.mpr recorded_tenBytes⟩

/-- No record at all: the sheet is missing from the counters. -/
theorem collectCoverage_css_unrecorded :
    ¬ ∀ (ds : List (Delivery Event)) (s : State) (js : List ScriptCoverage)
        (rules : List CssRuleUsage),
      FullLoop.run { coverage := true } (fun _ => none) "https://a/" [] ds = .ok s →
      ((sheetsAdded ds).map (·.styleSheetId)).Nodup →
      ∃ report, collectCoverage { coverage := true } HashMap.Order.arbitrary s (.ok js)
        (.ok rules) = .ok (some report) ∧ CssCovered (sheetsAdded ds) rules report := by
  intro h
  obtain ⟨report, hreport, hcov⟩ :=
    h [{ ev := .styleSheetAdded tenBytes }] tenBytesAdded [] [] run_tenBytes
      (List.nodup_singleton _)
  have hmade : report = coverageReport HashMap.Order.arbitrary tenBytesAdded.stylesheetMeta [] [] :=
    (Option.some.inj (Except.ok.inj hreport)).symm
  rw [hmade] at hcov
  have hholds := holds_of_run (c := { coverage := true }) rfl run_tenBytes (List.nodup_singleton _)
  have hrec := (coverageReport_css_iff hholds _ [] []).mp hcov
  obtain ⟨r, hr, -⟩ := hrec.record tenBytes (List.mem_singleton.mpr rfl) (by decide +kernel)
  exact absurd hr List.not_mem_nil

end Coverage
end BrowserHeadless
