/-
  BrowserHeadless.Markdown.Truncation

  When `to_markdown` panics.

  A text over its limit is cut at a byte counted from one of its ends, wherever that
  byte lies.  `WebPageStat.cuts` lists the texts that are shown this way, with their
  limits; the rendering comes through exactly when none of those cuts falls inside a
  character and, in a build that checks for overflow, the sums it takes fit their types.
-/

import BrowserHeadless.Lib.Lists
import BrowserHeadless.Markdown.Page

namespace BrowserHeadless
namespace Markdown

open Lib
open Collect (TlsInfo)
open Coverage (CoverageReport)
open Summary (ResourceSummary)

/-! ## Texts that are cut -/

/-- A text that is cut at the byte `place` when it has more than `limit` bytes. -/
structure Cut where
  text : String
  limit : Nat
  place : Nat

/-- A text of which the last `keep` bytes are shown. -/
def Cut.front (limit keep : Nat) (s : String) : Cut := ⟨s, limit, s.utf8ByteSize - keep⟩

/-- A text of which the first `limit` bytes are shown. -/
def Cut.back (limit : Nat) (s : String) : Cut := ⟨s, limit, limit⟩

/-- The text fits, or the byte it is cut at starts a character. -/
def Cut.Clean (c : Cut) : Prop :=
  c.limit < c.text.utf8ByteSize → ¬ Utf8.Straddles c.text.toList c.place

/-- A text that is sliced at its place when it is too long. -/
theorem Cut.isSome_iff (c : Cut) {slice : Option String} (f : String → String)
    (hslice : slice.isSome = (Utf8.splitAt c.place c.text.toList).isSome)
    (hplace : c.limit < c.text.utf8ByteSize → c.place ≤ c.text.utf8ByteSize) :
    (if c.limit < c.text.utf8ByteSize then slice.map f else some c.text).isSome ↔ c.Clean := by
  unfold Cut.Clean
  by_cases hlen : c.limit < c.text.utf8ByteSize
  · have hin : c.place ≤ Utf8.byteLen c.text.toList := Utf8.utf8ByteSize_eq c.text ▸ hplace hlen
    rw [if_pos hlen, Option.isSome_map, hslice, Utf8.splitAt_isSome_iff hin]
    exact ⟨fun h _ => h, fun h => h hlen⟩
  · rw [if_neg hlen]
    exact iff_of_true rfl fun h => absurd h hlen

theorem cutFront_isSome_iff (limit keep : Nat) (s : String) :
    (cutFront limit keep s).isSome ↔ (Cut.front limit keep s).Clean :=
  (Cut.front limit keep s).isSome_iff _ Option.isSome_map fun _ => Nat.sub_le _ _

theorem cutBack_isSome_iff (limit : Nat) (s : String) :
    (cutBack limit s).isSome ↔ (Cut.back limit s).Clean :=
  (Cut.back limit s).isSome_iff _ Option.isSome_map fun hlen => hlen.le

/-- A text that is too long is shown as an ellipsis and its last `keep` bytes. -/
theorem cutFront_eq_some {limit keep : Nat} {s t : String} (h : cutFront limit keep s = some t)
    (hlen : limit < s.utf8ByteSize) (hkeep : keep ≤ limit) :
    ∃ p q, s.toList = p ++ q ∧ Utf8.byteLen q = keep ∧ t = "…" ++ String.ofList q := by
  rw [cutFront, if_pos hlen, Utf8.sliceFrom, Option.map_map, Option.map_eq_some_iff] at h
  obtain ⟨⟨p, q⟩, hsplit, rfl⟩ := h
  obtain ⟨hs, hp⟩ := Utf8.of_splitAt_eq_some hsplit
  have hbytes : s.utf8ByteSize = Utf8.byteLen p + Utf8.byteLen q := by
    rw [Utf8.utf8ByteSize_eq, hs, Utf8.byteLen_append]
  exact ⟨p, q, hs, by omega, rfl⟩

/-- What is shown keeps to the limit; the ellipsis takes three bytes. -/
theorem cutFront_le {limit keep : Nat} {s t : String} (h : cutFront limit keep s = some t)
    (hkeep : keep + 3 ≤ limit) : t.utf8ByteSize ≤ limit := by
  by_cases hlen : limit < s.utf8ByteSize
  · obtain ⟨p, q, -, hq, rfl⟩ := cutFront_eq_some h hlen (by omega)
    have hellipsis : "…".utf8ByteSize = 3 := rfl
    rw [String.utf8ByteSize_append, hellipsis, Utf8.utf8ByteSize_eq, String.toList_ofList, hq]
    omega
  · rw [cutFront, if_neg hlen, Option.some_inj] at h
    rw [← h]
    exact Nat.le_of_not_lt hlen

/-! ## What the parts of a section need -/

theorem inOrder_isSome_iff (parts : List (Option (List Cell))) :
    (inOrder parts).isSome ↔ ∀ p ∈ parts, p.isSome := by
  rw [inOrder, Option.isSome_map, mapM_isSome_iff]
  rfl

@[simp] theorem inOrder_nil_isSome : (inOrder []).isSome := rfl

@[simp] theorem inOrder_cons_isSome_iff (p : Option (List Cell)) (ps : List (Option (List Cell))) :
    (inOrder (p :: ps)).isSome ↔ p.isSome ∧ (inOrder ps).isSome := by
  rw [inOrder_isSome_iff, List.forall_mem_cons, ← inOrder_isSome_iff]

theorem ifSome_isSome_iff {α : Type} (x : Option α) (body : α → Option (List Cell)) :
    (ifSome x body).isSome ↔ ∀ a ∈ x, (body a).isSome := by
  cases x with
  | none => exact iff_of_true rfl nofun
  | some a => exact ⟨fun h _ ha => Option.mem_some.mp ha ▸ h, fun h => h a rfl⟩

/-- Texts cut at the front, with one limit for all. -/
def fronts (limit keep : Nat) (texts : List String) : List Cut := texts.map (Cut.front limit keep)

theorem rows_isSome_iff (limit keep : Nat) (texts : List String) :
    (rows limit keep texts).isSome ↔ ∀ c ∈ fronts limit keep texts, c.Clean := by
  rw [rows, mapM_isSome_iff, fronts, List.forall_mem_map]
  refine forall₂_congr fun s _ => ?_
  rw [Option.isSome_map, cutFront_isSome_iff]

theorem add_isSome_iff (checked : Bool) (w a b : Nat) :
    (add checked w a b).isSome ↔ (checked → a + b < 2 ^ w) := by
  unfold add
  split
  case isTrue h => exact iff_of_true rfl fun _ => h
  case isFalse h =>
    cases checked with
    | false => exact iff_of_true rfl nofun
    | true => exact iff_of_false nofun fun hfit => h (hfit rfl)

theorem sum_isSome_iff (checked : Bool) (w a b : Nat) :
    (sum checked w a b).isSome ↔ (checked → a + b < 2 ^ w) := by
  rw [sum, Option.isSome_map, add_isSome_iff]

/-- What is left of a list is only counted when there is something left. -/
theorem andMore_isSome (checked : Bool) (len shown : Nat) : (andMore checked len shown).isSome := by
  unfold andMore sub
  split
  case isTrue h =>
    rw [if_pos h.le]
    rfl
  case isFalse => rfl

theorem formatTlsExpiry_isSome_iff (checked : Bool) (daysRemaining : Int) :
    (formatTlsExpiry checked daysRemaining).isSome ↔ (checked → daysRemaining ≠ -2 ^ 63) := by
  unfold formatTlsExpiry
  split
  case isTrue =>
    rw [Option.isSome_map, neg]
    split
    case isTrue h =>
      cases checked with
      | false => exact iff_of_true rfl nofun
      | true => exact iff_of_false nofun fun hne => hne rfl h
    case isFalse h => exact iff_of_true rfl fun _ => h
  case isFalse h =>
    -- a certificate that is still valid is not negated
    have hne : daysRemaining ≠ -2 ^ 63 := by omega
    split
    · exact iff_of_true rfl fun _ => hne
    · exact iff_of_true rfl fun _ => hne

/-! ## The texts each section cuts -/

def WebVitals.cuts (v : WebVitals) : List Cut :=
  fronts 70 67 ((v.longTaskTopOffenders.take 3).map (·.source))
    ++ if 0 < v.loafCount then fronts 70 67 ((v.loafTopOffenders.take 3).map (·.sourceUrl)) else []

def HttpErrors.cuts (he : HttpErrors) : List Cut :=
  if 0 < he.failedCount ∨ 0 < he.redirectCount then
    fronts 80 77 ((he.failed4xx.take 5).map (·.url) ++ (he.failed5xx.take 5).map (·.url)
      ++ ((he.networkFailures.filter (!·.canceled)).take 5).map (·.url))
  else []

/-- The texts of the resource summary that are cut, all to 80 bytes. -/
def summaryTexts (rs : ResourceSummary) : List String :=
  let dr := rs.duplicateResources
  (if 0 < dr.wastedBytes ∨ dr.exactUrl ≠ [] ∨ dr.likelySameFile ≠ [] then
      (dr.exactUrl.take 3).map (·.key) else [])
    ++ (if rs.mixedContent.detected then (rs.mixedContent.resources.take 3).map (·.url) else [])
    ++ buckets.flatMap (fun bucket => ((largestOf rs bucket).take 5).map (·.url))
    ++ (rs.uncompressedTextResources.take 5).map (·.url)
    ++ (rs.cachePolicyIssues.take 5).map (·.url)

def summaryCuts (rs : ResourceSummary) : List Cut :=
  if rs.bytesByType = ∅ then [] else fronts 80 77 (summaryTexts rs)

def coverageCuts (cov : CoverageReport) : List Cut :=
  fronts 80 77 ((cov.topUnused.take 5).map (·.url))

def headerCuts (order : HashMap.Order String String) (sh : HashMap String String) : List Cut :=
  (order.entries sh).map fun kv => Cut.back 200 kv.2

def ImageAudit.cuts (audit : ImageAudit) : List Cut :=
  [audit.oversized, audit.missingDimensions, audit.missingLazy, audit.missingSrcset].flatMap
    fun issues => fronts 60 57 ((issues.take 5).map (·.url))

/-- The images, and the audit that is shown beside them. -/
def imageCuts (audit : Option ImageAudit) (imgs : List ImageSizing) : List Cut :=
  fronts 60 57 (((imgs.filter isOffender).take 10).map (·.url))
    ++ audit.toList.flatMap ImageAudit.cuts

def fontCuts (missingSwap : List FontIssue) : List Cut :=
  fronts 70 67 ((missingSwap.take 5).filterMap (·.sourceUrl))

/-- The texts of a page that `to_markdown` cuts when they are over their limits. -/
def WebPageStat.cuts (order : HashMap.Order String String) (stat : WebPageStat) : List Cut :=
  stat.webVitals.toList.flatMap WebVitals.cuts
    ++ stat.documentTiming.toList.flatMap (fun dt => fronts 80 77 [dt.url])
    ++ stat.httpErrors.toList.flatMap HttpErrors.cuts
    ++ summaryCuts stat.resourceSummary
    ++ stat.coverage.toList.flatMap coverageCuts
    ++ stat.securityHeaders.toList.flatMap (headerCuts order)
    ++ stat.imageSizing.toList.flatMap (imageCuts stat.imageAudit)
    ++ stat.missingSwap.toList.flatMap fontCuts

/-- The sums of the resource summary fit their types; none is taken of no resources. -/
def SummaryFits (rs : ResourceSummary) : Prop :=
  rs.bytesByType ≠ ∅ →
    rs.connectionsReused + rs.connectionsNew < 2 ^ 32
      ∧ rs.cacheControlPresent + rs.cacheControlMissing < 2 ^ 32
      ∧ rs.legacyImageBytes + rs.modernImageBytes < 2 ^ 64
      ∧ rs.sourceMapsPresent + rs.sourceMapsMissing < 2 ^ 32

/-- The sums that `to_markdown` takes fit their types, and no certificate has the one
    `i64` without a negation. -/
structure WebPageStat.Fits (stat : WebPageStat) : Prop where
  summary : SummaryFits stat.resourceSummary
  validity : ∀ tls ∈ stat.tlsInfo.toList ++ stat.tlsCertificates, tls.daysRemaining ≠ -2 ^ 63
  mutations : ∀ dm ∈ stat.domMutations,
    dm.totalAddedNodes + dm.totalRemovedNodes + dm.totalAttributeChanges < 2 ^ 64

/-! ## The sections come through -/

theorem forall_fronts {limit keep : Nat} {texts : List String} :
    (∀ c ∈ fronts limit keep texts, c.Clean) ↔ ∀ s ∈ texts, (Cut.front limit keep s).Clean :=
  List.forall_mem_map

/-- A script without a URL is shown by a fixed text. -/
theorem loafOffender_isSome_iff (o : LoafOffender) :
    (if o.sourceUrl = "" then some [Cell.text "(inline / unknown)"]
      else rows 70 67 [o.sourceUrl]).isSome ↔ (Cut.front 70 67 o.sourceUrl).Clean := by
  split
  case isTrue h =>
    refine iff_of_true rfl fun hlen => absurd hlen ?_
    rw [h]
    exact Nat.not_lt_zero 70
  case isFalse => rw [rows_isSome_iff, forall_fronts, List.forall_mem_singleton]

theorem webVitals_isSome_iff (checked : Bool) (v : WebVitals) :
    (webVitals checked v).isSome ↔ ∀ c ∈ v.cuts, c.Clean := by
  have hloaf : (if 0 < v.loafCount then
        inOrder ((v.loafTopOffenders.take 3).map fun o =>
          if o.sourceUrl = "" then some [Cell.text "(inline / unknown)"]
          else rows 70 67 [o.sourceUrl])
      else some []).isSome
      ↔ ∀ c ∈ (if 0 < v.loafCount then
          fronts 70 67 ((v.loafTopOffenders.take 3).map (·.sourceUrl)) else []), c.Clean := by
    split
    · rw [inOrder_isSome_iff, forall_fronts, List.forall_mem_map, List.forall_mem_map]
      exact forall₂_congr fun o _ => loafOffender_isSome_iff o
    · exact iff_of_true rfl nofun
  simp only [webVitals, inOrder_cons_isSome_iff, inOrder_nil_isSome, andMore_isSome,
    rows_isSome_iff, hloaf, WebVitals.cuts, List.forall_mem_append, true_and, and_true]

theorem documentTiming_isSome_iff (dt : Collect.DocumentTiming) :
    (documentTiming dt).isSome ↔ ∀ c ∈ fronts 80 77 [dt.url], c.Clean :=
  rows_isSome_iff _ _ _

theorem httpErrors_isSome_iff (he : HttpErrors) :
    (httpErrors he).isSome ↔ ∀ c ∈ he.cuts, c.Clean := by
  unfold httpErrors HttpErrors.cuts
  split
  · simp only [inOrder_cons_isSome_iff, inOrder_nil_isSome, rows_isSome_iff, forall_fronts,
      List.forall_mem_append, and_true, and_assoc]
  · exact iff_of_true rfl nofun

/-- Rows that are only written under a condition. -/
theorem rowsIf_isSome_iff (p : Prop) [Decidable p] (limit keep : Nat) (texts : List String) :
    (if p then rows limit keep texts else some []).isSome ↔
      ∀ s ∈ (if p then texts else []), (Cut.front limit keep s).Clean := by
  split
  · rw [rows_isSome_iff, forall_fronts]
  · exact iff_of_true rfl nofun

theorem duplicateResources_isSome_iff (dr : Summary.DuplicateResources) :
    (duplicateResources dr).isSome ↔
      ∀ s ∈ (if 0 < dr.wastedBytes ∨ dr.exactUrl ≠ [] ∨ dr.likelySameFile ≠ [] then
        (dr.exactUrl.take 3).map (·.key) else []), (Cut.front 80 77 s).Clean :=
  rowsIf_isSome_iff _ 80 77 _

theorem mixedContent_isSome_iff (mc : Summary.MixedContent) :
    (mixedContent mc).isSome ↔
      ∀ s ∈ (if mc.detected then (mc.resources.take 3).map (·.url) else []),
        (Cut.front 80 77 s).Clean :=
  rowsIf_isSome_iff _ 80 77 _

theorem largest_isSome_iff (rs : ResourceSummary) :
    (inOrder (buckets.map fun bucket =>
        rows 80 77 (((largestOf rs bucket).take 5).map (·.url)))).isSome ↔
      ∀ s ∈ buckets.flatMap (fun bucket => ((largestOf rs bucket).take 5).map (·.url)),
        (Cut.front 80 77 s).Clean := by
  rw [inOrder_isSome_iff, List.forall_mem_map, List.forall_mem_flatMap]
  refine forall₂_congr fun bucket _ => ?_
  rw [rows_isSome_iff, forall_fronts]

theorem resourceSummary_isSome_iff (checked : Bool) (rs : ResourceSummary) :
    (resourceSummary checked rs).isSome ↔
      (∀ c ∈ summaryCuts rs, c.Clean) ∧ (checked → SummaryFits rs) := by
  unfold resourceSummary summaryCuts SummaryFits
  split
  case isTrue h => exact iff_of_true rfl ⟨nofun, fun _ hne => absurd h hne⟩
  case isFalse h =>
    simp only [inOrder_cons_isSome_iff, inOrder_nil_isSome, sum_isSome_iff,
      duplicateResources_isSome_iff, mixedContent_isSome_iff, largest_isSome_iff, rows_isSome_iff,
      forall_fronts, summaryTexts, List.forall_mem_append, forall_prop_of_true h, and_true]
    constructor
    · rintro ⟨hconn, hcache, himages, hmaps, hdup, hmixed, hlargest, htext, hpolicy⟩
      exact ⟨⟨⟨⟨⟨hdup, hmixed⟩, hlargest⟩, htext⟩, hpolicy⟩,
        fun hc => ⟨hconn hc, hcache hc, himages hc, hmaps hc⟩⟩
    · rintro ⟨⟨⟨⟨⟨hdup, hmixed⟩, hlargest⟩, htext⟩, hpolicy⟩, hfits⟩
      exact ⟨fun hc => (hfits hc).1, fun hc => (hfits hc).2.1, fun hc => (hfits hc).2.2.1,
        fun hc => (hfits hc).2.2.2, hdup, hmixed, hlargest, htext, hpolicy⟩

theorem coverage_isSome_iff (cov : CoverageReport) :
    (coverage cov).isSome ↔ ∀ c ∈ coverageCuts cov, c.Clean :=
  rows_isSome_iff _ _ _

theorem validity_isSome_iff (checked : Bool) (tls : TlsInfo) :
    (validity checked tls).isSome ↔ (checked → tls.daysRemaining ≠ -2 ^ 63) := by
  rw [validity, Option.isSome_map, formatTlsExpiry_isSome_iff]

theorem tlsCertificates_isSome_iff (checked : Bool) (certs : List TlsInfo) :
    (inOrder (certs.map (validity checked))).isSome ↔
      ∀ tls ∈ certs, checked → tls.daysRemaining ≠ -2 ^ 63 := by
  rw [inOrder_isSome_iff, List.forall_mem_map]
  exact forall₂_congr fun tls _ => validity_isSome_iff checked tls

/-- The order of the headers does not matter. -/
theorem securityHeaders_isSome_iff (order : HashMap.Order String String)
    (sh : HashMap String String) :
    (securityHeaders order sh).isSome ↔ ∀ c ∈ headerCuts order sh, c.Clean := by
  rw [securityHeaders, mapM_isSome_iff, headerCuts, List.forall_mem_map, sortByKey]
  simp only [List.mem_insertionSort, Option.isSome_map, cutBack_isSome_iff]

theorem securityScan_isSome (checked : Bool) (sri : SriAudit) : (securityScan checked sri).isSome := by
  unfold securityScan
  split
  · exact andMore_isSome _ _ _
  · rfl

theorem imageAudit_isSome_iff (audit : ImageAudit) :
    (imageAudit audit).isSome ↔ ∀ c ∈ audit.cuts, c.Clean := by
  rw [imageAudit, inOrder_isSome_iff, List.forall_mem_map, ImageAudit.cuts, List.forall_mem_flatMap]
  exact forall₂_congr fun _ _ => rows_isSome_iff _ _ _

theorem imageSizing_isSome_iff (audit : Option ImageAudit) (imgs : List ImageSizing) :
    (imageSizing audit imgs).isSome ↔ ∀ c ∈ imageCuts audit imgs, c.Clean := by
  simp only [imageSizing, inOrder_cons_isSome_iff, inOrder_nil_isSome, rows_isSome_iff,
    ifSome_isSome_iff, imageAudit_isSome_iff, imageCuts, List.forall_mem_append,
    List.forall_mem_flatMap, Option.mem_toList, Option.mem_def, and_true]

theorem fontAudit_isSome_iff (missingSwap : List FontIssue) :
    (fontAudit missingSwap).isSome ↔ ∀ c ∈ fontCuts missingSwap, c.Clean :=
  rows_isSome_iff _ _ _

theorem metadata_isSome (checked : Bool) (md : PageMetadata) : (metadata checked md).isSome := by
  simp only [metadata, inOrder_cons_isSome_iff, inOrder_nil_isSome, andMore_isSome, and_self]

theorem domMutations_isSome_iff (checked : Bool) (dm : DomMutations) :
    (domMutations checked dm).isSome ↔
      (checked →
        dm.totalAddedNodes + dm.totalRemovedNodes + dm.totalAttributeChanges < 2 ^ 64) := by
  rw [domMutations, Option.bind_eq_bind]
  cases checked with
  | false =>
      -- without the check both sums wrap
      obtain ⟨n, hn⟩ := Option.isSome_iff_exists.mp
        ((add_isSome_iff false 64 dm.totalAddedNodes dm.totalRemovedNodes).mpr nofun)
      rw [hn, Option.bind_some, sum_isSome_iff]
      exact iff_of_true nofun nofun
  | true =>
      rw [add]
      split
      case isTrue h => rw [Option.bind_some, sum_isSome_iff]
      case isFalse h => exact iff_of_false nofun fun hfit => h (by have := hfit rfl; omega)

/-! ## The whole page -/

/-- What the sections need, one after the other. -/
theorem toMarkdown_sections (checked : Bool) (order : HashMap.Order String String)
    (lang : Capture.Lang) (stat : WebPageStat) :
    (toMarkdown checked order lang stat).isSome ↔
      (∀ c ∈ stat.cuts order, c.Clean) ∧ (checked → SummaryFits stat.resourceSummary)
        ∧ (∀ tls ∈ stat.tlsInfo.toList ++ stat.tlsCertificates,
          checked → tls.daysRemaining ≠ -2 ^ 63)
        ∧ ∀ dm ∈ stat.domMutations, checked →
          dm.totalAddedNodes + dm.totalRemovedNodes + dm.totalAttributeChanges < 2 ^ 64 := by
  rw [toMarkdown, bind_pure_comp, Option.map_eq_map, Option.isSome_map]
  simp only [inOrder_cons_isSome_iff, inOrder_nil_isSome, ifSome_isSome_iff,
    webVitals_isSome_iff, documentTiming_isSome_iff, httpErrors_isSome_iff,
    resourceSummary_isSome_iff, coverage_isSome_iff, validity_isSome_iff,
    tlsCertificates_isSome_iff, securityHeaders_isSome_iff, securityScan_isSome,
    renderBlocking, andMore_isSome, imageSizing_isSome_iff, fontAudit_isSome_iff,
    metadata_isSome, domMutations_isSome_iff, implies_true, true_and, and_true]
  simp only [WebPageStat.cuts, List.forall_mem_append, List.forall_mem_flatMap,
    Option.mem_toList]
  constructor
  · rintro ⟨hvitals, htiming, herrors, ⟨hsummary, hfits⟩, hcov, htls, hcerts, hheaders, himages,
      hfonts, hmut⟩
    exact ⟨⟨⟨⟨⟨⟨⟨⟨hvitals, htiming⟩, herrors⟩, hsummary⟩, hcov⟩, hheaders⟩, himages⟩, hfonts⟩,
      hfits, ⟨htls, hcerts⟩, hmut⟩
  · rintro ⟨⟨⟨⟨⟨⟨⟨⟨hvitals, htiming⟩, herrors⟩, hsummary⟩, hcov⟩, hheaders⟩, himages⟩, hfonts⟩,
      hfits, ⟨htls, hcerts⟩, hmut⟩
    exact ⟨hvitals, htiming, herrors, ⟨hsummary, hfits⟩, hcov, htls, hcerts, hheaders, himages,
      hfonts, hmut⟩

/-- A build without overflow checks renders every page whose long texts are ASCII. -/
theorem toMarkdown_of_ascii (order : HashMap.Order String String) (lang : Capture.Lang)
    (stat : WebPageStat)
    (hascii : ∀ c ∈ stat.cuts order, c.limit < c.text.utf8ByteSize →
      ∀ ch ∈ c.text.toList, ch.utf8Size = 1) :
    (toMarkdown false order lang stat).isSome := by
  refine (toMarkdown_sections false order lang stat).mpr ⟨fun c hc hlen => ?_, nofun, ?_, ?_⟩
  · exact Utf8.not_straddles_of_ascii (hascii c hc hlen) c.place
  · exact fun _ _ => nofun
  · exact fun _ _ => nofun

/-- `to_markdown` panics exactly when one of the texts it cuts is cut inside a character,
    or overflow is checked for and a sum or a negation overflows. -/
theorem toMarkdown_isSome_iff (checked : Bool) (order : HashMap.Order String String)
    (lang : Capture.Lang) (stat : WebPageStat) :
    (toMarkdown checked order lang stat).isSome ↔
      (∀ c ∈ stat.cuts order, c.Clean) ∧ (checked → stat.Fits) := by
  rw [toMarkdown_sections]
  constructor
  · rintro ⟨hclean, hsummary, hvalid, hmut⟩
    exact ⟨hclean, fun hc => ⟨hsummary hc, fun tls h => hvalid tls h hc, fun dm h => hmut dm h hc⟩⟩
  · rintro ⟨hclean, hfits⟩
    exact ⟨hclean, fun hc => (hfits hc).summary, fun tls h hc => (hfits hc).validity tls h,
      fun dm h hc => (hfits hc).mutations dm h⟩

/-- A page with a long task from an iframe whose name is 72 bytes of Chinese: the last 67
    begin inside the second character. -/
def namedFrame : WebPageStat where
  data := ""
  webVitals := some { longTaskTopOffenders := [⟨String.ofList (List.replicate 24 '帧')⟩] }

theorem toMarkdown_namedFrame : toMarkdown false .arbitrary .zh namedFrame = none := rfl

end Markdown
end BrowserHeadless
