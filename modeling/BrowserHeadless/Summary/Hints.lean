/-
  BrowserHeadless.Summary.Hints

  `build_resource_hints` (src/browser/mod.rs): the third-party hosts that a page loads much
  from without having declared a connection to them.

  A declared hint is a URL or a bare host.  The gaps are the ranked hosts with 4 KiB or more
  that no hint names, in the order of the ranking (`mem_gap_iff`).
-/

import BrowserHeadless.Summary.Resources

namespace BrowserHeadless
namespace Summary

open Collect (ParsedUrl trim)

/-- `RawResourceHintsPublic`. -/
structure RawResourceHints where
  preconnect : List String := []
  dnsPrefetch : List String := []
deriving DecidableEq, Repr

/-- `ResourceHintGap`. -/
structure ResourceHintGap where
  host : String
  bytes : Nat
  count : Nat
deriving DecidableEq, Repr

/-- `ResourceHints`. -/
structure ResourceHints where
  declaredPreconnect : List String
  declaredDnsPrefetch : List String
  gap : List ResourceHintGap
deriving DecidableEq, Repr

/-- `ResourceSummary` with its `resource_hints`, which `build_resource_summary` leaves out. -/
structure HintedSummary extends ResourceSummary where
  resourceHints : Option ResourceHints := none

/-- `ResourceSummary::default()`. -/
def HintedSummary.default : HintedSummary where
  bytesByType := ∅
  countByType := ∅
  statusDistribution := ∅
  cacheHitRatio := Lib.F64.ofInt 0
  cachedBytes := 0
  thirdPartyBytes := 0
  largestResource := none
  protocolDistribution := ∅
  compressedCount := 0
  uncompressedTextCount := 0
  uncompressedTextBytes := 0
  connectionsReused := 0
  connectionsNew := 0
  uniqueHosts := 0
  compressionBreakdown := ∅
  cacheControlPresent := 0
  cacheControlMissing := 0
  topThirdPartyDomains := []
  thirdPartyScriptBytes := 0
  thirdPartyScriptOrigins := []
  modernProtocolShare := Lib.F64.ofInt 0
  legacyImageBytes := 0
  modernImageBytes := 0
  sourceMapsPresent := 0
  sourceMapsMissing := 0
  duplicateResources := ⟨[], [], 0⟩
  mixedContent := {}
  maxInitiatorChainDepth := none
  topLargestByType := ∅
  uncompressedTextResources := []
  cachePolicyIssues := []

/-- `GAP_FLOOR_BYTES`. -/
def gapFloorBytes : Nat := 4096

/-- `trim_start_matches("//")`. -/
def trimSlashes : List Char → List Char
  | '/' :: '/' :: rest => trimSlashes rest
  | cs => cs

/-- The host of a hint without a scheme: what stands before the first slash, if it has a
    dot. -/
def bareHost (s : String) : Option String :=
  let h := (trimSlashes (trim s).toList).takeWhile (· ≠ '/')
  if h ≠ [] ∧ '.' ∈ h then some (String.ofList h) else none

/-- The closure `to_host`. -/
def toHost (parseUrl : String → Option ParsedUrl) (s : String) : Option String :=
  ((parseUrl s).bind (·.hostStr)).or (bareHost s)

/-- `declared`. -/
def declaredHosts (parseUrl : String → Option ParsedUrl) (raw : RawResourceHints) :
    Finset String :=
  ((raw.preconnect ++ raw.dnsPrefetch).filterMap (toHost parseUrl)).toFinset

/-- `build_resource_hints`. -/
def buildResourceHints (parseUrl : String → Option ParsedUrl) (raw : RawResourceHints)
    (topThirdPartyDomains : List DomainBytes) : ResourceHints where
  declaredPreconnect := raw.preconnect
  declaredDnsPrefetch := raw.dnsPrefetch
  gap :=
    ((topThirdPartyDomains.filter fun d => gapFloorBytes ≤ d.bytes).filter fun d =>
      d.host ∉ declaredHosts parseUrl raw).map fun d =>
        { host := d.host, bytes := d.bytes, count := d.count }

/-- What is a gap. -/
theorem mem_gap_iff {parseUrl : String → Option ParsedUrl} {raw : RawResourceHints}
    {domains : List DomainBytes} {g : ResourceHintGap} :
    g ∈ (buildResourceHints parseUrl raw domains).gap ↔
      (∃ d ∈ domains, d.host = g.host ∧ d.bytes = g.bytes ∧ d.count = g.count) ∧
      gapFloorBytes ≤ g.bytes ∧
      ∀ hint ∈ raw.preconnect ++ raw.dnsPrefetch, toHost parseUrl hint ≠ some g.host := by
  have hdeclared : ∀ host, host ∉ declaredHosts parseUrl raw ↔
      ∀ hint ∈ raw.preconnect ++ raw.dnsPrefetch, toHost parseUrl hint ≠ some host := by
    intro host
    rw [declaredHosts, List.mem_toFinset, List.mem_filterMap, not_exists]
    simp only [not_and, ne_eq]
  rw [buildResourceHints, List.mem_map]
  constructor
  · rintro ⟨d, hd, rfl⟩
    rw [List.mem_filter, List.mem_filter, decide_eq_true_eq, decide_eq_true_eq] at hd
    exact ⟨⟨d, hd.1.1, rfl, rfl, rfl⟩, hd.1.2, (hdeclared d.host).mp hd.2⟩
  · rintro ⟨⟨d, hd, hhost, hbytes, hcount⟩, hfloor, hnone⟩
    refine ⟨d, ?_, ?_⟩
    · rw [List.mem_filter, List.mem_filter, decide_eq_true_eq, decide_eq_true_eq]
      exact ⟨⟨hd, hbytes ▸ hfloor⟩, (hdeclared d.host).mpr (hhost ▸ hnone)⟩
    · rw [hhost, hbytes, hcount]

end Summary
end BrowserHeadless
