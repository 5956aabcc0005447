/-
  BrowserHeadless.Summary.Gaps

  The gaps of `resource_hints`, said in terms of the page's resources.

  The gaps come out of the ten largest third parties, so a host is one if it is third-party,
  sends 4 KiB or more, has no hint, and fewer than ten hosts send more
  (`mem_gap_buildResourceSummary`).  A host further down is left out even where all those
  before it have their hints.
-/

import BrowserHeadless.Lib.Ranked
import BrowserHeadless.Summary.Conservation
import BrowserHeadless.Summary.Hints

namespace BrowserHeadless
namespace Summary

open Collect (WebPageResource ParsedUrl)

variable {targetHost : String} {resources : List WebPageResource}

/-- What a host sends in all. -/
def hostBytes (resources : List WebPageResource) (host : String) : Nat :=
  ((resourcesOf resources host).map (·.contentSize)).sum

/-- The third-party hosts of a page, each once. -/
def thirdPartyHosts (targetHost : String) (resources : List WebPageResource) : List String :=
  (resources.filterMap (thirdPartyHost targetHost)).dedup

/-- The third-party hosts that send more than `host`, or as much and come before it by name. -/
def largerThirdParties (targetHost : String) (resources : List WebPageResource) (host : String) :
    List String :=
  (thirdPartyHosts targetHost resources).filter fun h =>
    Lib.RankLt id (hostBytes resources) h host

theorem mem_thirdPartyHosts {host : String} :
    host ∈ thirdPartyHosts targetHost resources ↔
      targetHost ≠ "" ∧ (∃ r ∈ resources, hostOf r = some host) ∧ host ≠ targetHost := by
  rw [thirdPartyHosts, List.mem_dedup, List.mem_filterMap]
  constructor
  · rintro ⟨r, hr, hhost⟩
    obtain ⟨hhost, htarget, hne⟩ := thirdPartyHost_eq_some.mp hhost
    exact ⟨htarget, ⟨r, hr, hhost⟩, hne⟩
  · rintro ⟨htarget, ⟨r, hr, hhost⟩, hne⟩
    exact ⟨r, hr, thirdPartyHost_eq_some.mpr ⟨hhost, htarget, hne⟩⟩

/-! ## The ranking -/

namespace RanksThirdParties

variable {ranked : List DomainBytes}

theorem mem_hosts (h : RanksThirdParties targetHost resources ranked) (htarget : targetHost ≠ "")
    {host : String} :
    host ∈ ranked.map DomainBytes.host ↔ host ∈ thirdPartyHosts targetHost resources := by
  rw [mem_thirdPartyHosts, List.mem_map]
  constructor
  · rintro ⟨d, hd, rfl⟩
    obtain ⟨hseen, hne, -, -⟩ := (h.mem_iff d).mp hd
    exact ⟨htarget, hseen, hne⟩
  · rintro ⟨-, hseen, hne⟩
    exact ⟨⟨host, hostBytes resources host, (resourcesOf resources host).length⟩,
      (h.mem_iff _).mpr ⟨hseen, hne, rfl, rfl⟩, rfl⟩

/-- The ranking has each third party once. -/
theorem hosts_perm (h : RanksThirdParties targetHost resources ranked)
    (htarget : targetHost ≠ "") :
    (ranked.map DomainBytes.host).Perm (thirdPartyHosts targetHost resources) := by
  refine (List.perm_ext_iff_of_nodup ?_ (List.nodup_dedup _)).mpr fun host => h.mem_hosts htarget
  refine List.pairwise_map.mpr (h.sorted.imp_of_mem fun {a b} ha hb hlt heq => ?_)
  -- places of one host have the same bytes, and neither is before the other
  have hbytes : a.bytes = b.bytes := by
    rw [((h.mem_iff a).mp ha).2.2.1, ((h.mem_iff b).mp hb).2.2.1, heq]
  rcases hlt with hlt | ⟨-, hlt⟩
  · omega
  · exact absurd (heq ▸ hlt) (lt_irrefl _)

/-- The places before `d` are those of the hosts that send more. -/
theorem filter_rankLt (h : RanksThirdParties targetHost resources ranked)
    (htarget : targetHost ≠ "") {d : DomainBytes} (hd : d ∈ ranked) :
    (ranked.filter fun b => Lib.RankLt DomainBytes.host DomainBytes.bytes b d).length =
      (largerThirdParties targetHost resources d.host).length := by
  have hbytes : ∀ b ∈ ranked, b.bytes = hostBytes resources b.host := fun b hb =>
    ((h.mem_iff b).mp hb).2.2.1
  have hsame : ∀ b ∈ ranked, decide (Lib.RankLt DomainBytes.host DomainBytes.bytes b d) =
      decide (Lib.RankLt id (hostBytes resources) b.host d.host) := by
    intro b hb
    refine decide_eq_decide.mpr ?_
    rw [Lib.RankLt, hbytes b hb, hbytes d hd]
    exact Iff.rfl
  have hlength := ((h.hosts_perm htarget).filter
    fun host => decide (Lib.RankLt id (hostBytes resources) host d.host)).length_eq
  rw [List.filter_map, List.length_map] at hlength
  rw [List.filter_congr hsame]
  exact hlength

/-- A place among the first `k`. -/
theorem mem_take (h : RanksThirdParties targetHost resources ranked) (htarget : targetHost ≠ "")
    (k : Nat) (d : DomainBytes) :
    d ∈ ranked.take k ↔
      d ∈ ranked ∧ (largerThirdParties targetHost resources d.host).length < k := by
  have hsorted : ranked.Pairwise (Lib.RankLt DomainBytes.host DomainBytes.bytes) := h.sorted
  constructor
  · intro hmem
    have hd := List.mem_of_mem_take hmem
    rw [← h.filter_rankLt htarget hd]
    exact ⟨hd, (Lib.mem_take_of_pairwise (fun _ _ => Lib.RankLt.asymm) hsorted hd k).mp hmem⟩
  · rintro ⟨hd, hlt⟩
    rw [← h.filter_rankLt htarget hd] at hlt
    exact (Lib.mem_take_of_pairwise (fun _ _ => Lib.RankLt.asymm) hsorted hd k).mpr hlt

end RanksThirdParties

/-- The gaps of a page. -/
theorem mem_gap_buildResourceSummary (lower : String → String)
    (parseUrl : String → Option ParsedUrl) (orders : Orders) (raw : RawResourceHints)
    {resources : List WebPageResource} (targetUrl : String) (hn : resources.length < 2 ^ 32)
    (hb : (resources.map (·.contentSize)).sum < 2 ^ 64) (g : ResourceHintGap) :
    g ∈ (buildResourceHints parseUrl raw
        (buildResourceSummary lower parseUrl orders resources targetUrl).topThirdPartyDomains).gap ↔
      g.host ∈ thirdPartyHosts (targetHostOf parseUrl targetUrl) resources ∧
      g.bytes = hostBytes resources g.host ∧
      g.count = (resourcesOf resources g.host).length ∧
      gapFloorBytes ≤ g.bytes ∧
      (∀ hint ∈ raw.preconnect ++ raw.dnsPrefetch, toHost parseUrl hint ≠ some g.host) ∧
      (largerThirdParties (targetHostOf parseUrl targetUrl) resources g.host).length < 10 := by
  rw [mem_gap_iff, mem_thirdPartyHosts]
  by_cases htarget : targetHostOf parseUrl targetUrl = ""
  · have hnone : (buildResourceSummary lower parseUrl orders resources
        targetUrl).topThirdPartyDomains = [] := by
      rw [buildResourceSummary, htarget]
      exact congrArg (List.take 10) (rankedDomains_noTarget resources lower _ hn hb)
    rw [hnone, htarget]
    simp
  · have hranked := ranks_thirdPartyByHost lower orders.thirdParty htarget hn hb
    constructor
    · rintro ⟨⟨d, hd, hhost, hbytes, hcount⟩, hfloor, hhints⟩
      obtain ⟨hd, hplace⟩ := (hranked.mem_take htarget 10 d).mp hd
      obtain ⟨hseen, hne, hsum, hlength⟩ := (hranked.mem_iff d).mp hd
      rw [hhost] at hseen hne hsum hlength hplace
      exact ⟨⟨htarget, hseen, hne⟩, hbytes.symm.trans hsum, hcount.symm.trans hlength, hfloor,
        hhints, hplace⟩
    · rintro ⟨⟨-, hseen, hne⟩, hbytes, hcount, hfloor, hhints, hplace⟩
      have hd := (hranked.mem_iff ⟨g.host, g.bytes, g.count⟩).mpr ⟨hseen, hne, hbytes, hcount⟩
      exact ⟨⟨_, (hranked.mem_take htarget 10 _).mpr ⟨hd, hplace⟩, rfl, rfl, rfl⟩, hfloor,
        hhints⟩

/-- A page and a script that is large, from a host without a hint. -/
def pageAndLargeScript : List WebPageResource :=
  [ { requestId := "1", url := "https://a/", contentSize := 5000, status := 200,
      parsedUrl := some ⟨some "a", "/"⟩ },
    { requestId := "2", url := "https://b.example/x.js", contentSize := 7000, status := 200,
      parsedUrl := some ⟨some "b.example", "/x.js"⟩ } ]

/-- The hint names another host, so the script's host is a gap. -/
theorem mem_gap_buildResourceSummary_script :
    (⟨"b.example", 7000, 1⟩ : ResourceHintGap) ∈
      (buildResourceHints (fun url => if url = "https://a/" then some ⟨some "a", "/"⟩ else none)
        ⟨["//c.example"], []⟩
        (buildResourceSummary asciiLower
          (fun url => if url = "https://a/" then some ⟨some "a", "/"⟩ else none) Orders.arbitrary
          pageAndLargeScript "https://a/").topThirdPartyDomains).gap :=
  (mem_gap_buildResourceSummary asciiLower
    (fun url => if url = "https://a/" then some ⟨some "a", "/"⟩ else none) Orders.arbitrary
    ⟨["//c.example"], []⟩ "https://a/" (by decide) (by decide) ⟨"b.example", 7000, 1⟩).mpr
    (by decide)

end Summary
end BrowserHeadless
