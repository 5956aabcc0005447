/-
  BrowserHeadless.Summary.Conservation

  What the counters of the resource summary add up to.

  Every counter and every map of the loop develops by itself (`ofResources_field`), so
  after the loop it is a sum over the resources that meet its condition.  The laws then
  compare conditions, one resource at a time: a status has one class, a response is cached
  or not, a legacy image is an image.
-/

import BrowserHeadless.Summary.Resources
import Mathlib.Data.String.Basic

namespace BrowserHeadless
namespace Summary

open Lib (HashMap addIf upsertIf tally sumIf)
open Collect (WebPageResource ParsedUrl)

variable {lower : String → String} {targetHost : String} {resources : List WebPageResource}

/-! ## The fields of the loop -/

namespace Totals

/-- A part of the variables that each step updates by itself. -/
theorem ofResources_field {τ : Type} (field : Totals → τ) (upd : τ → WebPageResource → τ)
    (h : ∀ s r, field (step lower targetHost s r) = upd (field s) r) :
    field (ofResources lower targetHost resources) = resources.foldl upd (field {}) :=
  (List.foldl_hom field fun s r => (h s r).symm).symm

/-- A counter of the loop. -/
theorem ofResources_counter {W : Nat} (hW : 0 < W) (field : Totals → Nat)
    (c : WebPageResource → Bool) (w : WebPageResource → Nat) (hzero : field {} = 0)
    (h : ∀ s r, field (step lower targetHost s r) = addIf W (c r) (w r) (field s)) :
    field (ofResources lower targetHost resources) = sumIf c w resources % W := by
  rw [ofResources_field field (fun v r => addIf W (c r) (w r) v) h, hzero,
    Lib.foldl_addIf c w resources hW]

/-- A map of the loop. -/
theorem ofResources_map {ν : Type} (field : Totals → HashMap String ν)
    (key : WebPageResource → Option String) (d : ν) (f : ν → WebPageResource → ν)
    (hempty : field {} = ∅)
    (h : ∀ s r, field (step lower targetHost s r) = upsertIf (key r) d (fun v => f v r) (field s)) :
    field (ofResources lower targetHost resources) = tally key d f ∅ resources := by
  rw [ofResources_field field (fun m r => upsertIf (key r) d (fun v => f v r) m) h, hempty]
  rfl

/-! ### Without overflow -/

section Fits

variable (field : Totals → Nat) (maps : Totals → HashMap String Nat)

/-- A count of resources. -/
theorem ofResources_count (hn : resources.length < 2 ^ 32) (c : WebPageResource → Bool)
    (hzero : field {} = 0)
    (h : ∀ s r, field (step lower targetHost s r) = addIf (2 ^ 32) (c r) 1 (field s)) :
    field (ofResources lower targetHost resources) = sumIf c (fun _ => 1) resources := by
  rw [ofResources_counter (Nat.two_pow_pos 32) field c (fun _ => 1) hzero h, Lib.sumIf_one]
  exact Nat.mod_eq_of_lt (Nat.lt_of_le_of_lt (List.length_filter_le c resources) hn)

/-- A sum of sizes. -/
theorem ofResources_bytes (hb : (resources.map (·.contentSize)).sum < 2 ^ 64)
    (c : WebPageResource → Bool) (hzero : field {} = 0)
    (h : ∀ s r, field (step lower targetHost s r) = addIf (2 ^ 64) (c r) r.contentSize (field s)) :
    field (ofResources lower targetHost resources) = sumIf c (·.contentSize) resources := by
  rw [ofResources_counter (Nat.two_pow_pos 64) field c (·.contentSize) hzero h]
  exact Nat.mod_eq_of_lt (Nat.lt_of_le_of_lt (Lib.sumIf_le_sum _) hb)

/-- A map of counts. -/
theorem ofResources_counts (hn : resources.length < 2 ^ 32)
    (key : WebPageResource → Option String) (hempty : maps {} = ∅)
    (h : ∀ s r, maps (step lower targetHost s r) =
      upsertIf (key r) 0 (fun v => (v + 1) % 2 ^ 32) (maps s)) :
    (maps (ofResources lower targetHost resources)).total =
      (resources.filter fun r => (key r).isSome).length := by
  have hfits : (resources.map fun _ => 1).sum < 2 ^ 32 := by
    rwa [List.map_const', List.sum_replicate_nat, Nat.mul_one]
  rw [ofResources_map maps key 0 (fun v _ => (v + 1) % 2 ^ 32) hempty h,
    Lib.tally_mod key (fun _ => 1) hfits, Lib.total_tally, Lib.sumIf_one]

end Fits

end Totals

/-! ## The laws -/

/-- The hosts that differ from the target's, with their bytes and counts, most bytes first
    and by host among equals. -/
structure RanksThirdParties (targetHost : String) (resources : List WebPageResource)
    (ranked : List DomainBytes) : Prop where
  sorted : ranked.Pairwise fun a b =>
    b.bytes < a.bytes ∨ (b.bytes = a.bytes ∧ a.host < b.host)
  mem_iff : ∀ d, d ∈ ranked ↔
    (∃ r ∈ resources, hostOf r = some d.host) ∧ d.host ≠ targetHost ∧
      d.bytes = ((resources.filter fun r => hostOf r = some d.host).map (·.contentSize)).sum ∧
      d.count = (resources.filter fun r => hostOf r = some d.host).length

/-- The conservation laws of the resource summary. -/
structure Conserved (targetHost : String) (resources : List WebPageResource)
    (s : ResourceSummary) : Prop where
  countByType : s.countByType.total = resources.length
  statusDistribution : s.statusDistribution.total = resources.length
  bytesByType : s.bytesByType.total = (resources.map (·.contentSize)).sum
  connections : s.connectionsReused + s.connectionsNew = s.protocolDistribution.total
  protocols : s.protocolDistribution.total = (resources.filter fun r => !r.fromCache).length
  compression : s.compressionBreakdown.total =
    (resources.filter fun r => !r.fromCache && isTextCompressible r.mimeType).length
  sourceMaps : s.sourceMapsPresent + s.sourceMapsMissing =
    (s.countByType.lookup "javascript").getD 0 + (s.countByType.lookup "css").getD 0
  images : s.legacyImageBytes + s.modernImageBytes ≤ (s.bytesByType.lookup "image").getD 0
  thirdParty : s.thirdPartyScriptBytes ≤ s.thirdPartyBytes
  /-- A target without a host has no third parties. -/
  topDomains : if targetHost = "" then s.topThirdPartyDomains = []
    else ∃ ranked, RanksThirdParties targetHost resources ranked ∧
      s.topThirdPartyDomains = ranked.take 10

namespace Totals

variable (lower : String → String) (targetHost : String)

/-- Every resource has a type and a status. -/
theorem total_countByType (hn : resources.length < 2 ^ 32) :
    (ofResources lower targetHost resources).countByType.total = resources.length := by
  rw [ofResources_counts (·.countByType) hn (fun r => some (mimeBucket r.mimeType)) rfl
    fun _ _ => rfl]
  exact congrArg List.length (List.filter_eq_self.mpr fun _ _ => rfl)

theorem total_statusDistribution (hn : resources.length < 2 ^ 32) :
    (ofResources lower targetHost resources).statusDistribution.total = resources.length := by
  rw [ofResources_counts (·.statusDistribution) hn (fun r => some (statusBucket r.status)) rfl
    fun _ _ => rfl]
  exact congrArg List.length (List.filter_eq_self.mpr fun _ _ => rfl)

theorem total_bytesByType (hb : (resources.map (·.contentSize)).sum < 2 ^ 64) :
    (ofResources lower targetHost resources).bytesByType.total =
      (resources.map (·.contentSize)).sum := by
  rw [ofResources_map (·.bytesByType) (fun r => some (mimeBucket r.mimeType)) 0
    (fun v r => (v + r.contentSize) % 2 ^ 64) rfl fun _ _ => rfl,
    Lib.tally_mod _ WebPageResource.contentSize hb, Lib.total_tally]
  rfl

/-- Every response that was not cached has a protocol. -/
theorem total_protocolDistribution (hn : resources.length < 2 ^ 32) :
    (ofResources lower targetHost resources).protocolDistribution.total =
      (resources.filter fromNetwork).length := by
  rw [ofResources_counts (·.protocolDistribution) hn _ rfl fun _ _ => rfl]
  refine congrArg List.length (List.filter_congr fun r _ => ?_)
  cases fromNetwork r <;> rfl

/-- Its connection is reused or new. -/
theorem connections_add (hn : resources.length < 2 ^ 32) :
    (ofResources lower targetHost resources).connectionsReused +
        (ofResources lower targetHost resources).connectionsNew =
      (resources.filter fromNetwork).length := by
  rw [ofResources_count (·.connectionsReused) hn _ rfl fun _ _ => rfl,
    ofResources_count (·.connectionsNew) hn _ rfl fun _ _ => rfl, ← Lib.sumIf_one]
  refine Lib.sumIf_add fun r _ => ?_
  cases fromNetwork r <;> cases r.connectionReused <;> decide

/-- Every text response that was not cached has a row in the breakdown. -/
theorem total_compressionBreakdown (hn : resources.length < 2 ^ 32) :
    (ofResources lower targetHost resources).compressionBreakdown.total =
      (resources.filter fun r => fromNetwork r && isTextCompressible r.mimeType).length := by
  rw [ofResources_counts (·.compressionBreakdown) hn _ rfl fun _ _ => rfl]
  refine congrArg List.length (List.filter_congr fun r _ => ?_)
  cases fromNetwork r && isTextCompressible r.mimeType <;> rfl

/-- The count of one type. -/
theorem lookup_countByType (hn : resources.length < 2 ^ 32) (bucket : String) :
    ((ofResources lower targetHost resources).countByType.lookup bucket).getD 0 =
      sumIf (fun r => mimeBucket r.mimeType = bucket) (fun _ => 1) resources := by
  rw [ofResources_map (·.countByType) (fun r => some (mimeBucket r.mimeType)) 0
    (fun v _ => (v + 1) % 2 ^ 32) rfl fun _ _ => rfl,
    Lib.lookup_tally_mod (Nat.two_pow_pos 32) _ (fun _ => 1)]
  simp only [Option.some.injEq]
  rw [Lib.sumIf_one]
  exact Nat.mod_eq_of_lt (Nat.lt_of_le_of_lt (List.length_filter_le _ resources) hn)

/-- The bytes of one type. -/
theorem lookup_bytesByType (hb : (resources.map (·.contentSize)).sum < 2 ^ 64) (bucket : String) :
    ((ofResources lower targetHost resources).bytesByType.lookup bucket).getD 0 =
      sumIf (fun r => mimeBucket r.mimeType = bucket) (·.contentSize) resources := by
  rw [ofResources_map (·.bytesByType) (fun r => some (mimeBucket r.mimeType)) 0
    (fun v r => (v + r.contentSize) % 2 ^ 64) rfl fun _ _ => rfl,
    Lib.lookup_tally_mod (Nat.two_pow_pos 64) _ WebPageResource.contentSize]
  simp only [Option.some.injEq]
  exact Nat.mod_eq_of_lt (Nat.lt_of_le_of_lt (Lib.sumIf_le_sum _) hb)

/-- Code has a source map or not, and is JS or CSS. -/
theorem sourceMaps_add (hn : resources.length < 2 ^ 32) :
    (ofResources lower targetHost resources).sourceMapsPresent +
        (ofResources lower targetHost resources).sourceMapsMissing =
      ((ofResources lower targetHost resources).countByType.lookup "javascript").getD 0 +
        ((ofResources lower targetHost resources).countByType.lookup "css").getD 0 := by
  rw [lookup_countByType lower targetHost hn, lookup_countByType lower targetHost hn,
    ofResources_count (·.sourceMapsPresent) hn (fun r => isCode r && r.hasSourceMap) rfl
      fun _ _ => rfl,
    ofResources_count (·.sourceMapsMissing) hn (fun r => isCode r && !r.hasSourceMap) rfl
      fun _ _ => rfl,
    Lib.sumIf_add (c := isCode) fun r _ => ?_, Lib.sumIf_add (c := isCode) fun r _ => ?_]
  · rw [isCode]
    simp only [decide_eq_true_eq, Bool.or_eq_true, beq_iff_eq, true_and]
    rintro ⟨hjs, hcss⟩
    exact absurd (hjs.symm.trans hcss) (by decide)
  · cases isCode r <;> cases r.hasSourceMap <;> decide

/-- Legacy and modern images are images. -/
theorem images_le (hb : (resources.map (·.contentSize)).sum < 2 ^ 64) :
    (ofResources lower targetHost resources).legacyImageBytes +
        (ofResources lower targetHost resources).modernImageBytes ≤
      ((ofResources lower targetHost resources).bytesByType.lookup "image").getD 0 := by
  rw [lookup_bytesByType lower targetHost hb,
    ofResources_bytes (·.legacyImageBytes) hb _ rfl fun _ _ => rfl,
    ofResources_bytes (·.modernImageBytes) hb _ rfl fun _ _ => rfl,
    Lib.sumIf_add (c := fun r => isLegacyImage r.mimeType || isModernImage r.mimeType)
      fun r _ => ?_]
  · refine Lib.sumIf_le fun r _ himage => ?_
    rw [decide_eq_true_eq]
    rcases (Bool.or_eq_true _ _).mp himage with hlegacy | hmodern
    · exact mimeBucket_of_legacy hlegacy
    · exact mimeBucket_of_modern hmodern
  · cases isLegacyImage r.mimeType <;> cases isModernImage r.mimeType <;> decide

/-- A script of a third party is a resource of a third party. -/
theorem thirdParty_le (hb : (resources.map (·.contentSize)).sum < 2 ^ 64) :
    (ofResources lower targetHost resources).thirdPartyScriptBytes ≤
      (ofResources lower targetHost resources).thirdPartyBytes := by
  rw [ofResources_bytes (·.thirdPartyScriptBytes) hb _ rfl fun _ _ => rfl,
    ofResources_bytes (·.thirdPartyBytes) hb _ rfl fun _ _ => rfl]
  refine Lib.sumIf_le fun r _ hscript => ?_
  obtain ⟨h, hh⟩ := Option.isSome_iff_exists.mp hscript
  exact Option.isSome_iff_exists.mpr ⟨h, (Option.filter_eq_some_iff.mp hh).1⟩

end Totals

/-! ## Third parties -/

theorem thirdPartyHost_eq_some {r : WebPageResource} {h : String} :
    thirdPartyHost targetHost r = some h ↔
      hostOf r = some h ∧ targetHost ≠ "" ∧ h ≠ targetHost := by
  rw [thirdPartyHost, Option.filter_eq_some_iff, Bool.and_eq_true, bne_iff_ne, bne_iff_ne]

/-- The pair of a host, without overflow. -/
theorem foldl_addResource (l : List WebPageResource) (hn : l.length < 2 ^ 32)
    (hb : (l.map (·.contentSize)).sum < 2 ^ 64) :
    l.foldl (fun slot r => Totals.addResource r slot) (0, 0) =
      ((l.map (·.contentSize)).sum, l.length) := by
  refine Prod.ext ?_ ?_
  · rw [Lib.foldl_counter Prod.fst WebPageResource.contentSize (fun _ _ _ => rfl) l
      (Nat.two_pow_pos 64), Nat.zero_add]
    exact Nat.mod_eq_of_lt hb
  · rw [Lib.foldl_counter Prod.snd (fun _ => 1) (fun _ _ _ => rfl) l (Nat.two_pow_pos 32),
      List.map_const', List.sum_replicate_nat, Nat.mul_one, Nat.zero_add]
    exact Nat.mod_eq_of_lt hn

/-- The resources of a host. -/
def resourcesOf (resources : List WebPageResource) (h : String) : List WebPageResource :=
  resources.filter fun r => hostOf r = some h

/-- The entries of `third_party_by_host`. -/
theorem lookup_thirdPartyByHost (lower : String → String) (targetHost : String)
    (hn : resources.length < 2 ^ 32) (hb : (resources.map (·.contentSize)).sum < 2 ^ 64)
    {h : String} {p : Nat × Nat} :
    (Totals.ofResources lower targetHost resources).thirdPartyByHost.lookup h = some p ↔
      (∃ r ∈ resources, hostOf r = some h) ∧ targetHost ≠ "" ∧ h ≠ targetHost ∧
        p = (((resourcesOf resources h).map (·.contentSize)).sum,
          (resourcesOf resources h).length) := by
  rw [Totals.ofResources_map (·.thirdPartyByHost) (thirdPartyHost targetHost) (0, 0)
    (fun slot r => Totals.addResource r slot) rfl fun _ _ => rfl, Lib.lookup_tally,
    Finmap.lookup_empty, Option.getD_none]
  by_cases hthird : targetHost ≠ "" ∧ h ≠ targetHost
  · have hof : (resources.filter fun r => thirdPartyHost targetHost r = some h) =
        resourcesOf resources h := by
      refine List.filter_congr fun r _ => decide_eq_decide.mpr ?_
      rw [thirdPartyHost_eq_some]
      exact and_iff_left hthird
    rw [hof, foldl_addResource]
    · by_cases hnil : resourcesOf resources h = []
      · rw [if_pos hnil]
        refine iff_of_false (by simp) fun hsome => ?_
        obtain ⟨⟨r, hr, hhost⟩, -⟩ := hsome
        exact List.ne_nil_of_mem (List.mem_filter.mpr ⟨hr, decide_eq_true hhost⟩) hnil
      · rw [if_neg hnil, Option.some.injEq]
        obtain ⟨r, hr⟩ := List.exists_mem_of_ne_nil _ hnil
        obtain ⟨hr, hhost⟩ := List.mem_filter.mp hr
        exact ⟨fun hp => ⟨⟨r, hr, of_decide_eq_true hhost⟩, hthird.1, hthird.2, hp.symm⟩,
          fun hp => hp.2.2.2.symm⟩
    · exact Nat.lt_of_le_of_lt (List.length_filter_le _ _) hn
    · have hle := Lib.sumIf_le_sum (c := fun r => decide (hostOf r = some h))
        (w := WebPageResource.contentSize) resources
      rw [Lib.sumIf_eq_sum_filter] at hle
      exact Nat.lt_of_le_of_lt hle hb
  · -- no resource has this key
    have hnil : (resources.filter fun r => thirdPartyHost targetHost r = some h) = [] := by
      rw [List.filter_eq_nil_iff]
      intro r _ hr
      exact hthird (thirdPartyHost_eq_some.mp (of_decide_eq_true hr)).2
    rw [if_pos hnil]
    exact iff_of_false (by simp) fun hsome => hthird ⟨hsome.2.1, hsome.2.2.1⟩

/-! ## The ranking of a map -/

namespace DomainBytes

theorem total (a b : DomainBytes) : a.le b ∨ b.le a := by
  unfold DomainBytes.le
  rcases Nat.lt_trichotomy a.bytes b.bytes with h | h | h
  · exact .inr (.inl h)
  · rcases le_total a.host b.host with hle | hle
    · exact .inl (.inr ⟨h.symm, hle⟩)
    · exact .inr (.inr ⟨h, hle⟩)
  · exact .inl (.inl h)

theorem trans {a b c : DomainBytes} (hab : a.le b) (hbc : b.le c) : a.le c := by
  unfold DomainBytes.le at *
  rcases hab with hab | ⟨hab, habh⟩
  · rcases hbc with hbc | ⟨hbc, -⟩
    · exact .inl (by omega)
    · exact .inl (by omega)
  · rcases hbc with hbc | ⟨hbc, hbch⟩
    · exact .inl (by omega)
    · exact .inr ⟨by omega, habh.trans hbch⟩

theorem host_eq {a b : DomainBytes} (hab : a.le b) (hba : b.le a) : a.host = b.host := by
  unfold DomainBytes.le at *
  rcases hab with hab | ⟨hab, habh⟩
  · rcases hba with hba | ⟨hba, -⟩ <;> omega
  · rcases hba with hba | ⟨-, hbah⟩
    · omega
    · exact le_antisymm habh hbah

instance : Std.Total DomainBytes.le := ⟨total⟩

instance : IsTrans DomainBytes DomainBytes.le := ⟨fun _ _ _ => trans⟩

end DomainBytes

theorem mem_rankedDomains {order : HashMap.Order String (Nat × Nat)}
    {byHost : HashMap String (Nat × Nat)} {d : DomainBytes} :
    d ∈ rankedDomains order byHost ↔ byHost.lookup d.host = some (d.bytes, d.count) := by
  rw [rankedDomains, List.mem_insertionSort, List.mem_map]
  constructor
  · rintro ⟨e, he, rfl⟩
    exact order.lookup_of_mem he
  · intro h
    exact ⟨⟨d.host, (d.bytes, d.count)⟩, order.mem_entries.mpr h, rfl⟩

/-- Each host has one place. -/
theorem rankedDomains_hosts (order : HashMap.Order String (Nat × Nat))
    (byHost : HashMap String (Nat × Nat)) :
    (rankedDomains order byHost).Pairwise fun a b => a.host ≠ b.host := by
  have hhosts : ((order.entries byHost).map fun e => (⟨e.1, e.2.1, e.2.2⟩ : DomainBytes)).Pairwise
      fun a b => a.host ≠ b.host := by
    rw [List.pairwise_map]
    exact List.pairwise_map.mp (order.nodupKeys byHost)
  exact (List.perm_insertionSort _ _).symm.pairwise hhosts fun h => h.symm

theorem rankedDomains_sorted (order : HashMap.Order String (Nat × Nat))
    (byHost : HashMap String (Nat × Nat)) :
    (rankedDomains order byHost).Pairwise DomainBytes.le :=
  List.pairwise_insertionSort _ _

/-- The ranking is that of all third parties. -/
theorem ranks_thirdPartyByHost (lower : String → String) {targetHost : String}
    (order : HashMap.Order String (Nat × Nat)) (htarget : targetHost ≠ "")
    (hn : resources.length < 2 ^ 32) (hb : (resources.map (·.contentSize)).sum < 2 ^ 64) :
    RanksThirdParties targetHost resources
      (rankedDomains order (Totals.ofResources lower targetHost resources).thirdPartyByHost) where
  sorted := by
    refine ((rankedDomains_sorted order _).and (rankedDomains_hosts order _)).imp ?_
    rintro a b ⟨hle | ⟨hbytes, hhost⟩, hne⟩
    · exact .inl hle
    · exact .inr ⟨hbytes, lt_of_le_of_ne hhost hne⟩
  mem_iff d := by
    rw [mem_rankedDomains, lookup_thirdPartyByHost lower targetHost hn hb, Prod.mk.injEq]
    exact and_congr_right fun _ => and_iff_right htarget

/-- Without a target host there are no third parties. -/
theorem rankedDomains_noTarget (resources : List WebPageResource) (lower : String → String)
    (order : HashMap.Order String (Nat × Nat)) (hn : resources.length < 2 ^ 32)
    (hb : (resources.map (·.contentSize)).sum < 2 ^ 64) :
    rankedDomains order (Totals.ofResources lower "" resources).thirdPartyByHost = [] := by
  refine List.eq_nil_iff_forall_not_mem.mpr fun d hd => ?_
  rw [mem_rankedDomains, lookup_thirdPartyByHost lower "" hn hb] at hd
  exact hd.2.1 rfl

/-! ## The summary -/

/-- The resource summary is conserved. -/
theorem buildResourceSummary_conserved (lower : String → String)
    (parseUrl : String → Option ParsedUrl) (orders : Orders) {resources : List WebPageResource}
    (targetUrl : String) (hn : resources.length < 2 ^ 32)
    (hb : (resources.map (·.contentSize)).sum < 2 ^ 64) :
    Conserved (targetHostOf parseUrl targetUrl) resources
      (buildResourceSummary lower parseUrl orders resources targetUrl) where
  countByType := Totals.total_countByType lower _ hn
  statusDistribution := Totals.total_statusDistribution lower _ hn
  bytesByType := Totals.total_bytesByType lower _ hb
  connections := (Totals.connections_add lower _ hn).trans
    (Totals.total_protocolDistribution lower _ hn).symm
  protocols := Totals.total_protocolDistribution lower _ hn
  compression := Totals.total_compressionBreakdown lower _ hn
  sourceMaps := Totals.sourceMaps_add lower _ hn
  images := Totals.images_le lower _ hb
  thirdParty := Totals.thirdParty_le lower _ hb
  topDomains := by
    split_ifs with htarget
    · rw [buildResourceSummary, htarget]
      exact congrArg (List.take 10) (rankedDomains_noTarget resources lower _ hn hb)
    · exact ⟨_, ranks_thirdPartyByHost lower orders.thirdParty htarget hn hb, rfl⟩

/-- A page and a script of another host. -/
def pageAndScript : List WebPageResource :=
  [ { requestId := "1", url := "https://a/", contentSize := 5000, status := 200,
      mimeType := "text/html", protocol := "h2", parsedUrl := some ⟨some "a", "/"⟩ },
    { requestId := "2", url := "https://b/x.js", contentSize := 700, status := 200,
      mimeType := "text/javascript", protocol := "h2",
      parsedUrl := some ⟨some "b", "/x.js"⟩ } ]

/-- Both have a host. -/
theorem buildResourceSummary_conserved_script :
    pageAndScript.length < 2 ^ 32 ∧ (pageAndScript.map (·.contentSize)).sum < 2 ^ 64 ∧
      Conserved "a" pageAndScript
        (buildResourceSummary asciiLower (fun _ => some ⟨some "a", "/"⟩) Orders.arbitrary
          pageAndScript "https://a/") :=
  ⟨by decide, by decide, buildResourceSummary_conserved asciiLower (fun _ => some ⟨some "a", "/"⟩)
    Orders.arbitrary "https://a/" (by decide) (by decide)⟩

/-- The target of a capture need not have a host; then the ranking is empty. -/
theorem buildResourceSummary_noTarget :
    ¬ ∀ (lower : String → String) (parseUrl : String → Option ParsedUrl) (orders : Orders)
        (resources : List WebPageResource) (targetUrl : String),
      resources.length < 2 ^ 32 → (resources.map (·.contentSize)).sum < 2 ^ 64 →
      ∃ ranked, RanksThirdParties (targetHostOf parseUrl targetUrl) resources ranked ∧
        (buildResourceSummary lower parseUrl orders resources targetUrl).topThirdPartyDomains =
          ranked.take 10 := by
  intro h
  obtain ⟨ranked, hranked, htop⟩ := h asciiLower (fun _ => some ⟨none, "blank"⟩) Orders.arbitrary
    pageAndScript "about:blank" (by decide) (by decide)
  have hempty : ranked.take 10 = [] :=
    htop.symm.trans (congrArg (List.take 10) (rankedDomains_noTarget pageAndScript asciiLower
      Orders.arbitrary.thirdParty (by decide) (by decide)))
  -- but the script's host differs from that of the target
  have hmem : ⟨"b", 700, 1⟩ ∈ ranked := by
    rw [hranked.mem_iff]
    decide
  rw [List.take_eq_nil_iff] at hempty
  obtain hten | hnil := hempty
  · exact absurd hten (by decide)
  · exact List.ne_nil_of_mem hmem hnil

end Summary
end BrowserHeadless
