/-
  BrowserHeadless.Summary.Compression

  The two counters of uncompressed text in the resource summary: the row `none` of
  `compression_breakdown`, which takes the first coding of the `Content-Encoding` header,
  and `uncompressed_text_count`, which asks whether there is a header.

  They part at headers whose first coding is blank, or is the word `none`.
-/

import BrowserHeadless.Summary.Conservation

namespace BrowserHeadless
namespace Summary

open Lib (HashMap tally sumIf topBy)
open Collect (WebPageResource ParsedUrl)

/-- A text response that `uncompressed_text_count` counts. -/
def isCounted (r : WebPageResource) : Bool :=
  fromNetwork r && (r.contentEncoding.isNone && isTextCompressible r.mimeType)

/-- A text response with a header that names no coding: its first coding is blank, or the
    word `none`. -/
def namesNoCoding (r : WebPageResource) : Bool :=
  fromNetwork r && isTextCompressible r.mimeType &&
    r.contentEncoding.any fun header => firstCoding header == "" || firstCoding header == "none"

/-- The header is counted under `none`. -/
theorem codingOf_eq_none {contentEncoding : Option String} :
    codingOf contentEncoding = "none" ↔ contentEncoding = none ∨
      contentEncoding.any fun header =>
        firstCoding header == "" || firstCoding header == "none" := by
  unfold codingOf
  cases contentEncoding with
  | none => simp
  | some header =>
      have hempty : (firstCoding header).isEmpty = true ↔ firstCoding header = "" :=
        String.isEmpty_iff
      by_cases hblank : firstCoding header = ""
      · simp [hblank, Option.filter]
      · simp [hblank, Option.filter]

/-- The two counters, and the list of the largest of the counted resources. -/
structure CountersAgree (resources : List WebPageResource) (s : ResourceSummary) : Prop where
  count : (s.compressionBreakdown.lookup "none").getD 0 = s.uncompressedTextCount
  list : ∃ all : List UncompressedResource,
    all.Perm ((resources.filter fun r => isCounted r && 1024 ≤ r.contentSize).map fun r =>
      ⟨r.url, r.mimeType, r.contentSize⟩) ∧
    all.Pairwise (fun a b => b.bytes ≤ a.bytes) ∧ s.uncompressedTextResources = all.take 20

namespace Totals

variable (lower : String → String) (targetHost : String) (resources : List WebPageResource)

theorem uncompressedTextCount_eq :
    (ofResources lower targetHost resources).uncompressedTextCount =
      (resources.filter isCounted).length % 2 ^ 32 := by
  rw [ofResources_counter (Nat.two_pow_pos 32) (·.uncompressedTextCount) isCounted (fun _ => 1) rfl
    fun _ _ => rfl, Lib.sumIf_one]

/-- The row `none` also counts headers that name no coding. -/
theorem lookup_none_compressionBreakdown :
    ((ofResources lower targetHost resources).compressionBreakdown.lookup "none").getD 0 =
      ((resources.filter isCounted).length + (resources.filter namesNoCoding).length) % 2 ^ 32 := by
  rw [ofResources_map (·.compressionBreakdown)
    (fun r => if fromNetwork r && isTextCompressible r.mimeType then
      some (codingOf r.contentEncoding) else none) 0 (fun v _ => (v + 1) % 2 ^ 32) rfl fun _ _ => rfl,
    Lib.lookup_tally_mod (Nat.two_pow_pos 32) _ (fun _ => 1), ← Lib.sumIf_one, ← Lib.sumIf_one]
  refine congrArg (· % 2 ^ 32) (Lib.sumIf_add fun r _ => ?_).symm
  rw [isCounted, namesNoCoding]
  by_cases htext : (fromNetwork r && isTextCompressible r.mimeType) = true
  · rw [if_pos htext, decide_eq_true_eq, Option.some.injEq, codingOf_eq_none]
    rw [Bool.and_eq_true] at htext
    rw [htext.1, htext.2]
    cases r.contentEncoding with
    | none => simp
    | some header => simp
  · rw [if_neg htext]
    cases hnet : fromNetwork r <;> cases hmime : isTextCompressible r.mimeType <;>
      simp_all

end Totals

theorem isUncompressed_eq (r : WebPageResource) :
    isUncompressed r = (isCounted r && 1024 ≤ r.contentSize) := by
  rw [isUncompressed, isCounted, Bool.and_assoc (fromNetwork r)]

/-- The counters agree exactly if the number of headers that name no coding is a multiple
    of `2 ^ 32`; for lists below that length, exactly if there are none. -/
theorem buildResourceSummary_countersAgree_iff (lower : String → String)
    (parseUrl : String → Option ParsedUrl) (orders : Orders) (resources : List WebPageResource)
    (targetUrl : String) :
    CountersAgree resources (buildResourceSummary lower parseUrl orders resources targetUrl) ↔
      2 ^ 32 ∣ (resources.filter namesNoCoding).length := by
  have hcount := Totals.uncompressedTextCount_eq lower (targetHostOf parseUrl targetUrl) resources
  have hnone :=
    Totals.lookup_none_compressionBreakdown lower (targetHostOf parseUrl targetUrl) resources
  constructor
  · intro h
    have hagree := h.count
    simp only [buildResourceSummary, hcount, hnone] at hagree
    omega
  · intro hdvd
    refine ⟨?_, ?_⟩
    · simp only [buildResourceSummary, hcount, hnone]
      omega
    · have hfilter : resources.filter isUncompressed =
          resources.filter fun r => isCounted r && 1024 ≤ r.contentSize :=
        List.filter_congr fun r _ => isUncompressed_eq r
      obtain ⟨all, hperm, hsorted, htop⟩ := Lib.exists_perm_topBy UncompressedResource.bytes 20
        ((resources.filter isUncompressed).map fun r => ⟨r.url, r.mimeType, r.contentSize⟩)
      rw [hfilter] at hperm
      exact ⟨all, hperm, hsorted, htop⟩

/-- The header `Content-Encoding: none`, as the collect loop records it. -/
def noneHeader : Option String :=
  (Collect.extractResourceHeaders (some [("content-encoding", some "none")]) true false).contentEncoding

/-- A script that is sent with this header. -/
def noneScript : WebPageResource :=
  { requestId := "1", url := "https://a/x.js", contentSize := 2048, status := 200,
    mimeType := "text/javascript", contentEncoding := noneHeader }

theorem namesNoCoding_noneScript : [noneScript].filter namesNoCoding = [noneScript] := by decide

/-- It is counted under `none` and nowhere else. -/
theorem buildResourceSummary_noneHeader :
    ¬ ∀ (lower : String → String) (parseUrl : String → Option ParsedUrl) (orders : Orders)
        (resources : List WebPageResource) (targetUrl : String),
      CountersAgree resources (buildResourceSummary lower parseUrl orders resources targetUrl) := by
  intro h
  have hagree := (h asciiLower (fun _ => none) Orders.arbitrary [noneScript] "https://a/").count
  simp only [buildResourceSummary, Totals.uncompressedTextCount_eq,
    Totals.lookup_none_compressionBreakdown, namesNoCoding_noneScript] at hagree
  exact absurd hagree (by decide)

end Summary
end BrowserHeadless
