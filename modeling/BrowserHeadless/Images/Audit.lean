/-
  BrowserHeadless.Images.Audit

  `enrich_image_sizing` and `build_image_audit` (src/browser/mod.rs): the sizes of the images
  of a page, joined with its resources, and the four lists of findings made from them.

  Both functions compare natural with displayed pixels, as a waste and as a ratio.  The
  ratio grows with the waste (`ratio_le_of_waste_le`), so the list of oversized images is
  pushed in its final order and its sort changes nothing.
-/

import BrowserHeadless.Collect.FullLoop
import BrowserHeadless.Lib.Sort
import Mathlib.Algebra.Order.Field.Rat
import Mathlib.Tactic.FieldSimp

namespace BrowserHeadless
namespace Images

open Collect (WebPageResource startsWith)
open Lib (HashMap rankBy topBy)

/-! ## Data -/

/-- `ImageSizing`, less `decoding` and `alt_missing`. -/
structure ImageSizing where
  url : String
  naturalWidth : Nat
  naturalHeight : Nat
  displayWidth : Nat
  displayHeight : Nat
  devicePixelRatio : ℚ
  loaded : Bool
  loading : String
  inViewport : Bool
  hasWidthAttr : Bool
  hasHeightAttr : Bool
  hasSrcset : Bool
  transferredBytes : Option Nat
  wasteRatio : Option ℚ

/-- `ImageIssue`. -/
structure ImageIssue where
  url : String
  displayWidth : Nat
  displayHeight : Nat
  inViewport : Bool
  ratio : ℚ

/-- `ImageAudit`. -/
structure ImageAudit where
  oversized : List ImageIssue
  missingDimensions : List ImageIssue
  missingLazy : List ImageIssue
  missingSrcset : List ImageIssue

/-! ## Pixels -/

/-- `dpr`. -/
def dpr (img : ImageSizing) : ℚ := if 0 < img.devicePixelRatio then img.devicePixelRatio else 1

/-- `np`. -/
def naturalPixels (img : ImageSizing) : ℚ := (img.naturalWidth : ℚ) * img.naturalHeight

/-- `dp`. -/
def displayPixels (img : ImageSizing) : ℚ :=
  (img.displayWidth * dpr img) * (img.displayHeight * dpr img)

/-- `f64::clamp`. -/
def clamp (w lo hi : ℚ) : ℚ := if w < lo then lo else if hi < w then hi else w

/-- The value of `waste_ratio`. -/
def waste (img : ImageSizing) : Option ℚ :=
  if naturalPixels img = 0 ∨ displayPixels img = 0 then none
  else if naturalPixels img ≤ displayPixels img then some 0
  else some (clamp (1 - displayPixels img / naturalPixels img) 0 1)

/-- `oversize_ratio`. -/
def oversizeRatio (img : ImageSizing) : ℚ :=
  if 0 < displayPixels img ∧ 0 < naturalPixels img then naturalPixels img / displayPixels img
  else 0

/-! ## `enrich_image_sizing` -/

/-- `bytes_by_url`; the last resource of a URL wins. -/
def bytesByUrl (resources : List WebPageResource) : HashMap String Nat :=
  resources.foldl (fun m r => if 0 < r.contentSize then m.insert r.url r.contentSize else m) ∅

/-- The body of the loop over the images. -/
def enrich (bytes : HashMap String Nat) (img : ImageSizing) : ImageSizing :=
  { img with
    transferredBytes :=
      if img.url ≠ "" then (bytes.lookup img.url).or img.transferredBytes
      else img.transferredBytes
    wasteRatio := waste img }

/-- The images, enriched and sorted. -/
def sizingTable (images : List ImageSizing) (resources : List WebPageResource) :
    List ImageSizing :=
  rankBy (fun img => img.wasteRatio.getD (-1)) (images.map (enrich (bytesByUrl resources)))

/-! ## `build_image_audit` -/

/-- The issue of an image. -/
def issue (img : ImageSizing) (ratio : ℚ) : ImageIssue where
  url := img.url
  displayWidth := img.displayWidth
  displayHeight := img.displayHeight
  inViewport := img.inViewport
  ratio := ratio

/-- The images that are not skipped. -/
def auditable (img : ImageSizing) : Bool := !(img.url == "" || startsWith img.url "data:")

/-- `display_area`: `u32::saturating_mul`. -/
def displayArea (img : ImageSizing) : Nat :=
  min (img.displayWidth * img.displayHeight) (2 ^ 32 - 1)

/-- `SRCSET_AREA_FLOOR`. -/
def srcsetAreaFloor : Nat := 32 * 32

/-- The conditions of the four lists. -/
def isOversized (img : ImageSizing) : Bool := 2 < oversizeRatio img

def lacksDimensions (img : ImageSizing) : Bool :=
  img.loaded && !(img.hasWidthAttr && img.hasHeightAttr) && decide (0 < displayArea img)

def lacksLazy (img : ImageSizing) : Bool := !img.inViewport && img.loading != "lazy"

def lacksSrcset (img : ImageSizing) : Bool :=
  !img.hasSrcset && decide (srcsetAreaFloor ≤ displayArea img)

/-- `if c { list.push(issue) }`. -/
def pushIf (c : Bool) (list : List ImageIssue) (issue : ImageIssue) : List ImageIssue :=
  if c then list ++ [issue] else list

/-- The body of the loop of `build_image_audit`. -/
def noteImage (audit : ImageAudit) (img : ImageSizing) : ImageAudit :=
  if auditable img then
    { oversized := pushIf (isOversized img) audit.oversized (issue img (oversizeRatio img))
      missingDimensions := pushIf (lacksDimensions img) audit.missingDimensions (issue img 0)
      missingLazy :=
        pushIf (lacksLazy img) audit.missingLazy { issue img 0 with inViewport := false }
      missingSrcset := pushIf (lacksSrcset img) audit.missingSrcset (issue img 0) }
  else audit

/-- The key of `area_desc`: `u64::saturating_mul`. -/
def issueArea (i : ImageIssue) : Nat := min (i.displayWidth * i.displayHeight) (2 ^ 64 - 1)

/-- `build_image_audit`. -/
def buildImageAudit (images : List ImageSizing) : ImageAudit :=
  let audit := images.foldl noteImage ⟨[], [], [], []⟩
  { oversized := (rankBy ImageIssue.ratio audit.oversized).take 20
    missingDimensions := topBy issueArea 20 audit.missingDimensions
    missingLazy := topBy issueArea 20 audit.missingLazy
    missingSrcset := topBy issueArea 20 audit.missingSrcset }

/-- `enrich_image_sizing`: the images in their new order, and the audit. -/
def enrichImageSizing (images : List ImageSizing) (resources : List WebPageResource) :
    List ImageSizing × ImageAudit :=
  (sizingTable images resources, buildImageAudit (sizingTable images resources))

/-! ## The loop as four filters -/

/-- The issues of the images that are not skipped and meet a condition. -/
def issuesOf (c : ImageSizing → Bool) (f : ImageSizing → ImageIssue) (images : List ImageSizing) :
    List ImageIssue :=
  (images.filter fun img => auditable img && c img).map f

theorem issuesOf_concat (c : ImageSizing → Bool) (f : ImageSizing → ImageIssue)
    (images : List ImageSizing) (img : ImageSizing) :
    issuesOf c f (images ++ [img]) =
      if auditable img then pushIf (c img) (issuesOf c f images) (f img)
      else issuesOf c f images := by
  rw [issuesOf, List.filter_append, List.map_append, ← issuesOf, pushIf, List.filter_cons,
    List.filter_nil]
  cases auditable img with
  | false => exact List.append_nil _
  | true =>
      cases c img with
      | false => exact List.append_nil _
      | true => rfl

theorem foldl_noteImage (images : List ImageSizing) :
    images.foldl noteImage ⟨[], [], [], []⟩ =
      { oversized := issuesOf isOversized (fun img => issue img (oversizeRatio img)) images
        missingDimensions := issuesOf lacksDimensions (fun img => issue img 0) images
        missingLazy :=
          issuesOf lacksLazy (fun img => { issue img 0 with inViewport := false }) images
        missingSrcset := issuesOf lacksSrcset (fun img => issue img 0) images } := by
  induction images using List.reverseRecOn with
  | nil => rfl
  | append_singleton images img ih =>
      rw [List.foldl_concat, ih, noteImage]
      simp only [issuesOf_concat]
      split
      next => rfl
      next => rfl

/-- The four lists of an audit. -/
theorem buildImageAudit_eq (images : List ImageSizing) :
    buildImageAudit images =
      { oversized := (rankBy ImageIssue.ratio
          (issuesOf isOversized (fun img => issue img (oversizeRatio img)) images)).take 20
        missingDimensions :=
          topBy issueArea 20 (issuesOf lacksDimensions (fun img => issue img 0) images)
        missingLazy := topBy issueArea 20
          (issuesOf lacksLazy (fun img => { issue img 0 with inViewport := false }) images)
        missingSrcset :=
          topBy issueArea 20 (issuesOf lacksSrcset (fun img => issue img 0) images) } := by
  rw [buildImageAudit, foldl_noteImage]

/-! ## Bytes -/

/-- The bytes of a URL are those of its last resource that has any. -/
theorem lookup_bytesByUrl (resources : List WebPageResource) (url : String) :
    (bytesByUrl resources).lookup url =
      ((resources.filter fun r => r.url = url ∧ 0 < r.contentSize).getLast?).map
        WebPageResource.contentSize := by
  induction resources using List.reverseRecOn with
  | nil => rfl
  | append_singleton resources r ih =>
      rw [bytesByUrl, List.foldl_concat, ← bytesByUrl, List.filter_append]
      by_cases hsize : 0 < r.contentSize
      · rw [if_pos hsize]
        by_cases hurl : r.url = url
        · subst hurl
          rw [Finmap.lookup_insert, List.filter_cons_of_pos (by simpa using hsize), List.filter_nil,
            List.getLast?_concat]
          rfl
        · rw [Finmap.lookup_insert_of_ne _ (Ne.symm hurl), ih,
            List.filter_cons_of_neg (by simp [hurl]), List.filter_nil, List.append_nil]
      · rw [if_neg hsize, ih, List.filter_cons_of_neg (by simp [hsize]), List.filter_nil,
          List.append_nil]

/-! ## Waste and ratio -/

theorem dpr_pos (img : ImageSizing) : 0 < dpr img := by
  rw [dpr]
  split
  next h => exact h
  next => exact one_pos

theorem displayPixels_nonneg (img : ImageSizing) : 0 ≤ displayPixels img :=
  mul_nonneg (mul_nonneg (Nat.cast_nonneg _) (dpr_pos img).le)
    (mul_nonneg (Nat.cast_nonneg _) (dpr_pos img).le)

/-- What is displayed smaller than it is has a waste strictly between 0 and 1. -/
theorem waste_of_lt {img : ImageSizing} (hdp : 0 < displayPixels img)
    (hlt : displayPixels img < naturalPixels img) :
    waste img = some (1 - displayPixels img / naturalPixels img) := by
  have hnp := hdp.trans hlt
  have hpos : 0 < displayPixels img / naturalPixels img := div_pos hdp hnp
  have hone : displayPixels img / naturalPixels img < 1 := (div_lt_one hnp).mpr hlt
  rw [waste, if_neg (not_or.mpr ⟨hnp.ne', hdp.ne'⟩), if_neg (not_le.mpr hlt), clamp,
    if_neg (by linarith), if_neg (by linarith)]

/-- A positive waste comes from an image that is displayed smaller than it is. -/
theorem lt_of_waste_pos {img : ImageSizing} {w : ℚ} (h : waste img = some w) (hw : 0 < w) :
    0 < displayPixels img ∧ displayPixels img < naturalPixels img := by
  rw [waste] at h
  split at h
  next => exact absurd h (by simp)
  next hne =>
    rw [not_or] at hne
    split at h
    next => exact absurd (Option.some.inj h) hw.ne
    next hlt => exact ⟨lt_of_le_of_ne (displayPixels_nonneg img) (Ne.symm hne.2), not_le.mp hlt⟩

/-- The ratio, from a waste above one half. -/
theorem oversizeRatio_of_waste {img : ImageSizing} {w : ℚ} (h : waste img = some w)
    (hw : 1 / 2 < w) : oversizeRatio img = 1 / (1 - w) ∧ w < 1 := by
  obtain ⟨hdp, hlt⟩ := lt_of_waste_pos h (by linarith)
  have hnp := hdp.trans hlt
  rw [waste_of_lt hdp hlt, Option.some.injEq] at h
  subst h
  refine ⟨?_, sub_lt_self 1 (div_pos hdp hnp)⟩
  rw [oversizeRatio, if_pos ⟨hdp, hnp⟩, sub_sub_cancel, one_div_div]

/-- An image is oversized exactly if more than half of its pixels are wasted. -/
theorem isOversized_eq (img : ImageSizing) :
    isOversized img = (waste img).any fun w => 1 / 2 < w := by
  rw [Bool.eq_iff_iff, isOversized, decide_eq_true_eq, Option.any_eq_true]
  constructor
  · intro hratio
    rw [oversizeRatio] at hratio
    split at hratio
    next hpos =>
      rw [lt_div_iff₀ hpos.1] at hratio
      have hlt : displayPixels img < naturalPixels img := by linarith
      refine ⟨_, waste_of_lt hpos.1 hlt, decide_eq_true ?_⟩
      have hhalf : displayPixels img / naturalPixels img < 1 / 2 := by
        rw [div_lt_iff₀ hpos.2]
        linarith
      linarith
    next => exact absurd hratio (by norm_num)
  · rintro ⟨w, hwaste, hw⟩
    have hhalf := of_decide_eq_true hw
    obtain ⟨hratio, hone⟩ := oversizeRatio_of_waste hwaste hhalf
    rw [hratio, lt_div_iff₀ (by linarith)]
    linarith

/-- The more waste, the larger the ratio. -/
theorem ratio_le_of_waste_le {w v : ℚ} (h : v ≤ w) (hw : w < 1) : 1 / (1 - v) ≤ 1 / (1 - w) :=
  one_div_le_one_div_of_le (by linarith) (by linarith)

/-! ## The list of oversized images -/

/-- More than half of the pixels are wasted. -/
def wastesHalf (img : ImageSizing) : Bool := img.wasteRatio.any fun w => 1 / 2 < w

section Table

variable {images : List ImageSizing} {resources : List WebPageResource} {img : ImageSizing}

theorem wasteRatio_of_mem (h : img ∈ sizingTable images resources) :
    img.wasteRatio = waste img := by
  obtain ⟨raw, -, rfl⟩ := List.mem_map.mp ((Lib.perm_rankBy _ _).mem_iff.mp h)
  rfl

theorem isOversized_of_mem (h : img ∈ sizingTable images resources) :
    isOversized img = wastesHalf img := by
  rw [isOversized_eq, wastesHalf, wasteRatio_of_mem h]

/-- The ratio of an oversized image, from its row. -/
theorem ratio_of_mem (h : img ∈ sizingTable images resources) (hwaste : wastesHalf img = true) :
    oversizeRatio img = 1 / (1 - img.wasteRatio.getD 0) ∧ img.wasteRatio.getD 0 < 1 := by
  obtain ⟨w, hw, hhalf⟩ := (Option.any_eq_true _ _).mp hwaste
  rw [hw, Option.getD_some]
  rw [wasteRatio_of_mem h] at hw
  exact oversizeRatio_of_waste hw (of_decide_eq_true hhalf)

/-- The list as it is pushed. -/
theorem issuesOf_isOversized (images : List ImageSizing) (resources : List WebPageResource) :
    issuesOf isOversized (fun img => issue img (oversizeRatio img)) (sizingTable images resources) =
      issuesOf wastesHalf (fun img => issue img (1 / (1 - img.wasteRatio.getD 0)))
        (sizingTable images resources) := by
  rw [issuesOf, issuesOf]
  rw [List.filter_congr fun img himg => by rw [isOversized_of_mem himg]]
  refine List.map_congr_left fun img himg => ?_
  obtain ⟨htable, hcond⟩ := List.mem_filter.mp himg
  rw [(ratio_of_mem htable ((Bool.and_eq_true _ _).mp hcond).2).1]

/-- It is pushed in its final order. -/
theorem pairwise_ratio (images : List ImageSizing) (resources : List WebPageResource) :
    (issuesOf wastesHalf (fun img => issue img (1 / (1 - img.wasteRatio.getD 0)))
      (sizingTable images resources)).Pairwise fun a b => b.ratio ≤ a.ratio := by
  rw [issuesOf, List.pairwise_map]
  have hsorted := (Lib.pairwise_rankBy (fun img : ImageSizing => img.wasteRatio.getD (-1))
    (images.map (enrich (bytesByUrl resources)))).filter fun img => auditable img && wastesHalf img
  refine List.Pairwise.imp_of_mem (fun {a b} ha hb hab => ?_) hsorted
  obtain ⟨htable, hcond⟩ := List.mem_filter.mp ha
  have hwaste := ((Bool.and_eq_true _ _).mp hcond).2
  have hwaste' := ((Bool.and_eq_true _ _).mp (List.mem_filter.mp hb).2).2
  obtain ⟨w, hw, -⟩ := (Option.any_eq_true _ _).mp hwaste
  obtain ⟨v, hv, -⟩ := (Option.any_eq_true _ _).mp hwaste'
  have hone := (ratio_of_mem htable hwaste).2
  rw [hw, hv] at hab
  rw [hw] at hone
  show 1 / (1 - b.wasteRatio.getD 0) ≤ 1 / (1 - a.wasteRatio.getD 0)
  rw [hw, hv]
  exact ratio_le_of_waste_le hab hone

end Table

/-! ## The table -/

/-- The row of an image: its waste, and the bytes of the last resource with its URL that has
    any. -/
def row (resources : List WebPageResource) (img : ImageSizing) : ImageSizing :=
  { img with
    transferredBytes :=
      if img.url ≠ "" then
        (((resources.filter fun r => r.url = img.url ∧ 0 < r.contentSize).getLast?).map
          WebPageResource.contentSize).or img.transferredBytes
      else img.transferredBytes
    wasteRatio := waste img }

theorem enrich_bytesByUrl (resources : List WebPageResource) (img : ImageSizing) :
    enrich (bytesByUrl resources) img = row resources img := by
  rw [enrich, row, lookup_bytesByUrl]

/-- The rows of the images, the worst first and those without a waste last; rows of one waste
    stay in the order of the images. -/
structure IsSizingTable (images : List ImageSizing) (resources : List WebPageResource)
    (table : List ImageSizing) : Prop where
  perm : table.Perm (images.map (row resources))
  worstFirst : table.Pairwise fun a b => b.wasteRatio.getD (-1) ≤ a.wasteRatio.getD (-1)
  stable : ∀ w, (table.filter fun img => img.wasteRatio = w) =
    (images.map (row resources)).filter fun img => img.wasteRatio = w

theorem isSizingTable (images : List ImageSizing) (resources : List WebPageResource) :
    IsSizingTable images resources (sizingTable images resources) := by
  have hrows : images.map (enrich (bytesByUrl resources)) = images.map (row resources) :=
    List.map_congr_left fun img _ => enrich_bytesByUrl resources img
  rw [sizingTable, hrows]
  -- the sort moves no two rows of one waste past each other
  refine ⟨Lib.perm_rankBy _ _, Lib.pairwise_rankBy _ _, fun w => Lib.filter_insertionSort ?_⟩
  refine List.pairwise_of_forall_mem_list fun a ha b hb => ?_
  have hwaste := of_decide_eq_true (List.mem_filter.mp ha).2
  have hwaste' := of_decide_eq_true (List.mem_filter.mp hb).2
  show b.wasteRatio.getD (-1) ≤ a.wasteRatio.getD (-1)
  rw [hwaste, hwaste']

/-- What is left in the place of the images is their table, and the oversized images are its
    first 20 rows that have a usable URL and waste more than half of their pixels, in the order
    of the table. -/
theorem oversized_eq (images : List ImageSizing) (resources : List WebPageResource) :
    IsSizingTable images resources (enrichImageSizing images resources).1 ∧
      (enrichImageSizing images resources).2.oversized =
        (((enrichImageSizing images resources).1.filter fun img =>
          img.url ≠ "" ∧ startsWith img.url "data:" = false ∧
            ∃ w, img.wasteRatio = some w ∧ 1 / 2 < w).take 20).map fun img =>
          { url := img.url
            displayWidth := img.displayWidth
            displayHeight := img.displayHeight
            inViewport := img.inViewport
            ratio := 1 / (1 - img.wasteRatio.getD 0) } := by
  refine ⟨isSizingTable images resources, ?_⟩
  have hfilter : ∀ img : ImageSizing, (auditable img && wastesHalf img) =
      decide (img.url ≠ "" ∧ startsWith img.url "data:" = false ∧
        ∃ w, img.wasteRatio = some w ∧ 1 / 2 < w) := by
    intro img
    rw [Bool.eq_iff_iff, decide_eq_true_eq, Bool.and_eq_true, auditable, wastesHalf,
      Option.any_eq_true]
    simp [and_assoc]
  rw [enrichImageSizing, buildImageAudit_eq, issuesOf_isOversized,
    Lib.rankBy_of_pairwise _ (pairwise_ratio images resources), issuesOf, ← List.map_take]
  simp only [hfilter]
  rfl

end Images
end BrowserHeadless
