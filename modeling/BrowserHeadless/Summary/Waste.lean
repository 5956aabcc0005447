/-
  BrowserHeadless.Summary.Waste

  The total of wasted bytes (src/browser/mod.rs, `build_duplicate_resources`) against the
  bytes that were transferred.

  The first pass wastes, of each URL, all copies but the largest: together what was
  transferred less one copy of each URL (`exactWaste_add_kept`).  The second pass wastes,
  of each name and size, one copy for each URL but one (`likelyWaste_eq`), and does so
  whether or not the first pass has counted these copies.  So the total is within what was
  transferred exactly when the second pass wastes no more than the copies the first pass
  keeps.
-/

import BrowserHeadless.Summary.Invariance
import Mathlib.Data.List.Destutter
import Mathlib.Order.Lattice.Nat

namespace BrowserHeadless
namespace Summary

open Lib (HashMap)
open Collect (WebPageResource)

variable {resources : List WebPageResource}

/-! ## What is transferred, kept and spared -/

/-- All bytes of a capture. -/
def transferred (resources : List WebPageResource) : Nat :=
  (resources.map (·.contentSize)).sum

/-- The largest copy of a URL. -/
def largestCopy (resources : List WebPageResource) (url : String) : Nat :=
  ((resources.filter fun r => r.url = url).map (·.contentSize)).toFinset.sup id

/-- The bytes of the largest copies, one for each URL. -/
def keptBytes (resources : List WebPageResource) : Nat :=
  ∑ url ∈ (resources.map (·.url)).toFinset, largestCopy resources url

/-- The number of URLs with a name and size. -/
def urlCount (resources : List WebPageResource) (key : String × Nat) : Nat :=
  ((resources.filter fun r => nameAndSize r = some key).map (·.url)).toFinset.card

/-- The number of copies that could be spared of `n`: `count as u64 - 1` where the `u32`
    count has not wrapped around. -/
def spareCopies (n : Nat) : Nat := if n < 2 then 0 else (n % 2 ^ 32 + 2 ^ 64 - 1) % 2 ^ 64

/-- The bytes of the copies that could be spared, one name and size at a time. -/
def spareBytes (resources : List WebPageResource) : Nat :=
  ∑ key ∈ (resources.filterMap nameAndSize).toFinset,
    spareCopies (urlCount resources key) * key.2

/-! ## Groups -/

section Groups

variable {κ : Type} [DecidableEq κ]

/-- What is said of each group, added up over the keys. -/
theorem sum_groupsOf (key : WebPageResource → Option κ)
    (f : (Σ _ : κ, List WebPageResource) → Nat) :
    ((groupsOf key resources).map f).sum =
      ∑ k ∈ (resources.filterMap key).toFinset,
        f ⟨k, resources.filter fun r => key r = some k⟩ := by
  have hkeys : (resources.filterMap key).dedup.toFinset = (resources.filterMap key).toFinset :=
    Finset.ext fun k => by rw [List.mem_toFinset, List.mem_toFinset, List.mem_dedup]
  rw [groupsOf, List.map_map, ← List.sum_toFinset _ (List.nodup_dedup _), hkeys]
  rfl

/-- The reports on some groups, added up. -/
theorem sum_filterMap {α β : Type} (f : α → Option β) (w : β → Nat) (l : List α) :
    ((l.filterMap f).map w).sum = (l.map fun a => ((f a).map w).getD 0).sum := by
  induction l with
  | nil => rfl
  | cons a l ih =>
      rw [List.map_cons, List.sum_cons, ← ih]
      cases h : f a with
      | none =>
          rw [List.filterMap_cons_none h]
          exact (Nat.zero_add _).symm
      | some b =>
          rw [List.filterMap_cons_some h]
          rfl

end Groups

/-! ## The first pass -/

/-- A sorted list is its largest element and the rest. -/
theorem sum_drop_one_add_sup (sizes : List Nat) :
    ((sizes.insertionSort (· ≥ ·)).drop 1).sum + sizes.toFinset.sup id = sizes.sum := by
  have hperm := List.perm_insertionSort (· ≥ ·) sizes
  have hsorted := List.pairwise_insertionSort (· ≥ ·) sizes
  rw [← List.toFinset_eq_of_perm _ _ hperm, ← hperm.sum_eq]
  cases h : sizes.insertionSort (· ≥ ·) with
  | nil => rfl
  | cons a rest =>
      rw [h] at hsorted
      have hsup : (a :: rest).toFinset.sup id = a := by
        refine le_antisymm (Finset.sup_le fun b hb => ?_) ?_
        · rcases List.mem_cons.mp (List.mem_toFinset.mp hb) with rfl | hb
          · exact le_rfl
          · exact (List.pairwise_cons.mp hsorted).1 b hb
        · exact Finset.le_sup (f := id) (List.mem_toFinset.mpr List.mem_cons_self)
      rw [hsup, List.drop_one, List.tail_cons, List.sum_cons, Nat.add_comm]

/-- What a URL wastes. -/
def exactWaste (e : Σ _ : String, List WebPageResource) : Nat :=
  (((e.2.map (·.contentSize)).insertionSort (· ≥ ·)).drop 1).sum

/-- A URL with one copy has nothing to drop, so no case is special. -/
theorem exactEntry_wastedBytes (e : Σ _ : String, List WebPageResource) :
    ((exactEntry e).map (·.wastedBytes)).getD 0 = exactWaste e % 2 ^ 64 := by
  rw [exactEntry]
  split
  next h =>
      have hlen : ((e.2.map (·.contentSize)).insertionSort (· ≥ ·)).length ≤ 1 := by
        rw [List.length_insertionSort, List.length_map]
        omega
      rw [exactWaste, List.drop_eq_nil_of_le hlen]
      rfl
  next => rfl

/-- The first pass wastes what was transferred, less one copy of each URL. -/
theorem exactWaste_add_kept :
    ((groupsOf (fun r => some r.url) resources).map exactWaste).sum + keptBytes resources =
      transferred resources := by
  have hkeys : resources.filterMap (fun r => some r.url) = resources.map (·.url) :=
    congrFun List.filterMap_eq_map resources
  have hmem : ∀ r ∈ resources, r.url ∈ (resources.map (·.url)).toFinset := fun r hr =>
    List.mem_toFinset.mpr (List.mem_map_of_mem hr)
  rw [sum_groupsOf, hkeys, keptBytes, ← Finset.sum_add_distrib, transferred,
    ← Lib.sum_sumIf_key hmem]
  refine Finset.sum_congr rfl fun url _ => ?_
  rw [exactWaste, largestCopy, Lib.sumIf_eq_sum_filter]
  simp only [Option.some.injEq]
  exact sum_drop_one_add_sup _

/-! ## The second pass -/

/-- `sort` and `dedup` leave each URL once. -/
theorem length_distinctUrls (copies : List WebPageResource) :
    (distinctUrls copies).length = (copies.map (·.url)).toFinset.card := by
  have hsorted := List.pairwise_insertionSort (· ≤ ·) (copies.map (·.url))
  rw [distinctUrls, List.Pairwise.destutter_eq_dedup hsorted, ← List.card_toFinset,
    List.toFinset_eq_of_perm _ _ (List.perm_insertionSort _ _)]

/-- What a name and size wastes. -/
def likelyWaste (e : Σ _ : String × Nat, List WebPageResource) : Nat :=
  spareCopies (e.2.map (·.url)).toFinset.card * e.1.2

theorem likelyEntry_wastedBytes (e : Σ _ : String × Nat, List WebPageResource) :
    ((likelyEntry e).map (·.wastedBytes)).getD 0 = likelyWaste e % 2 ^ 64 := by
  rw [likelyWaste, spareCopies, ← length_distinctUrls]
  by_cases h : (distinctUrls e.2).length < 2
  · have hnone : (likelyEntry e).map (·.wastedBytes) = none := by
      simp only [likelyEntry, if_pos h, Option.map_none]
    rw [hnone, Option.getD_none, if_pos h, Nat.zero_mul, Nat.zero_mod]
  · have hsome : (likelyEntry e).map (·.wastedBytes) =
        some (((distinctUrls e.2).length % 2 ^ 32 + 2 ^ 64 - 1) * e.1.2 % 2 ^ 64) := by
      simp only [likelyEntry, if_neg h, Option.map_some]
    rw [hsome, Option.getD_some, if_neg h, Nat.mod_mul_mod]

/-- The second pass wastes the copies that could be spared. -/
theorem likelyWaste_eq :
    ((groupsOf nameAndSize resources).map likelyWaste).sum = spareBytes resources :=
  sum_groupsOf nameAndSize likelyWaste

/-! ## The total -/

/-- The total is what both passes waste, in `u64` arithmetic. -/
theorem wastedBytes_eq (orders : Orders) (resources : List WebPageResource) :
    (buildDuplicateResources orders resources).wastedBytes =
      (((groupsOf (fun r => some r.url) resources).map exactWaste).sum + spareBytes resources) %
        2 ^ 64 := by
  have hexact : (exactEntries orders resources).Perm (exactOf resources) :=
    (entries_groupBy_perm orders.byUrl resources).filterMap exactEntry
  have hlikely : (likelyEntries orders resources).Perm (likelyOf resources) :=
    (entries_groupBy_perm orders.byNameSize resources).filterMap likelyEntry
  show sumU64 ((exactEntries orders resources ++ likelyEntries orders resources).map _) = _
  rw [sumU64, ((hexact.append hlikely).map _).sum_eq, List.map_append, List.sum_append, exactOf,
    likelyOf, sum_filterMap, sum_filterMap, Nat.add_mod]
  simp only [exactEntry_wastedBytes, likelyEntry_wastedBytes]
  rw [← Function.comp_def (· % 2 ^ 64) exactWaste, ← Function.comp_def (· % 2 ^ 64) likelyWaste,
    ← List.map_map, ← List.map_map, ← List.sum_nat_mod, ← List.sum_nat_mod, ← Nat.add_mod,
    likelyWaste_eq]

/-- The wasted bytes are within what was transferred exactly when the copies that could be
    spared by name and size are no more bytes than the largest copies of the URLs, or the
    sum wraps around to something within. -/
theorem wastedBytes_le_transferred_iff (orders : Orders) (resources : List WebPageResource) :
    (buildDuplicateResources orders resources).wastedBytes ≤ transferred resources ↔
      spareBytes resources ≤ keptBytes resources ∨
        2 ^ 64 ≤ transferred resources - keptBytes resources + spareBytes resources ∧
          (transferred resources - keptBytes resources + spareBytes resources) % 2 ^ 64 ≤
            transferred resources := by
  have hkept := @exactWaste_add_kept resources
  have hwaste : ((groupsOf (fun r => some r.url) resources).map exactWaste).sum =
      transferred resources - keptBytes resources := by omega
  rw [wastedBytes_eq, hwaste]
  constructor
  · intro h
    by_cases hfits : transferred resources - keptBytes resources + spareBytes resources < 2 ^ 64
    · rw [Nat.mod_eq_of_lt hfits] at h
      left
      omega
    · exact Or.inr ⟨Nat.le_of_not_lt hfits, h⟩
  · rintro (h | ⟨-, h⟩)
    · have hle := Nat.mod_le
        (transferred resources - keptBytes resources + spareBytes resources) (2 ^ 64)
      omega
    · exact h

/-- One file under three URLs, each loaded twice. -/
def threeUrls : List WebPageResource :=
  ["https://a/x.js", "https://b/x.js", "https://c/x.js"].flatMap fun url =>
    [{ requestId := "1", url := url, contentSize := 10 },
      { requestId := "2", url := url, contentSize := 9 }]

/-- Of 57 bytes 65 are wasted: both passes count the smaller copies. -/
theorem wastedBytes_threeUrls :
    ¬ ∀ (orders : Orders) (resources : List WebPageResource),
      (buildDuplicateResources orders resources).wastedBytes ≤
        (resources.map (·.contentSize)).sum := by
  intro h
  have hle := h Orders.arbitrary threeUrls
  rw [wastedBytes_eq] at hle
  exact absurd hle (by decide +kernel)

end Summary
end BrowserHeadless
