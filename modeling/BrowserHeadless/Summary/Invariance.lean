/-
  BrowserHeadless.Summary.Invariance

  Which parts of the resource summary depend on the order of the resources, and on the
  iteration orders of the hash maps inside.

  The counters and maps of the loop do not: each step commutes with every other one.  The
  rankings of third parties break ties by host.  The other lists are sorted by size alone
  and cut, so what they show of equally large resources is decided by the order; the same
  holds for the largest resource, the duplicates, whose groups come out of a hash map, and
  the chain of initiators, for which the last resource of a URL counts.
-/

import BrowserHeadless.Lib.Walk
import BrowserHeadless.Summary.Conservation

namespace BrowserHeadless
namespace Summary

open Lib (HashMap addIf upsertIf tally topBy Settled)
open Collect (WebPageResource ParsedUrl startsWith)

/-! ## The counters -/

namespace Totals

/-- The variables without the largest resource. -/
def counters (s : Totals) : Totals := { s with largest := none }

theorem addResource_comm (r r' : WebPageResource) (slot : Nat × Nat) :
    addResource r (addResource r' slot) = addResource r' (addResource r slot) := by
  simp only [addResource, Nat.mod_add_mod]
  rw [Nat.add_right_comm slot.1]

/-- The hosts of two resources, in either order. -/
theorem hosts_comm (a b : Option String) (s : Finset String) :
    (b.elim (a.elim s fun h => insert h s) fun h => insert h (a.elim s fun h => insert h s)) =
      a.elim (b.elim s fun h => insert h s) fun h => insert h (b.elim s fun h => insert h s) := by
  cases a with
  | none => rfl
  | some h =>
      cases b with
      | none => rfl
      | some h' => exact Finset.insert_comm h' h s

/-- Two steps commute. -/
theorem step_comm (lower : String → String) (targetHost : String) (s : Totals)
    (a b : WebPageResource) :
    (step lower targetHost (step lower targetHost s a) b).counters =
      (step lower targetHost (step lower targetHost s b) a).counters := by
  simp only [step, noteLargest, countHost, countCompression, countConnection, countStatus,
    countSourceMap, countImage, countCacheControl, countType, counters, Totals.mk.injEq]
  refine ⟨?_, ?_, ?_, ?_, ?_, ?_, ?_, ?_, ?_, ?_, ?_, ?_, ?_, ?_, ?_, ?_, ?_, ?_, ?_, ?_, ?_, ?_,
    ?_, ?_, ?_, trivial⟩
  -- the hosts and the two maps of third parties
  case refine_21 => exact hosts_comm _ _ _
  case refine_23 => exact Lib.upsertIf_comm (addResource_comm b a) _ _ _
  case refine_25 => exact Lib.upsertIf_comm (addResource_comm b a) _ _ _
  all_goals
    first
    | exact Lib.addIf_comm ..
    | exact Lib.upsertIf_add_comm ..

/-- The largest resource has no part in the counters. -/
theorem counters_step (lower : String → String) (targetHost : String) (s : Totals)
    (r : WebPageResource) :
    (step lower targetHost s r).counters = (step lower targetHost s.counters r).counters := rfl

/-- The counters do not depend on the order of the resources. -/
theorem counters_perm (lower : String → String) (targetHost : String)
    {l l' : List WebPageResource} (h : l.Perm l') :
    (ofResources lower targetHost l).counters = (ofResources lower targetHost l').counters := by
  have hview : ∀ l, (ofResources lower targetHost l).counters =
      l.foldl (fun s r => (step lower targetHost s r).counters) {} := fun l =>
    ofResources_field counters (fun s r => (step lower targetHost s r).counters)
      (counters_step lower targetHost)
  rw [hview, hview]
  refine h.foldl_eq' (fun a _ b _ s => ?_) _
  rw [← counters_step, ← counters_step, step_comm]

end Totals

/-! ## The largest resource -/

/-- `a` is one of the largest resources. -/
def IsLargest (l : List WebPageResource) (a : WebPageResource) : Prop :=
  a ∈ l ∧ ∀ r ∈ l, r.contentSize ≤ a.contentSize

/-- The largest resource after the loop. -/
def largestOf (l : List WebPageResource) : Option (String × Nat) :=
  l.foldl (fun largest r => Totals.larger r largest) none

theorem largest_ofResources (lower : String → String) (targetHost : String)
    (l : List WebPageResource) : (Totals.ofResources lower targetHost l).largest = largestOf l :=
  Totals.ofResources_field (·.largest) (fun largest r => Totals.larger r largest) fun _ _ => rfl

/-- What the loop finds from some largest resource on. -/
theorem foldl_larger (l : List WebPageResource) (q : String × Nat) :
    ∃ p, l.foldl (fun largest r => Totals.larger r largest) (some q) = some p ∧
      (p = q ∨ ∃ a ∈ l, p = (a.url, a.contentSize)) ∧ q.2 ≤ p.2 ∧
      (∀ r ∈ l, r.contentSize ≤ p.2) ∧ ((∀ r ∈ l, r.contentSize ≤ q.2) → p = q) := by
  induction l generalizing q with
  | nil => exact ⟨q, rfl, .inl rfl, Nat.le_refl _, fun _ hr => absurd hr List.not_mem_nil, fun _ => rfl⟩
  | cons a l ih =>
      rw [List.foldl_cons, Totals.larger]
      by_cases hlt : q.2 < a.contentSize
      · rw [if_pos hlt]
        obtain ⟨p, hp, hfrom, hle, hall, -⟩ := ih (a.url, a.contentSize)
        refine ⟨p, hp, .inr ?_, Nat.le_trans (Nat.le_of_lt hlt) hle, ?_, fun h => ?_⟩
        · rcases hfrom with rfl | ⟨b, hb, rfl⟩
          · exact ⟨a, List.mem_cons_self, rfl⟩
          · exact ⟨b, List.mem_cons_of_mem a hb, rfl⟩
        · rintro r hr
          rcases List.mem_cons.mp hr with rfl | hr
          · exact hle
          · exact hall r hr
        · have := h a List.mem_cons_self
          omega
      · rw [if_neg hlt]
        obtain ⟨p, hp, hfrom, hle, hall, hkeep⟩ := ih q
        refine ⟨p, hp, ?_, hle, ?_, fun h => hkeep fun r hr => h r (List.mem_cons_of_mem a hr)⟩
        · exact hfrom.imp id fun ⟨b, hb, hpb⟩ => ⟨b, List.mem_cons_of_mem a hb, hpb⟩
        · rintro r hr
          rcases List.mem_cons.mp hr with rfl | hr
          · omega
          · exact hall r hr

/-- The variables of the loop are the counters and the largest resource. -/
theorem Totals.ofResources_eq (lower : String → String) (targetHost : String)
    {l l' : List WebPageResource} (h : l.Perm l') (hlargest : largestOf l = largestOf l') :
    ofResources lower targetHost l = ofResources lower targetHost l' := by
  have hparts : ∀ s : Totals, s = { s.counters with largest := s.largest } := fun _ => rfl
  rw [hparts (ofResources lower targetHost l), hparts (ofResources lower targetHost l'),
    counters_perm lower targetHost h, largest_ofResources, largest_ofResources, hlargest]

/-- The largest resource is one of the largest. -/
theorem largestOf_eq_some {l : List WebPageResource} (hl : l ≠ []) :
    ∃ a, IsLargest l a ∧ largestOf l = some (a.url, a.contentSize) := by
  obtain ⟨a, l, rfl⟩ := List.exists_cons_of_ne_nil hl
  obtain ⟨p, hp, hfrom, hle, hall, -⟩ := foldl_larger l (a.url, a.contentSize)
  have hmax : ∀ r ∈ a :: l, r.contentSize ≤ p.2 := by
    intro r hr
    rcases List.mem_cons.mp hr with rfl | hr
    · exact hle
    · exact hall r hr
  rcases hfrom with rfl | ⟨b, hb, rfl⟩
  · exact ⟨a, ⟨List.mem_cons_self, hmax⟩, hp⟩
  · exact ⟨b, ⟨List.mem_cons_of_mem a hb, hmax⟩, hp⟩

/-- If the first resource is one of the largest, the loop finds it. -/
theorem largestOf_cons {a : WebPageResource} {l : List WebPageResource} (h : IsLargest (a :: l) a) :
    largestOf (a :: l) = some (a.url, a.contentSize) := by
  obtain ⟨p, hp, -, -, -, hkeep⟩ := foldl_larger l (a.url, a.contentSize)
  have heq : p = (a.url, a.contentSize) := hkeep fun r hr => h.2 r (List.mem_cons_of_mem a hr)
  exact heq ▸ hp

/-- The largest resource is the same for every order exactly if all of the largest ones
    have one URL. -/
theorem largestOf_perm_iff (l : List WebPageResource) :
    (∀ l', l.Perm l' → largestOf l = largestOf l') ↔
      ∀ a b, IsLargest l a → IsLargest l b → a.url = b.url := by
  constructor
  · intro h a b ha hb
    -- put either one to the front
    have hfront : ∀ c, IsLargest l c → largestOf l = some (c.url, c.contentSize) := by
      rintro c ⟨hc, hmax⟩
      obtain ⟨s, t, rfl⟩ := List.append_of_mem hc
      rw [h _ List.perm_middle, largestOf_cons]
      exact ⟨List.mem_cons_self, fun r hr => hmax r (List.perm_middle.mem_iff.mpr hr)⟩
    have hab := (hfront a ha).symm.trans (hfront b hb)
    exact congrArg Prod.fst (Option.some.inj hab)
  · intro h l' hperm
    by_cases hl : l = []
    · subst hl
      rw [hperm.symm.eq_nil]
    · have hl' : l' ≠ [] := by
        rintro rfl
        exact hl hperm.eq_nil
      obtain ⟨a, ha, hla⟩ := largestOf_eq_some hl
      obtain ⟨b, hb, hlb⟩ := largestOf_eq_some hl'
      have hb' : IsLargest l b :=
        ⟨hperm.mem_iff.mpr hb.1, fun r hr => hb.2 r (hperm.mem_iff.mp hr)⟩
      have hsize : a.contentSize = b.contentSize :=
        Nat.le_antisymm (hb'.2 a ha.1) (ha.2 b hb'.1)
      rw [hla, hlb, h a b ha hb', hsize]

/-! ## Groups -/

section Groups

variable {κ : Type} [DecidableEq κ] {key : WebPageResource → Option κ}

/-- The groups of a list without a hash map: its keys, each with its resources. -/
def groupsOf (key : WebPageResource → Option κ) (l : List WebPageResource) :
    List (Σ _ : κ, List WebPageResource) :=
  (l.filterMap key).dedup.map fun k => ⟨k, l.filter fun r => key r = some k⟩

theorem lookup_groupBy (l : List WebPageResource) (k : κ) :
    (groupBy key l).lookup k =
      if (l.filter fun r => key r = some k) = [] then none
      else some (l.filter fun r => key r = some k) :=
  Lib.lookup_tally_append key l k

/-- A hash map has these groups, in some order. -/
theorem entries_groupBy_perm (order : HashMap.Order κ (List WebPageResource))
    (l : List WebPageResource) : (order.entries (groupBy key l)).Perm (groupsOf key l) := by
  have hnodup : (groupsOf key l).Nodup := by
    refine (List.nodup_dedup _).map fun k k' hkk' => ?_
    exact congrArg Sigma.fst hkk'
  rw [List.perm_ext_iff_of_nodup (List.NodupKeys.nodup (order.nodupKeys _)) hnodup]
  rintro ⟨k, group⟩
  rw [order.mem_entries, lookup_groupBy, groupsOf, List.mem_map]
  constructor
  · intro h
    split_ifs at h with hnil
    obtain ⟨r, hr⟩ := List.exists_mem_of_ne_nil _ hnil
    obtain ⟨hr, hkey⟩ := List.mem_filter.mp hr
    refine ⟨k, List.mem_dedup.mpr (List.mem_filterMap.mpr ⟨r, hr, of_decide_eq_true hkey⟩), ?_⟩
    rw [Option.some.inj h]
  · rintro ⟨k', hk', h⟩
    obtain ⟨rfl, hgroup⟩ := Sigma.mk.inj h
    obtain ⟨r, hr, hkey⟩ := List.mem_filterMap.mp (List.mem_dedup.mp hk')
    rw [if_neg (List.ne_nil_of_mem (List.mem_filter.mpr ⟨hr, decide_eq_true hkey⟩)),
      eq_of_heq hgroup]

/-- Every order of the groups is the order of some hash map. -/
theorem exists_order_groupBy {l : List WebPageResource} {gs : List (Σ _ : κ, List WebPageResource)}
    (h : (groupsOf key l).Perm gs) :
    ∃ order : HashMap.Order κ (List WebPageResource), order.entries (groupBy key l) = gs := by
  refine HashMap.Order.exists_entries ?_
  rw [← HashMap.Order.arbitrary.entries_eq (groupBy key l)]
  exact Multiset.coe_eq_coe.mpr (h.symm.trans (entries_groupBy_perm _ l).symm)

/-- What is said of each group does not depend on the order of the resources. -/
theorem filterMap_groupsOf_perm {β : Type} {f : (Σ _ : κ, List WebPageResource) → Option β}
    (hf : ∀ k (g g' : List WebPageResource), g.Perm g' → f ⟨k, g⟩ = f ⟨k, g'⟩)
    {l l' : List WebPageResource} (h : l.Perm l') :
    ((groupsOf key l).filterMap f).Perm ((groupsOf key l').filterMap f) := by
  rw [groupsOf, groupsOf, List.filterMap_map, List.filterMap_map]
  have hgroup : f ∘ (fun k => ⟨k, l.filter fun r => key r = some k⟩) =
      f ∘ fun k => ⟨k, l'.filter fun r => key r = some k⟩ :=
    funext fun k => hf k _ _ (h.filter _)
  rw [hgroup]
  exact (h.filterMap key).dedup.filterMap _

/-- The largest findings on the groups are the same for every order of the resources and
    of the hash map exactly if ties are settled. -/
theorem topBy_groups_iff (key : WebPageResource → Option κ) {β : Type}
    {f : (Σ _ : κ, List WebPageResource) → Option β}
    (hf : ∀ k (g g' : List WebPageResource), g.Perm g' → f ⟨k, g⟩ = f ⟨k, g'⟩)
    (weight : β → Nat) (n : Nat) (l : List WebPageResource) :
    (∀ l', l.Perm l' → ∀ o o' : HashMap.Order κ (List WebPageResource),
      topBy weight n ((o.entries (groupBy key l)).filterMap f) =
        topBy weight n ((o'.entries (groupBy key l')).filterMap f)) ↔
      Settled weight id n ((groupsOf key l).filterMap f) := by
  rw [← Lib.topBy_filterMap_iff]
  simp only [List.map_id]
  constructor
  · intro h gs hgs
    obtain ⟨o, ho⟩ := exists_order_groupBy (.refl (groupsOf key l))
    obtain ⟨o', ho'⟩ := exists_order_groupBy hgs
    have := h l (.refl l) o o'
    rwa [ho, ho'] at this
  · intro h l' hperm o o'
    have hcanonical : ∀ (o : HashMap.Order κ (List WebPageResource)) (l'), l.Perm l' →
        topBy weight n ((groupsOf key l).filterMap f) =
          topBy weight n ((o.entries (groupBy key l')).filterMap f) := by
      intro o l' hl'
      obtain ⟨gs, hgs, heq⟩ := Lib.exists_perm_filterMap ((filterMap_groupsOf_perm hf hl').trans
        ((entries_groupBy_perm o l').symm.filterMap f))
      rw [h gs hgs, heq]
    rw [← hcanonical o l (.refl l), ← hcanonical o' l' hperm]

/-- And what is said of all groups together never depends on it. -/
theorem perm_groups {β : Type} {f : (Σ _ : κ, List WebPageResource) → Option β}
    (hf : ∀ k (g g' : List WebPageResource), g.Perm g' → f ⟨k, g⟩ = f ⟨k, g'⟩)
    (o o' : HashMap.Order κ (List WebPageResource)) {l l' : List WebPageResource}
    (h : l.Perm l') :
    ((o.entries (groupBy key l)).filterMap f).Perm ((o'.entries (groupBy key l')).filterMap f) :=
  (((entries_groupBy_perm o l).filterMap f).trans (filterMap_groupsOf_perm hf h)).trans
    ((entries_groupBy_perm o' l').symm.filterMap f)

end Groups

/-! ## Duplicates -/

/-- The report on a URL does not depend on the order of its copies. -/
theorem exactEntry_perm (k : String) (g g' : List WebPageResource) (h : g.Perm g') :
    exactEntry ⟨k, g⟩ = exactEntry ⟨k, g'⟩ := by
  have hsizes : (g.map (·.contentSize)).insertionSort (· ≥ ·) =
      (g'.map (·.contentSize)).insertionSort (· ≥ ·) :=
    Lib.insertionSort_eq_of_perm (fun a _ b _ hab hba => Nat.le_antisymm hba hab) (h.map _)
  simp only [exactEntry, hsizes, h.length_eq]

theorem likelyEntry_perm (k : String × Nat) (g g' : List WebPageResource) (h : g.Perm g') :
    likelyEntry ⟨k, g⟩ = likelyEntry ⟨k, g'⟩ := by
  have hurls : distinctUrls g = distinctUrls g' := by
    rw [distinctUrls, distinctUrls,
      Lib.insertionSort_eq_of_perm (fun a _ b _ hab hba => le_antisymm hab hba) (h.map _)]
  simp only [likelyEntry, hurls]

/-- The reports on the URLs of a list. -/
def exactOf (l : List WebPageResource) : List DuplicateEntry :=
  (groupsOf (fun r => some r.url) l).filterMap exactEntry

/-- The reports on the names and sizes of a list. -/
def likelyOf (l : List WebPageResource) : List DuplicateEntry :=
  (groupsOf nameAndSize l).filterMap likelyEntry

/-- The wasted bytes never depend on the order. -/
theorem wastedBytes_perm (o o' : Orders) {l l' : List WebPageResource} (h : l.Perm l') :
    (buildDuplicateResources o l).wastedBytes = (buildDuplicateResources o' l').wastedBytes := by
  have hexact : (exactEntries o l).Perm (exactEntries o' l') :=
    perm_groups exactEntry_perm o.byUrl o'.byUrl h
  have hlikely : (likelyEntries o l).Perm (likelyEntries o' l') :=
    perm_groups likelyEntry_perm o.byNameSize o'.byNameSize h
  simp only [buildDuplicateResources, sumU64, ((hexact.append hlikely).map _).sum_eq]

/-! ## Third parties -/

/-- The ranking does not depend on the order of the hash map. -/
theorem rankedDomains_order (o o' : HashMap.Order String (Nat × Nat))
    (byHost : HashMap String (Nat × Nat)) : rankedDomains o byHost = rankedDomains o' byHost := by
  refine Lib.insertionSort_eq_of_perm (fun a ha b hb hab hba => ?_) ?_
  · have hla := mem_rankedDomains.mp ((List.mem_insertionSort _).mpr ha)
    have hlb := mem_rankedDomains.mp ((List.mem_insertionSort _).mpr hb)
    have hhost := DomainBytes.host_eq hab hba
    rw [hhost, hlb, Option.some.injEq, Prod.mk.injEq] at hla
    obtain ⟨hbytes, hcount⟩ := hla
    cases a
    cases b
    simp_all
  · refine List.Perm.map _ (Multiset.coe_eq_coe.mp ?_)
    rw [o.entries_eq, o'.entries_eq]

/-! ## The largest resources of each type -/

/-- The resources that are ranked in a bucket. -/
def rankedIn (l : List WebPageResource) (bucket : String) : List WebPageResource :=
  l.filter fun r => rankedBucket r = some bucket

/-- What the ranking of a bucket shows. -/
def shownIn (l : List WebPageResource) (bucket : String) : List LargestResource :=
  (topBy (·.contentSize) 5 (rankedIn l bucket)).map LargestResource.of

theorem shownIn_eq_nil {l : List WebPageResource} {bucket : String} :
    shownIn l bucket = [] ↔ rankedIn l bucket = [] := by
  rw [shownIn, List.map_eq_nil_iff, topBy, List.take_eq_nil_iff]
  constructor
  · rintro (h | h)
    · cases h
    · exact (h ▸ Lib.perm_sortBy _ (rankedIn l bucket)).symm.eq_nil
  · intro h
    rw [h]
    exact .inr rfl

/-- The ranking of one group. -/
def rankGroup (e : Σ _ : String, List WebPageResource) : Σ _ : String, List LargestResource :=
  e.map id fun _ group => (topBy (·.contentSize) 5 group).map LargestResource.of

/-- Each bucket with resources has its ranking. -/
theorem lookup_topLargestByType (orders : Orders) (l : List WebPageResource) (bucket : String) :
    (topLargestByType orders l).lookup bucket =
      if shownIn l bucket = [] then none else some (shownIn l bucket) := by
  have hgroup : ∀ e ∈ orders.byBucket.entries (groupBy rankedBucket l),
      rankedIn l e.1 ≠ [] ∧ e.2 = rankedIn l e.1 := by
    intro e he
    have hlookup := orders.byBucket.lookup_of_mem he
    rw [lookup_groupBy] at hlookup
    split_ifs at hlookup with hnil
    exact ⟨hnil, (Option.some.inj hlookup).symm⟩
  -- no group is empty, so all of them are inserted
  have hfold : topLargestByType orders l =
      ((orders.byBucket.entries (groupBy rankedBucket l)).map rankGroup).foldl
        (fun m e => m.insert e.1 e.2) (∅ : HashMap String (List LargestResource)) := by
    rw [topLargestByType, List.foldl_map]
    refine List.foldl_ext _ _ _ fun m e he => ?_
    obtain ⟨hne, heq⟩ := hgroup e he
    have htop : (topBy (·.contentSize) 5 e.2).map LargestResource.of ≠ [] := by
      rw [heq]
      exact fun h => hne (shownIn_eq_nil.mp h)
    exact if_neg htop
  have hkeys : ((orders.byBucket.entries (groupBy rankedBucket l)).map rankGroup).NodupKeys := by
    rw [List.NodupKeys, List.keys, List.map_map]
    exact orders.byBucket.nodupKeys _
  have hlookup : ((orders.byBucket.entries (groupBy rankedBucket l)).map rankGroup).dlookup bucket =
      ((groupBy rankedBucket l).lookup bucket).map fun group =>
        (topBy (·.contentSize) 5 group).map LargestResource.of := by
    rw [← orders.byBucket.dlookup]
    exact List.dlookup_map₂ (f := fun (_ : String) group =>
      (topBy (·.contentSize) 5 group).map LargestResource.of) bucket
  have hranked : (groupBy rankedBucket l).lookup bucket =
      if rankedIn l bucket = [] then none else some (rankedIn l bucket) :=
    lookup_groupBy l bucket
  rw [hfold, HashMap.lookup_foldl_insert hkeys, hlookup, hranked, Finmap.lookup_empty,
    Option.or_none]
  by_cases hnil : rankedIn l bucket = []
  · rw [if_pos hnil, if_pos (shownIn_eq_nil.mpr hnil)]
    rfl
  · rw [if_neg hnil, if_neg fun h => hnil (shownIn_eq_nil.mp h)]
    rfl

theorem topLargestByType_eq_iff {o o' : Orders} {l l' : List WebPageResource} :
    topLargestByType o l = topLargestByType o' l' ↔ ∀ bucket, shownIn l bucket = shownIn l' bucket := by
  constructor
  · intro h bucket
    have hget := congrArg (fun m => (m.lookup bucket).getD []) h
    simp only [lookup_topLargestByType] at hget
    split_ifs at hget with hnil hnil' hnil' <;> simp_all
  · intro h
    refine Finmap.ext_lookup fun bucket => ?_
    rw [lookup_topLargestByType, lookup_topLargestByType, h]

/-- The rankings are the same for every order exactly if ties are settled. -/
theorem topLargestByType_perm_iff (l : List WebPageResource) :
    (∀ l', l.Perm l' → ∀ o o', topLargestByType o l = topLargestByType o' l') ↔
      ∀ bucket, Settled (·.contentSize) LargestResource.of 5 (rankedIn l bucket) := by
  have hiff : ∀ bucket, (∀ l', l.Perm l' → shownIn l bucket = shownIn l' bucket) ↔
      Settled (·.contentSize) LargestResource.of 5 (rankedIn l bucket) := by
    intro bucket
    have hguard : ∀ l, rankedIn l bucket =
        l.filterMap (Option.guard fun r => rankedBucket r = some bucket) :=
      fun l => (congrFun List.filterMap_eq_filter l).symm
    simp only [shownIn, hguard]
    exact Lib.topBy_filterMap_iff _ LargestResource.of 5 _ l
  constructor
  · intro h bucket
    refine (hiff bucket).mp fun l' hperm => ?_
    exact topLargestByType_eq_iff.mp (h l' hperm Orders.arbitrary Orders.arbitrary) bucket
  · intro h l' hperm o o'
    exact topLargestByType_eq_iff.mpr fun bucket => (hiff bucket).mpr (h bucket) l' hperm

/-! ## Initiator chains -/

/-- The map takes for each URL the initiator of one of its resources. -/
def IsParent (l : List WebPageResource) (parent : HashMap String String) : Prop :=
  ∀ url, match parent.lookup url with
    | none => ∀ r ∈ l, r.url = url → initiatorUrl r = none
    | some p => ∃ r ∈ l, r.url = url ∧ initiatorUrl r = some p

/-- The last initiator of a URL counts. -/
theorem lookup_parentOf (l : List WebPageResource) (url : String) :
    (parentOf l).lookup url = ((l.filter fun r => r.url = url).filterMap initiatorUrl).getLast? := by
  induction l using List.reverseRecOn with
  | nil => rfl
  | append_singleton l r ih =>
      rw [parentOf, List.foldl_append, ← parentOf, List.foldl_cons, List.foldl_nil,
        List.filter_append, List.filterMap_append, List.filter_cons, List.filter_nil]
      cases hinit : initiatorUrl r with
      | none =>
          by_cases hurl : r.url = url <;> simp [hurl, hinit, ih]
      | some p =>
          by_cases hurl : r.url = url
          · subst hurl
            simp [hinit]
          · simp [hurl, Finmap.lookup_insert_of_ne _ (Ne.symm hurl), ih]

theorem isParent_parentOf (l : List WebPageResource) : IsParent l (parentOf l) := by
  intro url
  have hlookup := lookup_parentOf l url
  cases h : (parentOf l).lookup url with
  | none =>
      intro r hr hurl
      rw [h, eq_comm, List.getLast?_eq_none_iff, List.filterMap_eq_nil_iff] at hlookup
      exact hlookup r (List.mem_filter.mpr ⟨hr, decide_eq_true hurl⟩)
  | some p =>
      rw [h] at hlookup
      obtain ⟨r, hr, hp⟩ := List.mem_filterMap.mp (List.mem_of_getLast? hlookup.symm)
      obtain ⟨hr, hurl⟩ := List.mem_filter.mp hr
      exact ⟨r, hr, of_decide_eq_true hurl, hp⟩

theorem IsParent.perm {l l' : List WebPageResource} {parent : HashMap String String}
    (h : IsParent l parent) (hperm : l.Perm l') : IsParent l' parent := by
  intro url
  have hurl := h url
  cases hp : parent.lookup url with
  | none =>
      rw [hp] at hurl
      exact fun r hr => hurl r (hperm.mem_iff.mpr hr)
  | some p =>
      rw [hp] at hurl
      obtain ⟨r, hr, hrest⟩ := hurl
      exact ⟨r, hperm.mem_iff.mp hr, hrest⟩

/-- The resource has the initiator that the map has for its URL. -/
def initiatedAs (parent : HashMap String String) (r : WebPageResource) : Bool :=
  (initiatorUrl r).isSome && decide (initiatorUrl r = parent.lookup r.url)

/-- Resources of one URL that have the initiator of the map have the same one. -/
theorem initiator_of_initiatedAs {l : List WebPageResource} {parent : HashMap String String}
    {url p p' : String} (hp : parent.lookup url = some p)
    (hp' : p' ∈ ((l.filter (initiatedAs parent)).filter fun r => r.url = url).filterMap initiatorUrl) :
    p' = p := by
  obtain ⟨r, hr, hrp⟩ := List.mem_filterMap.mp hp'
  obtain ⟨hr, hru⟩ := List.mem_filter.mp hr
  obtain ⟨-, hinit⟩ := Bool.and_eq_true_iff.mp (List.mem_filter.mp hr).2
  have hlookup := of_decide_eq_true hinit
  rw [hrp, of_decide_eq_true hru, hp] at hlookup
  exact Option.some.inj hlookup

/-- Where the map has an initiator, a resource with that initiator is among them. -/
theorem mem_initiatedAs {l : List WebPageResource} {parent : HashMap String String} {url p : String}
    (hp : parent.lookup url = some p) {r : WebPageResource} (hr : r ∈ l) (hru : r.url = url)
    (hrp : initiatorUrl r = some p) :
    p ∈ ((l.filter (initiatedAs parent)).filter fun r => r.url = url).filterMap initiatorUrl := by
  have hinit : initiatedAs parent r = true := by
    rw [← hru] at hp
    simp [initiatedAs, hrp, hp]
  exact List.mem_filterMap.mpr
    ⟨r, List.mem_filter.mpr ⟨List.mem_filter.mpr ⟨hr, hinit⟩, decide_eq_true hru⟩, hrp⟩

/-- Every such map is that of some order. -/
theorem exists_perm_parentOf {l : List WebPageResource} {parent : HashMap String String}
    (h : IsParent l parent) : ∃ l', l.Perm l' ∧ parentOf l' = parent := by
  -- the resources whose initiator is in the map come last
  refine ⟨(l.filter fun r => !initiatedAs parent r) ++ l.filter (initiatedAs parent), ?_,
    Finmap.ext_lookup fun url => ?_⟩
  · exact (List.perm_append_comm.trans (List.filter_append_perm (initiatedAs parent) l)).symm
  · have hurl := h url
    rw [lookup_parentOf, List.filter_append, List.filterMap_append]
    cases hp : parent.lookup url with
    | none =>
        rw [hp] at hurl
        have hnone : ∀ q : WebPageResource → Bool,
            ((l.filter q).filter fun r => r.url = url).filterMap initiatorUrl = [] := by
          intro q
          rw [List.filterMap_eq_nil_iff]
          intro r hr
          obtain ⟨hr, hru⟩ := List.mem_filter.mp hr
          exact hurl r (List.mem_of_mem_filter hr) (of_decide_eq_true hru)
        rw [hnone, hnone]
        rfl
    | some p =>
        rw [hp] at hurl
        obtain ⟨r, hr, hru, hrp⟩ := hurl
        have hmem := mem_initiatedAs hp hr hru hrp
        -- the last of them decides, and all of them agree
        obtain ⟨q, hq⟩ := Option.ne_none_iff_exists'.mp fun hnone =>
          List.ne_nil_of_mem hmem (List.getLast?_eq_none_iff.mp hnone)
        rw [List.getLast?_append, hq, initiator_of_initiatedAs hp (List.mem_of_getLast? hq)]
        rfl

/-- Whatever is reached is the initiator of a resource. -/
theorem IsParent.reached_finite {l : List WebPageResource} {parent : HashMap String String}
    (h : IsParent l parent) (url : String) : (Lib.reached parent.lookup url).Finite := by
  refine Set.Finite.subset (List.finite_toSet (l.filterMap initiatorUrl)) fun p hp => ?_
  obtain ⟨u, -, hu⟩ := Relation.TransGen.tail'_iff.mp hp
  have hparent := h u
  rw [show parent.lookup u = some p from hu] at hparent
  obtain ⟨r, hr, -, hrp⟩ := hparent
  exact List.mem_filterMap.mpr ⟨r, hr, hrp⟩

theorem chainLength_eq_hops (parent : HashMap String String) (fuel : Nat) (url : String)
    (seen : Finset String) :
    chainLength parent fuel url seen = Lib.hops parent.lookup fuel url seen := by
  induction fuel generalizing url seen with
  | zero => rfl
  | succ fuel ih =>
      rw [chainLength, Lib.hops]
      cases parent.lookup url with
      | none => rfl
      | some p =>
          dsimp only
          rw [ih]

/-- A maximum of capped numbers is the capped maximum. -/
theorem foldl_max_min {α : Type} (n : α → Nat) (cap : Nat) (l : List α) (d : Nat) :
    l.foldl (fun depth a => max depth (min cap (n a))) d =
      max d (min cap (l.foldr (fun a most => max (n a) most) 0)) := by
  induction l generalizing d with
  | nil => simp
  | cons a l ih =>
      rw [List.foldl_cons, ih, List.foldr_cons]
      omega

/-- The largest number of other URLs that are reached from the URL of a resource, when the
    initiator of a URL is the one that `parent` has. -/
noncomputable def longestChain (parent : String → Option String) (l : List WebPageResource) : Nat :=
  l.foldr (fun r most => max (Lib.reached parent r.url \ {r.url}).ncard most) 0

theorem IsParent.maxChainLength_eq {l : List WebPageResource} {parent : HashMap String String}
    (h : IsParent l parent) :
    maxChainLength parent l = min 101 (longestChain parent.lookup l) := by
  have hwalk : ∀ url, chainLength parent 101 url {url} =
      min 101 (Lib.reached parent.lookup url \ {url}).ncard := by
    intro url
    rw [chainLength_eq_hops, Lib.hops_start 101 (h.reached_finite url)]
  simp only [maxChainLength, hwalk]
  rw [foldl_max_min, Nat.zero_max]
  rfl

theorem maxChainLength_perm (parent : HashMap String String) {l l' : List WebPageResource}
    (h : l.Perm l') : maxChainLength parent l = maxChainLength parent l' :=
  h.foldl_eq' (fun _ _ _ _ _ => Nat.max_right_comm ..) 0

/-- The depth is the same for every order exactly if every choice of one initiator for
    each URL has the same longest chain, as far as the cap allows. -/
theorem computeInitiatorChainDepth_perm_iff (l : List WebPageResource) :
    (∀ l', l.Perm l' → computeInitiatorChainDepth l = computeInitiatorChainDepth l') ↔
      ∀ parent parent', IsParent l parent → IsParent l parent' →
        min 101 (longestChain parent.lookup l) = min 101 (longestChain parent'.lookup l) := by
  have hany : ∀ l', l.Perm l' → (l'.any fun r => r.initiator.isSome) =
      l.any fun r => r.initiator.isSome := fun l' h => h.symm.any_eq
  constructor
  · intro h parent parent' hparent hparent'
    rw [← hparent.maxChainLength_eq, ← hparent'.maxChainLength_eq]
    obtain ⟨l₁, h₁, rfl⟩ := exists_perm_parentOf hparent
    obtain ⟨l₂, h₂, rfl⟩ := exists_perm_parentOf hparent'
    have hdepth := (h l₁ h₁).symm.trans (h l₂ h₂)
    rw [computeInitiatorChainDepth, computeInitiatorChainDepth, hany l₁ h₁, hany l₂ h₂] at hdepth
    cases hinit : l.any fun r => r.initiator.isSome with
    | true =>
        simp only [hinit, Bool.not_true, Bool.false_eq_true, if_false, Option.some.injEq] at hdepth
        rwa [maxChainLength_perm _ h₁, maxChainLength_perm _ h₂]
    | false =>
        -- nothing to choose from
        have hempty : ∀ l', l.Perm l' → parentOf l' = ∅ := by
          intro l' hl'
          refine Finmap.ext_lookup fun url => ?_
          rw [lookup_parentOf, Finmap.lookup_empty, List.getLast?_eq_none_iff,
            List.filterMap_eq_nil_iff]
          intro r hr
          have hr' := hl'.mem_iff.mpr (List.mem_of_mem_filter hr)
          have hnone := List.any_eq_false.mp hinit r hr'
          rw [Bool.not_eq_true, Option.isSome_eq_false_iff, Option.isNone_iff_eq_none] at hnone
          rw [initiatorUrl, hnone]
          rfl
        rw [hempty l₁ h₁, hempty l₂ h₂]
  · intro h l' hperm
    have hparent' := (isParent_parentOf l').perm hperm.symm
    have hchains := h _ _ (isParent_parentOf l) hparent'
    rw [← (isParent_parentOf l).maxChainLength_eq, ← hparent'.maxChainLength_eq] at hchains
    rw [computeInitiatorChainDepth, computeInitiatorChainDepth, hany l' hperm, hchains,
      maxChainLength_perm _ hperm]

/-! ## Findings -/

/-- The plain HTTP resources of a list. -/
def offendersOf (l : List WebPageResource) : List MixedContentResource :=
  (l.filter fun r => startsWith r.url "http://").map fun r =>
    { url := r.url, contentSize := r.contentSize, kind := mimeBucket r.mimeType }

/-- The mixed content is the same for every order exactly if there is none to report, or
    ties are settled. -/
theorem buildMixedContent_perm_iff (l : List WebPageResource) (targetUrl : String) :
    (∀ l', l.Perm l' → buildMixedContent l targetUrl = buildMixedContent l' targetUrl) ↔
      (startsWith targetUrl "https://" = true → (offendersOf l).length % 2 ^ 32 ≠ 0 →
        Settled (·.contentSize) id 10 (offendersOf l)) := by
  have hbuild : ∀ l, buildMixedContent l targetUrl =
      if startsWith targetUrl "https://" = true ∧ (offendersOf l).length % 2 ^ 32 ≠ 0 then
        ⟨true, (offendersOf l).length % 2 ^ 32, topBy (·.contentSize) 10 (offendersOf l)⟩
      else {} := by
    intro l
    cases htls : startsWith targetUrl "https://" with
    | false => simp [buildMixedContent, htls]
    | true =>
        by_cases hzero : (offendersOf l).length % 2 ^ 32 = 0
        · have hnone : buildMixedContent l targetUrl = {} := by
            rw [buildMixedContent, htls, if_neg (by decide)]
            exact if_pos hzero
          rw [hnone, if_neg fun h => h.2 hzero]
        · have hsome : buildMixedContent l targetUrl = ⟨true, (offendersOf l).length % 2 ^ 32,
              topBy (·.contentSize) 10 (offendersOf l)⟩ := by
            rw [buildMixedContent, htls, if_neg (by decide)]
            exact if_neg hzero
          rw [hsome, if_pos ⟨rfl, hzero⟩]
  have hlength : ∀ l', l.Perm l' → (offendersOf l').length = (offendersOf l).length :=
    fun l' h => ((h.filter _).map _).length_eq.symm
  have htop : (∀ l', l.Perm l' →
      topBy (·.contentSize) 10 (offendersOf l) = topBy (·.contentSize) 10 (offendersOf l')) ↔
      Settled (·.contentSize) id 10 (offendersOf l) :=
    Lib.topBy_map_filter_iff MixedContentResource.contentSize 10
      (fun r : WebPageResource => startsWith r.url "http://")
      (fun r => ⟨r.url, r.contentSize, mimeBucket r.mimeType⟩) l
  rw [← htop]
  constructor
  · intro h htls hsome l' hperm
    have heq := h l' hperm
    rw [hbuild, hbuild, hlength l' hperm, if_pos ⟨htls, hsome⟩, if_pos ⟨htls, hsome⟩] at heq
    exact congrArg MixedContent.resources heq
  · intro h l' hperm
    rw [hbuild, hbuild, hlength l' hperm]
    split_ifs with hreport
    · rw [h hreport.1 hreport.2 l' hperm]
    · rfl

/-- The entries of the uncompressed text resources of a list. -/
def uncompressedOf (l : List WebPageResource) : List UncompressedResource :=
  (l.filter isUncompressed).map fun r =>
    { url := r.url, mimeType := r.mimeType, bytes := r.contentSize }

theorem uncompressedTextResources_perm_iff (l : List WebPageResource) :
    (∀ l', l.Perm l' → uncompressedTextResources l = uncompressedTextResources l') ↔
      Settled (·.bytes) id 20 (uncompressedOf l) :=
  Lib.topBy_map_filter_iff UncompressedResource.bytes 20 isUncompressed
    (fun r => ⟨r.url, r.mimeType, r.contentSize⟩) l

theorem cachePolicyIssues_perm_iff (l : List WebPageResource) :
    (∀ l', l.Perm l' → cachePolicyIssues l = cachePolicyIssues l') ↔
      Settled Prod.fst Prod.snd 20 (l.filterMap cachePolicyFinding) :=
  Lib.topBy_filterMap_iff Prod.fst Prod.snd 20 cachePolicyFinding l

/-! ## The summary -/

/-- Whatever the order of the resources decides is the same for all orders. -/
structure NoTies (targetUrl : String) (l : List WebPageResource) : Prop where
  /-- The largest resources have one URL. -/
  largest : ∀ a b, IsLargest l a → IsLargest l b → a.url = b.url
  exactUrl : Settled (·.wastedBytes) id 10 (exactOf l)
  likelySameFile : Settled (·.wastedBytes) id 10 (likelyOf l)
  mixedContent : startsWith targetUrl "https://" = true → (offendersOf l).length % 2 ^ 32 ≠ 0 →
    Settled (·.contentSize) id 10 (offendersOf l)
  /-- Choosing one initiator for each URL; chains of more than 101 are as long as the cap. -/
  chains : ∀ parent parent', IsParent l parent → IsParent l parent' →
    min 101 (longestChain parent.lookup l) = min 101 (longestChain parent'.lookup l)
  types : ∀ bucket, Settled (·.contentSize) LargestResource.of 5 (rankedIn l bucket)
  uncompressed : Settled (·.bytes) id 20 (uncompressedOf l)
  cachePolicy : Settled Prod.fst Prod.snd 20 (l.filterMap cachePolicyFinding)

/-- The duplicates are the same for every order exactly if ties are settled. -/
theorem buildDuplicateResources_perm_iff (l : List WebPageResource) :
    (∀ l', l.Perm l' → ∀ o o', buildDuplicateResources o l = buildDuplicateResources o' l') ↔
      Settled (·.wastedBytes) id 10 (exactOf l) ∧ Settled (·.wastedBytes) id 10 (likelyOf l) := by
  have hexact := topBy_groups_iff (fun r => some r.url) exactEntry_perm
    DuplicateEntry.wastedBytes 10 l
  have hlikely := topBy_groups_iff nameAndSize likelyEntry_perm
    DuplicateEntry.wastedBytes 10 l
  rw [exactOf, likelyOf, ← hexact, ← hlikely]
  constructor
  · intro h
    refine ⟨fun l' hperm o o' => ?_, fun l' hperm o o' => ?_⟩
    · exact congrArg DuplicateResources.exactUrl (h l' hperm { Orders.arbitrary with byUrl := o }
        { Orders.arbitrary with byUrl := o' })
    · exact congrArg DuplicateResources.likelySameFile (h l' hperm
        { Orders.arbitrary with byNameSize := o } { Orders.arbitrary with byNameSize := o' })
  · rintro ⟨h₁, h₂⟩ l' hperm o o'
    have hw := wastedBytes_perm o o' hperm
    have he := h₁ l' hperm o.byUrl o'.byUrl
    have hl := h₂ l' hperm o.byNameSize o'.byNameSize
    simp only [buildDuplicateResources, exactEntries, likelyEntries] at hw ⊢
    rw [he, hl, hw]

/-- The resource summary of a list is the same for every order of the list and for all
    iteration orders of the hash maps exactly if ties are settled. -/
theorem buildResourceSummary_perm_iff (lower : String → String)
    (parseUrl : String → Option ParsedUrl) (resources : List WebPageResource)
    (targetUrl : String) :
    (∀ resources', resources.Perm resources' → ∀ orders orders' : Orders,
      buildResourceSummary lower parseUrl orders resources targetUrl =
        buildResourceSummary lower parseUrl orders' resources' targetUrl) ↔
      NoTies targetUrl resources := by
  constructor
  · intro h
    have hfield : ∀ {τ : Type} (field : ResourceSummary → τ) (l' : List WebPageResource),
        resources.Perm l' → ∀ o o' : Orders,
        field (buildResourceSummary lower parseUrl o resources targetUrl) =
          field (buildResourceSummary lower parseUrl o' l' targetUrl) :=
      fun field l' hperm o o' => congrArg field (h l' hperm o o')
    have harb : ∀ {τ : Type} (field : ResourceSummary → τ) (l' : List WebPageResource),
        resources.Perm l' → field (buildResourceSummary lower parseUrl .arbitrary resources targetUrl) =
          field (buildResourceSummary lower parseUrl .arbitrary l' targetUrl) :=
      fun field l' hperm => hfield field l' hperm _ _
    have hdup := (buildDuplicateResources_perm_iff resources).mp (hfield (·.duplicateResources))
    exact
      { largest := (largestOf_perm_iff resources).mp fun l' hperm => by
          rw [← largest_ofResources lower (targetHostOf parseUrl targetUrl),
            ← largest_ofResources lower (targetHostOf parseUrl targetUrl)]
          exact harb (·.largestResource) l' hperm
        exactUrl := hdup.1
        likelySameFile := hdup.2
        mixedContent := (buildMixedContent_perm_iff resources targetUrl).mp (harb (·.mixedContent))
        chains := (computeInitiatorChainDepth_perm_iff resources).mp
          (harb (·.maxInitiatorChainDepth))
        types := (topLargestByType_perm_iff resources).mp (hfield (·.topLargestByType))
        uncompressed := (uncompressedTextResources_perm_iff resources).mp
          (harb (·.uncompressedTextResources))
        cachePolicy := (cachePolicyIssues_perm_iff resources).mp (harb (·.cachePolicyIssues)) }
  · intro h l' hperm o o'
    have hlargest := (largestOf_perm_iff resources).mpr h.largest l' hperm
    have hloop := Totals.ofResources_eq lower (targetHostOf parseUrl targetUrl) hperm hlargest
    have hempty : resources.isEmpty = l'.isEmpty := hperm.isEmpty_eq
    rw [buildResourceSummary, buildResourceSummary, hloop, hempty, hperm.length_eq,
      rankedDomains_order o.thirdParty o'.thirdParty, rankedDomains_order o.scripts o'.scripts,
      (buildDuplicateResources_perm_iff resources).mpr ⟨h.exactUrl, h.likelySameFile⟩ l' hperm o o',
      (buildMixedContent_perm_iff resources targetUrl).mpr h.mixedContent l' hperm,
      (computeInitiatorChainDepth_perm_iff resources).mpr h.chains l' hperm,
      (topLargestByType_perm_iff resources).mpr h.types l' hperm o o',
      (uncompressedTextResources_perm_iff resources).mpr h.uncompressed l' hperm,
      (cachePolicyIssues_perm_iff resources).mpr h.cachePolicy l' hperm]

/-- Two images of one size. -/
def twoImages : List WebPageResource :=
  [ { requestId := "1", url := "https://a/x.png", contentSize := 100, mimeType := "image/png" },
    { requestId := "2", url := "https://a/y.png", contentSize := 100, mimeType := "image/png" } ]

/-- The first one is reported as the largest resource. -/
theorem buildResourceSummary_twoImages :
    ¬ ∀ (lower : String → String) (parseUrl : String → Option ParsedUrl)
        (resources resources' : List WebPageResource) (targetUrl : String),
      resources.Perm resources' → ∀ orders orders' : Orders,
      buildResourceSummary lower parseUrl orders resources targetUrl =
        buildResourceSummary lower parseUrl orders' resources' targetUrl := by
  intro h
  have heq := h asciiLower (fun _ => none) twoImages twoImages.reverse "https://a/"
    (List.reverse_perm twoImages).symm Orders.arbitrary Orders.arbitrary
  have hlargest : largestOf twoImages = largestOf twoImages.reverse := by
    rw [← largest_ofResources asciiLower (targetHostOf (fun _ => none) "https://a/"),
      ← largest_ofResources asciiLower (targetHostOf (fun _ => none) "https://a/")]
    exact congrArg ResourceSummary.largestResource heq
  exact absurd hlargest (by decide)

end Summary
end BrowserHeadless
