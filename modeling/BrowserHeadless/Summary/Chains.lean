/-
  BrowserHeadless.Summary.Chains

  What the initiator depth counts (src/browser/mod.rs, `compute_initiator_chain_depth`).

  With one resource for each URL, the walk from a resource counts its ancestors: the other
  URLs that are reached by following initiators (`maxChainLength_eq`).  The depth is the
  largest number of ancestors of a resource as far as the cap allows, and the cap, tested
  after the hop, allows one hop more than the 100 it is documented to.
-/

import BrowserHeadless.Summary.Invariance

namespace BrowserHeadless
namespace Summary

open Lib (HashMap reached)
open Collect (WebPageResource)

variable {resources : List WebPageResource}

/-! ## Ancestors -/

/-- A resource with the URL `url` was initiated from `p`. -/
def Initiated (resources : List WebPageResource) (url p : String) : Prop :=
  ∃ r ∈ resources, r.url = url ∧ initiatorUrl r = some p

/-- The other URLs that are reached from `url` by following initiators. -/
def ancestors (resources : List WebPageResource) (url : String) : Set String :=
  {p | Relation.TransGen (Initiated resources) url p ∧ p ≠ url}

/-- The largest number of ancestors of a resource. -/
noncomputable def maxAncestors (resources : List WebPageResource) : Nat :=
  resources.foldr (fun r most => max (ancestors resources r.url).ncard most) 0

theorem le_foldr_max {α : Type} (n : α → Nat) {l : List α} {a : α} (ha : a ∈ l) :
    n a ≤ l.foldr (fun a most => max (n a) most) 0 := by
  induction l with
  | nil => cases ha
  | cons b l ih =>
      rw [List.foldr_cons]
      rcases List.mem_cons.mp ha with rfl | ha
      · exact Nat.le_max_left _ _
      · exact (ih ha).trans (Nat.le_max_right _ _)

theorem le_maxAncestors {r : WebPageResource} (hr : r ∈ resources) :
    (ancestors resources r.url).ncard ≤ maxAncestors resources :=
  le_foldr_max (fun r : WebPageResource => (ancestors resources r.url).ncard) hr

/-! ## The walk -/

/-- The map and the resources tell the same initiators if no URL occurs twice. -/
theorem next_parentOf_iff (hurls : (resources.map (·.url)).Nodup) (url p : String) :
    Lib.Next (parentOf resources).lookup url p ↔ Initiated resources url p := by
  have hparent := isParent_parentOf resources url
  rw [Lib.Next]
  constructor
  · intro h
    rw [h] at hparent
    exact hparent
  · rintro ⟨r, hr, hru, hrp⟩
    cases h : (parentOf resources).lookup url with
    | none =>
        rw [h] at hparent
        rw [hparent r hr hru] at hrp
        cases hrp
    | some q =>
        rw [h] at hparent
        obtain ⟨r', hr', hru', hrq⟩ := hparent
        have heq : r' = r := List.inj_on_of_nodup_map hurls hr' hr (hru'.trans hru.symm)
        rw [heq, hrp] at hrq
        exact hrq.symm

theorem reached_diff_eq_ancestors (hurls : (resources.map (·.url)).Nodup) (url : String) :
    reached (parentOf resources).lookup url \ {url} = ancestors resources url := by
  have hrel : Lib.Next (parentOf resources).lookup = Initiated resources :=
    funext fun u => funext fun p => propext (next_parentOf_iff hurls u p)
  rw [reached, hrel]
  rfl

/-! ## The depth -/

theorem maxChainLength_eq (hurls : (resources.map (·.url)).Nodup) :
    maxChainLength (parentOf resources) resources = min 101 (maxAncestors resources) := by
  rw [(isParent_parentOf resources).maxChainLength_eq, longestChain, maxAncestors]
  simp only [reached_diff_eq_ancestors hurls]

/-- The depth is the largest number of ancestors, capped at 101. -/
theorem computeInitiatorChainDepth_eq (hurls : (resources.map (·.url)).Nodup)
    (hinit : ∃ r ∈ resources, r.initiator.isSome = true) :
    computeInitiatorChainDepth resources = some (min 101 (maxAncestors resources)) := by
  have hany : resources.any (fun r => r.initiator.isSome) = true := List.any_eq_true.mpr hinit
  rw [computeInitiatorChainDepth, hany, maxChainLength_eq hurls]
  rfl

/-- It is the number capped at 100 exactly if no resource has more than 100 ancestors. -/
theorem computeInitiatorChainDepth_capped_iff (hurls : (resources.map (·.url)).Nodup)
    (hinit : ∃ r ∈ resources, r.initiator.isSome = true) :
    computeInitiatorChainDepth resources = some (min 100 (maxAncestors resources)) ↔
      maxAncestors resources ≤ 100 := by
  rw [computeInitiatorChainDepth_eq hurls hinit, Option.some.injEq]
  omega

/-- Two resources that initiate each other. -/
def mutualPair : List WebPageResource :=
  [{ requestId := "1", url := "https://a/",
     initiator := some { type := "script", url := some "https://b/", lineNumber := none } },
    { requestId := "2", url := "https://b/",
      initiator := some { type := "script", url := some "https://a/", lineNumber := none } }]

/-- The walk around the cycle ends after one hop. -/
theorem computeInitiatorChainDepth_mutualPair :
    computeInitiatorChainDepth mutualPair = some 1 ∧
      (computeInitiatorChainDepth mutualPair = some (min 100 (maxAncestors mutualPair)) ↔
        maxAncestors mutualPair ≤ 100) :=
  ⟨by decide +kernel,
    computeInitiatorChainDepth_capped_iff (by decide +kernel) ⟨_, List.mem_cons_self, rfl⟩⟩

/-! ## A chain that is too long -/

/-- The URLs of a chain, all different. -/
def chainUrl (i : Nat) : String := "https://a/" ++ String.ofList (List.replicate i 'x')

/-- Resources that are each initiated by the next one. -/
def chainOf (n : Nat) : List WebPageResource :=
  (List.range n).map fun i =>
    { requestId := toString i
      url := chainUrl i
      initiator := some { type := "script", url := some (chainUrl (i + 1)), lineNumber := none } }

theorem chainUrl_injective : Function.Injective chainUrl := by
  intro i j h
  have hlist : List.replicate i 'x' = List.replicate j 'x' :=
    String.ofList_injective ((String.append_right_inj _).mp h)
  have hlen := congrArg List.length hlist
  rwa [List.length_replicate, List.length_replicate] at hlen

theorem chainUrl_ne_empty (i : Nat) : chainUrl i ≠ "" := by
  intro h
  have hlen := congrArg String.length h
  rw [chainUrl, String.length_append] at hlen
  exact absurd hlen (by simp)

theorem chainOf_nodup (n : Nat) : ((chainOf n).map (·.url)).Nodup := by
  rw [chainOf, List.map_map]
  exact List.nodup_range.map chainUrl_injective

theorem chainOf_initiated {n i : Nat} (hi : i < n) :
    Initiated (chainOf n) (chainUrl i) (chainUrl (i + 1)) := by
  refine ⟨_, List.mem_map.mpr ⟨i, List.mem_range.mpr hi, rfl⟩, rfl, ?_⟩
  rw [initiatorUrl]
  exact Option.filter_eq_some_iff.mpr ⟨rfl, bne_iff_ne.mpr (chainUrl_ne_empty (i + 1))⟩

/-- The first resource of a chain has all the others as ancestors. -/
theorem le_maxAncestors_chainOf {n : Nat} (hn : 0 < n) : n ≤ maxAncestors (chainOf n) := by
  have hfirst : n ≤ (ancestors (chainOf n) (chainUrl 0)).ncard := by
    rw [← reached_diff_eq_ancestors (chainOf_nodup n)]
    exact Lib.le_ncard_reached chainUrl_injective
      (fun i hi => (next_parentOf_iff (chainOf_nodup n) _ _).mpr (chainOf_initiated hi))
      ((isParent_parentOf _).reached_finite _)
  refine hfirst.trans (le_maxAncestors (List.mem_map.mpr ⟨0, List.mem_range.mpr hn, rfl⟩))

/-- With 101 resources in a chain the depth is 101. -/
theorem computeInitiatorChainDepth_chainOf :
    ¬ ∀ resources : List WebPageResource, (resources.map (·.url)).Nodup →
      (∃ r ∈ resources, r.initiator.isSome = true) →
      computeInitiatorChainDepth resources = some (min 100 (maxAncestors resources)) := by
  intro h
  have hinit : ∃ r ∈ chainOf 101, r.initiator.isSome = true :=
    ⟨_, List.mem_map.mpr ⟨0, List.mem_range.mpr (by omega), rfl⟩, rfl⟩
  have hdepth := h (chainOf 101) (chainOf_nodup 101) hinit
  have hlong : 101 ≤ maxAncestors (chainOf 101) := le_maxAncestors_chainOf (by omega)
  rw [computeInitiatorChainDepth_eq (chainOf_nodup 101) hinit, Option.some.injEq] at hdepth
  omega

end Summary
end BrowserHeadless
