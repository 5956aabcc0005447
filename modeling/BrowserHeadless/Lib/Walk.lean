/-
  BrowserHeadless.Lib.Walk

  Following pointers: each element has at most one next one, and a walk goes on until
  there is none, until it would come back to an element it has seen, or until it has made
  a given number of hops.

  A walk makes as many hops as there are elements to be reached that it has not seen
  (`hops_eq`).  The invariant is that all elements seen but the current one have their
  next element seen, so nothing new is reached through them.
-/

import Mathlib.Data.Set.Card
import Mathlib.Logic.Relation

namespace BrowserHeadless
namespace Lib

variable {α : Type*}

/-- `b` comes next after `a`. -/
def Next (next : α → Option α) (a b : α) : Prop := next a = some b

/-- All elements that can be reached. -/
def reached (next : α → Option α) (a : α) : Set α := {b | Relation.TransGen (Next next) a b}

/-- The number of hops of a walk of at most `fuel` hops. -/
def hops [DecidableEq α] (next : α → Option α) : Nat → α → Finset α → Nat
  | 0, _, _ => 0
  | fuel + 1, current, seen =>
      match next current with
      | none => 0
      | some p => if p ∈ seen then 0 else 1 + hops next fuel p (insert p seen)

variable {next : α → Option α} {a b : α}

theorem reached_none (h : next a = none) : reached next a = ∅ := by
  refine Set.eq_empty_of_forall_notMem fun b hb => ?_
  obtain ⟨p, hp, -⟩ := Relation.TransGen.head'_iff.mp hb
  have hnone : none = some p := h.symm.trans hp
  cases hnone

/-- The next element, and what can be reached from it. -/
theorem reached_some (h : next a = some b) : reached next a = insert b (reached next b) := by
  ext c
  constructor
  · intro hc
    obtain ⟨p, hp, hrest⟩ := Relation.TransGen.head'_iff.mp hc
    have hpb : p = b := Option.some.inj (hp.symm.trans h)
    rw [hpb] at hrest
    rcases hrest.cases_head with hbc | ⟨q, hq, hqc⟩
    · exact Or.inl hbc.symm
    · exact Or.inr (Relation.TransGen.head'_iff.mpr ⟨q, hq, hqc⟩)
  · rintro (rfl | hc)
    · exact Relation.TransGen.single h
    · exact Relation.TransGen.head h hc

/-- Nothing is reached outside of a set that has the next element of each of its own. -/
theorem reached_subset {s : Set α} (hs : ∀ y ∈ s, ∀ z, next y = some z → z ∈ s) (ha : a ∈ s) :
    reached next a ⊆ s := by
  intro b hb
  induction hb with
  | single h => exact hs a ha _ h
  | tail _ h ih => exact hs _ ih _ h

/-- What the elements seen lead to is seen as well, the current one apart. -/
def SeenClosed (next : α → Option α) (current : α) (seen : Finset α) : Prop :=
  ∀ y ∈ seen, y ≠ current → ∀ z, next y = some z → z ∈ seen

section Seen

variable {p : α} {seen : Finset α}

/-- Back at an element seen, the walk finds nothing new. -/
theorem SeenClosed.reached_subset (h : SeenClosed next a seen) (hnext : next a = some p)
    (hp : p ∈ seen) : reached next a ⊆ seen := by
  intro c hc
  rw [reached_some hnext] at hc
  rcases hc with rfl | hc
  · exact hp
  · refine Lib.reached_subset (fun y hy z hz => ?_) (Finset.mem_coe.mpr hp) hc
    by_cases hya : y = a
    · rw [hya, hnext] at hz
      rw [← Option.some.inj hz]
      exact hp
    · exact h y hy hya z hz

/-- One hop. -/
theorem SeenClosed.insert [DecidableEq α] (h : SeenClosed next a seen) (hnext : next a = some p) :
    SeenClosed next p (insert p seen) := by
  intro y hy hyp z hz
  have hy := Finset.mem_of_mem_insert_of_ne hy hyp
  by_cases hya : y = a
  · rw [hya, hnext] at hz
    rw [← Option.some.inj hz]
    exact Finset.mem_insert_self p seen
  · exact Finset.mem_insert_of_mem (h y hy hya z hz)

/-- A new element, and what is new behind it. -/
theorem ncard_reached_sdiff [DecidableEq α] (hnext : next a = some p) (hp : p ∉ seen)
    (hfin : (reached next p).Finite) :
    (reached next a \ seen).ncard = (reached next p \ (insert p seen : Finset α)).ncard + 1 := by
  have hnew : reached next a \ seen =
      insert p (reached next p \ (insert p seen : Finset α)) := by
    ext c
    rw [reached_some hnext, Finset.coe_insert]
    constructor
    · rintro ⟨hc, hout⟩
      by_cases hcp : c = p
      · exact Or.inl hcp
      · refine Or.inr ⟨hc.resolve_left hcp, fun h => ?_⟩
        exact hout (h.resolve_left hcp)
    · rintro (rfl | ⟨hc, hout⟩)
      · exact ⟨Or.inl rfl, hp⟩
      · exact ⟨Or.inr hc, fun h => hout (Or.inr h)⟩
  rw [hnew, Set.ncard_insert_of_notMem _ (hfin.subset Set.sdiff_subset)]
  rintro ⟨-, hout⟩
  exact hout (Finset.mem_coe.mpr (Finset.mem_insert_self p seen))

end Seen

/-- A walk hops once to each new element. -/
theorem hops_eq [DecidableEq α] (fuel : Nat) {current : α} {seen : Finset α}
    (hfin : (reached next current).Finite) (hseen : SeenClosed next current seen) :
    hops next fuel current seen = min fuel (reached next current \ seen).ncard := by
  induction fuel generalizing current seen with
  | zero => rw [hops, Nat.zero_min]
  | succ fuel ih =>
      rw [hops]
      cases hnext : next current with
      | none => rw [reached_none hnext, Set.empty_sdiff, Set.ncard_empty, Nat.min_zero]
      | some p =>
          dsimp only
          split
          next hp =>
              rw [Set.sdiff_eq_empty.mpr (hseen.reached_subset hnext hp), Set.ncard_empty,
                Nat.min_zero]
          next hp =>
              have hfin' : (reached next p).Finite := by
                rw [reached_some hnext] at hfin
                exact hfin.subset (Set.subset_insert _ _)
              rw [ih hfin' (hseen.insert hnext), ncard_reached_sdiff hnext hp hfin']
              omega

/-- A walk that starts with nothing seen hops once to each other element reached. -/
theorem hops_start [DecidableEq α] (fuel : Nat) (hfin : (reached next a).Finite) :
    hops next fuel a {a} = min fuel (reached next a \ {a}).ncard := by
  rw [hops_eq fuel hfin, Finset.coe_singleton]
  intro y hy hya
  exact absurd (Finset.mem_singleton.mp hy) hya

/-- The elements of a chain without repetition are reached from its start. -/
theorem le_ncard_reached {f : Nat → α} (hf : Function.Injective f) {n : Nat}
    (hnext : ∀ i < n, next (f i) = some (f (i + 1))) (hfin : (reached next (f 0)).Finite) :
    n ≤ (reached next (f 0) \ {f 0}).ncard := by
  have hreach : ∀ i < n, f (i + 1) ∈ reached next (f 0) := by
    intro i hi
    induction i with
    | zero => exact Relation.TransGen.single (hnext 0 hi)
    | succ i ih => exact Relation.TransGen.tail (ih (by omega)) (hnext (i + 1) hi)
  have hsub : (fun i => f (i + 1)) '' (Set.Iio n) ⊆ reached next (f 0) \ {f 0} := by
    rintro _ ⟨i, hi, rfl⟩
    refine ⟨hreach i hi, fun h => ?_⟩
    have hzero := hf h
    omega
  have hinj : Function.Injective fun i => f (i + 1) := fun i j h => Nat.succ.inj (hf h)
  have hcard := Set.ncard_le_ncard hsub (hfin.subset Set.sdiff_subset)
  have hcount : (Set.Iio n).ncard = n := by
    rw [← Finset.coe_range, Set.ncard_coe_finset, Finset.card_range]
  rwa [Set.ncard_image_of_injective _ hinj, hcount] at hcard

end Lib
end BrowserHeadless
