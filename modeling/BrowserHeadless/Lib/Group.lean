/-
  BrowserHeadless.Lib.Group

  Loops that keep counters, and hash maps in which each element of a list updates the
  entry of its key.

  `tally` is such a loop, `lookup_tally` says what it leaves under a key, and
  `total_tally` what counters add up to over all keys.  Counters of fixed width wrap
  around; as long as all contributions together fit they do not (`tally_mod`).  Steps of
  this kind commute (`addIf_comm`, `upsertIf_comm`), so what they leave does not depend on
  the order of the elements.
-/

import BrowserHeadless.Lib.HashMap
import Mathlib.Algebra.BigOperators.Group.Finset.Piecewise
import Mathlib.Algebra.Order.BigOperators.Group.List
import Mathlib.Algebra.Order.Ring.Nat

namespace BrowserHeadless
namespace Lib

variable {α κ ν : Type*} [DecidableEq κ]

/-- `entry(k).or_insert(d)` and an update, if there is a key. -/
def upsertIf (key : Option κ) (d : ν) (f : ν → ν) (m : HashMap κ ν) : HashMap κ ν :=
  key.elim m fun k => m.upsert k d f

/-- Elements with a key update its entry, which starts at `d`. -/
def tally (key : α → Option κ) (d : ν) (f : ν → α → ν) (m : HashMap κ ν) (l : List α) :
    HashMap κ ν :=
  l.foldl (fun m a => upsertIf (key a) d (fun v => f v a) m) m

section Lookup

variable {key : α → Option κ} {d : ν} {f : ν → α → ν}

@[simp] theorem tally_nil (m : HashMap κ ν) : tally key d f m [] = m := rfl

theorem tally_append (m : HashMap κ ν) (l l' : List α) :
    tally key d f m (l ++ l') = tally key d f (tally key d f m l) l' := List.foldl_append ..

/-- The elements of a key, folded in their order. -/
theorem lookup_tally (m : HashMap κ ν) (l : List α) (k : κ) :
    (tally key d f m l).lookup k =
      if (l.filter fun a => key a = some k) = [] then m.lookup k
      else some ((l.filter fun a => key a = some k).foldl f ((m.lookup k).getD d)) := by
  induction l generalizing m with
  | nil => simp
  | cons a l ih =>
      have hcons : tally key d f m (a :: l)
          = tally key d f ((key a).elim m fun j => m.upsert j d fun v => f v a) l := rfl
      rw [hcons, ih, List.filter_cons]
      cases hkey : key a with
      | none => simp
      | some j =>
          by_cases hjk : j = k
          -- the element updates this entry
          · subst hjk
            simp only [Option.elim_some, HashMap.lookup_upsert_self, decide_true, if_true,
              Option.getD_some, List.foldl_cons, reduceCtorEq, if_false]
            split_ifs with hnil
            · rw [hnil]
              rfl
            · rfl
          · have hlookup : (m.upsert j d fun v => f v a).lookup k = m.lookup k :=
              HashMap.lookup_upsert_ne m d _ (Ne.symm hjk)
            have hfalse : decide (some j = some k) = false := by
              simpa using hjk
            rw [Option.elim_some, hlookup, hfalse]
            rfl

/-- Grouping: the elements of a key, in their order. -/
theorem lookup_tally_append (key : α → Option κ) (l : List α) (k : κ) :
    (tally key [] (fun group a => group ++ [a]) ∅ l).lookup k =
      if (l.filter fun a => key a = some k) = [] then none
      else some (l.filter fun a => key a = some k) := by
  have happend : ∀ l l' : List α, l.foldl (fun group a => group ++ [a]) l' = l' ++ l := by
    intro l
    induction l with
    | nil => exact fun l' => (List.append_nil l').symm
    | cons a l ih =>
        intro l'
        rw [List.foldl_cons, ih, List.append_assoc]
        rfl
  rw [lookup_tally, Finmap.lookup_empty, Option.getD_none, happend, List.nil_append]

/-- What one element does. -/
theorem tally_concat (m : HashMap κ ν) (l : List α) (a : α) :
    tally key d f m (l ++ [a]) = (key a).elim (tally key d f m l) fun k =>
      (tally key d f m l).upsert k d fun v => f v a := by
  rw [tally_append]
  rfl

/-- A loop whose default depends on the element: the elements of a key, in their order. -/
theorem lookup_foldl_upsert (key : α → κ) (d : α → ν) (f : ν → α → ν) (m : HashMap κ ν)
    (l : List α) (k : κ) :
    (l.foldl (fun m a => m.upsert (key a) (d a) fun v => f v a) m).lookup k =
      (l.filter fun a => key a = k).foldl (fun v a => some (f (v.getD (d a)) a))
        (m.lookup k) := by
  induction l generalizing m with
  | nil => rfl
  | cons a l ih =>
      rw [List.foldl_cons, ih, List.filter_cons]
      by_cases hk : key a = k
      · subst hk
        rw [if_pos (decide_eq_true rfl), List.foldl_cons, HashMap.lookup_upsert_self]
      · rw [if_neg (by simpa using hk), HashMap.lookup_upsert_ne m _ _ (Ne.symm hk)]

theorem foldl_first (l : List α) : l.foldl (fun first a => some (first.getD a)) none = l.head? := by
  have hsome : ∀ (l : List α) (a : α),
      l.foldl (fun first a => some (first.getD a)) (some a) = some a := by
    intro l a
    induction l with
    | nil => rfl
    | cons b l ih => exact ih
  cases l with
  | nil => rfl
  | cons a l => exact hsome l a

/-- A loop that inserts what is not there: the first element of a key. -/
theorem lookup_foldl_first (key : α → κ) (l : List α) (k : κ) :
    (l.foldl (fun m a => m.upsert (key a) a fun known => known) (∅ : HashMap κ α)).lookup k =
      l.find? fun a => key a = k := by
  have hlookup := lookup_foldl_upsert key (fun a => a) (fun known _ => known) (∅ : HashMap κ α) l k
  rw [Finmap.lookup_empty] at hlookup
  exact hlookup.trans ((foldl_first _).trans List.head?_filter)

end Lookup

/-! ## Sums under a condition -/

/-- What the elements with `c` add up to. -/
def sumIf (c : α → Bool) (w : α → Nat) (l : List α) : Nat :=
  (l.map fun a => if c a then w a else 0).sum

section SumIf

variable {c c₁ c₂ : α → Bool} {w : α → Nat}

theorem sumIf_concat (l : List α) (a : α) :
    sumIf c w (l ++ [a]) = sumIf c w l + if c a then w a else 0 := by
  rw [sumIf, List.map_append, List.sum_append]
  exact congrArg _ (List.sum_singleton)

theorem sumIf_eq_sum_filter (l : List α) : sumIf c w l = ((l.filter c).map w).sum := by
  induction l with
  | nil => rfl
  | cons a l ih =>
      rw [sumIf, List.map_cons, List.sum_cons, List.filter_cons, ← sumIf, ih]
      cases c a with
      | true => rfl
      | false => exact Nat.zero_add _

/-- Two conditions that split a third one. -/
theorem sumIf_add {l : List α}
    (h : ∀ a ∈ l, (c a = true ↔ (c₁ a = true ∨ c₂ a = true)) ∧ ¬ (c₁ a = true ∧ c₂ a = true)) :
    sumIf c₁ w l + sumIf c₂ w l = sumIf c w l := by
  rw [sumIf, sumIf, ← List.sum_map_add]
  refine congrArg List.sum (List.map_congr_left fun a ha => ?_)
  obtain ⟨hor, hnot⟩ := h a ha
  by_cases h₁ : c₁ a = true
  · have h₂ : ¬ c₂ a = true := fun h₂ => hnot ⟨h₁, h₂⟩
    rw [if_pos h₁, if_neg h₂, if_pos (hor.mpr (.inl h₁)), Nat.add_zero]
  · by_cases h₂ : c₂ a = true
    · rw [if_neg h₁, if_pos h₂, if_pos (hor.mpr (.inr h₂)), Nat.zero_add]
    · rw [if_neg h₁, if_neg h₂, if_neg fun h => (hor.mp h).elim h₁ h₂]

/-- A stronger condition adds up to less. -/
theorem sumIf_le {l : List α} (h : ∀ a ∈ l, c₁ a = true → c₂ a = true) :
    sumIf c₁ w l ≤ sumIf c₂ w l := by
  refine List.sum_le_sum fun a ha => ?_
  by_cases h₁ : c₁ a = true
  · rw [if_pos h₁, if_pos (h a ha h₁)]
  · rw [if_neg h₁]
    exact Nat.zero_le _

theorem sumIf_true (l : List α) : sumIf (fun _ => true) w l = (l.map w).sum := rfl

theorem sumIf_le_sum (l : List α) : sumIf c w l ≤ (l.map w).sum := by
  rw [← sumIf_true]
  exact sumIf_le fun _ _ _ => rfl

/-- The elements with a condition, counted. -/
theorem sumIf_one (l : List α) : sumIf c (fun _ => 1) l = (l.filter c).length := by
  rw [sumIf_eq_sum_filter, List.map_const', List.sum_replicate_nat, Nat.mul_one]

/-- The sums of all keys add up to the whole. -/
theorem sum_filter_key {M : Type*} [AddCommMonoid M] {key : α → κ} {K : Finset κ} {w : α → M}
    {l : List α} (h : ∀ a ∈ l, key a ∈ K) :
    ∑ k ∈ K, ((l.filter fun a => key a = k).map w).sum = (l.map w).sum := by
  induction l with
  | nil => exact Finset.sum_eq_zero fun _ _ => rfl
  | cons a l ih =>
      have hcons : ∀ k, (((a :: l).filter fun a => key a = k).map w).sum =
          (if key a = k then w a else 0) + ((l.filter fun a => key a = k).map w).sum := by
        intro k
        rw [List.filter_cons]
        by_cases hk : key a = k
        · rw [if_pos (by simpa using hk), if_pos hk, List.map_cons, List.sum_cons]
        · rw [if_neg (by simpa using hk), if_neg hk, zero_add]
      rw [Finset.sum_congr rfl fun k _ => hcons k, Finset.sum_add_distrib, Finset.sum_ite_eq,
        if_pos (h a List.mem_cons_self), ih fun b hb => h b (List.mem_cons_of_mem a hb),
        List.map_cons, List.sum_cons]

theorem sum_sumIf_key {key : α → κ} {K : Finset κ} {l : List α} (h : ∀ a ∈ l, key a ∈ K) :
    ∑ k ∈ K, sumIf (fun a => key a = k) w l = (l.map w).sum := by
  rw [← sum_filter_key h]
  exact Finset.sum_congr rfl fun k _ => sumIf_eq_sum_filter l

end SumIf

/-! ## Counters -/

/-- The sum of all counters of a map. -/
def HashMap.total (m : HashMap κ Nat) : Nat := m.values.sum

theorem HashMap.total_insert {m : HashMap κ Nat} {k : κ} (n : Nat) (h : k ∉ m) :
    HashMap.total (m.insert k n) = n + m.total := by
  rw [HashMap.total, HashMap.values, Finmap.entries_insert_of_notMem h, Multiset.map_cons,
    Multiset.sum_cons]
  rfl

/-- One counter goes up. -/
theorem HashMap.total_upsert (m : HashMap κ Nat) (k : κ) (n : Nat) :
    (m.upsert k 0 fun v => v + n).total = m.total + n := by
  cases hk : m.lookup k with
  | none =>
      have hupsert : m.upsert k 0 (fun v => v + n) = m.insert k n := by
        rw [HashMap.upsert, hk, Option.getD_none, Nat.zero_add]
      rw [hupsert, HashMap.total_insert n (Finmap.lookup_eq_none.mp hk)]
      omega
  | some v =>
      -- both maps are the map without the key, and the key with its counter
      have hold : m = (m.erase k).insert k v := by
        refine Finmap.ext_lookup fun j => ?_
        by_cases hjk : j = k
        · rw [hjk, Finmap.lookup_insert, hk]
        · rw [Finmap.lookup_insert_of_ne _ hjk, Finmap.lookup_erase_ne hjk]
      have hnew : m.upsert k 0 (fun v => v + n) = (m.erase k).insert k (v + n) := by
        rw [HashMap.upsert, hk, Option.getD_some]
        conv_lhs => rw [hold]
        exact Finmap.insert_insert _
      rw [hnew, HashMap.total_insert _ Finmap.notMem_erase_self]
      conv_rhs => rw [hold, HashMap.total_insert _ Finmap.notMem_erase_self]
      omega

/-- Counters add up to what the elements with a key contribute. -/
theorem total_tally (key : α → Option κ) (w : α → Nat) (l : List α) :
    (tally key 0 (fun v a => v + w a) ∅ l).total = sumIf (fun a => (key a).isSome) w l := by
  induction l using List.reverseRecOn with
  | nil => rfl
  | append_singleton l a ih =>
      rw [tally_concat, sumIf_concat]
      cases key a with
      | none => exact ih
      | some k => rw [Option.elim_some, HashMap.total_upsert, ih, if_pos Option.isSome_some]

/-- A counter of a loop that wraps around, to which every element adds its part. -/
theorem foldl_counter {σ : Type*} {W : Nat} {step : σ → α → σ} (count : σ → Nat) (w : α → Nat)
    (hstep : ∀ s a, count s < W → count (step s a) = (count s + w a) % W) (l : List α) {s : σ}
    (hs : count s < W) : count (l.foldl step s) = (count s + (l.map w).sum) % W := by
  induction l generalizing s with
  | nil => exact (Nat.mod_eq_of_lt hs).symm
  | cons a l ih =>
      have hW : 0 < W := Nat.zero_lt_of_lt hs
      have hnext : count (step s a) = (count s + w a) % W := hstep s a hs
      rw [List.foldl_cons, ih (hnext ▸ Nat.mod_lt _ hW), hnext, List.map_cons, List.sum_cons,
        Nat.mod_add_mod, Nat.add_assoc]

theorem foldl_add {M : Type*} [AddMonoid M] (w : α → M) (l : List α) (n : M) :
    l.foldl (fun v a => v + w a) n = n + (l.map w).sum := by
  induction l generalizing n with
  | nil => exact (add_zero n).symm
  | cons a l ih => rw [List.foldl_cons, ih, List.map_cons, List.sum_cons, add_assoc]

/-- A counter of inner elements, where outer elements are meant: the two agree exactly if
    the surplus is a multiple of `W`. -/
theorem sum_mod_eq_countP_iff {W : Nat} (hW : 0 < W) (c : α → Nat) (l : List α) :
    (l.map c).sum % W = l.countP (fun a => 0 < c a) ↔
      l.countP (fun a => 0 < c a) < W ∧ W ∣ (l.map fun a => c a - 1).sum := by
  have hsum : (l.map c).sum = l.countP (fun a => 0 < c a) + (l.map fun a => c a - 1).sum := by
    induction l with
    | nil => rfl
    | cons a l ih =>
        rw [List.map_cons, List.sum_cons, List.map_cons, List.sum_cons, List.countP_cons, ih]
        by_cases hc : 0 < c a
        · rw [if_pos (by simpa using hc)]
          omega
        · rw [if_neg (by simpa using hc)]
          omega
  rw [hsum]
  constructor
  · intro h
    have hlt : l.countP (fun a => 0 < c a) < W := by
      rw [← h]
      exact Nat.mod_lt _ hW
    have hdiv := Nat.div_add_mod
      (l.countP (fun a => 0 < c a) + (l.map fun a => c a - 1).sum) W
    rw [h] at hdiv
    refine ⟨hlt, (l.countP (fun a => 0 < c a) + (l.map fun a => c a - 1).sum) / W, ?_⟩
    omega
  · rintro ⟨hlt, hdvd⟩
    rw [Nat.add_mod, Nat.mod_eq_zero_of_dvd hdvd, Nat.add_zero, Nat.mod_mod,
      Nat.mod_eq_of_lt hlt]

/-- The counter of one key. -/
theorem lookup_tally_mod {W : Nat} (hW : 0 < W) (key : α → Option κ) (w : α → Nat) (l : List α)
    (k : κ) : ((tally key 0 (fun v a => (v + w a) % W) ∅ l).lookup k).getD 0
      = sumIf (fun a => key a = some k) w l % W := by
  rw [lookup_tally, Finmap.lookup_empty, Option.getD_none, sumIf_eq_sum_filter]
  split_ifs with hnil
  · rw [hnil]
    rfl
  · rw [Option.getD_some, foldl_counter (fun v : Nat => v) w (fun _ _ _ => rfl) _ hW, Nat.zero_add]

/-- Counters that cannot overflow do not wrap around. -/
theorem tally_mod {W : Nat} (key : α → Option κ) (w : α → Nat) {l : List α}
    (h : (l.map w).sum < W) :
    tally key 0 (fun v a => (v + w a) % W) ∅ l = tally key 0 (fun v a => v + w a) ∅ l := by
  have hW : 0 < W := Nat.zero_lt_of_lt h
  refine Finmap.ext_lookup fun k => ?_
  rw [lookup_tally, lookup_tally, Finmap.lookup_empty, Option.getD_none,
    foldl_counter (fun v : Nat => v) w (fun _ _ _ => rfl) _ hW, foldl_add, ← sumIf_eq_sum_filter]
  have hle := sumIf_le_sum (c := fun a => decide (key a = some k)) (w := w) l
  rw [Nat.mod_eq_of_lt (by omega)]

/-- `if c { v += n }` on a counter below `W`. -/
def addIf (W : Nat) (c : Bool) (n v : Nat) : Nat := if c then (v + n) % W else v

section AddIf

variable {W : Nat}

@[simp] theorem addIf_true (n v : Nat) : addIf W true n v = (v + n) % W := rfl

theorem addIf_eq {v : Nat} (c : Bool) (n : Nat) (hv : v < W) :
    addIf W c n v = (v + if c then n else 0) % W := by
  cases c with
  | true => rfl
  | false => exact (Nat.mod_eq_of_lt hv).symm

theorem addIf_comm (c c' : Bool) (n n' v : Nat) :
    addIf W c n (addIf W c' n' v) = addIf W c' n' (addIf W c n v) := by
  cases c with
  | false => rfl
  | true =>
      cases c' with
      | false => rfl
      | true =>
          simp only [addIf_true, Nat.mod_add_mod]
          rw [Nat.add_right_comm]

/-- What a counter holds after a loop. -/
theorem foldl_addIf {α : Type*} (c : α → Bool) (w : α → Nat) (l : List α) (hW : 0 < W) :
    l.foldl (fun v a => addIf W (c a) (w a) v) 0 = sumIf c w l % W := by
  rw [foldl_counter (fun v : Nat => v) (fun a => if c a then w a else 0)
    (fun v a hv => addIf_eq (c a) (w a) hv) l hW, Nat.zero_add]
  rfl

end AddIf

-- otherwise a comparison of two updates evaluates their conditions
attribute [irreducible] addIf

/-! ## Steps that commute -/

theorem upsertIf_comm {d : ν} {f g : ν → ν} (h : ∀ v, f (g v) = g (f v)) (j k : Option κ)
    (m : HashMap κ ν) :
    upsertIf j d f (upsertIf k d g m) = upsertIf k d g (upsertIf j d f m) := by
  cases j with
  | none => rfl
  | some j =>
      cases k with
      | none => rfl
      | some k =>
          refine Finmap.ext_lookup fun i => ?_
          simp only [upsertIf, Option.elim_some, HashMap.upsert]
          by_cases hjk : j = k
          · subst hjk
            simp only [Finmap.lookup_insert, Option.getD_some, Finmap.insert_insert, h]
          · rw [Finmap.lookup_insert_of_ne m hjk, Finmap.lookup_insert_of_ne m (Ne.symm hjk),
              Finmap.insert_insert_of_ne m (Ne.symm hjk)]

/-- Counters that wrap around commute. -/
theorem upsertIf_add_comm (W m n : Nat) (j k : Option κ) (s : HashMap κ Nat) :
    upsertIf j 0 (fun v => (v + m) % W) (upsertIf k 0 (fun v => (v + n) % W) s) =
      upsertIf k 0 (fun v => (v + n) % W) (upsertIf j 0 (fun v => (v + m) % W) s) := by
  refine upsertIf_comm (fun v => ?_) j k s
  rw [Nat.mod_add_mod, Nat.mod_add_mod, Nat.add_right_comm]

/-! ## Joins -/

/-- The keys that a loop leaves. -/
theorem mem_keys_tally {key : α → Option κ} {d : ν} {f : ν → α → ν} {l : List α} {k : κ} :
    k ∈ (tally key d f ∅ l).keys ↔ ∃ a ∈ l, key a = some k := by
  rw [Finmap.mem_keys, ← Finmap.lookup_isSome, lookup_tally, Finmap.lookup_empty]
  by_cases hnil : (l.filter fun a => key a = some k) = []
  · rw [if_pos hnil]
    simpa using hnil
  · rw [if_neg hnil]
    obtain ⟨a, ha⟩ := List.exists_mem_of_ne_nil _ hnil
    rw [List.mem_filter, decide_eq_true_eq] at ha
    exact iff_of_true rfl ⟨a, ha⟩

omit [DecidableEq κ] in
/-- A sum over the entries of a map does not depend on their order. -/
theorem HashMap.Order.sum_keys {M : Type*} [AddCommMonoid M] (order : HashMap.Order κ ν)
    (m : HashMap κ ν) (g : κ → M) : ((order.entries m).map fun e => g e.1).sum = ∑ k ∈ m.keys, g k := by
  have hkeys : (m.keys.val : Multiset κ) = ((order.entries m).map Sigma.fst : List κ) := by
    rw [← Multiset.map_coe, order.entries_eq]
    rfl
  rw [Finset.sum, hkeys, Multiset.map_coe, Multiset.sum_coe, List.map_map]
  rfl

/-- A join loses nothing exactly if every key that counts has a partner. -/
theorem sum_eq_sum_iff {A B : Finset κ} {g : κ → Nat} (hg : ∀ k, k ∉ B → g k = 0) :
    ∑ k ∈ A, g k = ∑ k ∈ B, g k ↔ ∀ k ∈ B, 0 < g k → k ∈ A := by
  -- outside of `B` nothing counts
  have hA : ∑ k ∈ A, g k = ∑ k ∈ B ∩ A, g k :=
    (Finset.sum_subset Finset.inter_subset_right fun k hk hout =>
      hg k fun hB => hout (Finset.mem_inter.mpr ⟨hB, hk⟩)).symm
  have hB : ∑ k ∈ B, g k = ∑ k ∈ B ∩ A, g k + ∑ k ∈ B \ A, g k :=
    (Finset.sum_inter_add_sum_sdiff B A g).symm
  have hlost : ∑ k ∈ A, g k = ∑ k ∈ B, g k ↔ ∑ k ∈ B \ A, g k = 0 := by omega
  rw [hlost, Finset.sum_eq_zero_iff]
  constructor
  · intro h k hk hpos
    by_contra hout
    exact hpos.ne' (h k (Finset.mem_sdiff.mpr ⟨hk, hout⟩))
  · intro h k hk
    obtain ⟨hkB, hkA⟩ := Finset.mem_sdiff.mp hk
    by_contra hpos
    exact hkA (h k hkB (Nat.pos_of_ne_zero hpos))

end Lib
end BrowserHeadless
