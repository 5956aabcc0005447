/-
  BrowserHeadless.Lib.Leaderboard

  The first `k` values of a hash map by a key.  The map is visited in no particular order,
  and values with equal keys stay in the order of the visit.

  So the result depends on the visit, but only where a tie is cut: a value can be among the
  first `k` exactly if fewer than `k` are larger (`exists_mem_leaders_iff`), and it is among
  them in any case exactly if fewer than `k` others are as large (`forall_mem_leaders_iff`).
-/

import BrowserHeadless.Lib.HashMap
import BrowserHeadless.Lib.Sort

namespace BrowserHeadless
namespace Lib

section Rank

variable {α R : Type*} [LinearOrder R] {key : α → R}

/-- An element that goes before one of the sorted list goes into what is in front of it. -/
theorem orderedInsert_append {r : α → α → Prop} [DecidableRel r] {a b : α} (h : r b a)
    (pre post : List α) :
    (pre ++ a :: post).orderedInsert r b = pre.orderedInsert r b ++ a :: post := by
  induction pre with
  | nil => simp [List.orderedInsert, h]
  | cons c pre ih =>
      by_cases hbc : r b c
      · simp [List.orderedInsert, hbc]
      · simp only [List.cons_append, List.orderedInsert, hbc, if_false, ih]

/-- An element that goes behind all of a list goes into what follows it. -/
theorem orderedInsert_append_right {r : α → α → Prop} [DecidableRel r] {b : α} {pre : List α}
    (h : ∀ c ∈ pre, ¬r b c) (post : List α) :
    (pre ++ post).orderedInsert r b = pre ++ post.orderedInsert r b := by
  induction pre with
  | nil => rfl
  | cons c pre ih =>
      rw [List.cons_append, List.orderedInsert, if_neg (h c List.mem_cons_self),
        ih fun d hd => h d (List.mem_cons_of_mem c hd), List.cons_append]

/-- The last of its key comes right behind the elements with keys as large. -/
theorem rankBy_concat (l : List α) (a : α) :
    rankBy key (l ++ [a]) = rankBy key (l.filter fun b => key a ≤ key b) ++
      a :: rankBy key (l.filter fun b => key b < key a) := by
  induction l with
  | nil => rfl
  | cons b l ih =>
      have hcons : rankBy key (b :: l ++ [a]) =
          (rankBy key (l ++ [a])).orderedInsert (fun a b => key b ≤ key a) b := rfl
      rw [hcons, ih]
      by_cases hle : key a ≤ key b
      · rw [List.filter_cons_of_pos (by simpa using hle),
          List.filter_cons_of_neg (by simpa using hle)]
        exact orderedInsert_append (r := fun a b => key b ≤ key a) hle _ _
      · have hbehind : ∀ c ∈ rankBy key (l.filter fun b => key a ≤ key b), ¬key c ≤ key b := by
          intro c hc hcb
          have hac := (List.mem_filter.mp ((perm_rankBy key _).mem_iff.mp hc)).2
          exact hle ((of_decide_eq_true hac).trans hcb)
        rw [List.filter_cons_of_neg (by simpa using hle),
          List.filter_cons_of_pos (by simpa using hle), orderedInsert_append_right hbehind,
          List.orderedInsert, if_neg hle]
        rfl

/-- Where the last of its key is among the first `k`, fewer than `k` are as large. -/
theorem length_rivals_lt {l : List α} {a : α} {k : Nat} (ha : a ∉ l)
    (h : a ∈ (rankBy key (l ++ [a])).take k) :
    (l.filter fun b => key a ≤ key b).length < k := by
  by_contra hle
  have hlength := (perm_rankBy key (l.filter fun b => key a ≤ key b)).length_eq
  rw [rankBy_concat, List.take_append_of_le_length (by omega)] at h
  have hmem := (perm_rankBy key _).mem_iff.mp (List.mem_of_mem_take h)
  exact ha (List.mem_filter.mp hmem).1

/-- An element with fewer than `k` others as large is among the first `k`. -/
theorem mem_take_of_rivals {κ : Type*} [DecidableEq κ] (name : α → κ) {l : List α} {a : α}
    {k : Nat} (hl : (l.map name).Nodup) (ha : a ∈ l)
    (h : (l.filter fun b => name b ≠ name a ∧ key a ≤ key b).length < k) :
    a ∈ (rankBy key l).take k := by
  have hperm := perm_rankBy key l
  have hsorted := pairwise_rankBy key l
  have hnames : ((rankBy key l).map name).Nodup := (hperm.map name).nodup_iff.mpr hl
  rw [← (hperm.filter _).length_eq] at h
  rw [← hperm.mem_iff, ← List.take_append_drop k (rankBy key l), List.mem_append] at ha
  refine ha.resolve_right fun hdrop => ?_
  -- all of the first `k` are others, and as large
  rw [← List.take_append_drop k (rankBy key l)] at hsorted hnames h
  rw [List.map_append, List.nodup_append] at hnames
  have hrivals : ((rankBy key l).take k).filter (fun b => name b ≠ name a ∧ key a ≤ key b) =
      (rankBy key l).take k := by
    refine List.filter_eq_self.mpr fun b hb => decide_eq_true ⟨?_, ?_⟩
    · exact hnames.2.2 _ (List.mem_map_of_mem hb) _ (List.mem_map_of_mem hdrop)
    · exact (List.pairwise_append.mp hsorted).2.2 b hb a hdrop
  have hfull : ((rankBy key l).take k).length = k := by
    rw [List.length_take]
    have hlonger := List.length_pos_of_mem hdrop
    rw [List.length_drop] at hlonger
    omega
  rw [List.filter_append, List.length_append, hrivals, hfull] at h
  omega

end Rank

/-! ## The values of a map -/

section Map

variable {κ ν R : Type*} [LinearOrder R]

/-- The first `k` values of a map. -/
def leaders (key : ν → R) (k : Nat) (order : HashMap.Order κ ν) (m : HashMap κ ν) : List ν :=
  (rankBy key ((order.entries m).map Sigma.snd)).take k

/-- The entries with larger values. -/
def largerEntries (key : ν → R) (m : HashMap κ ν) (v : ν) : Multiset (Σ _ : κ, ν) :=
  m.entries.filter fun e => key v < key e.2

variable [DecidableEq κ]

/-- The entries of other names with values as large. -/
def rivalEntries (key : ν → R) (name : ν → κ) (m : HashMap κ ν) (v : ν) :
    Multiset (Σ _ : κ, ν) :=
  m.entries.filter fun e => name e.2 ≠ name v ∧ key v ≤ key e.2

omit [DecidableEq κ] in
theorem length_filter_values (order : HashMap.Order κ ν) (m : HashMap κ ν) (p : ν → Prop)
    [DecidablePred p] :
    (((order.entries m).map Sigma.snd).filter fun v => p v).length =
      (m.entries.filter fun e => p e.2).card := by
  rw [List.filter_map, List.length_map, ← order.entries_eq m, Multiset.filter_coe,
    Multiset.coe_card]
  rfl

/-- A map that has `g k` under the keys of a set, and nothing under others. -/
theorem entries_eq_map {m : HashMap κ ν} {s : Finset κ} {g : κ → ν}
    (h : ∀ k, m.lookup k = if k ∈ s then some (g k) else none) :
    m.entries = s.val.map fun k => ⟨k, g k⟩ := by
  have himage : (s.val.map fun k => (⟨k, g k⟩ : Σ _ : κ, ν)).Nodup :=
    s.nodup.map fun _ _ heq => congrArg Sigma.fst heq
  refine (Multiset.Nodup.ext m.nodupKeys.nodup himage).mpr fun e => ?_
  rw [← Finmap.mem_lookup_iff, Option.mem_def, h, Multiset.mem_map]
  constructor
  · intro he
    split at he
    next hmem => exact ⟨e.1, hmem, Sigma.ext rfl (heq_of_eq (Option.some.inj he))⟩
    next => cases he
  · rintro ⟨k, hk, rfl⟩
    exact if_pos hk

theorem card_filter_entries {m : HashMap κ ν} {s : Finset κ} {g : κ → ν}
    (h : ∀ k, m.lookup k = if k ∈ s then some (g k) else none) (p : ν → Prop)
    [DecidablePred p] :
    (m.entries.filter fun e => p e.2).card = (s.filter fun k => p (g k)).card := by
  rw [entries_eq_map h, Multiset.filter_map, Multiset.card_map]
  rfl

variable {key : ν → R} {name : ν → κ} {m : HashMap κ ν}

theorem map_name_values (hname : ∀ j w, m.lookup j = some w → name w = j)
    (order : HashMap.Order κ ν) :
    ((order.entries m).map Sigma.snd).map name = (order.entries m).map Sigma.fst := by
  rw [List.map_map]
  exact List.map_congr_left fun e he => hname e.1 e.2 (order.lookup_of_mem he)

omit [DecidableEq κ] in
theorem pairwise_leaders (k : Nat) (order : HashMap.Order κ ν) (m : HashMap κ ν) :
    (leaders key k order m).Pairwise fun v w => key w ≤ key v :=
  (pairwise_rankBy key _).sublist (List.take_sublist k _)

omit [DecidableEq κ] in
theorem length_leaders (k : Nat) (order : HashMap.Order κ ν) (m : HashMap κ ν) :
    (leaders key k order m).length = min k m.entries.card := by
  rw [leaders, List.length_take, (perm_rankBy key _).length_eq, List.length_map,
    ← order.entries_eq m, Multiset.coe_card]

theorem nodup_leaders (hname : ∀ j w, m.lookup j = some w → name w = j) (k : Nat)
    (order : HashMap.Order κ ν) : ((leaders key k order m).map name).Nodup := by
  have hall : ((rankBy key ((order.entries m).map Sigma.snd)).map name).Nodup := by
    rw [((perm_rankBy key _).map name).nodup_iff, map_name_values hname order]
    exact order.nodupKeys m
  exact hall.sublist ((List.take_sublist k _).map name)

theorem lookup_of_mem_leaders {order : HashMap.Order κ ν} {k : Nat} {v : ν}
    (hname : ∀ j w, m.lookup j = some w → name w = j) (h : v ∈ leaders key k order m) :
    m.lookup (name v) = some v := by
  have hmem := (perm_rankBy key _).mem_iff.mp (List.mem_of_mem_take h)
  obtain ⟨e, he, rfl⟩ := List.mem_map.mp hmem
  have hlookup := order.lookup_of_mem he
  rwa [hname e.1 e.2 hlookup]

/-- A value can be among the first `k` if fewer than `k` are larger. -/
theorem exists_mem_leaders_iff (hname : ∀ j w, m.lookup j = some w → name w = j) (k : Nat)
    (v : ν) :
    (∃ order : HashMap.Order κ ν, v ∈ leaders key k order m) ↔
      m.lookup (name v) = some v ∧ (largerEntries key m v).card < k := by
  constructor
  · rintro ⟨order, h⟩
    refine ⟨lookup_of_mem_leaders hname h, ?_⟩
    have hlarger := length_larger_lt key h
    rwa [length_filter_values order m fun w => key v < key w] at hlarger
  · rintro ⟨hlookup, hlarger⟩
    -- visit the value first
    obtain ⟨rest, hrest⟩ := Multiset.exists_cons_of_mem (Finmap.mem_lookup_iff.mp hlookup)
    have hlist : ((⟨name v, v⟩ :: rest.toList : List (Σ _ : κ, ν)) : Multiset _) = m.entries := by
      rw [hrest, ← Multiset.cons_coe, Multiset.coe_toList]
    obtain ⟨order, horder⟩ := HashMap.Order.exists_entries hlist
    refine ⟨order, ?_⟩
    have hcount := length_filter_values order m fun w => key v < key w
    rw [horder, List.map_cons, List.filter_cons_of_neg (by simp)] at hcount
    rw [leaders, horder, List.map_cons]
    refine mem_take_rankBy key ?_
    rw [hcount]
    exact hlarger

/-- A value is among the first `k` in any case if fewer than `k` others are as large. -/
theorem forall_mem_leaders_iff (hname : ∀ j w, m.lookup j = some w → name w = j) (k : Nat)
    (v : ν) :
    (∀ order : HashMap.Order κ ν, v ∈ leaders key k order m) ↔
      m.lookup (name v) = some v ∧ (rivalEntries key name m v).card < k := by
  constructor
  · intro h
    have hlookup := lookup_of_mem_leaders hname (h .arbitrary)
    refine ⟨hlookup, ?_⟩
    -- visit the value last
    obtain ⟨rest, hrest⟩ := Multiset.exists_cons_of_mem (Finmap.mem_lookup_iff.mp hlookup)
    have hlist : ((rest.toList ++ [⟨name v, v⟩] : List (Σ _ : κ, ν)) : Multiset _) =
        m.entries := by
      rw [hrest, ← Multiset.coe_add, Multiset.coe_toList, Multiset.coe_singleton,
        Multiset.add_comm, Multiset.singleton_add]
    obtain ⟨order, horder⟩ := HashMap.Order.exists_entries hlist
    have hnames : ∀ e ∈ rest.toList, name e.2 ≠ name v := by
      intro e he heq
      have hnodup := order.nodupKeys m
      rw [horder, List.NodupKeys, List.keys, List.map_append, List.nodup_append] at hnodup
      refine hnodup.2.2 e.1 (List.mem_map_of_mem he) (name v) (by simp) ?_
      have hin : e ∈ order.entries m := by
        rw [horder]
        exact List.mem_append_left _ he
      rw [← heq]
      exact (hname e.1 e.2 (order.lookup_of_mem hin)).symm
    have hmem := h order
    rw [leaders, horder, List.map_append, List.map_singleton] at hmem
    have hrivals := length_rivals_lt (fun hv => by
      obtain ⟨e, he, heq⟩ := List.mem_map.mp hv
      exact hnames e he (congrArg name heq)) hmem
    have hcount := length_filter_values order m fun w => name w ≠ name v ∧ key v ≤ key w
    rw [horder, List.map_append, List.filter_append, List.map_singleton,
      List.filter_cons_of_neg (by simp), List.filter_nil, List.append_nil] at hcount
    rw [rivalEntries, ← hcount, List.filter_congr fun w hw => ?_]
    · exact hrivals
    · obtain ⟨e, he, rfl⟩ := List.mem_map.mp hw
      simp [hnames e he]
  · rintro ⟨hlookup, hrivals⟩ order
    refine mem_take_of_rivals name ?_ ?_ ?_
    · rw [map_name_values hname order]
      exact order.nodupKeys m
    · exact List.mem_map.mpr ⟨⟨name v, v⟩, order.mem_entries.mpr hlookup, rfl⟩
    · rw [length_filter_values order m fun w => name w ≠ name v ∧ key v ≤ key w]
      exact hrivals

end Map

end Lib
end BrowserHeadless
