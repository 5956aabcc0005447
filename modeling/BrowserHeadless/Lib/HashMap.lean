/-
  BrowserHeadless.Lib.HashMap

  The operations of a hash map on Mathlib's `Finmap`.

  A `Finmap` forgets the iteration order, which a hash map does not promise:
  two maps are equal as soon as every lookup agrees, and the values of a map are
  a multiset.
-/

import Mathlib.Data.Finmap

namespace BrowserHeadless
namespace Lib

/-- A finite map with keys `κ` and values `ν`. -/
abbrev HashMap (κ ν : Type*) := Finmap fun _ : κ => ν

namespace HashMap

variable {κ ν : Type*} [DecidableEq κ]

/-- `entry(k).or_insert(d)`, then an update of the entry in place. -/
def upsert (m : HashMap κ ν) (k : κ) (d : ν) (f : ν → ν) : HashMap κ ν :=
  m.insert k (f ((m.lookup k).getD d))

/-- `get_mut(k)`, then an update of the entry in place. -/
def modify (m : HashMap κ ν) (k : κ) (f : ν → ν) : HashMap κ ν :=
  match m.lookup k with
  | some v => m.insert k (f v)
  | none => m

/-- `retain`: keep the entries whose value passes `p`. -/
def retain (m : HashMap κ ν) (p : ν → Bool) : HashMap κ ν where
  entries := m.entries.filter fun e => p e.2
  nodupKeys := by
    obtain ⟨⟨l⟩, hl⟩ := m
    exact List.NodupKeys.sublist List.filter_sublist hl

/-- `into_values`. -/
def values (m : HashMap κ ν) : Multiset ν := m.entries.map fun e => e.2

@[simp] theorem lookup_upsert_self (m : HashMap κ ν) (k : κ) (d : ν) (f : ν → ν) :
    (m.upsert k d f).lookup k = some (f ((m.lookup k).getD d)) :=
  Finmap.lookup_insert m

theorem lookup_upsert_ne (m : HashMap κ ν) {j k : κ} (d : ν) (f : ν → ν) (h : j ≠ k) :
    (m.upsert k d f).lookup j = m.lookup j :=
  Finmap.lookup_insert_of_ne m h

@[simp] theorem lookup_modify_self (m : HashMap κ ν) (k : κ) (f : ν → ν) :
    (m.modify k f).lookup k = (m.lookup k).map f := by
  unfold modify
  cases h : m.lookup k with
  | none => exact h
  | some v => exact Finmap.lookup_insert m

theorem lookup_modify_ne (m : HashMap κ ν) {j k : κ} (f : ν → ν) (h : j ≠ k) :
    (m.modify k f).lookup j = m.lookup j := by
  unfold modify
  cases m.lookup k with
  | none => rfl
  | some v => exact Finmap.lookup_insert_of_ne m h

/-- What `retain` leaves under a key. -/
theorem lookup_retain (m : HashMap κ ν) (p : ν → Bool) (k : κ) :
    (m.retain p).lookup k = (m.lookup k).filter p := by
  refine Option.ext fun v => ?_
  rw [← Option.mem_def, Finmap.mem_lookup_iff, Option.filter_eq_some_iff, ← Option.mem_def,
    Finmap.mem_lookup_iff]
  exact Multiset.mem_filter

/-- An order in which the entries of every map are visited; a hash map promises
    none in particular. -/
structure Order (κ ν : Type*) where
  entries : HashMap κ ν → List (Σ _ : κ, ν)
  entries_eq : ∀ m, (entries m : Multiset (Σ _ : κ, ν)) = m.entries

/-- An arbitrary order. -/
noncomputable def Order.arbitrary : Order κ ν where
  entries := fun m => m.entries.toList
  entries_eq := fun m => m.entries.coe_toList

omit [DecidableEq κ] in
theorem Order.nodupKeys (order : Order κ ν) (m : HashMap κ ν) : (order.entries m).NodupKeys := by
  have h := m.nodupKeys
  rwa [← order.entries_eq m] at h

theorem Order.mem_entries (order : Order κ ν) {m : HashMap κ ν} {e : Σ _ : κ, ν} :
    e ∈ order.entries m ↔ m.lookup e.1 = some e.2 := by
  rw [← Multiset.mem_coe, order.entries_eq]
  exact Finmap.mem_lookup_iff.symm

theorem Order.lookup_of_mem (order : Order κ ν) {m : HashMap κ ν} {e : Σ _ : κ, ν}
    (he : e ∈ order.entries m) : m.lookup e.1 = some e.2 :=
  order.mem_entries.mp he

theorem Order.dlookup (order : Order κ ν) (m : HashMap κ ν) (k : κ) :
    (order.entries m).dlookup k = m.lookup k := by
  refine Option.ext fun v => ?_
  rw [← Option.mem_def, List.mem_dlookup_iff (order.nodupKeys m), order.mem_entries]

/-- The entries of a map, read along a list that has all its keys. -/
theorem Order.entries_perm (order : Order κ ν) {m : HashMap κ ν} {keys : List κ}
    (hkeys : keys.Nodup) (h : ∀ k v, m.lookup k = some v → k ∈ keys) :
    (order.entries m).Perm (keys.filterMap fun k => (m.lookup k).map fun v => ⟨k, v⟩) := by
  have hentries : (order.entries m).Nodup := List.Nodup.of_map Sigma.fst (order.nodupKeys m)
  have hread : (keys.filterMap fun k =>
      (m.lookup k).map fun v => (⟨k, v⟩ : Σ _ : κ, ν)).Nodup := by
    refine hkeys.filterMap fun k k' e hk hk' => ?_
    obtain ⟨v, -, rfl⟩ := Option.map_eq_some_iff.mp hk
    obtain ⟨v', -, heq⟩ := Option.map_eq_some_iff.mp hk'
    exact (congrArg Sigma.fst heq).symm
  refine (List.perm_ext_iff_of_nodup hentries hread).mpr fun e => ?_
  rw [order.mem_entries, List.mem_filterMap]
  constructor
  · intro he
    exact ⟨e.1, h e.1 e.2 he, by rw [he]; rfl⟩
  · rintro ⟨k, -, hk⟩
    obtain ⟨v, hv, rfl⟩ := Option.map_eq_some_iff.mp hk
    exact hv

omit [DecidableEq κ] in
/-- Any order of the entries of one map is possible. -/
theorem Order.exists_entries {m : HashMap κ ν} {es : List (Σ _ : κ, ν)}
    (h : (es : Multiset (Σ _ : κ, ν)) = m.entries) : ∃ order : Order κ ν, order.entries m = es := by
  classical
  refine ⟨⟨fun m' => if m' = m then es else m'.entries.toList, fun m' => ?_⟩, if_pos rfl⟩
  by_cases hm : m' = m
  · rw [if_pos hm, h, hm]
  · rw [if_neg hm, Multiset.coe_toList]

/-- Inserting entries with distinct keys. -/
theorem lookup_foldl_insert {es : List (Σ _ : κ, ν)} (hes : es.NodupKeys) (m : HashMap κ ν) (k : κ) :
    (es.foldl (fun acc e => acc.insert e.1 e.2) m).lookup k = (es.dlookup k).or (m.lookup k) := by
  induction es generalizing m with
  | nil => rfl
  | cons e es ih =>
      obtain ⟨hout, hrest⟩ := List.nodupKeys_cons.mp hes
      rw [List.foldl_cons, ih hrest]
      by_cases hk : k = e.1
      · subst hk
        rw [List.dlookup_eq_none.mpr hout, List.dlookup_cons_eq, Finmap.lookup_insert]
        rfl
      · rw [Finmap.lookup_insert_of_ne m hk, List.dlookup_cons_ne _ _ hk]

/-- The entries of a map, inserted one after the other, give the map back. -/
theorem Order.foldl_insert (order : Order κ ν) (m : HashMap κ ν) :
    (order.entries m).foldl (fun acc e => acc.insert e.1 e.2) (∅ : HashMap κ ν) = m := by
  refine Finmap.ext_lookup fun k => ?_
  rw [lookup_foldl_insert (order.nodupKeys m), Finmap.lookup_empty, Option.or_none]
  have hm : m = AList.toFinmap ⟨order.entries m, order.nodupKeys m⟩ :=
    Finmap.ext (order.entries_eq m).symm
  conv_rhs => rw [hm]
  rfl

end HashMap
end Lib
end BrowserHeadless
