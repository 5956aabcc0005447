/-
  BrowserHeadless.Lib.Ranked

  Rankings by count, the largest first, in which ties are broken by name.

  Where no two elements share a name the order is strict, and every order of the same elements
  is ranked in the same way (`ranked_perm`).  In a list in strict order the first `k` places go
  to the elements that fewer than `k` others come before (`mem_take_of_pairwise`).
-/

import BrowserHeadless.Lib.Sort

namespace BrowserHeadless
namespace Lib

variable {α κ : Type*} [LinearOrder κ] (name : α → κ) (count : α → Nat)

/-- More first, then by name. -/
def RankLe (a b : α) : Prop := count b < count a ∨ (count b = count a ∧ name a ≤ name b)

/-- The strict order of the ranking. -/
def RankLt (a b : α) : Prop := count b < count a ∨ (count b = count a ∧ name a < name b)

instance : DecidableRel (RankLe name count) := fun a b => by
  unfold RankLe
  infer_instance

instance : DecidableRel (RankLt name count) := fun a b => by
  unfold RankLt
  infer_instance

/-- No two elements share a name. -/
def Named (l : List α) : Prop := (l.map name).Nodup

variable {name count}

theorem RankLe.total (a b : α) : RankLe name count a b ∨ RankLe name count b a := by
  unfold RankLe
  rcases Nat.lt_trichotomy (count a) (count b) with h | h | h
  · exact .inr (.inl h)
  · rcases le_total (name a) (name b) with hle | hle
    · exact .inl (.inr ⟨h.symm, hle⟩)
    · exact .inr (.inr ⟨h, hle⟩)
  · exact .inl (.inl h)

theorem RankLe.trans {a b c : α} (hab : RankLe name count a b) (hbc : RankLe name count b c) :
    RankLe name count a c := by
  unfold RankLe at *
  rcases hab with hab | ⟨hab, hname⟩
  · rcases hbc with hbc | ⟨hbc, -⟩ <;> exact .inl (by omega)
  · rcases hbc with hbc | ⟨hbc, hname'⟩
    · exact .inl (by omega)
    · exact .inr ⟨by omega, hname.trans hname'⟩

/-- Elements that rank equally share their name. -/
theorem RankLe.name_eq {a b : α} (hab : RankLe name count a b) (hba : RankLe name count b a) :
    name a = name b := by
  unfold RankLe at *
  rcases hab with hab | ⟨hab, hname⟩
  · rcases hba with hba | ⟨hba, -⟩ <;> omega
  · rcases hba with hba | ⟨-, hname'⟩
    · omega
    · exact le_antisymm hname hname'

theorem RankLt.asymm {a b : α} (hab : RankLt name count a b) : ¬RankLt name count b a := by
  unfold RankLt at *
  rcases hab with hab | ⟨hab, hname⟩
  · rintro (hba | ⟨hba, -⟩) <;> omega
  · rintro (hba | ⟨-, hname'⟩)
    · omega
    · exact lt_asymm hname hname'

instance : Std.Total (RankLe name count) := ⟨RankLe.total⟩

instance : IsTrans α (RankLe name count) := ⟨fun _ _ _ => RankLe.trans⟩

/-! ## Rankings -/

variable (name count) in
/-- The elements in the order of the ranking. -/
def ranked (l : List α) : List α := l.insertionSort (RankLe name count)

omit [LinearOrder κ] in
theorem Named.eq_of_mem {l : List α} (hl : Named name l) {a b : α} (ha : a ∈ l) (hb : b ∈ l)
    (h : name a = name b) : a = b :=
  List.inj_on_of_nodup_map hl ha hb h

variable (count) in
/-- Every order of the same elements is ranked in the same way. -/
theorem ranked_perm {l l' : List α} (hl : Named name l) (h : l.Perm l') :
    ranked name count l = ranked name count l' :=
  insertionSort_eq_of_perm (fun _ ha _ hb hab hba => hl.eq_of_mem ha hb (hab.name_eq hba)) h

/-! ## The first places -/

/-- What comes before an element of a list in strict order. -/
theorem filter_lt_of_pairwise {r : α → α → Prop} [DecidableRel r]
    (hasymm : ∀ a b, r a b → ¬r b a) {a : α} {pre post : List α}
    (h : (pre ++ a :: post).Pairwise r) : (pre ++ a :: post).filter (fun b => r b a) = pre := by
  rw [List.pairwise_append, List.pairwise_cons] at h
  obtain ⟨-, ⟨hpost, -⟩, hpre⟩ := h
  have hall : pre.filter (fun b => r b a) = pre :=
    List.filter_eq_self.mpr fun b hb => by simpa using hpre b hb a List.mem_cons_self
  have hnone : post.filter (fun b => r b a) = [] :=
    List.filter_eq_nil_iff.mpr fun b hb => by simpa using hasymm a b (hpost b hb)
  have hself : ¬r a a := fun haa => hasymm a a haa haa
  rw [List.filter_append, List.filter_cons_of_neg (by simpa using hself), hall, hnone,
    List.append_nil]

/-- An element of a list in strict order is among the first `k` if fewer than `k` others come
    before it. -/
theorem mem_take_of_pairwise {r : α → α → Prop} [DecidableRel r]
    (hasymm : ∀ a b, r a b → ¬r b a) {l : List α} (hl : l.Pairwise r) {a : α} (ha : a ∈ l)
    (k : Nat) : a ∈ l.take k ↔ (l.filter fun b => r b a).length < k := by
  obtain ⟨pre, post, rfl⟩ := List.append_of_mem ha
  rw [filter_lt_of_pairwise hasymm hl]
  constructor
  · intro hmem
    by_contra hle
    rw [List.take_append_of_le_length (by omega)] at hmem
    have hpre := (List.pairwise_append.mp hl).2.2 a (List.mem_of_mem_take hmem) a
      List.mem_cons_self
    exact hasymm a a hpre hpre
  · intro hlt
    obtain ⟨n, hn⟩ := Nat.exists_eq_add_of_lt hlt
    have hsub : k - pre.length = n + 1 := by omega
    rw [List.take_append, hsub, List.take_succ_cons]
    exact List.mem_append_right _ List.mem_cons_self

end Lib
end BrowserHeadless
