/-
  BrowserHeadless.Lib.Sort

  Stable sorting, and lists that an order splits.

  `Vec::sort_by` is a stable sort; any two stable sorts are one function, and the one
  used here is `List.insertionSort`, which computes by structural recursion.  Stability
  is stated with filters: elements that are in order among themselves keep their places
  among themselves (`filter_insertionSort`).
-/

import Mathlib.Data.List.Sort
import Mathlib.Data.List.TakeWhile

namespace BrowserHeadless
namespace Lib

variable {α : Type*}

/-- Elements that are in order among themselves stay as they are. -/
theorem filter_insertionSort {r : α → α → Prop} [DecidableRel r] {q : α → Bool} {l : List α}
    (h : (l.filter q).Pairwise r) : (l.insertionSort r).filter q = l.filter q := by
  have hsub : (l.filter q).Sublist ((l.insertionSort r).filter q) := by
    have hsorted := List.sublist_insertionSort h List.filter_sublist
    simpa using hsorted.filter q
  refine (hsub.eq_of_length ?_).symm
  exact ((List.perm_insertionSort r l).filter q).length_eq.symm

/-- A total order sorts every order of a list in the same way. -/
theorem insertionSort_eq_of_perm {r : α → α → Prop} [DecidableRel r] [Std.Total r] [IsTrans α r]
    {l l' : List α} (hr : ∀ a ∈ l, ∀ b ∈ l, r a b → r b a → a = b) (h : l.Perm l') :
    l.insertionSort r = l'.insertionSort r := by
  have hperm : (l.insertionSort r).Perm (l'.insertionSort r) :=
    ((List.perm_insertionSort r l).trans h).trans (List.perm_insertionSort r l').symm
  refine List.Perm.eq_of_pairwise (fun a b ha hb => hr a ?_ b ?_)
    (List.pairwise_insertionSort r l) (List.pairwise_insertionSort r l') hperm
  · exact (List.mem_insertionSort r).mp ha
  · exact h.mem_iff.mpr ((List.mem_insertionSort r).mp hb)

/-- A list in which no element with `q` stands before one with `p` splits into those
    with `p` and those with `q`. -/
theorem filter_or_eq_append {p q : α → Bool} {l : List α}
    (hsorted : l.Pairwise fun a b => ¬ (q a = true ∧ p b = true))
    (hdisj : ∀ a ∈ l, ¬ (p a = true ∧ q a = true)) :
    (l.filter fun a => p a || q a) = l.filter p ++ l.filter q := by
  induction l with
  | nil => rfl
  | cons a l ih =>
      obtain ⟨hhead, htail⟩ := List.pairwise_cons.mp hsorted
      have ih := ih htail fun b hb => hdisj b (List.mem_cons_of_mem a hb)
      have ha := hdisj a List.mem_cons_self
      by_cases hp : p a = true
      · have hq : q a = false := Bool.eq_false_iff.mpr fun hq => ha ⟨hp, hq⟩
        simp [hp, hq, ih]
      · by_cases hq : q a = true
        -- behind an element with `q` there is none with `p`
        · have hnone : l.filter p = [] := by
            rw [List.filter_eq_nil_iff]
            exact fun b hb hpb => hhead b hb ⟨hq, hpb⟩
          simp [hp, hq, ih, hnone]
        · simp [hp, hq, ih]

/-- The last element, if it passes a filter, is the last one that does. -/
theorem getLast?_filter_of_getLast? {q : α → Bool} {l : List α} {a : α} (h : l.getLast? = some a)
    (ha : q a = true) : (l.filter q).getLast? = some a := by
  obtain ⟨init, rfl⟩ := List.getLast?_eq_some_iff.mp h
  rw [List.filter_append, List.filter_cons, if_pos ha, List.filter_nil]
  exact List.getLast?_concat

/-! ## The largest elements -/

/-- `sort_by_key(Reverse(key))`. -/
def sortBy (key : α → Nat) (l : List α) : List α := l.insertionSort fun a b => key b ≤ key a

/-- `sort_by_key(Reverse(key))`, then `truncate(k)`. -/
def topBy (key : α → Nat) (k : Nat) (l : List α) : List α := (sortBy key l).take k

section TopBy

variable (key : α → Nat)

instance keyTotal : Std.Total fun a b : α => key b ≤ key a := ⟨fun a b => Nat.le_total (key b) (key a)⟩

instance keyTrans : IsTrans α fun a b => key b ≤ key a := ⟨fun _ _ _ hab hbc => Nat.le_trans hbc hab⟩

theorem pairwise_sortBy (l : List α) : (sortBy key l).Pairwise fun a b => key b ≤ key a :=
  List.pairwise_insertionSort _ l

theorem perm_sortBy (l : List α) : (sortBy key l).Perm l := List.perm_insertionSort _ l

/-- The first elements of the sorted list. -/
theorem exists_perm_topBy (k : Nat) (l : List α) :
    ∃ all : List α, all.Perm l ∧ all.Pairwise (fun a b => key b ≤ key a) ∧
      topBy key k l = all.take k :=
  ⟨_, perm_sortBy key l, pairwise_sortBy key l, rfl⟩

/-! ### Ties -/

/-- The number of elements with a larger key. -/
def above (l : List α) (n : Nat) : Nat := (l.filter fun b => n < key b).length

theorem above_perm {l l' : List α} (h : l.Perm l') (n : Nat) : above key l n = above key l' n :=
  (h.filter _).length_eq

/-- Elements with the same key, of which at least the first has a place among the `k`
    largest, look the same. -/
def Settled {β : Type*} (g : α → β) (k : Nat) (l : List α) : Prop :=
  ∀ a ∈ l, ∀ b ∈ l, key a = key b → above key l (key a) < k → g a = g b

/-- In a sorted list the larger elements come first. -/
theorem above_le_of_sorted {s : List α} (hs : s.Pairwise fun a b => key b ≤ key a) {i : Nat}
    (hi : i < s.length) : above key s (key s[i]) ≤ i := by
  have hsplit : (s.filter fun b => key s[i] < key b) =
      ((s.take i).filter fun b => key s[i] < key b) ++
        (s.drop i).filter fun b => key s[i] < key b := by
    rw [← List.filter_append, List.take_append_drop]
  have hdrop : ((s.drop i).filter fun b => key s[i] < key b) = [] := by
    rw [List.filter_eq_nil_iff]
    intro b hb
    rw [List.drop_eq_getElem_cons hi] at hb
    have htail := List.Pairwise.sublist (List.drop_sublist i s) hs
    rw [List.drop_eq_getElem_cons hi, List.pairwise_cons] at htail
    rw [decide_eq_true_eq, Nat.not_lt]
    rcases List.mem_cons.mp hb with rfl | hb
    · exact Nat.le_refl _
    · exact htail.1 b hb
  have htake : ((s.take i).filter fun b => key s[i] < key b).length ≤ i :=
    (List.length_filter_le _ _).trans (List.length_take_le i s)
  rw [above, hsplit, hdrop, List.append_nil]
  exact htake

/-- The first element comes right behind the larger ones. -/
theorem getElem?_sortBy_cons (a : α) (l : List α) :
    (sortBy key (a :: l))[above key l (key a)]? = some a := by
  have htake : ∀ s : List α, s.Pairwise (fun a b => key b ≤ key a) →
      (s.takeWhile fun b => ¬ key b ≤ key a).length = above key s (key a) := by
    intro s hs
    induction s with
    | nil => rfl
    | cons b s ih =>
        obtain ⟨hb, hrest⟩ := List.pairwise_cons.mp hs
        rw [above, List.takeWhile_cons, List.filter_cons]
        by_cases hlt : key a < key b
        · rw [if_pos (by simpa using hlt), if_pos (by simpa using hlt), List.length_cons,
            List.length_cons, ih hrest, above]
        · -- nothing larger comes behind an element that is not
          have hnone : (s.filter fun b => key a < key b) = [] := by
            rw [List.filter_eq_nil_iff]
            intro c hc
            have hcb := hb c hc
            rw [decide_eq_true_eq]
            omega
          rw [if_neg (by simpa using hlt), if_neg (by simpa using hlt), hnone]
  have hlen := htake _ (pairwise_sortBy key l)
  rw [above_perm key (perm_sortBy key l), sortBy] at hlen
  rw [sortBy, List.insertionSort_cons_eq_take_drop, ← hlen,
    List.getElem?_append_right (Nat.le_refl _), Nat.sub_self]
  rfl

/-- The largest elements are the same for every order of the list, as far as `g` shows
    them, exactly if ties are settled. -/
theorem topBy_perm_iff {β : Type*} (g : α → β) (k : Nat) (l : List α) :
    (∀ l', l.Perm l' → (topBy key k l).map g = (topBy key k l').map g) ↔ Settled key g k l := by
  constructor
  · intro h a ha b hb hkey habove
    -- put either one to the front
    have hfront : ∀ c ∈ l, key c = key a →
        ((topBy key k l).map g)[above key l (key a)]? = some (g c) := by
      intro c hc hca
      obtain ⟨s, t, rfl⟩ := List.append_of_mem hc
      have hrest : above key (s ++ c :: t) (key a) = above key (s ++ t) (key c) := by
        rw [above_perm key List.perm_middle, above, List.filter_cons, hca,
          if_neg (by simp), ← above]
      rw [h _ List.perm_middle, List.getElem?_map, topBy, List.getElem?_take, if_pos habove, hrest,
        getElem?_sortBy_cons]
      rfl
    exact Option.some.inj ((hfront a ha rfl).symm.trans (hfront b hb hkey.symm))
  · intro h l' hperm
    have hs := pairwise_sortBy key l
    have hs' := pairwise_sortBy key l'
    have hsort : (sortBy key l).Perm (sortBy key l') :=
      ((perm_sortBy key l).trans hperm).trans (perm_sortBy key l').symm
    -- both sorted lists have the same keys
    have hkeys : (sortBy key l).map key = (sortBy key l').map key :=
      (hsort.map key).eq_of_pairwise (fun _ _ _ _ h h' => Nat.le_antisymm h' h)
        (List.pairwise_map.mpr hs) (List.pairwise_map.mpr hs')
    refine List.ext_getElem ?_ fun i hi hi' => ?_
    · simp only [topBy, List.length_map, List.length_take, hsort.length_eq]
    · simp only [topBy, List.length_map, List.length_take, Nat.lt_min] at hi hi'
      simp only [topBy, List.getElem_map, List.getElem_take]
      have hkey : key (sortBy key l)[i] = key (sortBy key l')[i] := by
        have hget := List.getElem_of_eq hkeys (i := i) (by simpa using hi.2)
        simpa only [List.getElem_map] using hget
      refine h _ ?_ _ ?_ hkey ?_
      · exact (perm_sortBy key l).subset (List.getElem_mem hi.2)
      · exact ((perm_sortBy key l').trans hperm.symm).subset (List.getElem_mem hi'.2)
      · rw [← above_perm key (perm_sortBy key l)]
        exact Nat.lt_of_le_of_lt (above_le_of_sorted key hs hi.2) hi.1

/-- Every order of a derived list comes from an order of the list. -/
theorem exists_perm_filterMap {β : Type*} {f : β → Option α} {l : List β} {m : List α}
    (h : (l.filterMap f).Perm m) : ∃ l', l.Perm l' ∧ l'.filterMap f = m := by
  induction m generalizing l with
  | nil => exact ⟨l, .refl l, h.eq_nil⟩
  | cons a m ih =>
      obtain ⟨b, hb, hfb⟩ := List.mem_filterMap.mp (h.mem_iff.mpr List.mem_cons_self)
      obtain ⟨s, t, rfl⟩ := List.append_of_mem hb
      have hrest : ((s ++ t).filterMap f).Perm m := by
        have hfront := (List.perm_middle.symm.filterMap f).trans h
        rw [List.filterMap_cons_some hfb] at hfront
        exact hfront.cons_inv
      obtain ⟨l', hperm, hl'⟩ := ih hrest
      refine ⟨b :: l', List.perm_middle.trans (hperm.cons b), ?_⟩
      rw [List.filterMap_cons_some hfb, hl']

/-- The same for the largest elements of a derived list. -/
theorem topBy_filterMap_iff {β γ : Type*} (g : α → γ) (k : Nat) (f : β → Option α) (l : List β) :
    (∀ l', l.Perm l' → (topBy key k (l.filterMap f)).map g = (topBy key k (l'.filterMap f)).map g) ↔
      Settled key g k (l.filterMap f) := by
  rw [← topBy_perm_iff]
  constructor
  · intro h m hm
    obtain ⟨l', hperm, rfl⟩ := exists_perm_filterMap hm
    exact h l' hperm
  · exact fun h l' hperm => h _ (hperm.filterMap f)

theorem map_filter_eq_filterMap {β : Type*} (p : β → Bool) (f : β → α) (l : List β) :
    (l.filter p).map f = l.filterMap fun a => if p a then some (f a) else none := by
  induction l with
  | nil => rfl
  | cons a l ih =>
      rw [List.filter_cons, List.filterMap_cons]
      cases p a with
      | true => exact congrArg _ ih
      | false => exact ih

/-- The same for entries made of the elements that pass a filter. -/
theorem topBy_map_filter_iff {β : Type*} (k : Nat) (p : β → Bool) (f : β → α) (l : List β) :
    (∀ l', l.Perm l' → topBy key k ((l.filter p).map f) = topBy key k ((l'.filter p).map f)) ↔
      Settled key id k ((l.filter p).map f) := by
  simp only [map_filter_eq_filterMap]
  rw [← topBy_filterMap_iff]
  simp only [List.map_id]

end TopBy

/-! ## Keys of any order -/

/-- `sort_by(|a, b| key(b).cmp(key(a)))`. -/
def rankBy {R : Type*} [LinearOrder R] (key : α → R) (l : List α) : List α :=
  l.insertionSort fun a b => key b ≤ key a

section RankBy

variable {R : Type*} [LinearOrder R] (key : α → R)

instance rankTotal : Std.Total fun a b : α => key b ≤ key a := ⟨fun a b => le_total (key b) (key a)⟩

instance rankTrans : IsTrans α fun a b => key b ≤ key a := ⟨fun _ _ _ hab hbc => hbc.trans hab⟩

theorem pairwise_rankBy (l : List α) : (rankBy key l).Pairwise fun a b => key b ≤ key a :=
  List.pairwise_insertionSort _ l

theorem perm_rankBy (l : List α) : (rankBy key l).Perm l := List.perm_insertionSort _ l

/-- What is in order already stays as it is. -/
theorem rankBy_of_pairwise {l : List α} (h : l.Pairwise fun a b => key b ≤ key a) :
    rankBy key l = l :=
  List.Pairwise.insertionSort_eq h

/-- The elements with larger keys all come before an element. -/
theorem length_larger_lt {l : List α} {k : Nat} {a : α} (h : a ∈ (rankBy key l).take k) :
    (l.filter fun b => key a < key b).length < k := by
  have hsorted := pairwise_rankBy key l
  rw [← List.take_append_drop k (rankBy key l), List.pairwise_append] at hsorted
  have hdrop : (((rankBy key l).drop k).filter fun b => key a < key b) = [] := by
    rw [List.filter_eq_nil_iff]
    intro b hb
    simpa using hsorted.2.2 a h b hb
  have hfewer : (((rankBy key l).take k).filter fun b => key a < key b).length <
      ((rankBy key l).take k).length :=
    List.length_filter_lt_length_iff_exists.mpr ⟨a, h, by simp⟩
  rw [← ((perm_rankBy key l).filter _).length_eq, ← List.take_append_drop k (rankBy key l),
    List.filter_append, hdrop, List.append_nil]
  exact Nat.lt_of_lt_of_le hfewer (List.length_take_le k _)

/-- The first of its key comes right behind the elements with larger keys. -/
theorem mem_take_rankBy {a : α} {l : List α} {k : Nat}
    (h : (l.filter fun b => key a < key b).length < k) : a ∈ (rankBy key (a :: l)).take k := by
  have hcons : rankBy key (a :: l) = ((rankBy key l).takeWhile fun b => ¬ key b ≤ key a) ++
      a :: (rankBy key l).dropWhile fun b => ¬ key b ≤ key a :=
    List.insertionSort_cons_eq_take_drop _ a l
  have hlarger : ((rankBy key l).takeWhile fun b => ¬ key b ≤ key a).length ≤
      (l.filter fun b => key a < key b).length := by
    rw [← ((perm_rankBy key l).filter _).length_eq]
    have hall : ((rankBy key l).takeWhile fun b => ¬ key b ≤ key a).filter
        (fun b => key a < key b) = (rankBy key l).takeWhile fun b => ¬ key b ≤ key a := by
      refine List.filter_eq_self.mpr fun b hb => ?_
      simpa using List.mem_takeWhile_imp hb
    rw [← hall]
    exact ((List.takeWhile_sublist _).filter _).length_le
  obtain ⟨n, hn⟩ := Nat.exists_eq_add_of_lt (Nat.lt_of_le_of_lt hlarger h)
  have hsub : k - ((rankBy key l).takeWhile fun b => ¬ key b ≤ key a).length = n + 1 := by omega
  rw [hcons, List.take_append, hsub, List.take_succ_cons]
  exact List.mem_append_right _ List.mem_cons_self

end RankBy

end Lib
end BrowserHeadless
