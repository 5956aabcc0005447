/-
  BrowserHeadless.Collect.Patterns

  Which patterns `wait_for_request` still waits for.

  "Block until a response whose URL contains each substring has arrived (ALL
  semantics)", says src/capture.rs.  A response takes at most one pattern off the
  list: the first pending one its URL contains.  Where one response is the only one
  for two patterns, the second stays pending for ever; which one that is depends on
  the order of the patterns, and `swap_remove` changes that order on the way.

  `takeMatch` is the removal on lists of anything.  Over all orders, a pattern can be
  left although a response for it came if and only if the responses for it can all be
  used up by other patterns (`Crowded`), and this carries over to both collect loops
  (`waitForRequest_all_iff`).
-/

import BrowserHeadless.Collect.Subframe
import Mathlib.Data.List.Perm.Basic

namespace BrowserHeadless
namespace Collect

/-! ## Removing one match after the other -/

section TakeMatch

variable {α β : Type} (E : β → α → Bool)

/-- Remove the first pending item that `r` matches. -/
def takeMatch (pending : List α) (r : β) : List α :=
  match pending.findIdx? (E r) with
  | none => pending
  | some pos => swapRemove pending pos

/-- Some item can be left over: everything that matches it matches an item of its own
    among the others. -/
def Crowded (items : List α) (rs : List β) : Prop :=
  ∃ (p : α) (qs rest : List α), items.Perm (p :: (qs ++ rest)) ∧
    List.Forall₂ (fun r q => E r q = true) (rs.filter fun r => E r p) qs

/-- Every item is matched. -/
def AllMatched (items : List α) (rs : List β) : Prop := ∀ p ∈ items, ∃ r ∈ rs, E r p = true

/-- The exact condition: some item is not matched at all, or none can be left over. -/
def NoneCrowdedOut (items : List α) (rs : List β) : Prop :=
  (∃ p ∈ items, ∀ r ∈ rs, E r p = false) ∨ ¬ Crowded E items rs

variable {E}

theorem swapRemove_perm {l : List α} {i : Nat} (hi : i < l.length) :
    l.Perm (l[i] :: swapRemove l i) := by
  obtain ⟨init, x, rfl⟩ : ∃ init x, l = init ++ [x] :=
    ⟨l.dropLast, l.getLast (List.ne_nil_of_length_pos (Nat.zero_lt_of_lt hi)),
      (List.dropLast_append_getLast _).symm⟩
  rw [swapRemove, List.getLast?_append_cons, List.getLast?_singleton]
  rw [List.length_append, List.length_singleton] at hi
  by_cases hlast : i < init.length
  -- the last item takes the place of the one that is removed
  · simp only [List.set_append_left _ _ hlast, List.getElem_append_left hlast,
      List.dropLast_concat]
    have hset : (x :: init).Perm (init[i] :: init.set i x) := by
      have h := (List.set_perm_cons_eraseIdx hlast x).symm.cons init[i]
      refine List.Perm.trans ?_ h
      exact ((List.getElem_cons_eraseIdx_perm hlast).symm.cons x).trans (.swap _ _ _)
    exact (List.perm_append_singleton x init).trans hset
  · obtain rfl : i = init.length := by omega
    simp only [List.set_append_right _ _ (Nat.le_refl _), Nat.sub_self, List.set_cons_zero,
      List.getElem_concat_length, List.dropLast_concat]
    exact List.perm_append_singleton x init

/-- Behind a removed first item the last one moves up. -/
theorem swapRemove_front (q x : α) (l : List α) : swapRemove (q :: (l ++ [x])) 0 = x :: l := by
  rw [swapRemove, ← List.cons_append, List.getLast?_append_cons, List.getLast?_singleton]
  simp only [List.cons_append, List.set_cons_zero]
  rw [← List.cons_append, List.dropLast_concat]

/-- A match takes one item away. -/
theorem takeMatch_cases (pending : List α) (r : β) :
    (takeMatch E pending r = pending ∧ ∀ q ∈ pending, E r q = false) ∨
    ∃ q, E r q = true ∧ pending.Perm (q :: takeMatch E pending r) := by
  cases hpos : pending.findIdx? (E r) with
  | none =>
      refine Or.inl ⟨by rw [takeMatch, hpos], ?_⟩
      exact List.findIdx?_eq_none_iff.mp hpos
  | some pos =>
      obtain ⟨hlt, hE, -⟩ := List.findIdx?_eq_some_iff_getElem.mp hpos
      refine Or.inr ⟨pending[pos], hE, ?_⟩
      rw [takeMatch, hpos]
      exact swapRemove_perm hlt

/-- An item that nothing matches is never removed. -/
theorem mem_foldl_takeMatch {p : α} {rs : List β} (h : ∀ r ∈ rs, E r p = false)
    {pending : List α} (hp : p ∈ pending) : p ∈ rs.foldl (takeMatch E) pending := by
  induction rs generalizing pending with
  | nil => exact hp
  | cons r rs ih =>
      refine ih (fun r' hr' => h r' (List.mem_cons_of_mem r hr')) ?_
      rcases takeMatch_cases (E := E) pending r with ⟨hsame, -⟩ | ⟨q, hq, hperm⟩
      · rw [hsame]
        exact hp
      · rcases List.mem_cons.mp (hperm.subset hp) with rfl | hmem
        · rw [h r List.mem_cons_self] at hq
          cases hq
        · exact hmem

/-- An item that is left over was crowded out: each of its matches took another one. -/
theorem crowded_of_mem_foldl {p : α} {rs : List β} {pending : List α}
    (hp : p ∈ rs.foldl (takeMatch E) pending) :
    ∃ qs rest : List α, pending.Perm (p :: (qs ++ rest)) ∧
      List.Forall₂ (fun r q => E r q = true) (rs.filter fun r => E r p) qs := by
  induction rs generalizing pending with
  | nil =>
      obtain ⟨l₁, l₂, rfl⟩ := List.append_of_mem hp
      exact ⟨[], l₁ ++ l₂, List.perm_middle, .nil⟩
  | cons r rs ih =>
      obtain ⟨qs, rest, hperm, hall⟩ := ih hp
      rcases takeMatch_cases (E := E) pending r with ⟨hsame, hnone⟩ | ⟨q, hq, hq'⟩
      -- nothing matched, in particular not the item
      · rw [hsame] at hperm
        refine ⟨qs, rest, hperm, ?_⟩
        have hp' : E r p = false := hnone p (hperm.symm.subset List.mem_cons_self)
        rwa [List.filter_cons, if_neg (by simp [hp'])]
      · have hfull : pending.Perm (p :: q :: (qs ++ rest)) :=
          (hq'.trans (hperm.cons q)).trans (.swap _ _ _)
        by_cases hrp : E r p = true
        -- the match was spent on `q`
        · refine ⟨q :: qs, rest, hfull, ?_⟩
          rw [List.filter_cons, if_pos hrp]
          exact .cons hq hall
        · refine ⟨qs, q :: rest, ?_, ?_⟩
          · exact hfull.trans (.cons p List.perm_middle.symm)
          · rwa [List.filter_cons, if_neg hrp]

/-- With the right order of the items each match takes the item in front, and the last
    item moves up; the second one is never reached. -/
theorem mem_foldl_takeMatch_crowd {p q : α} {r : β} {rs : List β} {qs : List α} (rest : List α)
    (h : List.Forall₂ (fun r q => E r q = true) (r :: rs) (q :: qs)) :
    p ∈ (r :: rs).foldl (takeMatch E) (q :: p :: (rest ++ qs.reverse)) := by
  induction rs generalizing r q qs with
  | nil =>
      cases h with
      | cons hq hnil =>
          cases hnil
          have hfront : takeMatch E (q :: p :: (rest ++ [].reverse)) r
              = swapRemove (q :: p :: (rest ++ [].reverse)) 0 := by
            rw [takeMatch, List.findIdx?_cons, hq]
            rfl
          rw [List.foldl_cons, List.foldl_nil, hfront]
          have hperm := swapRemove_perm (l := q :: p :: (rest ++ [].reverse)) (Nat.succ_pos _)
          exact (List.Perm.cons_inv hperm).subset List.mem_cons_self
  | cons r' rs ih =>
      cases h with
      | cons hq hrest =>
          cases qs with
          | nil => cases hrest
          | cons q' qs =>
              have hfront : takeMatch E (q :: p :: (rest ++ (q' :: qs).reverse)) r
                  = q' :: p :: (rest ++ qs.reverse) := by
                have hshape : p :: (rest ++ (q' :: qs).reverse)
                    = (p :: (rest ++ qs.reverse)) ++ [q'] := by simp
                rw [takeMatch, List.findIdx?_cons, hq, hshape]
                exact swapRemove_front q q' _
              rw [List.foldl_cons, hfront]
              exact ih hrest

/-- Being crowded does not depend on the orders. -/
theorem Crowded.perm {items items' : List α} {rs rs' : List β} (h : Crowded E items' rs')
    (hi : items'.Perm items) (hr : rs'.Perm rs) : Crowded E items rs := by
  obtain ⟨p, qs, rest, hperm, hall⟩ := h
  obtain ⟨qs', hall', hqs⟩ := List.perm_comp_forall₂ (hr.symm.filter _) hall
  exact ⟨p, qs', rest, (hi.symm.trans hperm).trans ((hqs.symm.append_right rest).cons p), hall'⟩

/-- A crowded item is left over in some order, although it has matches. -/
theorem Crowded.exists_order {items : List α} {rs : List β} (hcrowd : Crowded E items rs)
    (hmatched : AllMatched E items rs) :
    ∃ (items' : List α) (rs' : List β), items'.Perm items ∧ rs'.Perm rs ∧
      rs'.foldl (takeMatch E) items' ≠ [] := by
  obtain ⟨p, qs, rest, hperm, hall⟩ := hcrowd
  have hsplit : (rs.filter (fun r => E r p) ++ rs.filter (fun r => !E r p)).Perm rs :=
    List.filter_append_perm _ rs
  have hothers : ∀ r ∈ rs.filter fun r => !E r p, E r p = false := by
    intro r hr
    simpa using (List.mem_filter.mp hr).2
  cases hN : rs.filter fun r => E r p with
  | nil =>
      obtain ⟨r, hr, hE⟩ := hmatched p (hperm.symm.subset List.mem_cons_self)
      have hmem : r ∈ rs.filter fun r => E r p := List.mem_filter.mpr ⟨hr, hE⟩
      rw [hN] at hmem
      cases hmem
  | cons r rs₁ =>
      rw [hN] at hall hsplit
      cases qs with
      | nil => cases hall
      | cons q qs =>
          have hitems : (q :: p :: (rest ++ qs.reverse)).Perm items := by
            refine List.Perm.trans ?_ hperm.symm
            refine (List.Perm.swap p q _).trans ((List.Perm.cons q ?_).cons p)
            exact List.perm_append_comm.trans (qs.reverse_perm.append_right rest)
          -- the matches of the item come first, and each takes another one
          have hleft := mem_foldl_takeMatch hothers (mem_foldl_takeMatch_crowd (p := p) rest hall)
          rw [← List.foldl_append] at hleft
          exact ⟨_, _, hitems, hsplit, List.ne_nil_of_mem hleft⟩

/-- When nothing is left, everything is matched. -/
theorem allMatched_of_foldl_eq_nil {items : List α} {rs : List β}
    (hempty : rs.foldl (takeMatch E) items = []) : AllMatched E items rs := by
  intro p hp
  by_contra hnone
  have hleft : p ∈ rs.foldl (takeMatch E) items := by
    refine mem_foldl_takeMatch (fun r hr => ?_) hp
    exact Bool.eq_false_iff.mpr fun hE => hnone ⟨r, hr, hE⟩
  rw [hempty] at hleft
  cases hleft

/-- When everything is matched and nothing crowded out, nothing is left. -/
theorem foldl_takeMatch_eq_nil {items : List α} {rs : List β} (hcrowd : ¬ Crowded E items rs) :
    rs.foldl (takeMatch E) items = [] := by
  rw [List.eq_nil_iff_forall_not_mem]
  intro p hp
  obtain ⟨qs, rest, hperm, hall⟩ := crowded_of_mem_foldl hp
  exact hcrowd ⟨p, qs, rest, hperm, hall⟩

theorem AllMatched.perm {items items' : List α} {rs rs' : List β} (h : AllMatched E items rs)
    (hi : items'.Perm items) (hr : rs'.Perm rs) : AllMatched E items' rs' := by
  intro p hp
  obtain ⟨r, hmem, hE⟩ := h p (hi.subset hp)
  exact ⟨r, hr.symm.subset hmem, hE⟩

/-- In every order nothing is left if and only if everything is matched: this is so
    exactly if some item is not matched at all or none can be crowded out. -/
theorem takeMatch_all_iff (items : List α) (rs : List β) :
    (∀ (items' : List α) (rs' : List β), items'.Perm items → rs'.Perm rs →
      (rs'.foldl (takeMatch E) items' = [] ↔ AllMatched E items rs)) ↔
    NoneCrowdedOut E items rs := by
  constructor
  · intro h
    by_cases hsome : ∃ p ∈ items, ∀ r ∈ rs, E r p = false
    · exact Or.inl hsome
    · refine Or.inr fun hcrowd => ?_
      have hmatched : AllMatched E items rs := by
        intro q hq
        by_contra hnone
        refine hsome ⟨q, hq, fun r hr => ?_⟩
        exact Bool.eq_false_iff.mpr fun hE => hnone ⟨r, hr, hE⟩
      obtain ⟨items', rs', hi, hr, hleft⟩ := hcrowd.exists_order hmatched
      exact hleft ((h items' rs' hi hr).mpr hmatched)
  · intro hcond items' rs' hi hr
    constructor
    · intro hempty
      exact (allMatched_of_foldl_eq_nil hempty).perm hi.symm hr.symm
    · intro hmatched
      rcases hcond with ⟨q, hq, hnone⟩ | hcrowd
      · obtain ⟨r, hr', hE⟩ := hmatched q hq
        rw [hnone r hr'] at hE
        cases hE
      · exact foldl_takeMatch_eq_nil fun hcrowd' => hcrowd (hcrowd'.perm hi hr)

end TakeMatch

/-! ## `wait_for_request` -/

/-- The URL of the response contains the pattern. -/
def Response.contains (r : Response) (p : String) : Bool := urlContains r.url p

/-- A real response with a 2xx or 3xx status. -/
structure Response.Succeeded (r : Response) : Prop where
  real : isRealResource r.url = true
  status : 200 ≤ r.status ∧ r.status < 400

/-- A response that succeeded takes at most one pattern. -/
theorem patternStep_of_succeeded {r : Response} (h : r.Succeeded) (pending : List String) :
    patternStep pending r = .ok (takeMatch Response.contains pending r) := by
  rw [patternStep, h.real, LeanLoop.matchPatterns, takeMatch]
  change _ = Except.ok (match pending.findIdx? fun p => urlContains r.url p with
    | none => pending
    | some pos => swapRemove pending pos)
  cases pending.findIdx? fun p => urlContains r.url p with
  | none => rfl
  | some pos => simp [h.status]

theorem consume_patternStep {rs : List Response} (h : ∀ r ∈ rs, r.Succeeded)
    (pending : List String) :
    Lib.consume patternStep pending rs = .ok (rs.foldl (takeMatch Response.contains) pending) := by
  induction rs generalizing pending with
  | nil => rfl
  | cons r rs ih =>
      rw [Lib.consume_cons_ok (patternStep_of_succeeded (h r List.mem_cons_self) pending)]
      exact ih (fun r' hr' => h r' (List.mem_cons_of_mem r hr')) _

/-- A loop waits for all patterns: whatever the order of the patterns and of the
    responses, none is pending at the end if and only if each is contained in the URL of
    some response. -/
def WaitsForAll {ε : Type} (pendingAfter : List String → List (Delivery ε) →
      Except Error (List String)) (responseOf : Delivery ε → Option Response)
    (patterns : List String) (rs : List Response) : Prop :=
  ∀ (patterns' : List String) (ds : List (Delivery ε)), patterns'.Perm patterns →
    (ds.filterMap responseOf).Perm rs →
    ∃ pending, pendingAfter patterns' ds = .ok pending ∧
      (pending = [] ↔ AllMatched Response.contains patterns rs)

/-- The patterns pending after the lean loop. -/
def LeanLoop.pendingAfter (patterns : List String) (ds : List (Delivery LeanEvent)) :
    Except Error (List String) :=
  (LeanLoop.run patterns ds).map LeanLoop.State.pendingPatterns

/-- The patterns pending after the full loop. -/
def FullLoop.pendingAfter (c : CollectCaptures) (parseUrl : String → Option ParsedUrl)
    (url : String) (patterns : List String) (ds : List (Delivery Event)) :
    Except Error (List String) :=
  (FullLoop.run c parseUrl url patterns ds).map FullLoop.State.pendingPatterns

/-- What holds of the removal holds of a loop whose patterns depend on the responses
    alone. -/
theorem waitsForAll_iff {ε : Type} {pendingAfter : List String → List (Delivery ε) →
      Except Error (List String)} {responseOf : Delivery ε → Option Response}
    (hproj : ∀ patterns ds, pendingAfter patterns ds =
      Lib.consume patternStep patterns (ds.filterMap responseOf))
    (hdeliver : ∀ r, ∃ d, responseOf d = some r) {patterns : List String} {rs : List Response}
    (hrs : ∀ r ∈ rs, r.Succeeded) :
    WaitsForAll pendingAfter responseOf patterns rs ↔
      NoneCrowdedOut Response.contains patterns rs := by
  rw [← takeMatch_all_iff]
  have hafter : ∀ (patterns' : List String) (ds : List (Delivery ε)),
      (ds.filterMap responseOf).Perm rs → pendingAfter patterns' ds =
        .ok ((ds.filterMap responseOf).foldl (takeMatch Response.contains) patterns') := by
    intro patterns' ds hperm
    rw [hproj]
    exact consume_patternStep (fun r hr => hrs r (hperm.subset hr)) patterns'
  constructor
  · intro h items' rs' hi hr
    -- any sequence of responses can be delivered
    choose deliver hdel using hdeliver
    have hback : (rs'.map deliver).filterMap responseOf = rs' := by
      rw [List.filterMap_map]
      exact (List.filterMap_congr fun r _ => hdel r).trans List.filterMap_some
    have hperm : ((rs'.map deliver).filterMap responseOf).Perm rs := by rwa [hback]
    obtain ⟨pending, hpending, hiff⟩ := h items' (rs'.map deliver) hi hperm
    rw [hafter _ _ hperm, hback] at hpending
    rw [Except.ok.inj hpending]
    exact hiff
  · intro h patterns' ds hi hperm
    exact ⟨_, hafter patterns' ds hperm, h patterns' _ hi hperm⟩

/-- Both loops wait for all patterns exactly if some pattern is in no URL anyway, or no
    pattern can be crowded out. -/
theorem waitForRequest_all_iff (patterns : List String) (rs : List Response)
    (hrs : ∀ r ∈ rs, r.Succeeded) :
    (WaitsForAll LeanLoop.pendingAfter LeanLoop.responseOf patterns rs ↔
      NoneCrowdedOut Response.contains patterns rs) ∧
    ∀ (c : CollectCaptures) (parseUrl : String → Option ParsedUrl) (url : String),
      (WaitsForAll (FullLoop.pendingAfter c parseUrl url) FullLoop.responseOf patterns rs ↔
        NoneCrowdedOut Response.contains patterns rs) := by
  refine ⟨waitsForAll_iff ?_ ?_ hrs, fun c parseUrl url => waitsForAll_iff ?_ ?_ hrs⟩
  · intro patterns' ds
    exact LeanLoop.projects_patterns.consume _ _
  · intro r
    exact ⟨{ ev := .responseReceived { requestId := "", type := .other, response := r } }, rfl⟩
  · intro patterns' ds
    exact (FullLoop.projects_patterns c parseUrl).consume _ _
  · intro r
    exact ⟨{ ev := .responseReceived { requestId := "", type := .other, response := r } }, rfl⟩

/-- A login page and its API, one response each. -/
def twoResponses : List Response :=
  [{ url := "https://a.b/login" }, { url := "https://a.b/api/session" }]

/-- The equivalence on two patterns that have a response each. -/
theorem waitForRequest_all_iff_two :
    (∀ r ∈ twoResponses, r.Succeeded) ∧
    (WaitsForAll LeanLoop.pendingAfter LeanLoop.responseOf ["login", "session"] twoResponses ↔
      NoneCrowdedOut Response.contains ["login", "session"] twoResponses) := by
  have h : ∀ r ∈ twoResponses, r.Succeeded := by
    intro r hr
    simp only [twoResponses, List.mem_cons, List.not_mem_nil, or_false] at hr
    rcases hr with rfl | rfl
    · exact ⟨by decide, by decide⟩
    · exact ⟨by decide, by decide⟩
  exact ⟨h, (waitForRequest_all_iff ["login", "session"] twoResponses h).1⟩

/-- The only response, for both patterns. -/
def loginResponse : EventResponseReceived where
  requestId := "1"
  type := .xhr
  response := { url := "https://a.b/api/login" }

/-- The response contains both patterns and takes one: the other stays pending. -/
theorem waitForRequest_onePatternLeft :
    ¬ ∀ (patterns : List String) (ds : List (Delivery LeanEvent)),
        (∀ r ∈ ds.filterMap LeanLoop.responseOf, r.Succeeded) →
        ∀ pending, LeanLoop.pendingAfter patterns ds = .ok pending →
          (pending = [] ↔
            AllMatched Response.contains patterns (ds.filterMap LeanLoop.responseOf)) := by
  intro hclaim
  have hresp : [({ ev := .responseReceived loginResponse } : Delivery LeanEvent)].filterMap
      LeanLoop.responseOf = [loginResponse.response] := rfl
  have h := hclaim ["api", "login"] [{ ev := .responseReceived loginResponse }] ?_ ["login"] (by rfl)
  · rw [hresp] at h
    have hall : AllMatched Response.contains ["api", "login"] [loginResponse.response] := by
      intro p hp
      simp only [List.mem_cons, List.not_mem_nil, or_false] at hp
      rcases hp with rfl | rfl
      · exact ⟨_, List.mem_singleton_self _, by decide⟩
      · exact ⟨_, List.mem_singleton_self _, by decide⟩
    cases h.mpr hall
  · intro r hr
    rw [hresp, List.mem_singleton] at hr
    subst hr
    exact ⟨by decide, by decide⟩

end Collect
end BrowserHeadless
