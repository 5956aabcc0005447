/-
  BrowserHeadless.Collect.ErrorClasses

  What `http_errors` says of each request.

  The two response lists show the last response of a request, the network failures every
  `loadingFailed` event that is no quick abort: also of a request that has been answered
  before or after, and once for each such event.  So each request is classified once, and
  counted once, exactly when no reported failure is of a request with a response and none
  is repeated (`classifiedOnce_iff`).
-/

import BrowserHeadless.Collect.Failures
import Mathlib.Data.Set.Card

namespace BrowserHeadless
namespace Collect
namespace FullLoop

open Lib (HashMap)

/-! ## The requests in the lists -/

/-- The requests in `failed_4xx` or `failed_5xx`, by the range of the list. -/
def failedIds (s : State) (lo hi : Nat) : Finset String :=
  (retained s).keys.filter fun id =>
    ((retained s).lookup id).any fun r => lo ≤ r.status && r.status < hi

/-- The request of each entry of `network_failures`, as the loop appends them. -/
def networkFailureIds (c : CollectCaptures) (parseUrl : String → Option ParsedUrl) :
    State → List (Delivery Event) → List String
  | _, [] => []
  | s, d :: ds =>
      match step c parseUrl s d with
      | .error _ => []
      | .ok s' =>
          (match d.ev with
            | .loadingFailed ev =>
                if s'.httpNetworkFailures = s.httpNetworkFailures then [] else [ev.requestId]
            | _ => []) ++
          networkFailureIds c parseUrl s' ds

/-- A value of a map that passes a test, counted by its key. -/
theorem card_filter_values {κ ν : Type} [DecidableEq κ] (m : HashMap κ ν) (p : ν → Bool) :
    ((HashMap.values m).filter fun v => p v = true).card =
      (m.keys.filter fun k => (m.lookup k).any p).card := by
  have hentries : m.entries.filter (fun e => p e.2 = true) =
      m.entries.filter fun e => (m.lookup e.1).any p = true := by
    refine Multiset.filter_congr fun e he => ?_
    have hlookup : m.lookup e.1 = some e.2 := Finmap.mem_lookup_iff.mpr he
    rw [hlookup]
    rfl
  have hkeys : m.keys.val = m.entries.map fun e => e.1 := rfl
  rw [HashMap.values, Multiset.filter_map, Multiset.card_map, Finset.card, Finset.filter_val, hkeys,
    Multiset.filter_map, Multiset.card_map]
  exact congrArg Multiset.card hentries

theorem card_failedRequests (s : State) (lo hi : Nat) :
    (failedRequests s lo hi).card = (failedIds s lo hi).card := by
  rw [failedRequests, Multiset.card_map, failedIds, ← card_filter_values]
  refine congrArg Multiset.card (Multiset.filter_congr fun r _ => ?_)
  rw [Bool.and_eq_true, decide_eq_true_eq, decide_eq_true_eq]

theorem mem_failedIds {s : State} {lo hi : Nat} {id : String} :
    id ∈ failedIds s lo hi ↔
      ∃ r, (retained s).lookup id = some r ∧ lo ≤ r.status ∧ r.status < hi := by
  rw [failedIds, Finset.mem_filter, Finmap.mem_keys, ← Finmap.lookup_isSome]
  cases h : (retained s).lookup id with
  | none => simp
  | some r => simp

/-- A request has one status. -/
theorem failedIds_disjoint (s : State) {lo mid hi : Nat} :
    Disjoint (failedIds s lo mid) (failedIds s mid hi) := by
  refine Finset.disjoint_left.mpr fun id hlow hhigh => ?_
  obtain ⟨r, hr, -, hlt⟩ := mem_failedIds.mp hlow
  obtain ⟨r', hr', hge, -⟩ := mem_failedIds.mp hhigh
  rw [hr] at hr'
  cases hr'
  omega

/-! ## The failed requests of a sequence -/

/-- The last response of the request is an error, and the request is shown: its URL is
    known and it was not aborted. -/
def ErrorAnswered (c : CollectCaptures) (ds : List (Delivery Event)) (lo hi : Nat)
    (id : String) : Prop :=
  ∃ r, (respondedOf (signals c id ds)).getLast? = some r ∧
    lo ≤ statusAsU32 r.response.status ∧ statusAsU32 r.response.status < hi ∧
    knownUrl c id ds ≠ "" ∧ ¬ QuickAborted c ds id

/-- The request failed: it has a failure that is reported, or an error response. -/
def RequestFailed (c : CollectCaptures) (ds : List (Delivery Event)) (id : String) : Prop :=
  (∃ f ∈ reported c ds, f.ev.requestId = id) ∨ ErrorAnswered c ds 400 600 id

section Run

variable {c : CollectCaptures} {parseUrl : String → Option ParsedUrl} {url : String}
  {waitForRequest : List String} {ds : List (Delivery Event)} {s t : State}

/-- The entries of `network_failures` are of the requests whose failures are reported. -/
theorem networkFailureIds_eq (hc : c.httpErrors = true) {rest : List (Delivery Event)}
    (hs : run c parseUrl url waitForRequest ds = .ok s)
    (ht : run c parseUrl url waitForRequest (ds ++ rest) = .ok t) :
    networkFailureIds c parseUrl s rest =
      ((failuresFrom ds rest).filter fun f => !f.quick c).map fun f => f.ev.requestId := by
  induction rest generalizing ds s with
  | nil => rfl
  | cons d rest ih =>
      rw [run, Lib.consume_append_ok hs] at ht
      obtain ⟨s', hstep, -⟩ := Lib.consume_cons_eq_ok.mp ht
      have hnext := run_concat hs hstep
      have hadds := step_reported hc hs hstep
      have hrest := ih hnext (by rw [List.append_assoc, run, Lib.consume_append_ok hs]; exact ht)
      rw [networkFailureIds, hstep, failuresFrom, List.filter_append, List.map_append]
      dsimp only
      rw [hrest]
      refine congrArg (· ++ _) ?_
      unfold failureAt at hadds ⊢
      cases hev : d.ev with
      | loadingFailed ev =>
          rw [hev] at hadds
          simp only at hadds ⊢
          by_cases hquick : (Failure.mk ds ev).quick c = true
          · have hsame : s'.httpNetworkFailures = s.httpNetworkFailures := by
              rw [hadds]
              simp [hquick]
            rw [if_pos hsame]
            simp [hquick]
          · have hmore : s'.httpNetworkFailures ≠ s.httpNetworkFailures := by
              rw [hadds]
              simp [hquick]
            rw [if_neg hmore]
            simp [hquick]
      | _ => rfl

theorem run_networkFailureIds (hc : c.httpErrors = true)
    (h : run c parseUrl url waitForRequest ds = .ok t) :
    networkFailureIds c parseUrl (State.init url waitForRequest) ds =
      (reported c ds).map fun f => f.ev.requestId :=
  networkFailureIds_eq hc (rfl : run c parseUrl url waitForRequest [] = .ok _) h

/-- The status of an entry is that of the last response, or zero. -/
theorem status_after (c : CollectCaptures) (parseUrl : String → Option ParsedUrl) (id : String)
    (as : List Signal) {e : WebPageResource} (he : (trackAfter c parseUrl id as).entry = some e) :
    e.status = ((respondedOf as).getLast?.map fun r => statusAsU32 r.response.status).getD 0 := by
  have hpart := responsePart_after c parseUrl id as
  rw [he, Option.getD_some, Lib.lastWrite_map] at hpart
  have hstatus := congrArg WebPageResource.status hpart
  cases hlast : (respondedOf as).getLast? with
  | none =>
      rw [hlast] at hstatus
      exact hstatus
  | some r =>
      rw [hlast] at hstatus
      exact hstatus

/-- The response lists show the requests that are answered with an error. -/
theorem mem_failedIds_iff (hc : c.httpErrors = true)
    (h : run c parseUrl url waitForRequest ds = .ok t) {lo hi : Nat} (hlo : 0 < lo)
    {id : String} : id ∈ failedIds t lo hi ↔ ErrorAnswered c ds lo hi id := by
  have hpresent := (recorded_after c parseUrl id (signals c id ds)).present
  have hurl := url_after c parseUrl id (signals c id ds)
  rw [← knownUrl, Track.url] at hurl
  rw [mem_failedIds, lookup_retained h, run_track h, ErrorAnswered, Track.visible, ← hurl,
    ← aborted_after hc parseUrl]
  cases hentry : (trackAfter c parseUrl id (signals c id ds)).entry with
  | none =>
      -- without an entry there has been no response
      rw [hentry] at hpresent
      have hnone : respondedOf (signals c id ds) = [] := by
        by_contra hne
        cases hpresent.mpr (Or.inl hne)
      rw [hnone]
      simp
  | some e =>
      have hstatus := status_after c parseUrl id (signals c id ds) hentry
      rw [Option.map_some, Option.getD_some]
      constructor
      · rintro ⟨r, hr, hge, hlt⟩
        obtain ⟨he, hshown⟩ := Option.filter_eq_some_iff.mp hr
        obtain rfl : e = r := Option.some.inj he
        rw [Bool.and_eq_true, bne_iff_ne, Bool.not_eq_true', ← Bool.not_eq_true] at hshown
        cases hlast : (respondedOf (signals c id ds)).getLast? with
        | none =>
            rw [hlast, Option.map_none, Option.getD_none] at hstatus
            omega
        | some r =>
            rw [hlast, Option.map_some, Option.getD_some] at hstatus
            exact ⟨r, rfl, hstatus ▸ hge, hstatus ▸ hlt, hshown⟩
      · rintro ⟨r, hlast, hge, hlt, hshown⟩
        rw [hlast, Option.map_some, Option.getD_some] at hstatus
        refine ⟨e, Option.filter_eq_some_iff.mpr ⟨rfl, ?_⟩, hstatus ▸ hge, hstatus ▸ hlt⟩
        rw [Bool.and_eq_true, bne_iff_ne, Bool.not_eq_true', ← Bool.not_eq_true]
        exact hshown

/-- An answered request has a response in the sequence. -/
theorem ErrorAnswered.exists_response {lo hi : Nat} {id : String}
    (h : ErrorAnswered c ds lo hi id) :
    ∃ d ∈ ds, ∃ ev, d.ev = .responseReceived ev ∧ ev.requestId = id := by
  obtain ⟨r, hr, -⟩ := h
  obtain ⟨hid, d, hd, hev⟩ := mem_respondedOf (List.mem_of_getLast? hr)
  exact ⟨d, hd, r, hev, hid⟩

/-! ## One class for each request -/

/-- Every request is in one list, `network_failures` has those without a response, and
    the count is the number of failed requests. -/
structure ClassifiedOnce (c : CollectCaptures) (parseUrl : String → Option ParsedUrl)
    (url : String) (waitForRequest : List String) (ds : List (Delivery Event)) (t : State) :
    Prop where
  oneList : ∀ id,
    ¬ (id ∈ failedIds t 400 500 ∧ id ∈ failedIds t 500 600) ∧
    ¬ (id ∈ failedIds t 400 500 ∧
      id ∈ networkFailureIds c parseUrl (State.init url waitForRequest) ds) ∧
    ¬ (id ∈ failedIds t 500 600 ∧
      id ∈ networkFailureIds c parseUrl (State.init url waitForRequest) ds)
  unanswered : ∀ id ∈ networkFailureIds c parseUrl (State.init url waitForRequest) ds,
    ∀ d ∈ ds, ∀ ev, d.ev = .responseReceived ev → ev.requestId ≠ id
  failedCount : (httpErrors c t).map (·.failedCount) = some {id | RequestFailed c ds id}.ncard

/-- The requests with a failure that is reported. -/
def reportedIds (c : CollectCaptures) (ds : List (Delivery Event)) : Finset String :=
  ((reported c ds).map fun f => f.ev.requestId).toFinset

/-- No reported failure is of a request with a response, none is repeated, and a `u32` can
    count the failed requests.  (A multiple of `2 ^ 32` repetitions would not show.) -/
structure FailsOnce (c : CollectCaptures) (ds : List (Delivery Event)) : Prop where
  unanswered : ∀ f ∈ reported c ds, ∀ d ∈ ds, ∀ ev, d.ev = .responseReceived ev →
    ev.requestId ≠ f.ev.requestId
  repeated : 2 ^ 32 ∣ (reported c ds).length - (reportedIds c ds).card
  fits : {id | RequestFailed c ds id}.ncard < 2 ^ 32

/-- The failed requests are those of the three lists. -/
theorem setOf_requestFailed (hc : c.httpErrors = true)
    (h : run c parseUrl url waitForRequest ds = .ok t) :
    {id | RequestFailed c ds id} =
      ((failedIds t 400 500 ∪ failedIds t 500 600) ∪ reportedIds c ds : Finset String) := by
  ext id
  rw [Finset.mem_coe, Finset.mem_union, Finset.mem_union, mem_failedIds_iff hc h (by omega),
    mem_failedIds_iff hc h (by omega), reportedIds, List.mem_toFinset, List.mem_map, or_comm]
  refine or_congr Iff.rfl ?_
  constructor
  · rintro ⟨r, hr, hge, hlt, hshown⟩
    rcases Nat.lt_or_ge (statusAsU32 r.response.status) 500 with hmid | hmid
    · exact Or.inl ⟨r, hr, hge, hmid, hshown⟩
    · exact Or.inr ⟨r, hr, hmid, hlt, hshown⟩
  · rintro (⟨r, hr, hge, hlt, hshown⟩ | ⟨r, hr, hge, hlt, hshown⟩)
    · exact ⟨r, hr, hge, by omega, hshown⟩
    · exact ⟨r, hr, by omega, hlt, hshown⟩

/-- A failure of a request without a response keeps it out of the response lists. -/
theorem disjoint_reportedIds (hc : c.httpErrors = true)
    (h : run c parseUrl url waitForRequest ds = .ok t) {lo hi : Nat} (hlo : 0 < lo)
    (hun : ∀ f ∈ reported c ds, ∀ d ∈ ds, ∀ ev, d.ev = .responseReceived ev →
      ev.requestId ≠ f.ev.requestId) :
    Disjoint (failedIds t lo hi) (reportedIds c ds) := by
  refine Finset.disjoint_left.mpr fun id hin hreported => ?_
  obtain ⟨f, hf, rfl⟩ := List.mem_map.mp (List.mem_toFinset.mp hreported)
  obtain ⟨d, hd, ev, hev, hid⟩ := ((mem_failedIds_iff hc h hlo).mp hin).exists_response
  exact hun f hf d hd ev hev hid

/-- The failed requests, where the lists are disjoint. -/
theorem ncard_requestFailed (hc : c.httpErrors = true)
    (h : run c parseUrl url waitForRequest ds = .ok t)
    (hun : ∀ f ∈ reported c ds, ∀ d ∈ ds, ∀ ev, d.ev = .responseReceived ev →
      ev.requestId ≠ f.ev.requestId) :
    {id | RequestFailed c ds id}.ncard =
      (failedIds t 400 500).card + (failedIds t 500 600).card + (reportedIds c ds).card := by
  have hdisjoint : Disjoint (failedIds t 400 500 ∪ failedIds t 500 600) (reportedIds c ds) :=
    Finset.disjoint_union_left.mpr
      ⟨disjoint_reportedIds hc h (by omega) hun, disjoint_reportedIds hc h (by omega) hun⟩
  rw [setOf_requestFailed hc h, Set.ncard_coe_finset, Finset.card_union_of_disjoint hdisjoint,
    Finset.card_union_of_disjoint (failedIds_disjoint t)]

/-- The count adds up the lengths of the three lists. -/
theorem failedCount_eq (hc : c.httpErrors = true)
    (h : run c parseUrl url waitForRequest ds = .ok t) :
    (httpErrors c t).map (·.failedCount) =
      some (((failedIds t 400 500).card + (failedIds t 500 600).card + (reported c ds).length) %
        2 ^ 32) := by
  rw [httpErrors, if_pos hc, Option.map_some, card_failedRequests, card_failedRequests,
    run_networkFailures hc h, List.length_map]

theorem card_reportedIds_le (c : CollectCaptures) (ds : List (Delivery Event)) :
    (reportedIds c ds).card ≤ (reported c ds).length := by
  have hle := List.toFinset_card_le ((reported c ds).map fun f => f.ev.requestId)
  rwa [List.length_map] at hle

/-- The requests are classified and counted once exactly when they fail once. -/
theorem classifiedOnce_iff (hc : c.httpErrors = true)
    (h : run c parseUrl url waitForRequest ds = .ok t) :
    ClassifiedOnce c parseUrl url waitForRequest ds t ↔ FailsOnce c ds := by
  have hids := run_networkFailureIds hc h
  have hcount := failedCount_eq hc h
  have hdistinct := card_reportedIds_le c ds
  constructor
  · rintro ⟨-, hun, hone⟩
    have hunanswered : ∀ f ∈ reported c ds, ∀ d ∈ ds, ∀ ev, d.ev = .responseReceived ev →
        ev.requestId ≠ f.ev.requestId := by
      intro f hf
      refine hun f.ev.requestId ?_
      rw [hids]
      exact List.mem_map_of_mem hf
    have hn := ncard_requestFailed hc h hunanswered
    rw [hcount, Option.some.injEq] at hone
    refine ⟨hunanswered, ?_, ?_⟩
    · omega
    · omega
  · rintro ⟨hun, hrepeated, hfits⟩
    have hn := ncard_requestFailed hc h hun
    have hapart : ∀ {lo hi id}, 0 < lo → id ∈ failedIds t lo hi →
        id ∉ networkFailureIds c parseUrl (State.init url waitForRequest) ds := by
      intro lo hi id hlo hstatus hnet
      rw [hids] at hnet
      exact Finset.disjoint_left.mp (disjoint_reportedIds hc h hlo hun) hstatus
        (List.mem_toFinset.mpr hnet)
    refine ⟨fun id => ⟨?_, ?_, ?_⟩, ?_, ?_⟩
    · rintro ⟨h4, h5⟩
      exact Finset.disjoint_left.mp (failedIds_disjoint t) h4 h5
    · rintro ⟨h4, hnet⟩
      exact hapart (by omega) h4 hnet
    · rintro ⟨h5, hnet⟩
      exact hapart (by omega) h5 hnet
    · intro id hid
      rw [hids] at hid
      obtain ⟨f, hf, rfl⟩ := List.mem_map.mp hid
      exact hun f hf
    · rw [hcount, hn, Option.some.injEq]
      omega

end Run

/-- In `pageLoad` one script has an error response and one breaks. -/
theorem classifiedOnce_pageLoad :
    ∃ t, run { httpErrors := true } (fun _ => none) "https://a/" [] pageLoad = .ok t ∧
      (ClassifiedOnce { httpErrors := true } (fun _ => none) "https://a/" [] pageLoad t ↔
        FailsOnce { httpErrors := true } pageLoad) := by
  have hrun : run { httpErrors := true } (fun _ => none) "https://a/" [] pageLoad = .ok _ := rfl
  exact ⟨_, hrun, classifiedOnce_iff rfl hrun⟩

/-- A 404 whose body is then cut off is in `failed_4xx` and in `network_failures`. -/
theorem classifiedOnce_missing_reset :
    ¬ ∀ (c : CollectCaptures) (parseUrl : String → Option ParsedUrl) (url : String)
        (waitForRequest : List String) (ds : List (Delivery Event)) (t : State),
      c.httpErrors = true → run c parseUrl url waitForRequest ds = .ok t →
      ClassifiedOnce c parseUrl url waitForRequest ds t := by
  intro h
  let ds := [answer "1" .script "https://a/x.js" 404, reset "1" 1]
  have hrun : run { httpErrors := true } (fun _ => none) "https://a/" [] ds = .ok _ := rfl
  have hone := h _ _ _ _ _ _ rfl hrun
  have hlisted : "1" ∈ networkFailureIds { httpErrors := true } (fun _ => none)
      (State.init "https://a/" []) ds := by decide +kernel
  exact hone.unanswered "1" hlisted _ List.mem_cons_self _ rfl rfl

end FullLoop
end Collect
end BrowserHeadless
