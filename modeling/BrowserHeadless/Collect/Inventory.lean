/-
  BrowserHeadless.Collect.Inventory

  The resource inventory of a full capture, and when the streams determine it.

  Three pairs of arms do not commute: `loadingFailed` with the arms that give a
  request its URL and its send time, `loadingFinished` with the arms that create
  the entry, and a request with a response that has no URL.  Where no request
  has such a pair (`Family.Conflict`), the inventory is a function of the four
  streams (`inventory_eq_of_not_conflict`).
-/

import BrowserHeadless.Collect.Interleaving

namespace BrowserHeadless
namespace Collect
namespace FullLoop

open Lib (HashMap)

/-! ## The inventory -/

/-- The `http_errors` rollup with the network failures as a multiset. -/
structure ErrorCounts where
  failedCount : Nat
  failed4xx : Multiset FailedRequest
  failed5xx : Multiset FailedRequest
  networkFailures : Multiset NetworkFailure
  finalUrl : String
  redirectCount : Nat
deriving DecidableEq

/-- The outputs that are derived from the resources. -/
@[ext]
structure Inventory where
  resources : HashMap String WebPageResource
  totalSize : Nat
  resourceCount : Nat
  httpErrors : Option ErrorCounts
deriving DecidableEq

/-- The rollup without the order of its network failures. -/
def errorCounts (e : HttpErrors) : ErrorCounts where
  failedCount := e.failedCount
  failed4xx := e.failed4xx
  failed5xx := e.failed5xx
  networkFailures := e.networkFailures
  finalUrl := e.finalUrl
  redirectCount := e.redirectCount

/-- The inventory at the end of the loop. -/
def inventory (c : CollectCaptures) (s : State) : Inventory where
  resources := (finish c s).resources
  totalSize := (finish c s).totalSize
  resourceCount := (finish c s).resourceCount
  httpErrors := (finish c s).httpErrors.map errorCounts

/-- The variables of the loop that the inventory is derived from. -/
theorem inventory_eq_of_eq {c : CollectCaptures} {s t : State} (hres : retained s = retained t)
    (htypes : s.httpResourceTypes = t.httpResourceTypes)
    (hfail : s.httpNetworkFailures = t.httpNetworkFailures)
    (hurl : s.httpFinalUrl = t.httpFinalUrl)
    (hcount : s.httpRedirectCount = t.httpRedirectCount) : inventory c s = inventory c t := by
  simp only [inventory, finish, httpErrors, failedRequests, hres, htypes, hfail, hurl, hcount]

/-- The entry of a request as the final `retain` leaves it. -/
def Track.visible (tr : Track) : Option WebPageResource :=
  tr.entry.filter fun e => e.url != "" && !tr.aborted

/-- The retained entry of a request is what its track shows. -/
theorem lookup_retained {c : CollectCaptures} {parseUrl : String → Option ParsedUrl}
    {url : String} {waitForRequest : List String} {ds : List (Delivery Event)} {t : State}
    (h : run c parseUrl url waitForRequest ds = .ok t) (id : String) :
    (retained t).lookup id = (track t id).visible := by
  rw [retained, HashMap.lookup_retain]
  unfold Track.visible
  cases he : t.resources.lookup id with
  | none => simp [track, he]
  | some e =>
      -- `retain` looks the id up in the entry, which is keyed by it
      have hkeyed : e.requestId = id :=
        (recorded_after c parseUrl id (signals c id ds)).keyed e (by rw [← run_track h]; exact he)
      simp only [track, he, Option.filter_some, hkeyed]
      by_cases hurl : e.url = ""
      · simp [hurl]
      · by_cases hab : id ∈ t.quickAbortIds
        · simp [hab]
        · simp [hurl, hab]

/-! ## Conflicts -/

/-- A response or a request gives the entry of this id a URL. -/
def Family.Names (F : Family) (id : String) : Prop :=
  (∃ r, (F.respondedTo id).getLast? = some r ∧ r.response.url ≠ "") ∨
    ∃ q ∈ F.sentBy id, q.url ≠ ""

/-- Two signals of one request whose order shows. -/
inductive Family.Conflict (F : Family) (id : String) : Prop
  /-- A failure that is told apart once the entry has its URL or send time. -/
  | failure (f : EventLoadingFailed) (hf : f ∈ F.failedFor id)
      (happart : ¬FailsBlank (F.respondedTo id) (F.sentBy id) f)
  /-- A size that is dropped unless the entry exists. -/
  | size (f : EventLoadingFinished) (hf : (F.finishedFor id).getLast? = some f)
      (hsize : finishedSize f ≠ 0) (hnamed : F.Names id)
  /-- A response without a URL that erases the URL of a request. -/
  | url (r : EventResponseReceived) (hr : (F.respondedTo id).getLast? = some r)
      (hempty : r.response.url = "") (q : EventRequestWillBeSent) (hq : q ∈ F.sentBy id)
      (hnamed : q.url ≠ "")

section Request

variable (c : CollectCaptures) (parseUrl : String → Option ParsedUrl) {id : String}
  {F : Family} {as bs : List Signal}

/-- Without a conflict the URL of an entry is determined. -/
theorem Streams.url_eq (ha : Streams F id as) (hb : Streams F id bs) (hF : ¬F.Conflict id) :
    (trackAfter c parseUrl id as).url = (trackAfter c parseUrl id bs).url := by
  have hna := named_after c parseUrl id as
  have hnb := named_after c parseUrl id bs
  -- no response, an unnamed last one, or a named last one
  cases hlast : (F.respondedTo id).getLast? with
  | none =>
      have hnone := List.getLast?_eq_none_iff.mp hlast
      rw [hna.sent (ha.responded.trans hnone), hnb.sent (hb.responded.trans hnone), ha.sent,
        hb.sent]
  | some r =>
      by_cases hempty : r.response.url = ""
      · have hunnamed : ∀ q ∈ F.sentBy id, q.url = "" := by
          intro q hq
          by_contra hne
          exact hF (.url r hlast hempty q hq hne)
        rw [hna.unnamed r (by rw [ha.responded, hlast]) hempty (by rwa [ha.sent]),
          hnb.unnamed r (by rw [hb.responded, hlast]) hempty (by rwa [hb.sent])]
      · rw [hna.responded r (by rw [ha.responded, hlast]) hempty,
          hnb.responded r (by rw [hb.responded, hlast]) hempty]

/-- An entry gets a URL only from a response or a request. -/
theorem Streams.names (ha : Streams F id as) (hurl : (trackAfter c parseUrl id as).url ≠ "") :
    F.Names id := by
  have hna := named_after c parseUrl id as
  cases hlast : (F.respondedTo id).getLast? with
  | none =>
      rw [hna.sent (ha.responded.trans (List.getLast?_eq_none_iff.mp hlast)), ha.sent] at hurl
      exact .inr (firstNamed_ne_iff.mp hurl)
  | some r =>
      by_cases hempty : r.response.url = ""
      · refine .inr ?_
        by_contra hnone
        refine hurl (hna.unnamed r (by rw [ha.responded, hlast]) hempty ?_)
        intro q hq
        by_contra hne
        exact hnone ⟨q, by rwa [ha.sent] at hq, hne⟩
      · exact .inl ⟨r, hlast, hempty⟩

/-- Without a conflict no size is recorded under a URL. -/
theorem Streams.contentSize_eq_zero (ha : Streams F id as) (hF : ¬F.Conflict id)
    {e : WebPageResource} (he : (trackAfter c parseUrl id as).entry = some e) (hurl : e.url ≠ "") :
    e.contentSize = 0 := by
  -- a size that was recorded is that of the last `loadingFinished`
  rcases (recorded_after c parseUrl id as).size e he with hzero | ⟨f, hf, hsize⟩
  · exact hzero
  · rw [ha.finished] at hf
    by_contra hne
    refine hF (.size f hf (hsize ▸ hne) (ha.names c parseUrl ?_))
    simpa [Track.url, he] using hurl

/-- Without a conflict no request is a quick abort. -/
theorem Streams.not_aborted (ha : Streams F id as) (hF : ¬F.Conflict id) :
    (trackAfter c parseUrl id as).aborted = false := by
  refine not_aborted_after c parseUrl id fun f hf => ?_
  rw [ha.failed] at hf
  rw [ha.responded, ha.sent]
  by_contra hnot
  exact hF (.failure f hf hnot)

/-- Without a conflict the streams determine what the track shows. -/
theorem Streams.visible_eq (ha : Streams F id as) (hb : Streams F id bs) (hF : ¬F.Conflict id) :
    (trackAfter c parseUrl id as).visible = (trackAfter c parseUrl id bs).visible := by
  have hra := recorded_after c parseUrl id as
  have hrb := recorded_after c parseUrl id bs
  have hurl := ha.url_eq c parseUrl hb hF
  have hpart := responsePart_after c parseUrl id as
  rw [ha.responded, ← hb.responded, ← responsePart_after] at hpart
  have hinit := initiator_after c parseUrl id as
  rw [ha.sent, ← hb.sent, ← initiator_after c parseUrl id bs] at hinit
  have hpresent : (trackAfter c parseUrl id as).entry.isSome = true ↔
      (trackAfter c parseUrl id bs).entry.isSome = true := by
    rw [hra.present, hrb.present, ha.responded, ha.sent, hb.responded, hb.sent]
  unfold Track.visible
  rw [ha.not_aborted c parseUrl hF, hb.not_aborted c parseUrl hF]
  cases hea : (trackAfter c parseUrl id as).entry with
  | none =>
      cases heb : (trackAfter c parseUrl id bs).entry with
      | none => rfl
      | some e => simp [hea, heb] at hpresent
  | some e =>
      cases heb : (trackAfter c parseUrl id bs).entry with
      | none => simp [hea, heb] at hpresent
      | some e' =>
          have hurls : e.url = e'.url := by simpa [Track.url, hea, heb] using hurl
          -- an entry without a URL is dropped on both sides
          by_cases hempty : e.url = ""
          · have hempty' : e'.url = "" := hurls ▸ hempty
            simp [Option.filter_some, hempty, hempty']
          · have hsize : e.contentSize = e'.contentSize := by
              rw [ha.contentSize_eq_zero c parseUrl hF hea hempty,
                hb.contentSize_eq_zero c parseUrl hF heb (hurls ▸ hempty)]
            have hparsed : e.parsedUrl = e'.parsedUrl := by
              rw [hra.parsed e hea hempty, hrb.parsed e' heb (hurls ▸ hempty), hurls]
            have hids : e.requestId = e'.requestId :=
              (hra.keyed e hea).trans (hrb.keyed e' heb).symm
            obtain rfl : e = e' :=
              eq_of_responsePart (by simpa [hea, heb] using hpart) hids hsize
                (by simpa [hea, heb] using hinit) hurls hparsed
            rfl

end Request

/-! ## What the streams determine -/

/-- The redirects after a response. -/
def redirectStep (c : CollectCaptures) (r : String × Nat) (ev : EventResponseReceived) :
    String × Nat :=
  if isRealResource ev.response.url then
    trackRedirects c ev { requestId := ev.requestId, url := ev.response.url } r
  else r

section Run

variable {c : CollectCaptures} {parseUrl : String → Option ParsedUrl} {url : String}
  {waitForRequest : List String} {F : Family} {ds : List (Delivery Event)} {t : State}

/-- The redirects are a fold over the responses. -/
theorem run_redirects (hrun : run c parseUrl url waitForRequest ds = .ok t) :
    (t.httpFinalUrl, t.httpRedirectCount) =
      (ds.filterMap fun d => d.ev.asResponse).foldl (redirectStep c) (url, 0) := by
  rw [List.foldl_filterMap]
  refine Lib.consume_view (fun s => (s.httpFinalUrl, s.httpRedirectCount)) _ ?_ hrun
  intro s d s' hstep
  cases hev : d.ev with
  | responseReceived ev =>
      simp only [step, hev] at hstep
      simp only [Event.asResponse, redirectStep]
      rcases onResponse_eq_ok hstep with ⟨hreal, rfl⟩ | ⟨hreal, pending, -, rfl⟩
      · simp [hreal]
      · -- the URL of the entry is the one the response arm has just written
        simp only [hreal, if_true]
        rfl
  | _ =>
      -- the other arms touch no register of the main document
      have hmain := step_mainFields (fun ev h => by rw [hev] at h; cases h) hstep
      have hurl := congrArg MainFields.httpFinalUrl hmain
      have hcount := congrArg MainFields.httpRedirectCount hmain
      exact Prod.ext hurl hcount

theorem Interleaves.redirects (h : Interleaves c F ds)
    (hrun : run c parseUrl url waitForRequest ds = .ok t) :
    (t.httpFinalUrl, t.httpRedirectCount) = F.responses.foldl (redirectStep c) (url, 0) := by
  rw [← h.responses]
  exact run_redirects hrun

/-- The resource types are determined by the responses. -/
theorem Interleaves.types_eq {ds' : List (Delivery Event)} {t' : State} (h : Interleaves c F ds)
    (h' : Interleaves c F ds') (hrun : run c parseUrl url waitForRequest ds = .ok t)
    (hrun' : run c parseUrl url waitForRequest ds' = .ok t') :
    t.httpResourceTypes = t'.httpResourceTypes := by
  refine Finmap.ext_lookup fun id => ?_
  have htype := congrArg Track.type (run_track hrun id)
  have htype' := congrArg Track.type (run_track hrun' id)
  rw [type_after, (h.streams id).responded] at htype
  rw [type_after, (h'.streams id).responded] at htype'
  exact htype.trans htype'.symm

/-- If every failure is blank when it comes, the network failures are those of
    the stream. -/
theorem networkFailures_of_blank (hsub : ∀ d ∈ ds, c.subscribed d.ev = true)
    (hblank : ∀ pre d ev, pre ++ [d] <+: ds → d.ev = .loadingFailed ev →
      FailsBlank (respondedOf (signals c ev.requestId pre)) (sentOf (signals c ev.requestId pre))
        ev)
    (hrun : run c parseUrl url waitForRequest ds = .ok t) :
    t.httpNetworkFailures = (ds.filterMap fun d => d.ev.asFailed).map blankFailure := by
  -- the history keeps the run itself, so that the tracks are known at each failure
  refine (Lib.consume_history (fun pre s => run c parseUrl url waitForRequest pre = .ok s ∧
    s.httpNetworkFailures = (pre.filterMap fun d => d.ev.asFailed).map blankFailure)
    ?_ ⟨rfl, rfl⟩ hrun).2
  rintro pre d s s' hpre ⟨hs, hfail⟩ hstep
  refine ⟨?_, ?_⟩
  · rw [run, Lib.consume_append_ok hs, Lib.consume_cons_ok hstep, Lib.consume_nil]
  · rw [step_networkFailures hstep, hfail, Lib.filterMap_concat, List.map_append]
    congr 1
    unfold reportedFailure
    cases hev : d.ev with
    | loadingFailed ev =>
        have hc : c.httpErrors = true := by
          have := hsub d (hpre.subset (by simp))
          rwa [hev] at this
        obtain ⟨-, -, hone⟩ := (hblank pre d ev hpre hev).failure_after c parseUrl ev.requestId
        simp only [hc, if_true, run_track hs, hone]
        rfl
    | _ => rfl

/-- Without conflicts the network failures are those of the stream. -/
theorem Interleaves.networkFailures (h : Interleaves c F ds) (hF : ∀ id, ¬F.Conflict id)
    (hrun : run c parseUrl url waitForRequest ds = .ok t) :
    t.httpNetworkFailures = F.failed.map blankFailure := by
  rw [← h.failed]
  refine networkFailures_of_blank h.subscribed ?_ hrun
  rintro pre d ev ⟨post, hsplit⟩ hev
  have hstreams := h.streams ev.requestId
  -- what came before the failure is part of what the family has
  have happ : signals c ev.requestId ds =
      signals c ev.requestId pre ++ signals c ev.requestId (d :: post) := by
    rw [← hsplit, signals, signals, signals, ← List.filterMap_append, List.append_assoc]
    rfl
  have hmem : ev ∈ F.failedFor ev.requestId := by
    rw [Family.failedFor, List.mem_filter, ← h.failed]
    refine ⟨List.mem_filterMap.mpr ⟨d, ?_, ?_⟩, by simp⟩
    · rw [← hsplit]
      simp
    · rw [hev]
      rfl
  have hall : FailsBlank (F.respondedTo ev.requestId) (F.sentBy ev.requestId) ev := by
    by_contra hnot
    exact hF ev.requestId (.failure ev hmem hnot)
  rw [← hstreams.responded, ← hstreams.sent, happ] at hall
  refine hall.mono ?_ ?_
  · rw [respondedOf, respondedOf, List.filterMap_append]
    exact List.subset_append_left _ _
  · rw [sentOf, sentOf, List.filterMap_append]
    exact List.subset_append_left _ _

/-- Without conflicts the streams determine the inventory. -/
theorem inventory_eq_of_not_conflict {ds' : List (Delivery Event)} {t' : State}
    (h : Interleaves c F ds) (h' : Interleaves c F ds') (hF : ∀ id, ¬F.Conflict id)
    (hrun : run c parseUrl url waitForRequest ds = .ok t)
    (hrun' : run c parseUrl url waitForRequest ds' = .ok t') : inventory c t = inventory c t' := by
  have hredirects := (h.redirects hrun).trans (h'.redirects hrun').symm
  refine inventory_eq_of_eq ?_ (h.types_eq h' hrun hrun') ?_ (congrArg Prod.fst hredirects)
    (congrArg Prod.snd hredirects)
  · refine Finmap.ext_lookup fun id => ?_
    rw [lookup_retained hrun, lookup_retained hrun', run_track hrun, run_track hrun']
    exact (h.streams id).visible_eq c parseUrl (h'.streams id) (hF id)
  · rw [h.networkFailures hF hrun, h'.networkFailures hF hrun']

end Run

end FullLoop
end Collect
end BrowserHeadless
