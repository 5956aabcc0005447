/-
  BrowserHeadless.Collect.Reorder

  When the resource inventory does not depend on the interleaving.

  The `select!` of the loop is unbiased, so any interleaving of the streams may
  be consumed.  Every conflict of a request shows: there are two interleavings
  that leave different inventories, each a sequence of a few phases
  (`Family.deliveries`).  With `inventory_eq_of_not_conflict` this gives the
  exact condition for order independence (`orderIndependent_iff`).
-/

import BrowserHeadless.Collect.Inventory

namespace BrowserHeadless
namespace Collect
namespace FullLoop

open Lib (HashMap)

/-! ## A request over two phases -/

section Phases

variable (c : CollectCaptures) (parseUrl : String → Option ParsedUrl) (id : String)

/-- Failures and sizes that come first leave no trace. -/
theorem trackAfter_idle {as : List Signal} (hR : respondedOf as = []) (hQ : sentOf as = [])
    (bs : List Signal) : trackAfter c parseUrl id (as ++ bs) = trackAfter c parseUrl id bs := by
  have hidle : trackAfter c parseUrl id as = {} := by
    induction as using List.reverseRecOn with
    | nil => rfl
    | append_singleton as a ih =>
        rw [respondedOf_concat, List.append_eq_nil_iff] at hR
        rw [sentOf_concat, List.append_eq_nil_iff] at hQ
        rw [trackAfter_concat, ih hR.1 hQ.1]
        cases a with
        | responded ev => simp at hR
        | finished ev => rfl
        | sent ev => simp at hQ
        | failed ev => simp [Track.act, isQuickAbort_none]
  rw [trackAfter_append, hidle]
  rfl

/-- Requests after everything else name the entry only if it has no URL. -/
theorem url_append_sent (as : List Signal) {bs : List Signal} (hR : respondedOf bs = []) :
    (trackAfter c parseUrl id (as ++ bs)).url =
      if (trackAfter c parseUrl id as).url = "" then firstNamed (sentOf bs)
      else (trackAfter c parseUrl id as).url := by
  induction bs using List.reverseRecOn with
  | nil =>
      rw [List.append_nil]
      split
      · assumption
      · rfl
  | append_singleton bs b ih =>
      rw [respondedOf_concat, List.append_eq_nil_iff] at hR
      rw [← List.append_assoc, trackAfter_concat, act_url, ih hR.1]
      cases b with
      | responded ev => simp at hR
      | finished ev => simp [urlStep]
      | sent ev =>
          simp only [urlStep, sentOf_concat, Signal.asSent, Option.toList_some, firstNamed_concat]
          by_cases hurl : (trackAfter c parseUrl id as).url = ""
          · simp only [hurl, if_true]
          · simp only [hurl, if_false]
      | failed ev => simp [urlStep]

/-- Responses after everything else decide the URL. -/
theorem url_append_responded (as : List Signal) {bs : List Signal} (hQ : sentOf bs = []) :
    (trackAfter c parseUrl id (as ++ bs)).url =
      ((respondedOf bs).getLast?.map fun r => r.response.url).getD
        (trackAfter c parseUrl id as).url := by
  induction bs using List.reverseRecOn with
  | nil =>
      rw [List.append_nil]
      rfl
  | append_singleton bs b ih =>
      rw [sentOf_concat, List.append_eq_nil_iff] at hQ
      rw [← List.append_assoc, trackAfter_concat, act_url, ih hQ.1]
      cases b with
      | responded ev => simp [urlStep]
      | finished ev => simp [urlStep]
      | sent ev => simp at hQ
      | failed ev => simp [urlStep]

/-- A size after everything else is recorded. -/
theorem contentSize_append_finished (as : List Signal) {bs : List Signal}
    (hR : respondedOf bs = []) (hQ : sentOf bs = []) {f : EventLoadingFinished}
    (hf : (finishedOf bs).getLast? = some f) {e : WebPageResource}
    (he : (trackAfter c parseUrl id (as ++ bs)).entry = some e) :
    e.contentSize = finishedSize f := by
  induction bs using List.reverseRecOn with
  | nil => cases hf
  | append_singleton bs b ih =>
      rw [respondedOf_concat, List.append_eq_nil_iff] at hR
      rw [sentOf_concat, List.append_eq_nil_iff] at hQ
      rw [← List.append_assoc, trackAfter_concat] at he
      cases b with
      | responded ev => simp at hR
      | finished ev =>
          obtain rfl : ev = f := by simpa using hf
          obtain ⟨e', -, rfl⟩ := Option.map_eq_some_iff.mp he
          rfl
      | sent ev => simp at hQ
      | failed ev =>
          rw [(act_failed c parseUrl id _ ev).1] at he
          exact ih hR.1 hQ.1 (by simpa using hf) he

/-- Without failures there are no quick aborts. -/
theorem Streams.not_aborted_of_no_failures {id : String} {F : Family} {as : List Signal}
    (h : Streams F id as) (hX : F.failed = []) : (trackAfter c parseUrl id as).aborted = false := by
  refine not_aborted_after c parseUrl id fun f hf => ?_
  rw [h.failed, Family.failedFor, hX] at hf
  cases hf

end Phases

/-- An entry with a URL that is not aborted is shown. -/
theorem Track.visible_of_named {tr : Track} (hurl : tr.url ≠ "") (hab : tr.aborted = false) :
    ∃ e, tr.entry = some e ∧ tr.visible = some e := by
  unfold Track.url at hurl
  unfold Track.visible
  cases he : tr.entry with
  | none => simp [he] at hurl
  | some e =>
      have hne : e.url ≠ "" := by simpa [he] using hurl
      exact ⟨e, rfl, by simp [Option.filter_some, hne, hab]⟩

/-- An entry without a URL is not shown. -/
theorem Track.visible_of_unnamed {tr : Track} (hurl : tr.url = "") : tr.visible = none := by
  unfold Track.url at hurl
  unfold Track.visible
  cases he : tr.entry with
  | none => rfl
  | some e =>
      have hempty : e.url = "" := by simpa [he] using hurl
      simp [Option.filter_some, hempty]

/-! ## Interleavings in phases -/

/-- One family after another. -/
@[simps]
def Family.append (F G : Family) : Family where
  requests := F.requests ++ G.requests
  responses := F.responses ++ G.responses
  finished := F.finished ++ G.finished
  failed := F.failed ++ G.failed

/-- A phase of the loop: the failures, the sizes, the responses and the requests
    of a family. -/
def Family.deliveries (F : Family) : List (Delivery Event) :=
  (F.failed.map fun ev => { ev := .loadingFailed ev }) ++
  (F.finished.map fun ev => { ev := .loadingFinished ev }) ++
  (F.responses.map fun ev => { ev := .responseReceived ev }) ++
  (F.requests.map fun ev => { ev := .requestWillBeSent ev })

@[simps]
def Family.failedOnly (F : Family) : Family where
  failed := F.failed

@[simps]
def Family.finishedOnly (F : Family) : Family where
  finished := F.finished

@[simps]
def Family.responsesOnly (F : Family) : Family where
  responses := F.responses

@[simps]
def Family.requestsOnly (F : Family) : Family where
  requests := F.requests

theorem Subscribed.mono {c : CollectCaptures} {F G : Family} (h : Subscribed c F)
    (hQ : G.requests ⊆ F.requests) (hX : G.failed ⊆ F.failed) : Subscribed c G where
  initiators hne := h.initiators fun hnil => hne (List.subset_nil.mp (hnil ▸ hQ))
  httpErrors hne := h.httpErrors fun hnil => hne (List.subset_nil.mp (hnil ▸ hX))

theorem Family.interleaves {c : CollectCaptures} {F : Family} (h : Subscribed c F) :
    Interleaves c F F.deliveries := by
  constructor
  case requests =>
    simp [Family.deliveries, List.filterMap_map, Event.asRequest]
  case responses =>
    simp [Family.deliveries, List.filterMap_map, Event.asResponse]
  case finished =>
    simp [Family.deliveries, List.filterMap_map, Event.asFinished]
  case failed =>
    simp [Family.deliveries, List.filterMap_map, Event.asFailed]
  case subscribed =>
    intro d hd
    simp only [Family.deliveries, List.mem_append, List.mem_map] at hd
    rcases hd with ((⟨ev, hev, rfl⟩ | ⟨ev, -, rfl⟩) | ⟨ev, -, rfl⟩) | ⟨ev, hev, rfl⟩
    · exact h.httpErrors (List.ne_nil_of_mem hev)
    · rfl
    · rfl
    · exact h.initiators (List.ne_nil_of_mem hev)

section Only

variable {c : CollectCaptures} {F : Family}

theorem interleaves_failedOnly (h : Subscribed c F) :
    Interleaves c F.failedOnly F.failedOnly.deliveries :=
  Family.interleaves (h.mono (List.nil_subset _) (List.Subset.refl _))

theorem interleaves_finishedOnly (h : Subscribed c F) :
    Interleaves c F.finishedOnly F.finishedOnly.deliveries :=
  Family.interleaves (h.mono (List.nil_subset _) (List.nil_subset _))

theorem interleaves_responsesOnly (h : Subscribed c F) :
    Interleaves c F.responsesOnly F.responsesOnly.deliveries :=
  Family.interleaves (h.mono (List.nil_subset _) (List.nil_subset _))

theorem interleaves_requestsOnly (h : Subscribed c F) :
    Interleaves c F.requestsOnly F.requestsOnly.deliveries :=
  Family.interleaves (h.mono (List.Subset.refl _) (List.nil_subset _))

end Only

theorem Interleaves.append {c : CollectCaptures} {F G : Family} {ds es : List (Delivery Event)}
    (h : Interleaves c F ds) (h' : Interleaves c G es) :
    Interleaves c (F.append G) (ds ++ es) where
  requests := by rw [List.filterMap_append, h.requests, h'.requests, Family.append]
  responses := by rw [List.filterMap_append, h.responses, h'.responses, Family.append]
  finished := by rw [List.filterMap_append, h.finished, h'.finished, Family.append]
  failed := by rw [List.filterMap_append, h.failed, h'.failed, Family.append]
  subscribed := by
    intro d hd
    rcases List.mem_append.mp hd with hd | hd
    · exact h.subscribed d hd
    · exact h'.subscribed d hd

theorem Interleaves.of_eq {c : CollectCaptures} {F G : Family} {ds : List (Delivery Event)}
    (h : Interleaves c F ds) (hFG : F = G) : Interleaves c G ds :=
  hFG ▸ h

theorem signals_append (c : CollectCaptures) (id : String) (ds es : List (Delivery Event)) :
    signals c id (ds ++ es) = signals c id ds ++ signals c id es :=
  List.filterMap_append

/-! ## Blank failures -/

/-- The network failures without a URL. -/
def State.blanks (s : State) : Nat := s.httpNetworkFailures.countP fun n => n.url = ""

section Blanks

variable {c : CollectCaptures} {parseUrl : String → Option ParsedUrl}

/-- A step adds as many blank failures as it reports. -/
theorem step_blanks {s s' : State} {d : Delivery Event} (h : step c parseUrl s d = .ok s') :
    s'.blanks = s.blanks + (reportedFailure c s d.ev).toList.countP fun n => n.url = "" := by
  rw [State.blanks, step_networkFailures h, List.countP_append]
  rfl

/-- Each failure adds at most one blank failure, and nothing takes one away. -/
theorem consume_blanks {s t : State} {ds : List (Delivery Event)}
    (h : Lib.consume (step c parseUrl) s ds = .ok t) :
    s.blanks ≤ t.blanks ∧
      t.blanks ≤ s.blanks + (ds.filterMap fun d => d.ev.asFailed).length := by
  refine Lib.consume_history (fun pre u => s.blanks ≤ u.blanks ∧
    u.blanks ≤ s.blanks + (pre.filterMap fun d => d.ev.asFailed).length) ?_ ?_ h
  · rintro pre d u u' - ⟨hlow, hhigh⟩ hstep
    -- only a `loadingFailed` reports, and at most one failure
    have hone : ((reportedFailure c u d.ev).toList.countP fun n => n.url = "") ≤
        d.ev.asFailed.toList.length := by
      refine List.countP_le_length.trans ?_
      unfold reportedFailure
      cases d.ev with
      | loadingFailed ev => exact Option.length_toList_le
      | _ => exact le_rfl
    rw [step_blanks hstep, Lib.filterMap_concat, List.length_append]
    omega
  · simp

/-- If one failure does not come out blank, fewer come out blank than came. -/
theorem blanks_lt {url : String} {waitForRequest : List String} {F : Family}
    {ds₁ ds₂ : List (Delivery Event)} {d : Delivery Event} {f : EventLoadingFailed} {t : State}
    (h : Interleaves c F (ds₁ ++ d :: ds₂)) (hd : d.ev = .loadingFailed f)
    (hloud : (trackAfter c parseUrl f.requestId (signals c f.requestId ds₁)).url ≠ "" ∨
      isQuickAbort f (trackAfter c parseUrl f.requestId (signals c f.requestId ds₁)).sentAt = true)
    (hrun : run c parseUrl url waitForRequest (ds₁ ++ d :: ds₂) = .ok t) :
    t.blanks < F.failed.length := by
  obtain ⟨u, hu, hrest⟩ := Lib.consume_append_eq_ok.mp hrun
  obtain ⟨v, hv, hrest⟩ := Lib.consume_cons_eq_ok.mp hrest
  -- the failure in the middle is suppressed or comes with a URL
  have hsame : v.blanks = u.blanks := by
    rw [step_blanks hv, hd]
    rw [← run_track hu] at hloud
    simp only [reportedFailure, Track.failure]
    split
    · split
      · rfl
      · rename_i hkept
        simp only [Bool.or_eq_true, not_or] at hkept
        simp [hloud.resolve_right hkept.2]
    · rfl
  have hlen : F.failed.length = (ds₁.filterMap fun d => d.ev.asFailed).length + 1 +
      (ds₂.filterMap fun d => d.ev.asFailed).length := by
    rw [← h.failed, List.filterMap_append, List.length_append,
      List.filterMap_cons_some (b := f) (by rw [hd]; rfl), List.length_cons]
    omega
  have hbefore := (consume_blanks hu).2
  have hafter := (consume_blanks hrest).2
  have hinit : (State.init url waitForRequest).blanks = 0 := rfl
  omega

end Blanks

/-- Failures that come first are all blank. -/
theorem blanks_eq {c : CollectCaptures} {parseUrl : String → Option ParsedUrl} {url : String}
    {waitForRequest : List String} {F : Family} {ds : List (Delivery Event)} {t : State}
    (hF : Subscribed c F) (h : Interleaves c F (F.failedOnly.deliveries ++ ds))
    (hrun : run c parseUrl url waitForRequest (F.failedOnly.deliveries ++ ds) = .ok t) :
    t.blanks = F.failed.length := by
  obtain ⟨u, hu, hrest⟩ := Lib.consume_append_eq_ok.mp hrun
  -- failures alone have nothing to conflict with
  have hnone : ∀ id, ¬F.failedOnly.Conflict id := by
    intro id hconf
    cases hconf with
    | failure f hf happart => exact happart ⟨by simp [Family.respondedTo, Family.failedOnly],
        by simp [Family.sentBy, Family.failedOnly]⟩
    | size f hf => cases hf
    | url r hr => cases hr
  have hall : u.blanks = F.failed.length := by
    rw [State.blanks, (interleaves_failedOnly hF).networkFailures hnone hu, List.countP_map]
    exact List.countP_eq_length.mpr fun ev _ => by simp [blankFailure]
  have hlow := (consume_blanks hrest).1
  have hhigh := (consume_blanks hrun).2
  rw [h.failed] at hhigh
  have hinit : (State.init url waitForRequest).blanks = 0 := rfl
  omega


/-! ## Conflicts show -/

section Shows

variable {c : CollectCaptures} {parseUrl : String → Option ParsedUrl} {url : String}
  {waitForRequest : List String} {F : Family} {ds ds' : List (Delivery Event)} {t t' : State}

/-- A difference in what a track shows is one in the inventory. -/
theorem inventory_ne_of_visible (hrun : run c parseUrl url waitForRequest ds = .ok t)
    (hrun' : run c parseUrl url waitForRequest ds' = .ok t') (id : String)
    (hne : (trackAfter c parseUrl id (signals c id ds)).visible ≠
      (trackAfter c parseUrl id (signals c id ds')).visible) : inventory c t ≠ inventory c t' := by
  intro h
  refine hne ?_
  rw [← run_track hrun, ← run_track hrun', ← lookup_retained hrun, ← lookup_retained hrun']
  exact congrArg (fun i => i.resources.lookup id) h

/-- A difference in the number of blank failures is one in the inventory. -/
theorem inventory_ne_of_blanks (hc : c.httpErrors = true) (hne : t.blanks ≠ t'.blanks) :
    inventory c t ≠ inventory c t' := by
  intro h
  refine hne ?_
  have herrors := congrArg Inventory.httpErrors h
  simp only [inventory, finish, httpErrors, hc, if_true, Option.map_some, Option.some.injEq]
    at herrors
  have hfail : (t.httpNetworkFailures : Multiset NetworkFailure) = t'.httpNetworkFailures :=
    congrArg ErrorCounts.networkFailures herrors
  exact (Multiset.coe_eq_coe.mp hfail).countP_eq _

/-- Responses, then requests: the entry has a URL if anything gives it one. -/
theorem url_of_names (parseUrl : String → Option ParsedUrl) (hF : Subscribed c F) {id : String}
    (hnamed : F.Names id) :
    (trackAfter c parseUrl id
      (signals c id (F.responsesOnly.deliveries ++ F.requestsOnly.deliveries))).url ≠ "" := by
  have hR := (interleaves_responsesOnly hF).streams id
  have hQ := (interleaves_requestsOnly hF).streams id
  rw [signals_append, url_append_sent c parseUrl id _ hQ.responded, hQ.sent]
  by_cases hurl : (trackAfter c parseUrl id (signals c id F.responsesOnly.deliveries)).url = ""
  · rw [if_pos hurl]
    rcases hnamed with ⟨r, hr, hne⟩ | hsent
    · rw [(named_after c parseUrl id _).responded r (by rw [hR.responded]; exact hr) hne] at hurl
      exact absurd hurl hne
    · exact firstNamed_ne_iff.mpr hsent
  · rw [if_neg hurl]
    exact hurl

/-- A recorded size is lost when it comes before the entry. -/
theorem size_shows (parseUrl : String → Option ParsedUrl) (hF : Subscribed c F) {id : String}
    {f : EventLoadingFinished} (hf : (F.finishedFor id).getLast? = some f)
    (hsize : finishedSize f ≠ 0) (hnamed : F.Names id) :
    ∃ ds ds', Interleaves c F ds ∧ Interleaves c F ds' ∧
      (trackAfter c parseUrl id (signals c id ds)).visible ≠
        (trackAfter c parseUrl id (signals c id ds')).visible := by
  have iX := interleaves_failedOnly hF
  have iN := interleaves_finishedOnly hF
  have iR := interleaves_responsesOnly hF
  have iQ := interleaves_requestsOnly hF
  have iRQ := iR.append iQ
  have iXN := iX.append iN
  have iRQN := iRQ.append iN
  refine ⟨_, _, (iXN.append iRQ).of_eq ?_, (iX.append iRQN).of_eq ?_, ?_⟩
  · ext1 <;> simp
  · ext1 <;> simp
  -- sizes before the entry against sizes after it; both entries are shown
  · rw [signals_append, trackAfter_idle c parseUrl id (iXN.streams id).responded
      (iXN.streams id).sent, signals_append c id _ (_ ++ _), trackAfter_idle c parseUrl id
      (iX.streams id).responded (iX.streams id).sent]
    have hurl := url_of_names parseUrl hF hnamed
    have hurl' : (trackAfter c parseUrl id (signals c id
        (F.responsesOnly.deliveries ++ F.requestsOnly.deliveries ++
          F.finishedOnly.deliveries))).url ≠ "" := by
      rw [signals_append, url_append_sent c parseUrl id _ (iN.streams id).responded, if_neg hurl]
      exact hurl
    obtain ⟨e, he, hvis⟩ := Track.visible_of_named hurl
      ((iRQ.streams id).not_aborted_of_no_failures c parseUrl rfl)
    obtain ⟨e', he', hvis'⟩ := Track.visible_of_named hurl'
      ((iRQN.streams id).not_aborted_of_no_failures c parseUrl rfl)
    rw [hvis, hvis']
    intro heq
    cases heq
    rw [signals_append] at he'
    refine hsize ?_
    rw [← contentSize_append_finished c parseUrl id _ (iN.streams id).responded (iN.streams id).sent
      (by rw [(iN.streams id).finished]; exact hf) he']
    rcases (recorded_after c parseUrl id _).size e he with hzero | ⟨g, hg, -⟩
    · exact hzero
    · rw [(iRQ.streams id).finished] at hg
      cases hg

/-- The URL of a request is lost when a response without one comes after it. -/
theorem url_shows (parseUrl : String → Option ParsedUrl) (hF : Subscribed c F) {id : String}
    {r : EventResponseReceived} (hr : (F.respondedTo id).getLast? = some r)
    (hempty : r.response.url = "") {q : EventRequestWillBeSent} (hq : q ∈ F.sentBy id)
    (hne : q.url ≠ "") :
    ∃ ds ds', Interleaves c F ds ∧ Interleaves c F ds' ∧
      (trackAfter c parseUrl id (signals c id ds)).visible ≠
        (trackAfter c parseUrl id (signals c id ds')).visible := by
  have iXN := (interleaves_failedOnly hF).append (interleaves_finishedOnly hF)
  have iR := interleaves_responsesOnly hF
  have iQ := interleaves_requestsOnly hF
  have iRQ := iR.append iQ
  refine ⟨_, _, (iXN.append iRQ).of_eq ?_, (iXN.append (iQ.append iR)).of_eq ?_, ?_⟩
  · ext1 <;> simp
  · ext1 <;> simp
  -- the requests last keep their URL, the responses last erase it
  · rw [signals_append, trackAfter_idle c parseUrl id (iXN.streams id).responded
      (iXN.streams id).sent, signals_append c id _ (_ ++ _), trackAfter_idle c parseUrl id
      (iXN.streams id).responded (iXN.streams id).sent]
    have hlast : (respondedOf (signals c id F.responsesOnly.deliveries)).getLast? = some r := by
      rw [(iR.streams id).responded]
      exact hr
    obtain ⟨e, -, hvis⟩ := Track.visible_of_named
      (url_of_names parseUrl hF (.inr ⟨q, hq, hne⟩))
      ((iRQ.streams id).not_aborted_of_no_failures c parseUrl rfl)
    have hvis' : (trackAfter c parseUrl id (signals c id
        (F.requestsOnly.deliveries ++ F.responsesOnly.deliveries))).visible = none := by
      refine Track.visible_of_unnamed ?_
      rw [signals_append, url_append_responded c parseUrl id _ (iR.streams id).sent, hlast]
      exact hempty
    rw [hvis, hvis']
    exact Option.some_ne_none e

/-- A failure that comes after what tells it apart does not come out blank. -/
theorem blanks_lt_of_append {parseUrl : String → Option ParsedUrl} (url : String)
    (waitForRequest : List String) (hF : Subscribed c F) {G H : Family} (hGH : G.append H = F)
    {f : EventLoadingFailed} {fs : List EventLoadingFailed} (hH : H.failed = f :: fs)
    (hloud : (trackAfter c parseUrl f.requestId (signals c f.requestId G.deliveries)).url ≠ "" ∨
      isQuickAbort f (trackAfter c parseUrl f.requestId
        (signals c f.requestId G.deliveries)).sentAt = true) :
    ∃ ds, Interleaves c F ds ∧
      ∀ t, run c parseUrl url waitForRequest ds = .ok t → t.blanks < F.failed.length := by
  subst hGH
  have iG := Family.interleaves (hF.mono (List.subset_append_left G.requests H.requests)
    (List.subset_append_left G.failed H.failed))
  have iH := Family.interleaves (hF.mono (List.subset_append_right G.requests H.requests)
    (List.subset_append_right G.failed H.failed))
  have hcons : H.deliveries =
      { ev := .loadingFailed f } :: Family.deliveries { H with failed := fs } := by
    simp [Family.deliveries, hH]
  have iGH := iG.append iH
  rw [hcons] at iGH
  exact ⟨_, iGH, fun t hrun => blanks_lt iGH rfl hloud hrun⟩

/-- A response that has a URL gives it to the entry of a failure behind it. -/
theorem failure_shows_of_response (parseUrl : String → Option ParsedUrl) (url : String)
    (waitForRequest : List String) (hF : Subscribed c F) {f : EventLoadingFailed}
    (hf : f ∈ F.failed) {r : EventResponseReceived} (hr : r ∈ F.respondedTo f.requestId)
    (hne : r.response.url ≠ "") :
    ∃ ds, Interleaves c F ds ∧
      ∀ t, run c parseUrl url waitForRequest ds = .ok t → t.blanks < F.failed.length := by
  obtain ⟨fs₁, fs₂, hsplit⟩ := List.append_of_mem hf
  obtain ⟨hrmem, hrec⟩ := List.mem_filter.mp hr
  obtain ⟨rs₁, rs₂, hrsplit⟩ := List.append_of_mem hrmem
  let G : Family := { responses := rs₁ ++ [r], failed := fs₁ }
  have hG := (Family.interleaves (F := G) (hF.mono (List.nil_subset _)
    (by simp [G, hsplit]))).streams f.requestId
  refine blanks_lt_of_append url waitForRequest hF (G := G)
    (H := { F with responses := rs₂, failed := f :: fs₂ }) ?_ rfl (.inl ?_)
  · ext1 <;> simp [G, hsplit, hrsplit]
  · rw [(named_after c parseUrl _ _).responded r ?_ hne]
    · exact hne
    · have hrec := of_decide_eq_true hrec
      rw [hG.responded, Family.respondedTo, List.filter_append]
      simp [hrec.1, hrec.2]

/-- A request gives the entry its URL, or makes the failure behind it a quick abort. -/
theorem failure_shows_of_request (parseUrl : String → Option ParsedUrl) (url : String)
    (waitForRequest : List String) (hF : Subscribed c F) {f : EventLoadingFailed}
    (hf : f ∈ F.failed) {q : EventRequestWillBeSent} (hq : q ∈ F.sentBy f.requestId)
    (hloud : q.url ≠ "" ∨ isQuickAbort f (some q.timestamp) = true) :
    ∃ ds, Interleaves c F ds ∧
      ∀ t, run c parseUrl url waitForRequest ds = .ok t → t.blanks < F.failed.length := by
  obtain ⟨fs₁, fs₂, hsplit⟩ := List.append_of_mem hf
  obtain ⟨hqmem, hrec⟩ := List.mem_filter.mp hq
  obtain ⟨qs₁, qs₂, hqsplit⟩ := List.append_of_mem hqmem
  let G : Family := { requests := qs₁ ++ [q], failed := fs₁ }
  have hG := (Family.interleaves (F := G) (hF.mono (by simp [G, hqsplit])
    (by simp [G, hsplit]))).streams f.requestId
  have hsent : sentOf (signals c f.requestId G.deliveries) =
      { G with requests := qs₁ }.sentBy f.requestId ++ [q] := by
    have hrec := of_decide_eq_true hrec
    rw [hG.sent, Family.sentBy, List.filter_append]
    simp [Family.sentBy, hrec.1, hrec.2]
  refine blanks_lt_of_append url waitForRequest hF (G := G)
    (H := { F with requests := qs₂, failed := f :: fs₂ }) ?_ rfl ?_
  · ext1 <;> simp [G, hsplit, hqsplit]
  · refine hloud.imp ?_ ?_
    · intro hne
      rw [(named_after c parseUrl _ _).sent hG.responded, hsent]
      exact firstNamed_ne_iff.mpr ⟨q, by simp, hne⟩
    · intro hquick
      rw [sentAt_after, hsent, Lib.lastWrite_concat]
      exact hquick

/-- A failure that can be told apart does not always come out blank. -/
theorem failure_shows (parseUrl : String → Option ParsedUrl) (url : String)
    (waitForRequest : List String) (hF : Subscribed c F) {id : String}
    {f : EventLoadingFailed} (hf : f ∈ F.failedFor id)
    (happart : ¬FailsBlank (F.respondedTo id) (F.sentBy id) f) :
    ∃ ds, Interleaves c F ds ∧
      ∀ t, run c parseUrl url waitForRequest ds = .ok t → t.blanks < F.failed.length := by
  obtain ⟨hmem, hid⟩ := List.mem_filter.mp hf
  obtain rfl : f.requestId = id := by simpa using hid
  by_cases hresp : ∃ r ∈ F.respondedTo f.requestId, r.response.url ≠ ""
  · obtain ⟨r, hr, hne⟩ := hresp
    exact failure_shows_of_response parseUrl url waitForRequest hF hmem hr hne
  · have hblank : ∀ r ∈ F.respondedTo f.requestId, r.response.url = "" := fun r hr =>
      by_contra fun hne => hresp ⟨r, hr, hne⟩
    obtain ⟨q, hq, hloud⟩ : ∃ q ∈ F.sentBy f.requestId,
        q.url ≠ "" ∨ isQuickAbort f (some q.timestamp) = true := by
      by_contra hnone
      refine happart ⟨hblank, fun q hq => ⟨?_, ?_⟩⟩
      · exact by_contra fun hne => hnone ⟨q, hq, .inl hne⟩
      · exact Bool.eq_false_iff.mpr fun hquick => hnone ⟨q, hq, .inr hquick⟩
    exact failure_shows_of_request parseUrl url waitForRequest hF hmem hq hloud

end Shows

/-! ## Order independence -/

/-- Any two interleavings of the family that are consumed leave the same
    inventory. -/
def OrderIndependent (c : CollectCaptures) (parseUrl : String → Option ParsedUrl) (url : String)
    (waitForRequest : List String) (F : Family) : Prop :=
  ∀ ds ds' t t', Interleaves c F ds → Interleaves c F ds' →
    run c parseUrl url waitForRequest ds = .ok t →
    run c parseUrl url waitForRequest ds' = .ok t' → inventory c t = inventory c t'

section Independence

variable {c : CollectCaptures} {parseUrl : String → Option ParsedUrl} {url : String}
  {waitForRequest : List String} {F : Family}

/-- Two interleavings that leave a request with different things to show. -/
theorem not_orderIndependent_of_visible (hF : Consumable c waitForRequest F) {id : String}
    (h : ∃ ds ds', Interleaves c F ds ∧ Interleaves c F ds' ∧
      (trackAfter c parseUrl id (signals c id ds)).visible ≠
        (trackAfter c parseUrl id (signals c id ds')).visible) :
    ¬OrderIndependent c parseUrl url waitForRequest F := by
  intro hind
  obtain ⟨ds, ds', hds, hds', hne⟩ := h
  obtain ⟨t, hrun⟩ := hds.run_ok hF parseUrl url
  obtain ⟨t', hrun'⟩ := hds'.run_ok hF parseUrl url
  exact inventory_ne_of_visible hrun hrun' id hne (hind ds ds' t t' hds hds' hrun hrun')

/-- Every conflict of a family that can be consumed shows. -/
theorem not_orderIndependent_of_conflict (hF : Consumable c waitForRequest F) {id : String}
    (hconf : F.Conflict id) : ¬OrderIndependent c parseUrl url waitForRequest F := by
  have hsub := hF.toSubscribed
  cases hconf with
  | size f hf hsize hnamed =>
      exact not_orderIndependent_of_visible hF (size_shows parseUrl hsub hf hsize hnamed)
  | url r hr hempty q hq hne =>
      exact not_orderIndependent_of_visible hF (url_shows parseUrl hsub hr hempty hq hne)
  | failure f hf happart =>
      intro hind
      have hfailed : F.failed ≠ [] := List.ne_nil_of_mem (List.mem_filter.mp hf).1
      -- the failures first, so that all come out blank
      have hfirst : Interleaves c F (F.failedOnly.deliveries ++ (F.finishedOnly.deliveries ++
          (F.responsesOnly.deliveries ++ F.requestsOnly.deliveries))) := by
        refine ((interleaves_failedOnly hsub).append ((interleaves_finishedOnly hsub).append
          ((interleaves_responsesOnly hsub).append (interleaves_requestsOnly hsub)))).of_eq ?_
        ext1 <;> simp
      obtain ⟨ds, hds, hlt⟩ := failure_shows parseUrl url waitForRequest hsub hf happart
      obtain ⟨t, hrun⟩ := hfirst.run_ok hF parseUrl url
      obtain ⟨t', hrun'⟩ := hds.run_ok hF parseUrl url
      refine inventory_ne_of_blanks (hsub.httpErrors hfailed) ?_
        (hind _ ds t t' hfirst hds hrun hrun')
      have hall := blanks_eq hsub hfirst hrun
      have hless := hlt t' hrun'
      omega

end Independence

/-- The inventory of the full loop does not depend on how the streams are
    interleaved if and only if, where they can be consumed at all, no request
    has a conflict. -/
theorem orderIndependent_iff (c : CollectCaptures) (parseUrl : String → Option ParsedUrl)
    (url : String) (waitForRequest : List String) (F : Family) :
    OrderIndependent c parseUrl url waitForRequest F ↔
      (Consumable c waitForRequest F → ∀ id, ¬F.Conflict id) := by
  constructor
  · intro hind hF id hconf
    exact not_orderIndependent_of_conflict hF hconf hind
  · intro hF ds ds' t t' hds hds' hrun hrun'
    exact inventory_eq_of_not_conflict hds hds' (hF (hds.consumable hrun)) hrun hrun'

/-- One request of 100 bytes. -/
def loadedScript : Family where
  responses := [{ requestId := "r1", type := .script, response := { url := "https://a.example/" } }]
  finished := [{ requestId := "r1", encodedDataLength := 100 }]

/-- The size of a request is lost when `loadingFinished` is consumed before the
    response. -/
theorem loadedScript_orderDependent :
    ¬OrderIndependent {} (fun _ => none) "https://a.example/" [] loadedScript := by
  intro hind
  have h := hind
    ((loadedScript.responses.map fun ev => { ev := .responseReceived ev }) ++
      (loadedScript.finished.map fun ev => { ev := .loadingFinished ev }))
    ((loadedScript.finished.map fun ev => { ev := .loadingFinished ev }) ++
      (loadedScript.responses.map fun ev => { ev := .responseReceived ev }))
    _ _ (by constructor <;> decide) (by constructor <;> decide) rfl rfl
  have hsize := congrArg Inventory.totalSize h
  revert hsize
  decide

end FullLoop
end Collect
end BrowserHeadless
