/-
  BrowserHeadless.Collect.LandingReports

  The two reports of the landing page in a full capture: `document_timing` and
  `http_errors.final_url`.

  Both are registers that Document responses write.  The first one is written below 400
  if there is timing or the response is from a cache; the second one is written below 300
  (a redirect is skipped, an error page leaves it alone).  So they tell of the same page
  exactly when the last response that writes the first one is no redirect and has the URL
  of the last one that writes the second.
-/

import BrowserHeadless.Collect.Subframe
import BrowserHeadless.Lib.Sort

namespace BrowserHeadless
namespace Collect

/-- The response was served by a cache. -/
def Response.cached (r : Response) : Bool :=
  r.fromDiskCache.getD false || r.fromServiceWorker.getD false || r.fromPrefetchCache.getD false

/-- A Document response that `document_timing` records. -/
def Response.timed (r : Response) : Bool :=
  statusAsU32 r.status < 400 && (r.timing.isSome || r.cached)

/-- A Document response that `final_url` records. -/
def Response.landed (r : Response) : Bool := statusAsU32 r.status < 300

namespace FullLoop

/-- The Document responses of a sequence, without those of a pseudo-scheme. -/
def documentResponses (ds : List (Delivery Event)) : List Response :=
  ds.filterMap fun d =>
    match d.ev with
    | .responseReceived ev =>
        if isRealResource ev.response.url = true ∧ ev.type = .document then some ev.response
        else none
    | _ => none

/-- A register that some of the Document responses write. -/
theorem lastWrite_documents {β γ : Type} {write : Nat → EventResponseReceived → Option β}
    {f : β → γ} {p : Response → Bool} {g : Response → γ}
    (h : ∀ wallSecs ev, (write wallSecs ev).map f =
      if ev.type = .document ∧ p ev.response = true then some (g ev.response) else none)
    (ds : List (Delivery Event)) :
    (Lib.lastWrite (responseWrite write) ds).map f =
      (((documentResponses ds).filter p).getLast?).map g := by
  have hwrites : ∀ d ∈ ds, (responseWrite write d).map f =
      (match d.ev with
        | .responseReceived ev =>
            if isRealResource ev.response.url = true ∧ ev.type = .document then some ev.response
            else none
        | _ => none : Option Response).bind fun r => if p r then some (g r) else none := by
    intro d _
    unfold responseWrite
    cases d.ev with
    | responseReceived ev =>
        simp only
        by_cases hreal : isRealResource ev.response.url = true
        · rw [if_pos hreal, h]
          by_cases hdoc : ev.type = .document
          · simp [hreal, hdoc]
          · simp [hdoc]
        · simp [hreal]
    | _ => rfl
  rw [Lib.lastWrite, ← List.getLast?_map, ← List.getLast?_map, List.map_filterMap,
    List.filterMap_congr hwrites, ← List.filterMap_filterMap, ← documentResponses,
    ← Lib.map_filter_eq_filterMap]

section Run

variable {c : CollectCaptures} {parseUrl : String → Option ParsedUrl} {url : String}
  {waitForRequest : List String} {ds : List (Delivery Event)} {t : State}

/-- `document_timing` tells of the last timed Document response. -/
theorem documentTiming_page (h : run c parseUrl url waitForRequest ds = .ok t) :
    t.documentTiming.map (fun dt => (dt.url, dt.status)) =
      (((documentResponses ds).filter Response.timed).getLast?).map fun r =>
        (r.url, statusAsU32 r.status) := by
  rw [run_documentTiming h]
  refine lastWrite_documents (fun _ ev => ?_) ds
  simp only [LeanLoop.trackDocument, Response.timed, Response.cached]
  by_cases hdoc : ev.type = .document
  · by_cases hstatus : statusAsU32 ev.response.status < 400
    · by_cases hsome : ev.response.timing.isSome = true
      · obtain ⟨timing, htiming⟩ := Option.isSome_iff_exists.mp hsome
        simp [hdoc, hstatus, htiming, buildDocumentTiming]
      · have htiming := Option.not_isSome_iff_eq_none.mp hsome
        simp only [hdoc, hstatus, htiming, if_true, true_and, decide_true, Bool.true_and,
          Option.isSome_none, Bool.false_or]
        split <;> rfl
    · simp [hdoc, hstatus]
  · simp [hdoc]

/-- `final_url` tells of the last Document response below 300. -/
theorem httpFinalUrl_page (hc : c.httpErrors = true)
    (h : run c parseUrl url waitForRequest ds = .ok t) :
    t.httpFinalUrl =
      ((((documentResponses ds).filter Response.landed).getLast?).map fun r => r.url).getD url := by
  have hwrite : (Lib.lastWrite (responseWrite fun _ ev => finalUrlWrite c ev) ds).map id =
      (((documentResponses ds).filter Response.landed).getLast?).map fun r => r.url := by
    refine lastWrite_documents (fun _ ev => ?_) ds
    simp only [finalUrlWrite, Response.landed, hc, true_and]
    by_cases hdoc : ev.type = .document
    · simp only [hdoc, if_true, true_and, decide_eq_true_eq]
      by_cases hlow : statusAsU32 ev.response.status < 300
      · have hskip : ¬ (300 ≤ statusAsU32 ev.response.status ∧
            statusAsU32 ev.response.status < 400) := by omega
        have hok : statusAsU32 ev.response.status < 400 := by omega
        rw [if_neg hskip, if_pos hok, if_pos hlow]
        rfl
      · rw [if_neg hlow]
        split
        · rfl
        · rw [if_neg (by omega)]
          rfl
    · simp [hdoc]
  have hfinal := run_httpFinalUrl h
  simp only [Option.map_id_fun, id_eq] at hwrite
  rw [hwrite] at hfinal
  cases hlast : (((documentResponses ds).filter Response.landed).getLast?).map fun r => r.url with
  | none =>
      rw [hlast] at hfinal
      exact Option.some.inj hfinal
  | some u =>
      rw [hlast] at hfinal
      exact Option.some.inj hfinal

/-- The last timed Document response is no redirect, and the last one below 300 has its
    URL. -/
def LandingsAgree (ds : List (Delivery Event)) : Prop :=
  ∀ r, ((documentResponses ds).filter Response.timed).getLast? = some r →
    statusAsU32 r.status < 300 ∧
      ∀ r', ((documentResponses ds).filter Response.landed).getLast? = some r' → r'.url = r.url

/-- The two reports tell of the same page, and not of a redirect, exactly when the
    Document responses agree. -/
theorem documentTiming_agrees_finalUrl_iff (hc : c.httpErrors = true)
    (hrun : run c parseUrl url waitForRequest ds = .ok t) :
    (∀ dt, (finish c t).documentTiming = some dt →
      (∃ e, (finish c t).httpErrors = some e ∧ dt.url = e.finalUrl) ∧
        ¬ (300 ≤ dt.status ∧ dt.status < 400)) ↔
      LandingsAgree ds := by
  have herrors : ∃ e, (finish c t).httpErrors = some e ∧ e.finalUrl = t.httpFinalUrl := by
    refine ⟨_, if_pos hc, rfl⟩
  obtain ⟨e, he, hurl⟩ := herrors
  have hpage := documentTiming_page hrun
  have hfinal := httpFinalUrl_page hc hrun
  have hdt : (finish c t).documentTiming = t.documentTiming := rfl
  rw [hdt, he, LandingsAgree]
  cases hlast : ((documentResponses ds).filter Response.timed).getLast? with
  | none =>
      -- neither side has anything to show
      rw [hlast, Option.map_none, Option.map_eq_none_iff] at hpage
      rw [hpage]
      exact iff_of_true (fun dt h => by cases h) (fun r h => by cases h)
  | some r =>
      have hbelow : statusAsU32 r.status < 400 := by
        have htimed := (List.mem_filter.mp (List.mem_of_getLast? hlast)).2
        simp only [Response.timed, Bool.and_eq_true, decide_eq_true_eq] at htimed
        exact htimed.1
      rw [hlast, Option.map_some, Option.map_eq_some_iff] at hpage
      obtain ⟨dt, htiming, hfields⟩ := hpage
      obtain ⟨hdturl, hdtstatus⟩ := Prod.mk.inj hfields
      rw [htiming]
      constructor
      · intro h r₀ hr₀
        cases hr₀
        obtain ⟨⟨e', he', hagree⟩, hredirect⟩ := h dt rfl
        cases he'
        refine ⟨by omega, fun r' hr' => ?_⟩
        rw [hr', Option.map_some, Option.getD_some] at hfinal
        rw [← hfinal, ← hurl, ← hagree, hdturl]
      · intro h dt₀ hdt₀
        cases hdt₀
        obtain ⟨hlow, hsame⟩ := h r rfl
        refine ⟨⟨e, rfl, ?_⟩, by omega⟩
        -- the response itself is one below 300
        have hmem : r ∈ (documentResponses ds).filter Response.landed :=
          List.mem_filter.mpr ⟨(List.mem_filter.mp (List.mem_of_getLast? hlast)).1,
            decide_eq_true hlow⟩
        obtain ⟨r', hr'⟩ := Option.ne_none_iff_exists'.mp fun hnone =>
          List.ne_nil_of_mem hmem (List.getLast?_eq_none_iff.mp hnone)
        rw [hr', Option.map_some, Option.getD_some] at hfinal
        rw [hurl, hfinal, hsame r' hr', hdturl]

end Run

/-- `pageLoad` is redirected once: both reports tell of the page it lands on. -/
theorem documentTiming_agrees_finalUrl_pageLoad :
    ∃ t, run { httpErrors := true } (fun _ => none) "https://a/" [] pageLoad = .ok t ∧
      ((∀ dt, (finish { httpErrors := true } t).documentTiming = some dt →
        (∃ e, (finish { httpErrors := true } t).httpErrors = some e ∧ dt.url = e.finalUrl) ∧
          ¬ (300 ≤ dt.status ∧ dt.status < 400)) ↔
        LandingsAgree pageLoad) := by
  have hrun : run { httpErrors := true } (fun _ => none) "https://a/" [] pageLoad = .ok _ := rfl
  exact ⟨_, hrun, documentTiming_agrees_finalUrl_iff rfl hrun⟩

/-- A 302 without a target to go to: its timing is recorded as that of the landing page,
    and the final URL is that of the request. -/
theorem documentTiming_redirect :
    ¬ ∀ (c : CollectCaptures) (parseUrl : String → Option ParsedUrl) (url : String)
        (waitForRequest : List String) (ds : List (Delivery Event)) (t : State),
      c.httpErrors = true → run c parseUrl url waitForRequest ds = .ok t →
      ∀ dt, (finish c t).documentTiming = some dt →
        (∃ e, (finish c t).httpErrors = some e ∧ dt.url = e.finalUrl) ∧
          ¬ (300 ≤ dt.status ∧ dt.status < 400) := by
  intro h
  have hpage := h { httpErrors := true } (fun _ => none) "https://a/" []
    [answer "1" .document "https://a/" 302] _ rfl rfl _ rfl
  exact hpage.2 ⟨by decide, by decide⟩

end FullLoop
end Collect
end BrowserHeadless
