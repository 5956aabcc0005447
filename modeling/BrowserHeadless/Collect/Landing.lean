/-
  BrowserHeadless.Collect.Landing

  Where a content-only capture says the page landed.

  `document_timing` is a register: the last Document response below 400 that
  carries timing (or comes from a cache) writes it.  The content envelope copies
  its status and URL.  So the envelope reports the last Document response that
  is not a redirect exactly when that response is the last one at all and is not
  an error page.
-/

import BrowserHeadless.Collect.LeanLoop
import BrowserHeadless.Lib.Register

namespace BrowserHeadless
namespace Collect

/-! ## URLs -/

/-- An `http:` or `https:` URL. -/
def isHttp (url : String) : Bool := startsWith url "http://" || startsWith url "https://"

/-- A string has at most one of two prefixes that differ in their first
    letter. -/
theorem not_startsWith_of_head {s p q : String} {a b : Char} {as bs : List Char}
    (hp : p.toList = a :: as) (hq : q.toList = b :: bs) (hab : a ≠ b)
    (h : startsWith s p = true) : startsWith s q = false := by
  unfold startsWith at h ⊢
  rw [hp] at h
  rw [hq]
  cases hs : s.toList with
  | nil => simp [hs] at h
  | cons c cs =>
      simp only [hs, List.isPrefixOf_cons_cons, Bool.and_eq_true, beq_iff_eq] at h
      simp only [List.isPrefixOf_cons_cons, Bool.and_eq_false_imp, beq_iff_eq]
      intro hbc
      exact absurd (h.1.trans hbc.symm) hab

/-- Web pages pass the pseudo-scheme filter. -/
theorem isRealResource_of_isHttp {url : String} (h : isHttp url = true) :
    isRealResource url = true := by
  -- `http` and the five pseudo-schemes differ in their first letter
  have key : ∀ p : String, startsWith url p = true → p.toList.head? = some 'h' →
      isRealResource url = true := by
    intro p hp hh
    obtain ⟨as, has⟩ := List.head?_eq_some_iff.mp hh
    simp only [isRealResource,
      not_startsWith_of_head has (q := "data:") rfl (by decide) hp,
      not_startsWith_of_head has (q := "blob:") rfl (by decide) hp,
      not_startsWith_of_head has (q := "about:") rfl (by decide) hp,
      not_startsWith_of_head has (q := "chrome-extension:") rfl (by decide) hp,
      not_startsWith_of_head has (q := "moz-extension:") rfl (by decide) hp, Bool.or_self,
      Bool.not_false]
  rcases Bool.or_eq_true_iff.mp h with h | h
  · exact key _ h rfl
  · exact key _ h rfl

namespace LeanLoop

/-! ## The register of the main document -/

/-- What an event writes to `document_timing`. -/
def documentWrite (d : Delivery LeanEvent) : Option DocumentTiming :=
  match d.ev with
  | .lifecycle _ => none
  | .responseReceived ev =>
      if isRealResource ev.response.url then trackDocument ev none else none

theorem trackDocument_eq_or (ev : EventResponseReceived) (timing : Option DocumentTiming) :
    trackDocument ev timing = (trackDocument ev none).or timing := by
  simp only [trackDocument]
  split
  · split
    · cases ev.response.timing with
      | some t => rfl
      | none =>
          simp only
          split <;> rfl
    · rfl
  · rfl

/-- What the response arm does to the main document. -/
theorem onResponse_documentTiming {ev : EventResponseReceived} {s s' : State}
    (h : onResponse ev s = .ok s') :
    s'.documentTiming =
      if isRealResource ev.response.url then trackDocument ev s.documentTiming
      else s.documentTiming := by
  unfold onResponse at h
  by_cases hreal : isRealResource ev.response.url
  · simp only [hreal, Bool.not_true, Bool.false_eq_true, if_false] at h
    rw [if_pos hreal]
    cases hm : matchPatterns s.pendingPatterns ev.response.url ev.response.status with
    | error e => simp [hm] at h
    | ok pending =>
        simp only [hm, Except.ok.injEq] at h
        subst h
        rfl
  · simp only [hreal, Bool.not_false, if_true, Except.ok.injEq] at h
    rw [if_neg hreal, h]

theorem onLifecycle_documentTiming (now : Instant) (ev : EventLifecycleEvent) (s : State) :
    (onLifecycle now ev s).documentTiming = s.documentTiming := by
  simp only [onLifecycle]
  split <;> rfl

theorem step_documentTiming (s : State) (d : Delivery LeanEvent) (s' : State)
    (h : step s d = .ok s') : s'.documentTiming = (documentWrite d).or s.documentTiming := by
  unfold documentWrite
  cases hev : d.ev with
  | lifecycle ev =>
      simp only [step, hev, Except.ok.injEq] at h
      subst h
      exact onLifecycle_documentTiming d.now ev s
  | responseReceived ev =>
      simp only [step, hev] at h
      rw [onResponse_documentTiming h, trackDocument_eq_or]
      by_cases hreal : isRealResource ev.response.url
      · simp only [hreal, if_true]
      · simp only [hreal]
        rfl

/-- After a run `document_timing` is what the last Document response that writes
    it wrote. -/
theorem run_documentTiming {waitForRequest : List String} {ds : List (Delivery LeanEvent)}
    {s : State} (h : run waitForRequest ds = .ok s) :
    s.documentTiming = Lib.lastWrite documentWrite ds := by
  have := Lib.register_of_consume State.documentTiming documentWrite step_documentTiming h
  rw [this]
  exact Option.or_none

/-! ## The landing page -/

/-- The Document responses of a sequence. -/
def documents (ds : List (Delivery LeanEvent)) : List Response :=
  ds.filterMap fun d =>
    match d.ev with
    | .responseReceived ev => if ev.type = .document then some ev.response else none
    | .lifecycle _ => none

/-- A 3xx response. -/
def isRedirect (r : Response) : Bool := 300 ≤ r.status && r.status < 400

/-- The response of the page landed on: the last Document response that is not
    a redirect. -/
def landing (ds : List (Delivery LeanEvent)) : Option Response :=
  ((documents ds).filter fun r => !isRedirect r).getLast?

/-- Every Document response is for the main frame, has a web URL and carries
    timing. -/
def MainDocuments (mainFrame : String) (ds : List (Delivery LeanEvent)) : Prop :=
  ∀ d ∈ ds, ∀ ev, d.ev = .responseReceived ev → ev.type = .document →
    ev.frameId = some mainFrame ∧ isHttp ev.response.url = true ∧ ev.response.timing.isSome = true

/-- The envelope reports the response. -/
def Reports (env : ContentResponse) (r : Response) : Prop :=
  (env.status : Int) = r.status ∧ env.finalUrl = r.url

/-- What a timed Document response leaves for the envelope. -/
def landingWrite (r : Response) : Option ContentResponse :=
  if statusAsU32 r.status < 400 then some ⟨statusAsU32 r.status, r.url⟩ else none

/-- The envelope of a run is what the last Document response that leaves one
    left. -/
theorem run_contentResponse {mainFrame requestedUrl : String} {waitForRequest : List String}
    {ds : List (Delivery LeanEvent)} {s : State} (hdocs : MainDocuments mainFrame ds)
    (h : run waitForRequest ds = .ok s) :
    contentResponse requestedUrl (finish s).documentTiming =
      (((documents ds).filterMap landingWrite).getLast?).getD ⟨0, requestedUrl⟩ := by
  have hwrite : ∀ d ∈ ds, (documentWrite d).map (fun dt => (⟨dt.status, dt.url⟩ : ContentResponse)) =
      (match d.ev with
        | .responseReceived ev => if ev.type = .document then some ev.response else none
        | .lifecycle _ => none : Option Response).bind landingWrite := by
    intro d hd
    unfold documentWrite
    cases hev : d.ev with
    | lifecycle ev => rfl
    | responseReceived ev =>
        simp only
        -- a timed Document of the web passes every test but the one for 400
        by_cases hdoc : ev.type = .document
        · obtain ⟨-, hhttp, htimed⟩ := hdocs d hd ev hev hdoc
          obtain ⟨t, ht⟩ := Option.isSome_iff_exists.mp htimed
          simp only [isRealResource_of_isHttp hhttp, if_true, trackDocument, hdoc, ht,
            Option.bind_some, landingWrite]
          split <;> rfl
        · simp only [trackDocument, hdoc, if_false, Option.bind_none]
          split <;> rfl
  -- the register, seen through the two fields the envelope copies
  have hreg : s.documentTiming.map (fun dt => (⟨dt.status, dt.url⟩ : ContentResponse)) =
      ((documents ds).filterMap landingWrite).getLast? := by
    rw [run_documentTiming h, Lib.lastWrite, ← List.getLast?_map, List.map_filterMap, documents,
      List.filterMap_filterMap]
    exact congrArg List.getLast? (List.filterMap_congr hwrite)
  rw [← hreg]
  unfold contentResponse finish
  cases s.documentTiming <;> rfl

/-- Whatever the last Document responses were, the envelope's status is below
    400. -/
theorem landingWrite_status_lt {r : Response} {env : ContentResponse}
    (h : landingWrite r = some env) : env.status < 400 := by
  unfold landingWrite at h
  split at h
  · cases h
    assumption
  · cases h

theorem lastWrite_status_lt (rs : List Response) (requestedUrl : String) :
    (((rs.filterMap landingWrite).getLast?).getD ⟨0, requestedUrl⟩).status < 400 := by
  cases h : (rs.filterMap landingWrite).getLast? with
  | none => exact Nat.zero_lt_succ 399
  | some env =>
      obtain ⟨r, -, hr⟩ := List.mem_filterMap.mp (List.mem_of_getLast? h)
      exact landingWrite_status_lt hr

/-- A last Document response below 400 is the one the envelope reports. -/
theorem reports_last (rs : List Response) {r : Response} (requestedUrl : String)
    (h0 : 0 ≤ r.status) (h1 : r.status < 400) :
    Reports ((((rs ++ [r]).filterMap landingWrite).getLast?).getD ⟨0, requestedUrl⟩) r := by
  have hcast : (statusAsU32 r.status : Int) = r.status := statusAsU32_of_range h0 (by omega)
  have hlt : statusAsU32 r.status < 400 := by omega
  have hwrite : landingWrite r = some ⟨statusAsU32 r.status, r.url⟩ := if_pos hlt
  rw [List.filterMap_append, List.filterMap_cons_some hwrite, List.filterMap_nil,
    List.getLast?_concat]
  exact ⟨hcast, rfl⟩

/-- The envelope of a content-only capture reports the page landed on exactly
    when the last Document response of the sequence has a status from 0 to 299:
    an error page is not recorded, and a redirect that comes last is. -/
theorem contentResponse_reports_landing_iff (mainFrame requestedUrl : String)
    (waitForRequest : List String) {ds : List (Delivery LeanEvent)} {s : State} {r : Response}
    (hdocs : MainDocuments mainFrame ds) (hrun : run waitForRequest ds = .ok s)
    (hlanding : landing ds = some r) :
    Reports (contentResponse requestedUrl (finish s).documentTiming) r ↔
      ∃ last, (documents ds).getLast? = some last ∧ 0 ≤ last.status ∧ last.status < 300 := by
  rw [run_contentResponse hdocs hrun]
  unfold landing at hlanding
  -- split off the last Document response; there is one, since `r` is among them
  rcases List.eq_nil_or_concat (documents ds) with hnil | ⟨rs, last, hlast⟩
  · rw [hnil] at hlanding
    cases hlanding
  · rw [List.concat_eq_append] at hlast
    rw [hlast] at hlanding ⊢
    rw [List.getLast?_concat]
    have hlt := lastWrite_status_lt (rs ++ [last]) requestedUrl
    by_cases hredirect : isRedirect last = true
    · -- the redirect is recorded over the landing page
      have hrange : 300 ≤ last.status ∧ last.status < 400 := by
        simpa [isRedirect] using hredirect
      have hr : r.status < 300 ∨ 400 ≤ r.status := by
        simpa [isRedirect] using (List.mem_filter.mp (List.mem_of_getLast? hlanding)).2
      have hrecorded := reports_last rs requestedUrl (by omega) hrange.2
      constructor
      · intro hreports
        have hsame : last.status = r.status := hrecorded.1.symm.trans hreports.1
        omega
      · rintro ⟨_, heq, -, h1⟩
        cases heq
        omega
    · -- the last response is the landing page
      obtain rfl : last = r := by
        simpa [List.filter_append, hredirect] using hlanding
      have hrange : ¬(300 ≤ last.status ∧ last.status < 400) := by
        simpa [isRedirect] using hredirect
      constructor
      · intro hreports
        have hstatus := hreports.1
        exact ⟨last, rfl, by omega, by omega⟩
      · rintro ⟨_, heq, h0, h1⟩
        cases heq
        exact reports_last rs requestedUrl h0 (by omega)

/-- A timed Document response of the main frame. -/
def pageResponse (url : String) (status : Int) : Delivery LeanEvent where
  ev := .responseReceived
    { requestId := "r1", type := .document, frameId := some "main",
      response := { url := url, status := status, timing := some {} } }

/-- Responses of web pages are main-frame Document responses with timing. -/
theorem mainDocuments_pageResponse {ps : List (String × Int)}
    (h : ∀ p ∈ ps, isHttp p.1 = true) :
    MainDocuments "main" (ps.map fun p => pageResponse p.1 p.2) := by
  intro d hd ev hev _
  obtain ⟨p, hp, rfl⟩ := List.mem_map.mp hd
  cases hev
  exact ⟨rfl, h p hp, rfl⟩

/-- A redirect and its target: the target is reported. -/
theorem contentResponse_reports_landing_iff_redirected :
    Reports
        (contentResponse "http://a.example/"
          (some (buildDocumentTiming "https://a.example/" 200 false "" {})))
        { url := "https://a.example/", status := 200, timing := some {} } ↔
      ∃ last, (documents [pageResponse "http://a.example/" 301,
          pageResponse "https://a.example/" 200]).getLast? = some last ∧
        0 ≤ last.status ∧ last.status < 300 :=
  contentResponse_reports_landing_iff "main" "http://a.example/" []
    (mainDocuments_pageResponse (show ∀ p ∈ [("http://a.example/", 301), ("https://a.example/", 200)],
      isHttp p.1 = true by decide)) rfl rfl

/-- A page that answers 404: the envelope reports status 0 and the requested
    URL, as if no Document had been received. -/
theorem contentResponse_errorPage :
    ∃ s r, MainDocuments "main" [pageResponse "https://a.example/missing" 404] ∧
      run [] [pageResponse "https://a.example/missing" 404] = .ok s ∧
      landing [pageResponse "https://a.example/missing" 404] = some r ∧
      contentResponse "https://a.example/" (finish s).documentTiming = ⟨0, "https://a.example/"⟩ ∧
      ¬Reports (contentResponse "https://a.example/" (finish s).documentTiming) r := by
  refine ⟨State.init [], _, ?_, rfl, rfl, rfl, ?_⟩
  · exact mainDocuments_pageResponse (show ∀ p ∈ [("https://a.example/missing", 404)],
      isHttp p.1 = true by decide)
  · rintro ⟨hstatus, -⟩
    cases hstatus

end LeanLoop
end Collect
end BrowserHeadless
