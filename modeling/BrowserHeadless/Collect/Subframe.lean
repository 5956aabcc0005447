/-
  BrowserHeadless.Collect.Subframe

  What Document responses of other frames do to the main-document outputs.

  Neither loop looks at the frame of a response, so each main-document output is
  a register that every Document response may write.  Inserting Document
  responses of subframes leaves the outputs as they are exactly when it does not
  change how `wait_for_request` ends and, for each output, the last writer is not
  an inserted response or writes what the output holds anyway.
-/

import BrowserHeadless.Collect.Agree
import BrowserHeadless.Collect.Landing

namespace BrowserHeadless
namespace Collect

/-! ## `wait_for_request` by itself -/

/-- The effect of a response on the pending patterns. -/
def patternStep (pending : List String) (r : Response) : Except Error (List String) :=
  if !isRealResource r.url then .ok pending else LeanLoop.matchPatterns pending r.url r.status

/-- How `wait_for_request` ends on some responses: with `UpstreamFailure`, or
    not. -/
def upstream (waitForRequest : List String) (rs : List Response) : Except Error Unit :=
  (Lib.consume patternStep waitForRequest rs).map fun _ => ()

/-- A Document response of another frame. -/
def EventResponseReceived.IsSubframeDocument (mainFrame : String) (ev : EventResponseReceived) :
    Prop :=
  ev.type = .document ∧ ev.frameId ≠ some mainFrame

/-! ## The lean loop -/

namespace LeanLoop

/-- The response of an event. -/
def responseOf (d : Delivery LeanEvent) : Option Response :=
  match d.ev with
  | .lifecycle _ => none
  | .responseReceived ev => some ev.response

theorem onLifecycle_pendingPatterns (now : Instant) (ev : EventLifecycleEvent) (s : State) :
    (onLifecycle now ev s).pendingPatterns = s.pendingPatterns := by
  simp only [onLifecycle]
  split <;> rfl

/-- The pending patterns depend on the responses alone. -/
theorem projects_patterns : Lib.Projects step patternStep State.pendingPatterns responseOf where
  -- lifecycle events touch no pattern
  skip s d h := by
    cases hev : d.ev with
    | lifecycle ev => simp only [step, hev, Except.map, onLifecycle_pendingPatterns]
    | responseReceived ev => simp [responseOf, hev] at h
  keep s d r h := by
    cases hev : d.ev with
    | lifecycle ev => simp [responseOf, hev] at h
    | responseReceived ev =>
        simp only [responseOf, hev, Option.some.injEq] at h
        subst h
        simp only [step, hev, onResponse, patternStep]
        split
        · rfl
        · cases matchPatterns s.pendingPatterns ev.response.url ev.response.status <;> rfl

/-- The main-document outputs of a content-only capture. -/
structure MainDocument where
  documentTiming : Option DocumentTiming
  content : ContentResponse

/-- The main-document outputs at the end of the loop. -/
def mainDocument (requestedUrl : String) (s : State) : MainDocument where
  documentTiming := (finish s).documentTiming
  content := contentResponse requestedUrl (finish s).documentTiming

/-- A delivery of a Document response of a subframe. -/
def IsSubframeDocument (mainFrame : String) (d : Delivery LeanEvent) : Prop :=
  ∃ ev, d.ev = .responseReceived ev ∧ ev.IsSubframeDocument mainFrame

/-- The exact condition under which the inserted responses do not show: the two
    sequences end in the same `UpstreamFailure` or in none, and if in none, the
    last writer of the document timing is not an inserted response or writes
    what it holds anyway. -/
structure Unaffected {kind : Delivery LeanEvent → Prop} (waitForRequest : List String)
    (I : Lib.Insertion (Delivery LeanEvent) kind) : Prop where
  upstream_eq : upstream waitForRequest (I.extended.filterMap responseOf) =
    upstream waitForRequest (I.original.filterMap responseOf)
  documentTiming : upstream waitForRequest (I.original.filterMap responseOf) = .ok () →
    I.Undisturbed documentWrite none

/-- The outputs of the lean loop are unchanged exactly in unaffected runs. -/
theorem mainDocument_eq_iff {kind : Delivery LeanEvent → Prop} (requestedUrl : String)
    (waitForRequest : List String) (I : Lib.Insertion (Delivery LeanEvent) kind) :
    (run waitForRequest I.extended).map (mainDocument requestedUrl) =
        (run waitForRequest I.original).map (mainDocument requestedUrl) ↔
      Unaffected waitForRequest I := by
  have hout : ∀ s t, run waitForRequest I.extended = .ok s →
      run waitForRequest I.original = .ok t →
      (mainDocument requestedUrl s = mainDocument requestedUrl t ↔
        I.Undisturbed documentWrite none) := by
    intro s t hs ht
    rw [← I.undisturbed_iff, Option.or_none, Option.or_none, ← run_documentTiming hs,
      ← run_documentTiming ht]
    simp only [mainDocument, MainDocument.mk.injEq, finish]
    exact ⟨fun h => h.1, fun h => ⟨h, by rw [h]⟩⟩
  rw [Lib.map_eq_map_iff hout, run, run, projects_patterns.consume_end,
    projects_patterns.consume_end]
  exact ⟨fun h => ⟨h.1, h.2⟩, fun h => ⟨h.1, h.2⟩⟩

end LeanLoop

/-! ## The full loop -/

namespace FullLoop

/-- The response of an event. -/
def responseOf (d : Delivery Event) : Option Response :=
  d.shared.bind LeanLoop.responseOf

/-- The pending patterns depend on the responses alone. -/
theorem projects_patterns (c : CollectCaptures) (parseUrl : String → Option ParsedUrl) :
    Lib.Projects (step c parseUrl) patternStep State.pendingPatterns responseOf :=
  (projects_lean c parseUrl).comp LeanLoop.projects_patterns

/-- The registers of the main document. -/
structure MainFields where
  documentTiming : Option DocumentTiming
  httpFinalUrl : String
  httpRedirectCount : Nat
  securityHeaders : Option (List (String × String))
  tlsInfo : Option TlsInfo

/-- The registers of the main document in a state. -/
def State.mainFields (s : State) : MainFields where
  documentTiming := s.documentTiming
  httpFinalUrl := s.httpFinalUrl
  httpRedirectCount := s.httpRedirectCount
  securityHeaders := s.securityHeaders
  tlsInfo := s.tlsInfo

/-- Only responses touch the registers of the main document. -/
theorem step_mainFields {c : CollectCaptures} {parseUrl : String → Option ParsedUrl}
    {s s' : State} {d : Delivery Event} (hd : ∀ ev, d.ev ≠ .responseReceived ev)
    (h : step c parseUrl s d = .ok s') : s'.mainFields = s.mainFields := by
  cases step_cases h with
  | lifecycle ev =>
      simp only [onLifecycle]
      split <;> rfl
  | skipped ev hev => exact absurd hev (hd ev)
  | recorded ev hev => exact absurd hev (hd ev)
  | finished ev => rfl
  | exception ev => rfl
  | console ev => rfl
  | request ev =>
      simp only [onRequest]
      split <;> rfl
  | failed ev =>
      simp only [onFailed]
      split
      · rfl
      · split <;> rfl
  | styleSheet ev => rfl
  | ignored => rfl

/-- What a real response writes to a register; other events write nothing. -/
def responseWrite {β : Type} (write : Nat → EventResponseReceived → Option β)
    (d : Delivery Event) : Option β :=
  match d.ev with
  | .responseReceived ev =>
      if isRealResource ev.response.url then write d.wallSecs ev else none
  | _ => none

/-- The register rule for the registers of the main document. -/
theorem run_register {β : Type} {c : CollectCaptures} {parseUrl : String → Option ParsedUrl}
    {url : String} {waitForRequest : List String} (reg : MainFields → Option β)
    (write : Nat → EventResponseReceived → Option β)
    (hwrite : ∀ wallSecs ev s, reg (recordResponse c parseUrl wallSecs ev s).mainFields =
      (write wallSecs ev).or (reg s.mainFields))
    {ds : List (Delivery Event)} {t : State}
    (h : run c parseUrl url waitForRequest ds = .ok t) :
    reg t.mainFields =
      (Lib.lastWrite (responseWrite write) ds).or
        (reg (State.init url waitForRequest).mainFields) := by
  refine Lib.register_of_consume (fun s => reg s.mainFields) (responseWrite write) ?_ h
  intro s d s' hstep
  unfold responseWrite
  cases hev : d.ev with
  | responseReceived ev =>
      simp only [step, hev] at hstep
      rcases onResponse_eq_ok hstep with ⟨hreal, rfl⟩ | ⟨hreal, pending, -, rfl⟩
      · simp [hreal]
      · simp only [hreal, if_true, hwrite]
        rfl
  | _ =>
      rw [step_mainFields (fun ev h => by rw [hev] at h; cases h) hstep]
      rfl

/-- What a response writes to `http_final_url`. -/
def finalUrlWrite (c : CollectCaptures) (ev : EventResponseReceived) : Option String :=
  if c.httpErrors ∧ ev.type = .document then
    let s := statusAsU32 ev.response.status
    if 300 ≤ s ∧ s < 400 then none
    else if s < 400 then some ev.response.url
    else none
  else none

/-- What a response writes to `security_headers`. -/
def securityHeadersWrite (ev : EventResponseReceived) : Option (List (String × String)) :=
  if ev.type = .document then extractSecurityHeaders ev.response.headers else none

/-- What a response writes to `tls_info`. -/
def tlsInfoWrite (c : CollectCaptures) (parseUrl : String → Option ParsedUrl) (wallSecs : Nat)
    (ev : EventResponseReceived) : Option TlsInfo :=
  if ev.type = .document then
    responseTls wallSecs ev (fillEntry c parseUrl ev { requestId := ev.requestId })
  else none

section Registers

variable {c : CollectCaptures} {parseUrl : String → Option ParsedUrl} {url : String}
  {waitForRequest : List String} {ds : List (Delivery Event)} {t : State}

theorem run_documentTiming (h : run c parseUrl url waitForRequest ds = .ok t) :
    t.documentTiming =
      Lib.lastWrite (responseWrite fun _ ev => LeanLoop.trackDocument ev none) ds := by
  have := run_register MainFields.documentTiming (fun _ ev => LeanLoop.trackDocument ev none)
    (by
      intro wallSecs ev s
      rw [← LeanLoop.trackDocument_eq_or]
      exact trackDocument_fillEntry c parseUrl ev _ _) h
  rw [show t.documentTiming = t.mainFields.documentTiming from rfl, this]
  exact Option.or_none

theorem run_httpFinalUrl (h : run c parseUrl url waitForRequest ds = .ok t) :
    some t.httpFinalUrl =
      (Lib.lastWrite (responseWrite fun _ ev => finalUrlWrite c ev) ds).or (some url) := by
  refine run_register (fun m => some m.httpFinalUrl) (fun _ ev => finalUrlWrite c ev) ?_ h
  intro wallSecs ev s
  simp only [recordResponse, State.mainFields, trackRedirects, finalUrlWrite]
  split
  · split
    · rfl
    · split <;> rfl
  · rfl

theorem run_securityHeaders (h : run c parseUrl url waitForRequest ds = .ok t) :
    t.securityHeaders =
      Lib.lastWrite (responseWrite fun _ ev => securityHeadersWrite ev) ds := by
  have := run_register MainFields.securityHeaders (fun _ ev => securityHeadersWrite ev)
    (by
      intro wallSecs ev s
      simp only [recordResponse, State.mainFields, trackSecurityHeaders, securityHeadersWrite]
      split <;> rfl) h
  rw [show t.securityHeaders = t.mainFields.securityHeaders from rfl, this]
  exact Option.or_none

theorem run_tlsInfo (h : run c parseUrl url waitForRequest ds = .ok t) :
    t.tlsInfo = Lib.lastWrite (responseWrite (tlsInfoWrite c parseUrl)) ds := by
  have := run_register MainFields.tlsInfo (tlsInfoWrite c parseUrl)
    (by
      intro wallSecs ev s
      simp only [recordResponse, State.mainFields, tlsInfoWrite]
      split <;> rfl) h
  rw [show t.tlsInfo = t.mainFields.tlsInfo from rfl, this]
  exact Option.or_none

end Registers

/-- The main-document outputs of a full capture. -/
structure MainDocument where
  documentTiming : Option DocumentTiming
  finalUrl : Option String
  securityHeaders : Option (List (String × String))
  tlsInfo : Option TlsInfo

/-- The main-document outputs at the end of the loop. -/
def mainDocument (c : CollectCaptures) (s : State) : MainDocument where
  documentTiming := (finish c s).documentTiming
  finalUrl := (finish c s).httpErrors.map fun e => e.finalUrl
  securityHeaders := (finish c s).securityHeaders
  tlsInfo := (finish c s).tlsInfo

/-- A delivery of a Document response of a subframe. -/
def IsSubframeDocument (mainFrame : String) (d : Delivery Event) : Prop :=
  ∃ ev, d.ev = .responseReceived ev ∧ ev.IsSubframeDocument mainFrame

/-- No register of the main document shows the inserted responses. -/
structure RegistersUndisturbed {kind : Delivery Event → Prop} (c : CollectCaptures)
    (parseUrl : String → Option ParsedUrl) (url : String)
    (I : Lib.Insertion (Delivery Event) kind) : Prop where
  documentTiming :
    I.Undisturbed (responseWrite fun _ ev => LeanLoop.trackDocument ev none) none
  finalUrl : I.Undisturbed (responseWrite fun _ ev => finalUrlWrite c ev) (some url)
  securityHeaders : I.Undisturbed (responseWrite fun _ ev => securityHeadersWrite ev) none
  tlsInfo : I.Undisturbed (responseWrite (tlsInfoWrite c parseUrl)) none

/-- The exact condition under which the inserted responses do not show. -/
structure Unaffected {kind : Delivery Event → Prop} (c : CollectCaptures)
    (parseUrl : String → Option ParsedUrl) (url : String) (waitForRequest : List String)
    (I : Lib.Insertion (Delivery Event) kind) : Prop where
  upstream_eq : upstream waitForRequest (I.extended.filterMap responseOf) =
    upstream waitForRequest (I.original.filterMap responseOf)
  registers : upstream waitForRequest (I.original.filterMap responseOf) = .ok () →
    RegistersUndisturbed c parseUrl url I

/-- With `http_errors` off nothing writes `http_final_url`. -/
theorem finalUrlWrite_silent {c : CollectCaptures} (hc : c.httpErrors = false)
    (d : Delivery Event) : responseWrite (fun _ ev => finalUrlWrite c ev) d = none := by
  unfold responseWrite finalUrlWrite
  cases d.ev with
  | responseReceived ev => simp [hc]
  | _ => rfl

/-- The outputs of two states are equal exactly when their registers are, the
    final URL only where it is reported. -/
theorem mainDocument_eq_mainDocument {c : CollectCaptures} {s t : State} :
    mainDocument c s = mainDocument c t ↔
      s.documentTiming = t.documentTiming ∧
        (c.httpErrors = true → s.httpFinalUrl = t.httpFinalUrl) ∧
        s.securityHeaders = t.securityHeaders ∧ s.tlsInfo = t.tlsInfo := by
  simp only [mainDocument, MainDocument.mk.injEq, finish, httpErrors]
  cases c.httpErrors <;> simp

/-- The outputs of the full loop are unchanged exactly in unaffected runs. -/
theorem mainDocument_eq_iff {kind : Delivery Event → Prop} (c : CollectCaptures)
    (parseUrl : String → Option ParsedUrl) (url : String) (waitForRequest : List String)
    (I : Lib.Insertion (Delivery Event) kind) :
    (run c parseUrl url waitForRequest I.extended).map (mainDocument c) =
        (run c parseUrl url waitForRequest I.original).map (mainDocument c) ↔
      Unaffected c parseUrl url waitForRequest I := by
  have hout : ∀ s t, run c parseUrl url waitForRequest I.extended = .ok s →
      run c parseUrl url waitForRequest I.original = .ok t →
      (mainDocument c s = mainDocument c t ↔ RegistersUndisturbed c parseUrl url I) := by
    intro s t hs ht
    -- one register for each output
    have hdoc := I.undisturbed_iff
      (responseWrite fun _ ev => LeanLoop.trackDocument ev none) none
    have hurl := I.undisturbed_iff (responseWrite fun _ ev => finalUrlWrite c ev) (some url)
    have hsec := I.undisturbed_iff (responseWrite fun _ ev => securityHeadersWrite ev) none
    have htls := I.undisturbed_iff (responseWrite (tlsInfoWrite c parseUrl)) none
    rw [Option.or_none, Option.or_none, ← run_documentTiming hs, ← run_documentTiming ht] at hdoc
    rw [← run_httpFinalUrl hs, ← run_httpFinalUrl ht, Option.some.injEq] at hurl
    rw [Option.or_none, Option.or_none, ← run_securityHeaders hs, ← run_securityHeaders ht] at hsec
    rw [Option.or_none, Option.or_none, ← run_tlsInfo hs, ← run_tlsInfo ht] at htls
    rw [mainDocument_eq_mainDocument]
    constructor
    · rintro ⟨h1, h2, h3, h4⟩
      refine ⟨hdoc.mp h1, ?_, hsec.mp h3, htls.mp h4⟩
      -- with `http_errors` off the final URL is not reported, and nothing writes it
      cases hc : c.httpErrors with
      | true => exact hurl.mp (h2 hc)
      | false =>
          refine (I.undisturbed_iff _ _).mp ?_
          rw [Lib.lastWrite_of_silent (finalUrlWrite_silent hc),
            Lib.lastWrite_of_silent (finalUrlWrite_silent hc)]
    · rintro ⟨h1, h2, h3, h4⟩
      exact ⟨hdoc.mpr h1, fun _ => hurl.mpr h2, hsec.mpr h3, htls.mpr h4⟩
  rw [Lib.map_eq_map_iff hout, run, run, (projects_patterns c parseUrl).consume_end,
    (projects_patterns c parseUrl).consume_end]
  exact ⟨fun h => ⟨h.1, h.2⟩, fun h => ⟨h.1, h.2⟩⟩

end FullLoop

/-! ## Noninterference -/

/-- Subframe noninterference of both loops, exactly: the main-document outputs of
    the lean loop, and those of the full loop, are unchanged by inserted Document
    responses of subframes if and only if the insertion is unaffecting. -/
theorem mainDocument_unchanged_iff (mainFrame requestedUrl : String)
    (waitForRequest : List String)
    (I : Lib.Insertion (Delivery LeanEvent) (LeanLoop.IsSubframeDocument mainFrame))
    (c : CollectCaptures) (parseUrl : String → Option ParsedUrl)
    (J : Lib.Insertion (Delivery Event) (FullLoop.IsSubframeDocument mainFrame)) :
    ((LeanLoop.run waitForRequest I.extended).map (LeanLoop.mainDocument requestedUrl) =
        (LeanLoop.run waitForRequest I.original).map (LeanLoop.mainDocument requestedUrl) ↔
      LeanLoop.Unaffected waitForRequest I) ∧
    ((FullLoop.run c parseUrl requestedUrl waitForRequest J.extended).map
          (FullLoop.mainDocument c) =
        (FullLoop.run c parseUrl requestedUrl waitForRequest J.original).map
          (FullLoop.mainDocument c) ↔
      FullLoop.Unaffected c parseUrl requestedUrl waitForRequest J) :=
  ⟨LeanLoop.mainDocument_eq_iff requestedUrl waitForRequest I,
    FullLoop.mainDocument_eq_iff c parseUrl requestedUrl waitForRequest J⟩

/-- A cached Document response of a frame. -/
def frameResponse (requestId frame url : String) : EventResponseReceived where
  requestId := requestId
  type := .document
  frameId := some frame
  response := { url := url, fromDiskCache := some true }

/-- A page with one subframe, for the lean loop. -/
def LeanLoop.framedPage : Lib.Insertion (Delivery LeanEvent) (IsSubframeDocument "main") where
  marked :=
    [(false, { ev := .responseReceived (frameResponse "r1" "main" "https://a.example/") }),
     (true, { ev := .responseReceived (frameResponse "r2" "ads" "https://ads.example/") })]
  kind_of_marked := by
    intro m hm hmark
    simp only [List.mem_cons, List.not_mem_nil, or_false] at hm
    rcases hm with rfl | rfl
    · cases hmark
    · exact ⟨_, rfl, rfl, by decide⟩

/-- The same page for the full loop. -/
def FullLoop.framedPage : Lib.Insertion (Delivery Event) (IsSubframeDocument "main") where
  marked :=
    [(false, { ev := .responseReceived (frameResponse "r1" "main" "https://a.example/") }),
     (true, { ev := .responseReceived (frameResponse "r2" "ads" "https://ads.example/") })]
  kind_of_marked := by
    intro m hm hmark
    simp only [List.mem_cons, List.not_mem_nil, or_false] at hm
    rcases hm with rfl | rfl
    · cases hmark
    · exact ⟨_, rfl, rfl, by decide⟩

/-- The subframe of the page is reported as the page, by both loops. -/
theorem mainDocument_subframe :
    (LeanLoop.run [] LeanLoop.framedPage.extended).map
        (LeanLoop.mainDocument "https://a.example/") ≠
      (LeanLoop.run [] LeanLoop.framedPage.original).map
        (LeanLoop.mainDocument "https://a.example/") ∧
    (FullLoop.run { httpErrors := true } (fun _ => none) "https://a.example/" []
        FullLoop.framedPage.extended).map (FullLoop.mainDocument { httpErrors := true }) ≠
      (FullLoop.run { httpErrors := true } (fun _ => none) "https://a.example/" []
        FullLoop.framedPage.original).map (FullLoop.mainDocument { httpErrors := true }) := by
  constructor
  · intro h
    have := congrArg (Except.map fun m => m.content.finalUrl) h
    revert this
    decide
  · intro h
    have := congrArg (Except.map fun m => m.finalUrl) h
    revert this
    decide

end Collect
end BrowserHeadless
