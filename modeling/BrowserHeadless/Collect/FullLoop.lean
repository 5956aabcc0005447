/-
  BrowserHeadless.Collect.FullLoop

  `collect_summary` (src/browser/mod.rs), the collect loop of full captures: the
  variables of the loop, one definition for each arm of its `select!`, and the
  part of the summary that is derived from them after the loop.

  `parseUrl` stands for `url::Url::parse(..).ok()`.
-/

import BrowserHeadless.Collect.Extract
import BrowserHeadless.Error
import BrowserHeadless.Lib.Fold
import BrowserHeadless.Lib.HashMap
import Mathlib.Algebra.BigOperators.Group.Multiset.Basic

namespace BrowserHeadless
namespace Collect

open Lib (HashMap)

/-- The fields of `CollectCaptures` that the loop reads. -/
structure CollectCaptures where
  initiators : Bool := false
  console : Bool := false
  httpErrors : Bool := false
  coverage : Bool := false
  resourceHeaders : Bool := false
  corsHeaders : Bool := false
deriving DecidableEq

/-- The streams the full loop listens to. -/
inductive Event where
  | lifecycle (ev : EventLifecycleEvent)
  | responseReceived (ev : EventResponseReceived)
  | loadingFinished (ev : EventLoadingFinished)
  | exceptionThrown (ev : EventExceptionThrown)
  | consoleApiCalled (ev : EventConsoleApiCalled)
  | requestWillBeSent (ev : EventRequestWillBeSent)
  | loadingFailed (ev : EventLoadingFailed)
  | styleSheetAdded (ev : EventStyleSheetAdded)
deriving DecidableEq

/-- The streams the loop has subscribed to; the others are `stream::pending()`
    and yield nothing. -/
def CollectCaptures.subscribed (c : CollectCaptures) : Event → Bool
  | .consoleApiCalled _ => c.console
  | .requestWillBeSent _ => c.initiators
  | .loadingFailed _ => c.httpErrors
  | .styleSheetAdded _ => c.coverage
  | _ => true

/-- `WebPageResource`. -/
structure WebPageResource where
  requestId : String
  contentSize : Nat := 0
  status : Nat := 0
  url : String := ""
  timing : Option ResourceTiming := none
  mimeType : String := ""
  connectionReused : Bool := false
  protocol : String := ""
  contentEncoding : Option String := none
  cacheControl : Option String := none
  hasSourceMap : Bool := false
  fromCache : Bool := false
  corsAllowOrigin : Option String := none
  corsAllowCredentials : Bool := false
  initiator : Option RequestInitiator := none
  parsedUrl : Option ParsedUrl := none
deriving DecidableEq

/-- `NetworkFailure`. -/
structure NetworkFailure where
  url : String
  errorText : String
  resourceType : String
  canceled : Bool
deriving DecidableEq

/-- `FailedRequest`. -/
structure FailedRequest where
  url : String
  status : Nat
  resourceType : String
deriving DecidableEq

/-- `HttpErrors`.  The two response lists follow the iteration order of a hash
    map, so only their elements are determined. -/
structure HttpErrors where
  failedCount : Nat
  failed4xx : Multiset FailedRequest
  failed5xx : Multiset FailedRequest
  networkFailures : List NetworkFailure
  finalUrl : String
  redirectCount : Nat
deriving DecidableEq

namespace FullLoop

/-- `QUICK_ABORT_THRESHOLD_S`. -/
def quickAbortThresholdS : ℚ := rounded (1 / 10)

/-- The variables of the loop. -/
structure State where
  resources : HashMap String WebPageResource := ∅
  exceptions : List String := []
  exceptionBuckets : HashMap String (Nat × Option String) := ∅
  consoleMessages : List String := []
  securityHeaders : Option (List (String × String)) := none
  tlsInfo : Option TlsInfo := none
  httpResourceTypes : HashMap String ResourceType := ∅
  httpFinalUrl : String
  httpRedirectCount : Nat := 0
  httpNetworkFailures : List NetworkFailure := []
  failedLoading : HashMap String String := ∅
  requestSentAt : HashMap String ℚ := ∅
  quickAbortIds : Finset String := ∅
  documentTiming : Option DocumentTiming := none
  stylesheetMeta : HashMap String (String × Nat) := ∅
  tlsByHost : HashMap String TlsInfo := ∅
  initTs : Option ℚ := none
  fcpTs : Option ℚ := none
  dclTs : Option ℚ := none
  loadTs : Option ℚ := none
  idleAt : Option Instant := none
  loadAt : Option Instant := none
  pendingPatterns : List String

/-- The state before the first iteration. -/
def State.init (url : String) (waitForRequest : List String) : State where
  httpFinalUrl := url
  pendingPatterns := waitForRequest

/-- The lifecycle arm. -/
def onLifecycle (now : Instant) (ev : EventLifecycleEvent) (s : State) : State :=
  let ts := ev.timestamp
  match ev.name with
  | "init" => { s with initTs := s.initTs.or (some ts) }
  | "firstContentfulPaint" => { s with fcpTs := s.fcpTs.or (some ts) }
  | "DOMContentLoaded" => { s with dclTs := s.dclTs.or (some ts) }
  | "load" => { s with loadTs := s.loadTs.or (some ts), loadAt := s.loadAt.or (some now) }
  | "networkIdle" => { s with idleAt := s.idleAt.or (some now) }
  | _ => s

/-! ## The response arm -/

/-- `wait_for_request`: the patterns still pending after the response. -/
def matchPatterns (pending : List String) (url : String) (status : Int) :
    Except Error (List String) :=
  match pending.findIdx? fun p => urlContains url p with
  | none => .ok pending
  | some pos =>
      if !(200 ≤ status ∧ status < 400) then .error (.upstreamFailure status url)
      else .ok (swapRemove pending pos)

/-- The entry of the request, filled from its response. -/
def fillEntry (c : CollectCaptures) (parseUrl : String → Option ParsedUrl)
    (ev : EventResponseReceived) (entry : WebPageResource) : WebPageResource :=
  let facts := extractResourceHeaders ev.response.headers c.resourceHeaders c.corsHeaders
  { entry with
    parsedUrl := parseUrl ev.response.url
    url := ev.response.url
    status := statusAsU32 ev.response.status
    mimeType := ev.response.mimeType
    connectionReused := ev.response.connectionReused
    timing := ev.response.timing.map mapTiming
    fromCache := ev.response.fromDiskCache.getD false ||
      ev.response.fromServiceWorker.getD false || ev.response.fromPrefetchCache.getD false
    protocol := ev.response.protocol.getD ""
    contentEncoding := facts.contentEncoding
    cacheControl := facts.cacheControl
    hasSourceMap := facts.hasSourceMap
    corsAllowOrigin := facts.corsAllowOrigin
    corsAllowCredentials := facts.corsAllowCredentials }

/-- `http_final_url` and `http_redirect_count` after a response. -/
def trackRedirects (c : CollectCaptures) (ev : EventResponseReceived) (entry : WebPageResource)
    (r : String × Nat) : String × Nat :=
  if c.httpErrors ∧ ev.type = .document then
    let s := statusAsU32 ev.response.status
    -- a hop of the chain, or the landing page; an error page is neither
    if 300 ≤ s ∧ s < 400 then (r.1, (r.2 + 1) % 2 ^ 32)
    else if s < 400 then (entry.url, r.2)
    else r
  else r

/-- `document_timing` after a response. -/
def trackDocument (ev : EventResponseReceived) (entry : WebPageResource)
    (timing : Option DocumentTiming) : Option DocumentTiming :=
  if ev.type = .document then
    let s := statusAsU32 ev.response.status
    if s < 400 then
      match ev.response.timing with
      | some t => some (buildDocumentTiming entry.url s entry.fromCache entry.protocol t)
      | none =>
          if entry.fromCache then
            some { url := entry.url, status := s, fromCache := true, protocol := entry.protocol,
                   dnsMs := 0, tcpMs := 0, tlsMs := 0, ttfbMs := 0 }
          else timing
    else timing
  else timing

/-- `security_headers` after a response. -/
def trackSecurityHeaders (ev : EventResponseReceived)
    (headers : Option (List (String × String))) : Option (List (String × String)) :=
  if ev.type = .document then (extractSecurityHeaders ev.response.headers).or headers
  else headers

/-- The certificate that a response shows, with the host it is for. -/
def responseTls (wallSecs : Nat) (ev : EventResponseReceived) (entry : WebPageResource) :
    Option TlsInfo :=
  match ev.response.securityDetails, entry.parsedUrl.bind (·.hostStr) with
  | some sd, some host =>
      some (extractTlsInfo wallSecs sd host ev.response.remoteIpAddress
        (ev.response.remotePort.bind portAsU16))
  | _, _ => none

/-- The response arm after `wait_for_request`: record the response. -/
def recordResponse (c : CollectCaptures) (parseUrl : String → Option ParsedUrl) (wallSecs : Nat)
    (ev : EventResponseReceived) (s : State) : State :=
  let id := ev.requestId
  let entry := fillEntry c parseUrl ev ((s.resources.lookup id).getD { requestId := id })
  let redirects := trackRedirects c ev entry (s.httpFinalUrl, s.httpRedirectCount)
  let tls := responseTls wallSecs ev entry
  { s with
    resources := s.resources.insert id entry
    httpResourceTypes :=
      if c.httpErrors then s.httpResourceTypes.insert id ev.type else s.httpResourceTypes
    httpFinalUrl := redirects.1
    httpRedirectCount := redirects.2
    documentTiming := trackDocument ev entry s.documentTiming
    securityHeaders := trackSecurityHeaders ev s.securityHeaders
    tlsInfo := if ev.type = .document then tls.or s.tlsInfo else s.tlsInfo
    -- `or_insert_with`: the first certificate of a host stays
    tlsByHost :=
      match tls with
      | some info => HashMap.upsert s.tlsByHost info.host info fun known => known
      | none => s.tlsByHost }

/-- The response arm. -/
def onResponse (c : CollectCaptures) (parseUrl : String → Option ParsedUrl) (wallSecs : Nat)
    (ev : EventResponseReceived) (s : State) : Except Error State :=
  if !isRealResource ev.response.url then .ok s
  else
    match matchPatterns s.pendingPatterns ev.response.url ev.response.status with
    | .error e => .error e
    | .ok pending =>
        .ok (recordResponse c parseUrl wallSecs ev { s with pendingPatterns := pending })

/-- What the response arm can do when it does not fail. -/
theorem onResponse_eq_ok {c : CollectCaptures} {parseUrl : String → Option ParsedUrl}
    {wallSecs : Nat} {ev : EventResponseReceived} {s s' : State}
    (h : onResponse c parseUrl wallSecs ev s = .ok s') :
    (isRealResource ev.response.url = false ∧ s' = s) ∨
    (isRealResource ev.response.url = true ∧ ∃ pending,
      matchPatterns s.pendingPatterns ev.response.url ev.response.status = .ok pending ∧
      s' = recordResponse c parseUrl wallSecs ev { s with pendingPatterns := pending }) := by
  unfold onResponse at h
  by_cases hreal : isRealResource ev.response.url
  · simp only [hreal, Bool.not_true, Bool.false_eq_true, if_false] at h
    cases hm : matchPatterns s.pendingPatterns ev.response.url ev.response.status with
    | error e => simp [hm] at h
    | ok pending =>
        simp only [hm, Except.ok.injEq] at h
        exact .inr ⟨hreal, pending, rfl, h.symm⟩
  · simp only [hreal, Bool.not_false, if_true, Except.ok.injEq] at h
    exact .inl ⟨by simpa using hreal, h.symm⟩

/-! ## The other arms -/

/-- The `loadingFinished` arm: only a recorded request gets its size. -/
def onFinished (ev : EventLoadingFinished) (s : State) : State :=
  { s with
    resources := HashMap.modify s.resources ev.requestId fun entry =>
      { entry with contentSize := asU64 (max ev.encodedDataLength 0) } }

/-- The exception arm. -/
def onException (ev : EventExceptionThrown) (s : State) : State :=
  { s with
    exceptions := s.exceptions ++ [formatException ev]
    exceptionBuckets :=
      HashMap.upsert s.exceptionBuckets (classifyException ev) (0, none) fun entry =>
        ((entry.1 + 1) % 2 ^ 32, entry.2.or (exceptionSampleMessage ev)) }

/-- The console arm. -/
def onConsole (ev : EventConsoleApiCalled) (s : State) : State :=
  { s with consoleMessages := s.consoleMessages ++ [formatConsole ev] }

/-- The entry of the request, with its initiator; the request's URL fills an
    entry that has none. -/
def noteRequest (parseUrl : String → Option ParsedUrl) (ev : EventRequestWillBeSent)
    (entry : WebPageResource) : WebPageResource :=
  -- a response that came first has already set the URL
  if entry.url = "" then
    { entry with
      url := ev.url
      parsedUrl := parseUrl ev.url
      initiator := some (mapInitiator ev.initiator) }
  else { entry with initiator := some (mapInitiator ev.initiator) }

/-- The `requestWillBeSent` arm. -/
def onRequest (parseUrl : String → Option ParsedUrl) (ev : EventRequestWillBeSent) (s : State) :
    State :=
  if !isRealResource ev.url then s
  else
    { s with
      resources :=
        HashMap.upsert s.resources ev.requestId { requestId := ev.requestId }
          (noteRequest parseUrl ev)
      requestSentAt := s.requestSentAt.insert ev.requestId ev.timestamp }

/-- `is_quick_abort`. -/
def isQuickAbort (ev : EventLoadingFailed) (sentAt : Option ℚ) : Bool :=
  ev.canceled.getD false &&
    match sentAt with
    | some sent => rounded (ev.timestamp - sent) < quickAbortThresholdS
    | none => false

/-- The `loadingFailed` arm. -/
def onFailed (ev : EventLoadingFailed) (s : State) : State :=
  let failedUrl := ((s.resources.lookup ev.requestId).map fun r => r.url).getD ""
  -- an unknown request passes this filter, its URL is empty
  if failedUrl ≠ "" ∧ !isRealResource failedUrl then s
  else if isQuickAbort ev (s.requestSentAt.lookup ev.requestId) then
    { s with quickAbortIds := insert ev.requestId s.quickAbortIds }
  else
    { s with
      failedLoading := s.failedLoading.insert ev.requestId ev.errorText
      httpNetworkFailures := s.httpNetworkFailures ++
        [{ url := failedUrl
           errorText := ev.errorText
           resourceType := resourceTypeLabel ev.type
           canceled := ev.canceled.getD false }] }

/-- The style sheet arm. -/
def onStyleSheet (ev : EventStyleSheetAdded) (s : State) : State :=
  let url := if ev.sourceUrl = "" then "inline:" ++ ev.styleSheetId else ev.sourceUrl
  { s with
    stylesheetMeta := s.stylesheetMeta.insert ev.styleSheetId (url, asU64 (max ev.length 0)) }

/-- One turn of the `select!`. -/
def step (c : CollectCaptures) (parseUrl : String → Option ParsedUrl) (s : State)
    (d : Delivery Event) : Except Error State :=
  match d.ev with
  | .lifecycle ev => .ok (onLifecycle d.now ev s)
  | .responseReceived ev => onResponse c parseUrl d.wallSecs ev s
  | .loadingFinished ev => .ok (onFinished ev s)
  | .exceptionThrown ev => .ok (onException ev s)
  | .consoleApiCalled ev => .ok (if c.console then onConsole ev s else s)
  | .requestWillBeSent ev => .ok (if c.initiators then onRequest parseUrl ev s else s)
  | .loadingFailed ev => .ok (if c.httpErrors then onFailed ev s else s)
  | .styleSheetAdded ev => .ok (if c.coverage then onStyleSheet ev s else s)

/-- What one turn of the `select!` can do. -/
inductive StepCase (c : CollectCaptures) (parseUrl : String → Option ParsedUrl) (s : State)
    (d : Delivery Event) : State → Prop
  | lifecycle (ev : EventLifecycleEvent) (hev : d.ev = .lifecycle ev) :
      StepCase c parseUrl s d (onLifecycle d.now ev s)
  /-- A response of a pseudo-scheme. -/
  | skipped (ev : EventResponseReceived) (hev : d.ev = .responseReceived ev)
      (hreal : isRealResource ev.response.url = false) : StepCase c parseUrl s d s
  | recorded (ev : EventResponseReceived) (hev : d.ev = .responseReceived ev)
      (hreal : isRealResource ev.response.url = true) (pending : List String)
      (hmatch : matchPatterns s.pendingPatterns ev.response.url ev.response.status =
        .ok pending) :
      StepCase c parseUrl s d
        (recordResponse c parseUrl d.wallSecs ev { s with pendingPatterns := pending })
  | finished (ev : EventLoadingFinished) (hev : d.ev = .loadingFinished ev) :
      StepCase c parseUrl s d (onFinished ev s)
  | exception (ev : EventExceptionThrown) (hev : d.ev = .exceptionThrown ev) :
      StepCase c parseUrl s d (onException ev s)
  | console (ev : EventConsoleApiCalled) (hev : d.ev = .consoleApiCalled ev) :
      StepCase c parseUrl s d (onConsole ev s)
  | request (ev : EventRequestWillBeSent) (hev : d.ev = .requestWillBeSent ev)
      (hc : c.initiators = true) : StepCase c parseUrl s d (onRequest parseUrl ev s)
  | failed (ev : EventLoadingFailed) (hev : d.ev = .loadingFailed ev)
      (hc : c.httpErrors = true) : StepCase c parseUrl s d (onFailed ev s)
  | styleSheet (ev : EventStyleSheetAdded) (hev : d.ev = .styleSheetAdded ev) :
      StepCase c parseUrl s d (onStyleSheet ev s)
  /-- An event of a stream that is not subscribed to. -/
  | ignored (hsub : c.subscribed d.ev = false) : StepCase c parseUrl s d s

/-- A turn that does not fail is one of these. -/
theorem step_cases {c : CollectCaptures} {parseUrl : String → Option ParsedUrl} {s s' : State}
    {d : Delivery Event} (h : step c parseUrl s d = .ok s') : StepCase c parseUrl s d s' := by
  cases hev : d.ev with
  | responseReceived ev =>
      simp only [step, hev] at h
      rcases onResponse_eq_ok h with ⟨hreal, rfl⟩ | ⟨hreal, pending, hmatch, rfl⟩
      · exact .skipped ev hev hreal
      · exact .recorded ev hev hreal pending hmatch
  | lifecycle ev =>
      simp only [step, hev, Except.ok.injEq] at h
      exact h ▸ .lifecycle ev hev
  | loadingFinished ev =>
      simp only [step, hev, Except.ok.injEq] at h
      exact h ▸ .finished ev hev
  | exceptionThrown ev =>
      simp only [step, hev, Except.ok.injEq] at h
      exact h ▸ .exception ev hev
  | consoleApiCalled ev =>
      simp only [step, hev, Except.ok.injEq] at h
      subst h
      by_cases hc : c.console = true
      · rw [if_pos hc]
        exact .console ev hev
      · rw [if_neg hc]
        exact .ignored (by simpa [hev, CollectCaptures.subscribed] using hc)
  | requestWillBeSent ev =>
      simp only [step, hev, Except.ok.injEq] at h
      subst h
      by_cases hc : c.initiators = true
      · rw [if_pos hc]
        exact .request ev hev hc
      · rw [if_neg hc]
        exact .ignored (by simpa [hev, CollectCaptures.subscribed] using hc)
  | loadingFailed ev =>
      simp only [step, hev, Except.ok.injEq] at h
      subst h
      by_cases hc : c.httpErrors = true
      · rw [if_pos hc]
        exact .failed ev hev hc
      · rw [if_neg hc]
        exact .ignored (by simpa [hev, CollectCaptures.subscribed] using hc)
  | styleSheetAdded ev =>
      simp only [step, hev, Except.ok.injEq] at h
      subst h
      by_cases hc : c.coverage = true
      · rw [if_pos hc]
        exact .styleSheet ev hev
      · rw [if_neg hc]
        exact .ignored (by simpa [hev, CollectCaptures.subscribed] using hc)

/-- The loop on the events it consumes. -/
def run (c : CollectCaptures) (parseUrl : String → Option ParsedUrl) (url : String)
    (waitForRequest : List String) (ds : List (Delivery Event)) : Except Error State :=
  Lib.consume (step c parseUrl) (State.init url waitForRequest) ds

/-! ## After the loop -/

/-- The closure `to_ms`. -/
def toMs (initTs t : Option ℚ) : Nat :=
  match initTs, t with
  | some init, some t => asU32 (rounded (max (rounded (t - init)) 0 * 1000))
  | _, _ => 0

/-- `gate_at`. -/
def gateAt (waitUntilLoad : Bool) (s : State) : Option Instant :=
  if waitUntilLoad then s.loadAt else s.idleAt

/-- `resources` after the final `retain`. -/
def retained (s : State) : HashMap String WebPageResource :=
  HashMap.retain s.resources fun r => r.url ≠ "" ∧ r.requestId ∉ s.quickAbortIds

/-- The failed responses of one status range. -/
def failedRequests (s : State) (lo hi : Nat) : Multiset FailedRequest :=
  ((HashMap.values (retained s)).filter fun r => lo ≤ r.status ∧ r.status < hi).map fun r =>
    { url := r.url
      status := r.status
      resourceType := ((s.httpResourceTypes.lookup r.requestId).map resourceTypeLabel).getD "" }

/-- The `http_errors` rollup. -/
def httpErrors (c : CollectCaptures) (s : State) : Option HttpErrors :=
  if c.httpErrors then
    let failed4xx := failedRequests s 400 500
    let failed5xx := failedRequests s 500 600
    -- `u32` arithmetic
    some
      { failedCount :=
          (failed4xx.card + failed5xx.card + s.httpNetworkFailures.length) % 2 ^ 32
        failed4xx := failed4xx
        failed5xx := failed5xx
        networkFailures := s.httpNetworkFailures
        finalUrl := s.httpFinalUrl
        redirectCount := s.httpRedirectCount }
  else none

/-- The fields of `WebPageStat` that are derived from the loop's variables
    alone. -/
structure Summary where
  totalSize : Nat
  resourceCount : Nat
  fcpTime : Nat
  dclTime : Nat
  loadTime : Nat
  exceptions : List String
  consoleMessages : List String
  resources : HashMap String WebPageResource
  securityHeaders : Option (List (String × String))
  tlsInfo : Option TlsInfo
  httpErrors : Option HttpErrors
  documentTiming : Option DocumentTiming
deriving DecidableEq

/-- The `WebPageStat` at the end of `collect_summary`. -/
def finish (c : CollectCaptures) (s : State) : Summary where
  totalSize := ((HashMap.values (retained s)).map fun r => r.contentSize).sum % 2 ^ 64
  resourceCount := (HashMap.values (retained s)).card
  fcpTime := toMs s.initTs s.fcpTs
  dclTime := toMs s.initTs s.dclTs
  loadTime := toMs s.initTs s.loadTs
  exceptions := s.exceptions
  consoleMessages := s.consoleMessages
  resources := retained s
  securityHeaders := s.securityHeaders
  tlsInfo := s.tlsInfo
  httpErrors := httpErrors c s
  documentTiming := s.documentTiming

/-! ## A page load -/

/-- A request goes out. -/
def sent (id url : String) (timestamp : ℚ) : Delivery Event where
  ev := .requestWillBeSent
    { requestId := id, url := url, timestamp := timestamp, initiator := { type := "parser" } }

/-- A response comes in. -/
def answer (id : String) (type : ResourceType) (url : String) (status : Int) : Delivery Event where
  ev := .responseReceived
    { requestId := id, type := type,
      response := { url := url, status := status, timing := some {} } }

/-- A connection breaks. -/
def reset (id : String) (timestamp : ℚ) : Delivery Event where
  ev := .loadingFailed
    { requestId := id, timestamp := timestamp, type := .script,
      errorText := "net::ERR_CONNECTION_RESET" }

/-- A page is redirected, and asks for four scripts: the first one is there, the second one is
    not, the third one breaks, and the fourth one has no response yet. -/
def pageLoad : List (Delivery Event) :=
  [sent "1" "https://a/" 1, answer "1" .document "https://a/" 302,
    answer "1" .document "https://a/home" 200,
    sent "2" "https://a/x.js" 2, sent "3" "https://a/y.js" 2, sent "4" "https://a/z.js" 2,
    answer "2" .script "https://a/x.js" 200, answer "3" .script "https://a/y.js" 404,
    { ev := .loadingFinished { requestId := "2", encodedDataLength := 512 } },
    reset "4" 3, sent "5" "https://a/w.js" 4]

end FullLoop
end Collect
end BrowserHeadless
