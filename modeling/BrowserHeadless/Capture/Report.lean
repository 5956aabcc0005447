/-
  BrowserHeadless.Capture.Report

  `capture` (src/browser/mod.rs) as a function of what the page does: the stages in their
  order, and what each writes into the `WebPageStat` that is returned.

  The list of the resources is cleared twice: by `collect_summary` under `free_resources`, and
  at the end of `capture` unless `resources` is set.  A step that does not look at the list
  commutes with clearing it (`Function.Commute`).  The steps that do look at it are the ones
  whose flags keep `free_resources` off, so the early clearing is not visible
  (`capture_resources_off`).
-/

import BrowserHeadless.Capture.Query
import BrowserHeadless.Capture.Stat
import BrowserHeadless.Capture.Waits
import Mathlib.Logic.Function.Conjugate

namespace BrowserHeadless
namespace Capture

open Lib (Codec F64 Json)
open Collect (Instant ParsedUrl ResourceTiming WebPageResource)
open Images (ImageSizing enrichImageSizing)
open Security (buildCorsIssues)
open Summary (RawResourceHints buildResourceHints)

/-! ## The request -/

/-- `SummaryRequest`, with the fields that decide what is waited for and reported. -/
structure ReportRequest extends SummaryRequest where
  url : String
  timeout : Instant
  screenshot : Bool := false
  waitForRequest : List String := []
  waitUntilLoad : Bool := false
  captureElement : Option String := none
  dataFormat : DataFormat := .html
  normalizeCustomElements : Bool := false
  har : Bool := false
  initiators : Bool := false
  consoleMessages : Bool := false
  resources : Bool := false
  httpErrors : Bool := false
  collectCookies : Bool := false
  contentOnly : Bool := false

/-- The `CollectCaptures` of a request. -/
def ReportRequest.captures (req : ReportRequest) : CollectCaptures where
  lean := req.contentOnly
  screenshot := req.screenshot
  initiators := req.initiators
  console := req.consoleMessages
  httpErrors := req.httpErrors
  coverage := req.coverage
  cookies := req.collectCookies
  resourceHeaders := !req.contentOnly
  corsHeaders := req.securityScan
  -- a later stage may need the list
  freeResources := !(req.resources || req.har || req.imageSizing || req.securityScan)

/-! ## Waits and reads -/

section

variable {V : Type}

/-- The third stage: the waits after the load, and the user's script. -/
def postLoadWaits (page : Page V) (req : SummaryRequest) (timeout : Instant) :
    Except Error Unit := do
  match req.waitForElement with
  | some selector =>
      (waitForSelector (page.findElement selector) selector (page.clock .waitForElement)
        timeout).result
  | none => pure ()
  match req.waitForFunction with
  | some expression =>
      (waitForFunction (page.evaluate expression) id (page.clock .waitForFunction) timeout).result
  | none => pure ()
  -- the settle sleep has no result
  match req.script with
  | some script => (fun _ => ()) <$> page.evaluate script (page.clock .script)
  | none => pure ()

/-- The `data` arm. -/
def extractData (page : Page V) (dataFormat : DataFormat) (captureSel : Option String)
    (normalizeCustomElements : Bool) : Except Error String :=
  let html :=
    match captureSel with
    | some sel => page.outerHtml sel
    | none => page.content
  match dataFormat with
  | .html => html
  | .text => page.extractText captureSel
  | .markdown => do
      let source ← if normalizeCustomElements then page.normalizeDom captureSel else html
      match page.convert source with
      | .ok markdown => return markdown
      | .error e => throw (.invalidInput ("markdown convert: " ++ e))

/-- The output of an arm that reads only with its flag. -/
structure Requested (flag : Bool) (α : Type) where
  value : Option α
  absent : flag = false → value = none

/-- `if flag { read.map(Some) } else { Ok(None) }`. -/
def requested {α : Type} (flag : Bool) (call : Except Error α) :
    Except Error (Requested flag α) :=
  if h : flag = true then (fun a => ⟨some a, fun hoff => by simp [h] at hoff⟩) <$> call
  else pure ⟨none, fun _ => rfl⟩

/-- What the arms of the format stage give. -/
structure Reads (V : Type) (req : SummaryRequest) where
  data : String
  pdf : Requested req.pdf V
  domSnapshot : Requested req.saveDomSnapshot Json
  webVitals : Requested req.webVitals V
  domMutations : Option V
  metrics : Requested req.metrics V
  metadata : Requested req.metadata V
  renderBlocking : Requested req.renderBlocking V
  serviceWorker : Requested req.serviceWorker V
  imageSizing : Requested req.imageSizing (List ImageSizing)
  resourceHints : Requested req.resourceHints RawResourceHints
  fontAudit : Requested req.fontAudit V
  securityScan : Requested req.securityScan (SecurityScan V)

/-- The second `try_join!`.  Its arms run at the same time; here they stand one after the
    other, so of several that fail the first in the list gives the error. -/
def readPage (page : Page V) (req : SummaryRequest) (data : Except Error String) :
    Except Error (Reads V req) := do
  return {
    data := ← data
    pdf := ← requested req.pdf page.printToPdf
    domSnapshot := ← requested req.saveDomSnapshot page.captureSnapshot
    webVitals := ← requested req.webVitals page.webVitals
    domMutations := ← gated req.domMutations none page.domMutations
    metrics := ← requested req.metrics page.metrics
    metadata := ← requested req.metadata page.metadata
    renderBlocking := ← requested req.renderBlocking page.renderBlocking
    serviceWorker := ← requested req.serviceWorker page.serviceWorker
    imageSizing := ← requested req.imageSizing page.imageSizing
    resourceHints := ← requested req.resourceHints page.resourceHints
    fontAudit := ← requested req.fontAudit page.fontAudit
    securityScan := ← requested req.securityScan page.securityScan }

/-! ## The derives -/

/-- A whole number in `json!`. -/
def jsonInt (n : Int) : Json := .num (.int n)

/-- An `f64` in `json!`. -/
def jsonF64 (q : ℚ) : Json :=
  (@Codec.f64 Unit).encode () (F64.ofRatio (q < 0) q.num.natAbs q.den)

/-- `dns`, `connect` and `ssl`: a phase that may have been skipped. -/
def harPhase (timing : Option ResourceTiming) (start stop : ResourceTiming → ℚ) : Json :=
  match timing with
  | some t => jsonF64 (if 0 ≤ start t ∧ 0 ≤ stop t then stop t - start t else -1)
  | none => jsonF64 (-1)

/-- `send` and `wait`. -/
def harSpan (timing : Option ResourceTiming) (start stop : ResourceTiming → ℚ) : Json :=
  match timing with
  | some t => jsonF64 (max (stop t - start t) 0)
  | none => jsonF64 (-1)

/-- One entry of the archive. -/
def harEntry (r : WebPageResource) : Json :=
  .obj
    [("pageref", .str "page_1"),
      ("startedDateTime", .str "1970-01-01T00:00:00.000Z"),
      ("time", jsonInt (-1)),
      ("request", .obj
        [("method", .str "GET"),
          ("url", .str r.url),
          ("httpVersion", .str "HTTP/1.1"),
          ("cookies", .arr []),
          ("headers", .arr []),
          ("queryString", .arr []),
          ("headersSize", jsonInt (-1)),
          ("bodySize", jsonInt (-1))]),
      ("response", .obj
        [("status", jsonInt r.status),
          ("statusText", .str ""),
          ("httpVersion", .str "HTTP/1.1"),
          ("cookies", .arr []),
          ("headers", .arr []),
          ("content", .obj
            [("size", jsonInt r.contentSize),
              ("mimeType", .str r.mimeType)]),
          ("redirectURL", .str ""),
          ("headersSize", jsonInt (-1)),
          ("bodySize", jsonInt r.contentSize)]),
      ("cache", if r.fromCache then .obj [("afterRequest", .obj [])] else .obj []),
      ("timings", .obj
        [("blocked", jsonInt (-1)),
          ("dns", harPhase r.timing (·.dnsStart) (·.dnsEnd)),
          ("connect", harPhase r.timing (·.connectStart) (·.connectEnd)),
          ("ssl", harPhase r.timing (·.sslStart) (·.sslEnd)),
          ("send", harSpan r.timing (·.sendStart) (·.sendEnd)),
          ("wait", harSpan r.timing (·.sendEnd) (·.receiveHeadersEnd)),
          ("receive", jsonInt (-1))])]

/-- `build_har`.  The entries of an object stand in the order of the source. -/
def buildHar (stat : WebPageStat V) (url : String) : Json :=
  .obj
    [("log", .obj
      [("version", .str "1.2"),
        ("creator", .obj
          [("name", .str "browser-headless"),
            ("version", .str "0.2.1")]),
        ("pages", .arr
          [.obj
            [("startedDateTime", .str "1970-01-01T00:00:00.000Z"),
              ("id", .str "page_1"),
              ("title", .str url),
              ("pageTimings", .obj
                [("onContentLoad", jsonInt stat.dclTime),
                  ("onLoad", jsonInt stat.loadTime)])]]),
        ("entries", .arr (stat.resources.map harEntry))])]

/-- The assignments of what the page was read for. -/
def WebPageStat.assign {req : SummaryRequest} (stat : WebPageStat V) (reads : Reads V req) :
    WebPageStat V :=
  { stat with
    data := reads.data
    pdf := reads.pdf.value
    domSnapshot := reads.domSnapshot.value
    webVitals := reads.webVitals.value
    domMutations := reads.domMutations
    metrics := reads.metrics.value
    metadata := reads.metadata.value
    renderBlockingResources := reads.renderBlocking.value
    serviceWorker := reads.serviceWorker.value
    fontAudit := reads.fontAudit.value }

/-- The security scan: the page's findings, and those on the resources. -/
def WebPageStat.addScan (raw : Option (SecurityScan V)) (stat : WebPageStat V) : WebPageStat V :=
  match raw with
  | some scan =>
      { stat with
        securityScan := some { scan with corsIssues := buildCorsIssues stat.resources } }
  | none => stat

/-- The images, joined with the resources, and their audit. -/
def WebPageStat.addImages (raw : Option (List ImageSizing)) (stat : WebPageStat V) :
    WebPageStat V :=
  match raw with
  | some images =>
      let (images, audit) := enrichImageSizing images stat.resources
      { stat with imageSizing := some images, imageAudit := some audit }
  | none => stat

/-- The archive of the resources. -/
def WebPageStat.addHar (har : Bool) (url : String) (stat : WebPageStat V) : WebPageStat V :=
  if har then { stat with har := some (buildHar stat url) } else stat

/-- The resource hints, from the ranking in the summary. -/
def WebPageStat.addHints (parseUrl : String → Option ParsedUrl) (raw : Option RawResourceHints)
    (stat : WebPageStat V) : WebPageStat V :=
  match raw with
  | some raw =>
      { stat with
        resourceSummary :=
          { stat.resourceSummary with
            resourceHints :=
              some (buildResourceHints parseUrl raw stat.resourceSummary.topThirdPartyDomains) } }
  | none => stat

/-- The list of the resources goes unless it was asked for. -/
def WebPageStat.dropResources (resources : Bool) (stat : WebPageStat V) : WebPageStat V :=
  if !resources then stat.clearResources else stat

/-- What `capture` does after its last await. -/
def WebPageStat.derive (parseUrl : String → Option ParsedUrl) (req : ReportRequest)
    (reads : Reads V req.toSummaryRequest) (stat : WebPageStat V) : WebPageStat V :=
  let stat := stat.assign reads
  let stat := stat.addScan reads.securityScan.value
  let stat := stat.addImages reads.imageSizing.value
  let stat := stat.addHar req.har req.url
  let stat := stat.addHints parseUrl reads.resourceHints.value
  stat.dropResources req.resources

/-- `capture`. -/
def capture (orders : MapOrders) (lower : String → String)
    (parseUrl : String → Option ParsedUrl) (page : Page V) (req : ReportRequest) :
    Except Error (WebPageStat V) := do
  page.setup req.toSummaryRequest
  let stat ← collectSummary orders lower parseUrl page req.url req.timeout req.waitForRequest
    req.waitUntilLoad req.captures
  postLoadWaits page req.toSummaryRequest req.timeout
  let reads ← readPage page req.toSummaryRequest
    (extractData page req.dataFormat req.captureElement req.normalizeCustomElements)
  return stat.derive parseUrl req reads

/-! ## The list of the resources -/

/-- A step that does not look at the list of the resources. -/
def IgnoresResources (f : WebPageStat V → WebPageStat V) : Prop :=
  Function.Commute f WebPageStat.clearResources

theorem ignores_assign {req : SummaryRequest} (reads : Reads V req) :
    IgnoresResources fun stat : WebPageStat V => stat.assign reads :=
  fun _ => rfl

/-- Without a scan of the page the resources are not scanned either. -/
theorem ignores_addScan {raw : Option (SecurityScan V)} (h : raw = none) :
    IgnoresResources (WebPageStat.addScan raw) := by
  subst h
  exact fun _ => rfl

theorem ignores_addImages {raw : Option (List ImageSizing)} (h : raw = none) :
    IgnoresResources (WebPageStat.addImages (V := V) raw) := by
  subst h
  exact fun _ => rfl

theorem ignores_addHar {har : Bool} (h : har = false) (url : String) :
    IgnoresResources (WebPageStat.addHar (V := V) har url) := by
  subst h
  exact fun _ => rfl

/-- The hints come from the summary. -/
theorem ignores_addHints (parseUrl : String → Option ParsedUrl) (raw : Option RawResourceHints) :
    IgnoresResources (WebPageStat.addHints (V := V) parseUrl raw) := by
  intro stat
  cases raw with
  | none => rfl
  | some raw => rfl

/-- The derives before the list is dropped. -/
def WebPageStat.consume (parseUrl : String → Option ParsedUrl) (req : ReportRequest)
    (reads : Reads V req.toSummaryRequest) (stat : WebPageStat V) : WebPageStat V :=
  ((((stat.assign reads).addScan reads.securityScan.value).addImages
    reads.imageSizing.value).addHar req.har req.url).addHints parseUrl reads.resourceHints.value

/-- `free_resources` of a request without `resources`. -/
def ReportRequest.frees (req : ReportRequest) : Bool :=
  !(req.har || req.imageSizing || req.securityScan)

theorem captures_resources_off (req : ReportRequest) :
    ({ req with resources := false } : ReportRequest).captures =
      { req.captures with freeResources := req.frees } := rfl

theorem captures_resources_on (req : ReportRequest) :
    ({ req with resources := true } : ReportRequest).captures =
      { req.captures with freeResources := false } := rfl

/-- The flags that keep `free_resources` off are those of the steps that look at the list. -/
theorem ignores_consume (parseUrl : String → Option ParsedUrl) {req : ReportRequest}
    (hfrees : req.frees = true) (reads : Reads V req.toSummaryRequest) :
    IgnoresResources (WebPageStat.consume parseUrl req reads) := by
  simp only [ReportRequest.frees, Bool.not_eq_true', Bool.or_eq_false_iff] at hfrees
  obtain ⟨⟨hhar, himages⟩, hscan⟩ := hfrees
  have hassign := ignores_assign reads
  have hscanned := ignores_addScan (reads.securityScan.absent hscan)
  have hsized := ignores_addImages (V := V) (reads.imageSizing.absent himages)
  have harchived := ignores_addHar (V := V) hhar req.url
  have hhinted := ignores_addHints (V := V) parseUrl reads.resourceHints.value
  exact hhinted.comp_left (harchived.comp_left (hsized.comp_left (hscanned.comp_left hassign)))

/-- Dropped at the end, the list makes no difference to the rest when it was freed before. -/
theorem derive_freeIf (parseUrl : String → Option ParsedUrl) (req : ReportRequest)
    (reads : Reads V req.toSummaryRequest) (stat : WebPageStat V) :
    (stat.freeIf req.frees).derive parseUrl { req with resources := false } reads =
      (stat.derive parseUrl { req with resources := true } reads).clearResources := by
  show ((stat.freeIf req.frees).consume parseUrl req reads).clearResources =
    (stat.consume parseUrl req reads).clearResources
  cases hfrees : req.frees with
  | false => rfl
  | true =>
      show (stat.clearResources.consume parseUrl req reads).clearResources = _
      rw [ignores_consume parseUrl hfrees reads stat]
      rfl

/-- Whether the list of the resources is freed early, late or not at all is visible in the
    list alone: without `resources`, `capture` returns what it returns with `resources`, less
    the list. -/
theorem capture_resources_off (orders : MapOrders) (lower : String → String)
    (parseUrl : String → Option ParsedUrl) (page : Page V) (req : ReportRequest) :
    capture orders lower parseUrl page { req with resources := false } =
      WebPageStat.clearResources <$>
        capture orders lower parseUrl page { req with resources := true } := by
  unfold capture
  rw [captures_resources_off, captures_resources_on, collectSummary_freeResources]
  simp only [map_bind, map_pure, bind_map_left]
  refine bind_congr fun _ => bind_congr fun stat => bind_congr fun _ => bind_congr fun reads => ?_
  rw [derive_freeIf]

end

end Capture
end BrowserHeadless
