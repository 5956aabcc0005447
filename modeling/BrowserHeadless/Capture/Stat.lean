/-
  BrowserHeadless.Capture.Stat

  `WebPageStat` and `collect_summary` (src/browser/mod.rs) as a whole: navigation, one of the
  two collect loops, and the report made of its variables.

  `Page` is what the browser does while one page is captured.  The maps of the loop are
  iterated in the orders of `MapOrders`; the list of the resources follows one of them.
  `collectSummary_finish` says which fields of the report do not depend on the orders, and
  `collectSummary_freeResources` what `free_resources` changes.

  `lower` stands for `str::to_lowercase`, `parseUrl` for `url::Url::parse(..).ok()`.
-/

import BrowserHeadless.Capture.Stages
import BrowserHeadless.Collect.Agree
import BrowserHeadless.Collect.Exit
import BrowserHeadless.Coverage.Css
import BrowserHeadless.Images.Audit
import BrowserHeadless.Lib.Json
import BrowserHeadless.Security.Audit
import BrowserHeadless.Summary.Hints

namespace BrowserHeadless
namespace Capture

open Lib (HashMap Json)
open Collect
open Collect.FullLoop (retained)
open Coverage (CoverageReport CssRuleUsage ScriptCoverage collectCoverage)
open Images (ImageSizing ImageAudit)
open Security (Cookie CorsIssue SecurityAudit buildSecurityAudit)
open Summary (HintedSummary RawResourceHints buildResourceSummary)

/-! ## The report -/

/-- `JsExceptionCount`. -/
structure JsExceptionCount where
  name : String
  count : Nat
  sampleMessage : Option String
deriving DecidableEq

/-- `JsExceptions`. -/
structure JsExceptions where
  total : Nat := 0
  byName : List JsExceptionCount := []
deriving DecidableEq

/-- `HttpErrors`, with its lists in the order of the resources. -/
structure HttpErrors where
  failedCount : Nat
  failed4xx : List FailedRequest
  failed5xx : List FailedRequest
  networkFailures : List NetworkFailure
  finalUrl : String
  redirectCount : Nat
deriving DecidableEq

/-- `SecurityScan`; what the page reports is passed on unread. -/
structure SecurityScan (V : Type) where
  sri : V
  unsafeTargetBlank : V
  forms : V
  libraries : V
  corsIssues : List CorsIssue := []

/-- `WebPageStat`.  `V` stands for the types whose values are passed on unread. -/
structure WebPageStat (V : Type) where
  totalSize : Nat := 0
  resourceCount : Nat := 0
  fcpTime : Nat := 0
  dclTime : Nat := 0
  loadTime : Nat := 0
  data : String := ""
  exceptions : List String := []
  jsExceptions : JsExceptions := {}
  consoleMessages : List String := []
  resources : List WebPageResource := []
  cookies : List Cookie := []
  screenshot : Option V := none
  pdf : Option V := none
  har : Option Json := none
  domSnapshot : Option Json := none
  webVitals : Option V := none
  metrics : Option V := none
  resourceSummary : HintedSummary := HintedSummary.default
  metadata : Option V := none
  renderBlockingResources : Option V := none
  securityHeaders : Option (List (String × String)) := none
  securityAudit : SecurityAudit := {}
  serviceWorker : Option V := none
  tlsInfo : Option TlsInfo := none
  tlsCertificates : List TlsInfo := []
  imageSizing : Option (List ImageSizing) := none
  imageAudit : Option ImageAudit := none
  fontAudit : Option V := none
  securityScan : Option (SecurityScan V) := none
  domMutations : Option V := none
  httpErrors : Option HttpErrors := none
  coverage : Option CoverageReport := none
  documentTiming : Option DocumentTiming := none

/-! ## The page -/

/-- What the browser does while one page is captured. -/
structure Page (V : Type) where
  /-- The browser context, the page, and the overrides of the request. -/
  setup : SummaryRequest → Except Error Unit
  /-- The domain enables, the event listeners and `page.goto`. -/
  navigate : Except Error Unit
  /-- When the collect loop starts, and what its streams deliver from then on. -/
  start : Instant
  timeline : Timeline Event start
  timerWins : List (Delivery Event) → Bool
  leanTimerWins : List (Delivery LeanEvent) → Bool
  getCookies : Except Error (List Cookie)
  captureScreenshot : Except Error V
  takePreciseCoverage : Except Error (List ScriptCoverage)
  stopRuleUsageTracking : Except Error (List CssRuleUsage)
  /-- When a stage begins. -/
  clock : Stage → Instant
  findElement : String → Instant → Except Error Unit
  /-- `page.evaluate` of an expression, and `into_value` of the result. -/
  evaluate : String → Instant → Except Error (Except Error Json)
  content : Except Error String
  /-- `capture_property(.., "outerHTML", ..)`. -/
  outerHtml : String → Except Error String
  extractText : Option String → Except Error String
  normalizeDom : Option String → Except Error String
  /-- The HTML to markdown converter. -/
  convert : String → Except String String
  printToPdf : Except Error V
  captureSnapshot : Except Error Json
  webVitals : Except Error V
  domMutations : Except Error (Option V)
  metrics : Except Error V
  metadata : Except Error V
  renderBlocking : Except Error V
  serviceWorker : Except Error V
  imageSizing : Except Error (List ImageSizing)
  resourceHints : Except Error RawResourceHints
  fontAudit : Except Error V
  securityScan : Except Error (SecurityScan V)

/-- The orders in which the hash maps of a capture are iterated. -/
structure MapOrders where
  resources : HashMap.Order String WebPageResource
  exceptions : HashMap.Order String (Nat × Option String)
  certificates : HashMap.Order String TlsInfo
  sheets : HashMap.Order String (List CssRuleUsage)
  directives : HashMap.Order String (List String)
  summary : Summary.Orders

/-- `CollectCaptures`, with the fields that the loops do not read. -/
structure CollectCaptures extends Collect.CollectCaptures where
  lean : Bool := false
  screenshot : Bool := false
  cookies : Bool := false
  freeResources : Bool := false
deriving DecidableEq

/-! ## After the loop -/

/-- `resources_vec`. -/
def resourcesVec (order : HashMap.Order String WebPageResource) (s : FullLoop.State) :
    List WebPageResource :=
  (order.entries (retained s)).map Sigma.snd

/-- More exceptions first, then by name. -/
def JsExceptionCount.le (a b : JsExceptionCount) : Prop :=
  b.count < a.count ∨ (b.count = a.count ∧ a.name ≤ b.name)

instance : DecidableRel JsExceptionCount.le := fun a b => by
  unfold JsExceptionCount.le
  infer_instance

/-- `js_exceptions`. -/
def buildJsExceptions (order : HashMap.Order String (Nat × Option String)) (s : FullLoop.State) :
    JsExceptions where
  total := s.exceptions.length % 2 ^ 32
  byName :=
    (((order.entries s.exceptionBuckets).map fun e =>
      { name := e.1, count := e.2.1, sampleMessage := e.2.2 }).insertionSort
        JsExceptionCount.le).take 10

/-- The entry of a failed response. -/
def failedRequest (types : HashMap String ResourceType) (r : WebPageResource) :
    FailedRequest where
  url := r.url
  status := r.status
  resourceType := ((types.lookup r.requestId).map resourceTypeLabel).getD ""

/-- The body of the loop over the resources: `failed_4xx` and `failed_5xx`. -/
def noteFailed (types : HashMap String ResourceType)
    (failed : List FailedRequest × List FailedRequest) (r : WebPageResource) :
    List FailedRequest × List FailedRequest :=
  if r.status < 400 ∨ 600 ≤ r.status then failed
  else if r.status < 500 then (failed.1 ++ [failedRequest types r], failed.2)
  else (failed.1, failed.2 ++ [failedRequest types r])

/-- `http_errors`. -/
def buildHttpErrors (c : CollectCaptures) (s : FullLoop.State) (resources : List WebPageResource) :
    Option HttpErrors :=
  if c.httpErrors then
    let failed := resources.foldl (noteFailed s.httpResourceTypes) ([], [])
    some
      { failedCount :=
          (failed.1.length + failed.2.length + s.httpNetworkFailures.length) % 2 ^ 32
        failed4xx := failed.1
        failed5xx := failed.2
        networkFailures := s.httpNetworkFailures
        finalUrl := s.httpFinalUrl
        redirectCount := s.httpRedirectCount }
  else none

/-- Soonest to expire first, then by host. -/
def expiresFirst (a b : TlsInfo) : Prop :=
  a.daysRemaining < b.daysRemaining ∨ (a.daysRemaining = b.daysRemaining ∧ a.host ≤ b.host)

instance : DecidableRel expiresFirst := fun a b => by
  unfold expiresFirst
  infer_instance

/-- `tls_certificates`. -/
def tlsCertificates (order : HashMap.Order String TlsInfo) (s : FullLoop.State) : List TlsInfo :=
  ((order.entries s.tlsByHost).map Sigma.snd).insertionSort expiresFirst

section

variable {V : Type}

/-- A call to the browser that is made only with its flag; without it, the `fallback`. -/
def gated {α : Type} (flag : Bool) (fallback : α) (call : Except Error α) : Except Error α :=
  if flag then call else pure fallback

/-- `collect_summary_lean`. -/
def collectSummaryLean (page : Page V) (timeout : Instant) (waitForRequest : List String)
    (waitUntilLoad : Bool) : Except Error (WebPageStat V) := do
  page.navigate
  let (s, _) ← LeanLoop.collect waitForRequest waitUntilLoad timeout page.leanTimerWins
    page.timeline.shared
  let summary := LeanLoop.finish s
  return {
    fcpTime := summary.fcpTime
    dclTime := summary.dclTime
    loadTime := summary.loadTime
    documentTiming := summary.documentTiming }

/-- `collect_summary`. -/
def collectSummary (orders : MapOrders) (lower : String → String)
    (parseUrl : String → Option ParsedUrl) (page : Page V) (url : String) (timeout : Instant)
    (waitForRequest : List String) (waitUntilLoad : Bool) (c : CollectCaptures) :
    Except Error (WebPageStat V) := do
  if c.lean then collectSummaryLean page timeout waitForRequest waitUntilLoad
  else
    page.navigate
    let (s, _) ← FullLoop.collect c.toCollectCaptures parseUrl url waitForRequest waitUntilLoad
      timeout page.timerWins page.timeline
    let cookies ← gated c.cookies [] page.getCookies
    let screenshot ← gated c.screenshot none (some <$> page.captureScreenshot)
    let resources := resourcesVec orders.resources s
    -- what is derived from the list comes before it is freed
    let totalSize := (resources.map WebPageResource.contentSize).sum % 2 ^ 64
    let resourceCount := resources.length
    let httpErrors := buildHttpErrors c s resources
    let summary := buildResourceSummary lower parseUrl orders.summary resources url
    let resources := if c.freeResources then [] else resources
    let coverage ← collectCoverage c.toCollectCaptures orders.sheets s page.takePreciseCoverage
      page.stopRuleUsageTracking
    return {
      totalSize := totalSize
      resourceCount := resourceCount
      fcpTime := FullLoop.toMs s.initTs s.fcpTs
      dclTime := FullLoop.toMs s.initTs s.dclTs
      loadTime := FullLoop.toMs s.initTs s.loadTs
      exceptions := s.exceptions
      jsExceptions := buildJsExceptions orders.exceptions s
      consoleMessages := s.consoleMessages
      resources := resources
      cookies := cookies
      screenshot := screenshot
      resourceSummary := { toResourceSummary := summary }
      securityHeaders := s.securityHeaders
      securityAudit := buildSecurityAudit orders.directives s.securityHeaders cookies
      tlsInfo := s.tlsInfo
      tlsCertificates := tlsCertificates orders.certificates s
      httpErrors := httpErrors
      coverage := coverage
      documentTiming := s.documentTiming }

/-! ## The report and the variables of the loop -/

theorem coe_resourcesVec (order : HashMap.Order String WebPageResource) (s : FullLoop.State) :
    (resourcesVec order s : Multiset WebPageResource) = HashMap.values (retained s) := by
  rw [HashMap.values, ← order.entries_eq, Multiset.map_coe]
  rfl

/-- The loop over the resources as two filters. -/
theorem foldl_noteFailed (types : HashMap String ResourceType) (resources : List WebPageResource)
    (failed : List FailedRequest × List FailedRequest) :
    resources.foldl (noteFailed types) failed =
      (failed.1 ++ (resources.filter fun r => 400 ≤ r.status ∧ r.status < 500).map
          (failedRequest types),
        failed.2 ++ (resources.filter fun r => 500 ≤ r.status ∧ r.status < 600).map
          (failedRequest types)) := by
  induction resources generalizing failed with
  | nil => simp only [List.foldl_nil, List.filter_nil, List.map_nil, List.append_nil]
  | cons r resources ih =>
      rw [List.foldl_cons, ih, noteFailed]
      split
      next hother =>
          rw [List.filter_cons_of_neg (by simp; omega), List.filter_cons_of_neg (by simp; omega)]
      next hfailed =>
        split
        next hclient =>
            rw [List.filter_cons_of_pos (by simp; omega),
              List.filter_cons_of_neg (by simp; omega), List.map_cons, List.append_assoc]
            rfl
        next hserver =>
            rw [List.filter_cons_of_neg (by simp; omega),
              List.filter_cons_of_pos (by simp; omega), List.map_cons, List.append_assoc]
            rfl

/-- The failed responses of a status range, in the order of the resources. -/
theorem coe_filter_failed (order : HashMap.Order String WebPageResource) (s : FullLoop.State)
    (lo hi : Nat) :
    ((((resourcesVec order s).filter fun r => lo ≤ r.status ∧ r.status < hi).map
      (failedRequest s.httpResourceTypes) : List FailedRequest) : Multiset FailedRequest) =
      FullLoop.failedRequests s lo hi := by
  rw [FullLoop.failedRequests, ← coe_resourcesVec order, Multiset.filter_coe, Multiset.map_coe]
  simp only [Bool.decide_and]
  rfl

/-- `HttpErrors` without the order of its lists. -/
def HttpErrors.unordered (e : HttpErrors) : Collect.HttpErrors where
  failedCount := e.failedCount
  failed4xx := e.failed4xx
  failed5xx := e.failed5xx
  networkFailures := e.networkFailures
  finalUrl := e.finalUrl
  redirectCount := e.redirectCount

theorem unordered_buildHttpErrors (order : HashMap.Order String WebPageResource)
    (c : CollectCaptures) (s : FullLoop.State) :
    (buildHttpErrors c s (resourcesVec order s)).map HttpErrors.unordered =
      FullLoop.httpErrors c.toCollectCaptures s := by
  unfold buildHttpErrors FullLoop.httpErrors
  split
  next =>
      rw [foldl_noteFailed, List.nil_append, List.nil_append, Option.map_some,
        ← coe_filter_failed order, ← coe_filter_failed order]
      rfl
  next => rfl

/-- The report has the fields of a summary of the loop's variables, which knows no order. -/
structure WebPageStat.Reports (stat : WebPageStat V) (summary : FullLoop.Summary) : Prop where
  totalSize : stat.totalSize = summary.totalSize
  resourceCount : stat.resourceCount = summary.resourceCount
  fcpTime : stat.fcpTime = summary.fcpTime
  dclTime : stat.dclTime = summary.dclTime
  loadTime : stat.loadTime = summary.loadTime
  exceptions : stat.exceptions = summary.exceptions
  consoleMessages : stat.consoleMessages = summary.consoleMessages
  securityHeaders : stat.securityHeaders = summary.securityHeaders
  tlsInfo : stat.tlsInfo = summary.tlsInfo
  httpErrors : stat.httpErrors.map HttpErrors.unordered = summary.httpErrors
  documentTiming : stat.documentTiming = summary.documentTiming

/-- A full collection reports what the loop has in its variables at its end. -/
theorem collectSummary_finish {orders : MapOrders} {lower : String → String}
    {parseUrl : String → Option ParsedUrl} {page : Page V} {url : String} {timeout : Instant}
    {waitForRequest : List String} {waitUntilLoad : Bool} {c : CollectCaptures}
    {stat : WebPageStat V} (hlean : c.lean = false)
    (h : collectSummary orders lower parseUrl page url timeout waitForRequest waitUntilLoad c =
      .ok stat) :
    ∃ s exit, FullLoop.collect c.toCollectCaptures parseUrl url waitForRequest waitUntilLoad
        timeout page.timerWins page.timeline = .ok (s, exit) ∧
      stat.Reports (FullLoop.finish c.toCollectCaptures s) ∧
      (c.freeResources = false →
        (stat.resources : Multiset WebPageResource) = HashMap.values (retained s)) := by
  unfold collectSummary at h
  rw [hlean] at h
  obtain ⟨-, -, h⟩ := Lib.bind_eq_ok.mp h
  obtain ⟨⟨s, exit⟩, hcollect, h⟩ := Lib.bind_eq_ok.mp h
  obtain ⟨cookies, -, h⟩ := Lib.bind_eq_ok.mp h
  obtain ⟨screenshot, -, h⟩ := Lib.bind_eq_ok.mp h
  obtain ⟨coverage, -, h⟩ := Lib.bind_eq_ok.mp h
  have hstat := Except.ok.inj h
  have hvalues := coe_resourcesVec orders.resources s
  refine ⟨s, exit, hcollect, ?_, ?_⟩
  · subst hstat
    refine ⟨?_, ?_, rfl, rfl, rfl, rfl, rfl, rfl, rfl, ?_, rfl⟩
    · show _ % 2 ^ 64 = _ % 2 ^ 64
      rw [← hvalues, Multiset.map_coe, Multiset.sum_coe]
    · show _ = Multiset.card _
      rw [← hvalues, Multiset.coe_card]
    · exact unordered_buildHttpErrors orders.resources c s
  · intro hfree
    have hlist : stat.resources = resourcesVec orders.resources s := by
      rw [← hstat]
      exact if_neg (Bool.eq_false_iff.mp hfree)
    rw [hlist]
    exact hvalues

/-! ## The list of the resources -/

/-- `resources.clear()`. -/
def WebPageStat.clearResources (stat : WebPageStat V) : WebPageStat V :=
  { stat with resources := [] }

/-- The lean loop lists no resources. -/
theorem collectSummaryLean_clear (page : Page V) (timeout : Instant)
    (waitForRequest : List String) (waitUntilLoad : Bool) :
    WebPageStat.clearResources <$> collectSummaryLean page timeout waitForRequest waitUntilLoad =
      collectSummaryLean page timeout waitForRequest waitUntilLoad := by
  unfold collectSummaryLean
  simp only [map_bind, map_pure]
  rfl

/-- `resources.clear()` under a condition. -/
def WebPageStat.freeIf (free : Bool) (stat : WebPageStat V) : WebPageStat V :=
  if free then stat.clearResources else stat

/-- Nothing in the report but the list depends on whether it is freed. -/
theorem collectSummary_freeResources (orders : MapOrders) (lower : String → String)
    (parseUrl : String → Option ParsedUrl) (page : Page V) (url : String) (timeout : Instant)
    (waitForRequest : List String) (waitUntilLoad : Bool) (c : CollectCaptures) (free : Bool) :
    collectSummary orders lower parseUrl page url timeout waitForRequest waitUntilLoad
        { c with freeResources := free } =
      WebPageStat.freeIf free <$> collectSummary orders lower parseUrl page url timeout
        waitForRequest waitUntilLoad { c with freeResources := false } := by
  cases free with
  | false => exact (id_map _).symm
  | true =>
      show _ = WebPageStat.clearResources <$> _
      unfold collectSummary
      split
      next => exact (collectSummaryLean_clear _ _ _ _).symm
      next =>
        simp only [map_bind, map_pure]
        rfl

end

end Capture
end BrowserHeadless
