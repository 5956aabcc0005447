/-
  BrowserHeadless.Mcp.Signals

  The JSON that the `page_signals` tool returns (src/mcp.rs).

  The report behind it comes out of hash maps, whose iteration order differs from process to
  process.  `Seen` is what of a report the JSON shows; it is the same for all orders
  (`seen_capture`), and its counts of failures are those of the run (`failures_capture`).
-/

import BrowserHeadless.Capture.One
import BrowserHeadless.Lib.Ranked
import BrowserHeadless.Summary.Invariance

namespace BrowserHeadless
namespace Mcp

open Capture
open Lib (Codec Json)

/-! ## The JSON -/

/-- How the values are shown that the model passes on unread. -/
structure Renderers (V : Type) where
  /-- The six fields of `web_vitals`. -/
  vitals : V → Json
  /-- The five fields of `metadata`. -/
  metadata : V → Json
  /-- The data of a screenshot and its MIME type. -/
  shot : V → String × String
  /-- `serde_json::to_string_pretty`. -/
  pretty : Json → String
  /-- `to_markdown`, or `none` when it panics. -/
  toMarkdown : Lang → WebPageStat V → Option String

section

variable {V : Type} (render : Renderers V)

/-- An `Option` in `json!`. -/
def jsonOption {α : Type} (json : α → Json) (value : Option α) : Json :=
  (value.map json).getD .null

/-- `doc_timing`. -/
def jsonTiming (dt : Collect.DocumentTiming) : Json :=
  .obj
    [("dns_ms", jsonInt dt.dnsMs),
      ("tcp_ms", jsonInt dt.tcpMs),
      ("tls_ms", jsonInt dt.tlsMs),
      ("ttfb_ms", jsonInt dt.ttfbMs),
      ("from_cache", .bool dt.fromCache),
      ("protocol", .str dt.protocol)]

/-- `sec`. -/
def jsonSecurity (hdr : Security.SecurityHeadersCheck) : Json :=
  .obj
    [("hsts", .bool hdr.hsts),
      ("csp", .bool hdr.csp),
      ("x_frame_options", .bool hdr.xFrameOptions),
      ("x_content_type_options", .bool hdr.xContentTypeOptions),
      ("referrer_policy", .bool hdr.referrerPolicy),
      ("present_count", jsonInt hdr.presentCount),
      ("missing", .arr (hdr.missing.map .str))]

/-- One of `js_exception_top`. -/
def jsonException (e : JsExceptionCount) : Json :=
  .obj
    [("name", .str e.name),
      ("count", jsonInt e.count),
      ("sample", jsonOption .str e.sampleMessage)]

/-- `http_status`. -/
def httpStatus (stat : WebPageStat V) : Nat := (stat.documentTiming.map (·.status)).getD 0

/-- `final_url`. -/
def finalUrl (requestedUrl : String) (stat : WebPageStat V) : String :=
  ((stat.documentTiming.map (·.url)).or (stat.httpErrors.map (·.finalUrl))).getD requestedUrl

/-- `redirect_count`. -/
def redirectCount (stat : WebPageStat V) : Nat := (stat.httpErrors.map (·.redirectCount)).getD 0

/-- A count of `http_errors`, as a `u32`. -/
def failures {α : Type} (list : HttpErrors → List α) (stat : WebPageStat V) : Nat :=
  (stat.httpErrors.map fun h => (list h).length % 2 ^ 32).getD 0

/-- `ok`. -/
def healthy (stat : WebPageStat V) : Bool :=
  decide (200 ≤ httpStatus stat ∧ httpStatus stat < 400 ∧ failures (·.failed5xx) stat = 0)

/-- `build_page_signals_json`. -/
def buildPageSignalsJson (requestedUrl : String) (stat : WebPageStat V) : Json :=
  let ratio := stat.resourceSummary.cacheHitRatio
  let cacheHit := if ratio.isFinite then ratio else Lib.F64.ofInt 0
  .obj
    [("url", .str requestedUrl),
      ("final_url", .str (finalUrl requestedUrl stat)),
      ("status", jsonInt (httpStatus stat)),
      ("redirected", .bool (finalUrl requestedUrl stat ≠ requestedUrl)),
      ("redirect_count", jsonInt (redirectCount stat)),
      ("load_ms", jsonInt stat.loadTime),
      ("fcp_ms", jsonInt stat.fcpTime),
      ("dcl_ms", jsonInt stat.dclTime),
      ("resource_count", jsonInt stat.resourceCount),
      ("total_transfer_bytes", jsonInt stat.totalSize),
      ("cache_hit_ratio", (@Codec.f64 Unit).encode () cacheHit),
      ("js_exception_count", jsonInt stat.jsExceptions.total),
      ("js_exception_top", .arr ((stat.jsExceptions.byName.take 5).map jsonException)),
      ("failed_4xx_count", jsonInt (failures (·.failed4xx) stat)),
      ("failed_5xx_count", jsonInt (failures (·.failed5xx) stat)),
      ("network_failure_count", jsonInt (failures (·.networkFailures) stat)),
      ("document_timing", jsonOption jsonTiming stat.documentTiming),
      ("web_vitals", jsonOption render.vitals stat.webVitals),
      ("metadata", jsonOption render.metadata stat.metadata),
      ("security_headers", jsonSecurity stat.securityAudit.headers),
      ("ok", .bool (healthy stat))]

/-! ## What the JSON shows -/

/-- What of a report the JSON shows. -/
@[ext] structure Seen (V : Type) where
  documentTiming : Option Collect.DocumentTiming
  finalUrl : Option String
  redirectCount : Nat
  failed4xx : Nat
  failed5xx : Nat
  networkFailures : Nat
  loadTime : Nat
  fcpTime : Nat
  dclTime : Nat
  resourceCount : Nat
  totalSize : Nat
  cacheHitRatio : Lib.F64
  exceptionTotal : Nat
  exceptionTop : List JsExceptionCount
  webVitals : Option V
  metadata : Option V
  security : Json

/-- What the JSON shows of a report. -/
def seen (stat : WebPageStat V) : Seen V where
  documentTiming := stat.documentTiming
  finalUrl := stat.httpErrors.map (·.finalUrl)
  redirectCount := redirectCount stat
  failed4xx := failures (·.failed4xx) stat
  failed5xx := failures (·.failed5xx) stat
  networkFailures := failures (·.networkFailures) stat
  loadTime := stat.loadTime
  fcpTime := stat.fcpTime
  dclTime := stat.dclTime
  resourceCount := stat.resourceCount
  totalSize := stat.totalSize
  cacheHitRatio := stat.resourceSummary.cacheHitRatio
  exceptionTotal := stat.jsExceptions.total
  exceptionTop := stat.jsExceptions.byName.take 5
  webVitals := stat.webVitals
  metadata := stat.metadata
  security := jsonSecurity stat.securityAudit.headers

/-- The JSON shows nothing else. -/
theorem buildPageSignalsJson_congr (requestedUrl : String) {stat stat' : WebPageStat V}
    (h : seen stat = seen stat') :
    buildPageSignalsJson render requestedUrl stat =
      buildPageSignalsJson render requestedUrl stat' := by
  simp only [seen, Seen.mk.injEq] at h
  obtain ⟨htiming, hurl, hredirects, h4xx, h5xx, hnetwork, hload, hfcp, hdcl, hcount, hsize,
    hratio, htotal, htop, hvitals, hmetadata, hsecurity⟩ := h
  have hlanded : Mcp.finalUrl requestedUrl stat = Mcp.finalUrl requestedUrl stat' := by
    rw [Mcp.finalUrl, htiming, hurl, Mcp.finalUrl]
  have hstatus : httpStatus stat = httpStatus stat' := by
    rw [httpStatus, htiming, httpStatus]
  have hhealthy : healthy stat = healthy stat' := by
    rw [healthy, hstatus, h5xx, healthy]
  rw [buildPageSignalsJson, hlanded]
  simp only [buildPageSignalsJson, hstatus, hredirects, h4xx, h5xx, hnetwork, hload, hfcp, hdcl,
    hcount, hsize, hratio, htotal, htop, htiming, hvitals, hmetadata, hsecurity, hhealthy]

/-! ## The orders of the hash maps -/

/-- The exceptions are ranked by their names and counts, and no two share a name. -/
theorem named_exceptions (order : Lib.HashMap.Order String (Nat × Option String))
    (s : Collect.FullLoop.State) :
    Lib.Named JsExceptionCount.name
      ((order.entries s.exceptionBuckets).map fun e => ⟨e.1, e.2.1, e.2.2⟩) := by
  rw [Lib.Named, List.map_map]
  exact order.nodupKeys s.exceptionBuckets

theorem buildJsExceptions_order (o o' : Lib.HashMap.Order String (Nat × Option String))
    (s : Collect.FullLoop.State) : buildJsExceptions o s = buildJsExceptions o' s := by
  have hperm : (o.entries s.exceptionBuckets).Perm (o'.entries s.exceptionBuckets) := by
    rw [← Multiset.coe_eq_coe, o.entries_eq, o'.entries_eq]
  have hranked := Lib.ranked_perm JsExceptionCount.count (named_exceptions o s) (hperm.map _)
  exact congrArg (fun l : List JsExceptionCount =>
    (⟨s.exceptions.length % 2 ^ 32, l.take 10⟩ : JsExceptions)) hranked

theorem resourcesVec_perm (o o' : Lib.HashMap.Order String Collect.WebPageResource)
    (s : Collect.FullLoop.State) : (resourcesVec o s).Perm (resourcesVec o' s) := by
  rw [← Multiset.coe_eq_coe, coe_resourcesVec, coe_resourcesVec]

theorem cacheHitRatio_perm {lower : String → String}
    {parseUrl : String → Option Collect.ParsedUrl} (o o' : Summary.Orders)
    {l l' : List Collect.WebPageResource} (h : l.Perm l') (url : String) :
    (Summary.buildResourceSummary lower parseUrl o l url).cacheHitRatio =
      (Summary.buildResourceSummary lower parseUrl o' l' url).cacheHitRatio := by
  have hhits := congrArg Summary.Totals.cacheHits
    (Summary.Totals.counters_perm lower (Summary.targetHostOf parseUrl url) h)
  have hempty : l.isEmpty = l'.isEmpty := by
    rw [Bool.eq_iff_iff, List.isEmpty_iff, List.isEmpty_iff]
    exact ⟨fun hl => (hl ▸ h).nil_eq.symm, fun hl => (hl ▸ h).eq_nil⟩
  simp only [Summary.Totals.counters] at hhits
  simp only [Summary.buildResourceSummary, hhits, hempty, h.length_eq]

/-- A call that is made only with its flag fails in the same way for all orders. -/
theorem collectCoverage_cases (c : Collect.CollectCaptures)
    (o o' : Lib.HashMap.Order String (List Coverage.CssRuleUsage)) (s : Collect.FullLoop.State)
    (js : Except Error (List Coverage.ScriptCoverage))
    (css : Except Error (List Coverage.CssRuleUsage)) :
    (∃ r r', Coverage.collectCoverage c o s js css = .ok r ∧
      Coverage.collectCoverage c o' s js css = .ok r') ∨
    ∃ e, Coverage.collectCoverage c o s js css = .error e ∧
      Coverage.collectCoverage c o' s js css = .error e := by
  unfold Coverage.collectCoverage
  split
  next =>
      cases js with
      | error e => exact .inr ⟨e, rfl, rfl⟩
      | ok js =>
          cases css with
          | error e => exact .inr ⟨e, rfl, rfl⟩
          | ok css => exact .inl ⟨_, _, rfl, rfl⟩
  next => exact .inl ⟨_, _, rfl, rfl⟩

/-- What is left of the lists of failures without their order. -/
theorem map_eq_of_unordered {α : Type} {f : HttpErrors → α} {g : Collect.HttpErrors → α}
    (hf : ∀ h, f h = g h.unordered) {h h' : Option HttpErrors}
    (heq : h.map HttpErrors.unordered = h'.map HttpErrors.unordered) : h.map f = h'.map f := by
  have hmap := congrArg (Option.map g) heq
  rw [Option.map_map, Option.map_map] at hmap
  have hcomp : g ∘ HttpErrors.unordered = f := funext fun h => (hf h).symm
  rwa [hcomp] at hmap

theorem buildHttpErrors_order (o o' : Lib.HashMap.Order String Collect.WebPageResource)
    (c : Capture.CollectCaptures) (s : Collect.FullLoop.State) :
    (buildHttpErrors c s (resourcesVec o s)).map HttpErrors.unordered =
      (buildHttpErrors c s (resourcesVec o' s)).map HttpErrors.unordered := by
  rw [unordered_buildHttpErrors, unordered_buildHttpErrors]

theorem seen_collectSummary (o o' : MapOrders) (lower : String → String)
    (parseUrl : String → Option Collect.ParsedUrl) (page : Page V) (url : String)
    (timeout : Collect.Instant) (waitForRequest : List String) (waitUntilLoad : Bool)
    (c : Capture.CollectCaptures) :
    seen <$> collectSummary o lower parseUrl page url timeout waitForRequest waitUntilLoad c =
      seen <$> collectSummary o' lower parseUrl page url timeout waitForRequest waitUntilLoad
        c := by
  unfold collectSummary
  split
  next => rfl
  next =>
      simp only [map_bind, map_pure]
      refine bind_congr fun _ => bind_congr fun ⟨s, exit⟩ => bind_congr fun cookies =>
        bind_congr fun screenshot => ?_
      have hperm := resourcesVec_perm o.resources o'.resources s
      rcases collectCoverage_cases c.toCollectCaptures o.sheets o'.sheets s
        page.takePreciseCoverage page.stopRuleUsageTracking with ⟨r, r', hr, hr'⟩ | ⟨e, he, he'⟩
      · have hfailed := buildHttpErrors_order o.resources o'.resources c s
        have h4xx := map_eq_of_unordered (f := fun h => h.failed4xx.length % 2 ^ 32)
          (g := fun h => Multiset.card h.failed4xx % 2 ^ 32) (fun _ => rfl) hfailed
        have h5xx := map_eq_of_unordered (f := fun h => h.failed5xx.length % 2 ^ 32)
          (g := fun h => Multiset.card h.failed5xx % 2 ^ 32) (fun _ => rfl) hfailed
        have hnetwork := map_eq_of_unordered (f := fun h => h.networkFailures.length % 2 ^ 32)
          (g := fun h => h.networkFailures.length % 2 ^ 32) (fun _ => rfl) hfailed
        have hurl := map_eq_of_unordered (f := (·.finalUrl)) (g := (·.finalUrl)) (fun _ => rfl)
          hfailed
        have hredirects := map_eq_of_unordered (f := (·.redirectCount)) (g := (·.redirectCount))
          (fun _ => rfl) hfailed
        have hsize := (hperm.map Collect.WebPageResource.contentSize).sum_eq
        have hexceptions := buildJsExceptions_order o.exceptions o'.exceptions s
        rw [hr, hr']
        refine congrArg Except.ok (Seen.ext rfl hurl ?_ ?_ ?_ ?_ rfl rfl rfl hperm.length_eq ?_
          (cacheHitRatio_perm o.summary o'.summary hperm url) rfl ?_ rfl rfl rfl)
        · exact congrArg (fun n : Option Nat => n.getD 0) hredirects
        · exact congrArg (fun n : Option Nat => n.getD 0) h4xx
        · exact congrArg (fun n : Option Nat => n.getD 0) h5xx
        · exact congrArg (fun n : Option Nat => n.getD 0) hnetwork
        · exact congrArg (· % 2 ^ 64) hsize
        · exact congrArg (fun e : JsExceptions => e.byName.take 5) hexceptions
      · rw [he, he']
        rfl

/-! ## The report as a whole -/

@[simp] theorem seen_addScan (raw : Option (SecurityScan V)) (stat : WebPageStat V) :
    seen (stat.addScan raw) = seen stat := by
  cases raw <;> rfl

@[simp] theorem seen_addImages (raw : Option (List Images.ImageSizing)) (stat : WebPageStat V) :
    seen (stat.addImages raw) = seen stat := by
  cases raw <;> rfl

@[simp] theorem seen_addHar (har : Bool) (url : String) (stat : WebPageStat V) :
    seen (stat.addHar har url) = seen stat := by
  cases har <;> rfl

@[simp] theorem seen_addHints (parseUrl : String → Option Collect.ParsedUrl)
    (raw : Option Summary.RawResourceHints) (stat : WebPageStat V) :
    seen (stat.addHints parseUrl raw) = seen stat := by
  cases raw <;> rfl

@[simp] theorem seen_dropResources (resources : Bool) (stat : WebPageStat V) :
    seen (stat.dropResources resources) = seen stat := by
  cases resources <;> rfl

/-- Of the derives the JSON shows what was read of the page. -/
theorem seen_derive (parseUrl : String → Option Collect.ParsedUrl) (req : ReportRequest)
    (reads : Reads V req.toSummaryRequest) (stat : WebPageStat V) :
    seen (stat.derive parseUrl req reads) =
      { seen stat with
        webVitals := reads.webVitals.value
        metadata := reads.metadata.value } := by
  simp only [WebPageStat.derive, seen_dropResources, seen_addHints, seen_addHar, seen_addImages,
    seen_addScan]
  rfl

/-- What the JSON shows of a report does not depend on the orders of the hash maps. -/
theorem seen_capture (o o' : MapOrders) (lower : String → String)
    (parseUrl : String → Option Collect.ParsedUrl) (page : Page V) (req : ReportRequest) :
    seen <$> capture o lower parseUrl page req = seen <$> capture o' lower parseUrl page req := by
  have hview : ∀ o, seen <$> capture o lower parseUrl page req = (do
      page.setup req.toSummaryRequest
      let view ← seen <$> collectSummary o lower parseUrl page req.url req.timeout
        req.waitForRequest req.waitUntilLoad req.captures
      postLoadWaits page req.toSummaryRequest req.timeout
      let reads ← readPage page req.toSummaryRequest
        (extractData page req.dataFormat req.captureElement req.normalizeCustomElements)
      return { view with
        webVitals := reads.webVitals.value
        metadata := reads.metadata.value }) := by
    intro o
    unfold capture
    simp only [map_bind, map_pure, bind_map_left, seen_derive]
  rw [hview, hview, seen_collectSummary o o']

/-- The counts of failures are those of the responses that the run kept. -/
theorem failures_capture {o : MapOrders} {lower : String → String}
    {parseUrl : String → Option Collect.ParsedUrl} {page : Page V} {req : ReportRequest}
    {stat : WebPageStat V} (hlean : req.contentOnly = false) (herrors : req.httpErrors = true)
    (h : capture o lower parseUrl page req = .ok stat) :
    ∃ s exit, Collect.FullLoop.collect req.captures.toCollectCaptures parseUrl req.url
        req.waitForRequest req.waitUntilLoad req.timeout page.timerWins page.timeline =
          .ok (s, exit) ∧
      stat.documentTiming = s.documentTiming ∧
      failures (·.failed4xx) stat =
        Multiset.card (Collect.FullLoop.failedRequests s 400 500) % 2 ^ 32 ∧
      failures (·.failed5xx) stat =
        Multiset.card (Collect.FullLoop.failedRequests s 500 600) % 2 ^ 32 ∧
      failures (·.networkFailures) stat = s.httpNetworkFailures.length % 2 ^ 32 := by
  rw [capture] at h
  obtain ⟨-, -, h⟩ := Lib.bind_eq_ok.mp h
  obtain ⟨summary, hsummary, h⟩ := Lib.bind_eq_ok.mp h
  obtain ⟨-, -, h⟩ := Lib.bind_eq_ok.mp h
  obtain ⟨reads, -, h⟩ := Lib.bind_eq_ok.mp h
  have hview := seen_derive parseUrl req reads summary
  rw [Except.ok.inj h] at hview
  obtain ⟨s, exit, hcollect, hreports, -⟩ := collectSummary_finish hlean hsummary
  have hrollup : summary.httpErrors.map HttpErrors.unordered =
      Collect.FullLoop.httpErrors req.captures.toCollectCaptures s := hreports.httpErrors
  have hflag : req.captures.toCollectCaptures.httpErrors = true := herrors
  rw [Collect.FullLoop.httpErrors, if_pos hflag] at hrollup
  obtain ⟨errors, herrors, hunordered⟩ := Option.map_eq_some_iff.mp hrollup
  have hcount : ∀ {α : Type} (list : HttpErrors → List α),
      failures list summary = (list errors).length % 2 ^ 32 := by
    intro α list
    rw [failures, herrors, Option.map_some, Option.getD_some]
  refine ⟨s, exit, hcollect, ?_, ?_, ?_, ?_⟩
  · exact (congrArg Seen.documentTiming hview).trans hreports.documentTiming
  · refine (congrArg Seen.failed4xx hview).trans ((hcount _).trans ?_)
    exact congrArg (fun e => Multiset.card e.failed4xx % 2 ^ 32) hunordered
  · refine (congrArg Seen.failed5xx hview).trans ((hcount _).trans ?_)
    exact congrArg (fun e => Multiset.card e.failed5xx % 2 ^ 32) hunordered
  · refine (congrArg Seen.networkFailures hview).trans ((hcount _).trans ?_)
    exact congrArg (fun e => e.networkFailures.length % 2 ^ 32) hunordered

end

end Mcp
end BrowserHeadless
