/-
  BrowserHeadless.Capture.Scripts

  The JavaScript that a capture evaluates in its page.

  Most of it are texts of the program.  Three parameters of the caller get near it:
  `script` and `wait_for_function`, which are evaluated as they are, and the selector
  `capture_element`, which is spliced in as a JSON literal.  `sources` follows every text
  from the query to the page; with scripts disabled (`BROWSER_HEADLESS_DISABLE_SCRIPT`)
  only `script` is refused, so `wait_for_function` is what is left of the caller's code
  (`disabled_scripts`).
-/

import BrowserHeadless.Capture.Preflight
import BrowserHeadless.Lib.JsString

namespace BrowserHeadless
namespace Capture

open Ssrf (UrlParser Resolver)

/-! ## Source texts -/

/-- The scripts of the program; `pageContent` is that of `Page::content`. -/
inductive Builtin where
  | webVitalsSetup
  | domMutationsSetup
  | textExtractor
  | domNormalize
  | pageContent
  | webVitalsRead
  | domMutationsRead
  | pageMetadata
  | renderBlocking
  | serviceWorker
  | imageSizing
  | resourceHints
  | fontAudit
  | securityScan
deriving DecidableEq, Repr

/-- A part of a source text: code, or a text as a JSON literal (`serde_json::to_string`). -/
inductive Piece where
  | code (text : String)
  | literal (text : String)
deriving DecidableEq, Repr

/-- A source text, in pieces. -/
abbrev Source := List Piece

def Piece.render : Piece → List Char
  | code text => text.toList
  | literal text => '"' :: Lib.escape text.toList ++ ['"']

/-- The text that is evaluated. -/
def render (source : Source) : List Char := source.flatMap Piece.render

/-- The source with holes for its literals. -/
def skeleton (source : Source) : List (Option String) :=
  source.map fun piece =>
    match piece with
    | .code text => some text
    | .literal _ => none

/-! ## The scripts of a request -/

/-- The fields of `SummaryRequest` that a script depends on. -/
structure ScriptRequest where
  waitForFunction : Option String
  script : Option String
  captureElement : Option String
  dataFormat : DataFormat
  normalizeCustomElements : Bool
  webVitals : Bool
  domMutations : Bool
  metadata : Bool
  renderBlocking : Bool
  serviceWorker : Bool
  imageSizing : Bool
  resourceHints : Bool
  fontAudit : Bool
  securityScan : Bool
deriving DecidableEq

/-- The request that `capture_one_unmetered` makes of a query. -/
def scriptRequest (q : SummaryQuery) : ScriptRequest :=
  let lean := q.contentOnly
  { waitForFunction := q.waitForFunction
    script := q.script
    captureElement := q.captureElement
    dataFormat := q.dataFormat
    normalizeCustomElements := q.normalizeCustomElements.getD true
    webVitals := !lean && (q.webVitals || q.allMetrics)
    domMutations := !lean && (q.domMutations || q.allMetrics)
    metadata := !lean && (q.metadata || q.allMetrics)
    renderBlocking := !lean && (q.renderBlocking || q.allMetrics)
    serviceWorker := !lean && (q.serviceWorker || q.allMetrics)
    imageSizing := !lean && (q.imageSizing || q.allMetrics)
    resourceHints := !lean && (q.resourceHints || q.allMetrics)
    fontAudit := !lean && (q.fontAudit || q.allMetrics)
    securityScan := !lean && (q.securityScan || q.allMetrics) }

section Request

variable (js : Builtin → String) (req : ScriptRequest)

/-- `apply_observers_setup`. -/
def observersSetup : List Source :=
  match req.webVitals, req.domMutations with
  | true, true => [[.code (js .webVitalsSetup ++ js .domMutationsSetup)]]
  | true, false => [[.code (js .webVitalsSetup)]]
  | false, true => [[.code (js .domMutationsSetup)]]
  | false, false => []

/-- `capture_property`. -/
def captureProperty (selector property : String) : Source :=
  [.code "(() => \x7b const el = document.querySelector(", .literal selector,
    .code ("); return el ? el." ++ property ++ " : null; \x7d)()")]

/-- A function of the program applied to the selector, or to `null`. -/
def applyToSelector (function : Builtin) (selector : Option String) : Source :=
  match selector with
  | some s => [.code (js function ++ "("), .literal s, .code ")"]
  | none => [.code (js function ++ "(null)")]

/-- The HTML of the element, or of the page. -/
def htmlSource : Source :=
  match req.captureElement with
  | some selector => captureProperty selector "outerHTML"
  | none => [.code (js .pageContent)]

/-- The `data` arm of the format stage. -/
def dataSource : Source :=
  match req.dataFormat with
  | .html => htmlSource js req
  -- `extract_text`
  | .text => applyToSelector js .textExtractor req.captureElement
  | .markdown =>
      -- `normalize_dom`
      if req.normalizeCustomElements then applyToSelector js .domNormalize req.captureElement
      else htmlSource js req

/-- A script of the program that is evaluated on request. -/
def onRequest (requested : Bool) (script : Builtin) : List Source :=
  if requested then [[.code (js script)]] else []

/-- The reads of the format stage. -/
def formatSources : List Source :=
  dataSource js req ::
    (onRequest js req.webVitals .webVitalsRead ++
      onRequest js req.domMutations .domMutationsRead ++
      onRequest js req.metadata .pageMetadata ++
      onRequest js req.renderBlocking .renderBlocking ++
      onRequest js req.serviceWorker .serviceWorker ++
      onRequest js req.imageSizing .imageSizing ++
      onRequest js req.resourceHints .resourceHints ++
      onRequest js req.fontAudit .fontAudit ++
      onRequest js req.securityScan .securityScan)

/-- The texts that a capture evaluates, in the order of its stages.  `wait_for_function` is
    evaluated until it is true; a stage that fails leaves out what comes after it. -/
def sources : List Source :=
  observersSetup js req ++
    (req.waitForFunction.toList.map (fun expression => [.code expression]) ++
      (req.script.toList.map (fun script => [.code script]) ++ formatSources js req))

end Request

/-! ## The literals -/

/-- A literal is one string token of the text it stands in, and its value is the selector. -/
theorem readString_literal (pre post : Source) (text : String) :
    ∃ token, render (pre ++ .literal text :: post) = render pre ++ '"' :: token ∧
      Lib.readString token = some (text.toList, render post) := by
  refine ⟨Lib.escape text.toList ++ '"' :: render post, ?_, Lib.readString_escape _ _⟩
  simp only [render, Piece.render, List.flatMap_append, List.flatMap_cons, List.cons_append,
    List.append_assoc, List.nil_append]

/-! ## The texts of the program -/

/-- The sources that the program makes of its own scripts and of the selector `capture`. -/
inductive OfProgram (js : Builtin → String) (capture : Option String) : Source → Prop where
  | script (b : Builtin) : OfProgram js capture [.code (js b)]
  | scripts (a b : Builtin) : OfProgram js capture [.code (js a ++ js b)]
  | property (selector : String) (h : capture = some selector) :
      OfProgram js capture (captureProperty selector "outerHTML")
  | apply (b : Builtin) : OfProgram js capture (applyToSelector js b capture)

/-- The only literal in them is the selector. -/
theorem OfProgram.literal {js : Builtin → String} {capture : Option String} {source : Source}
    (h : OfProgram js capture source) {text : String} (hmem : .literal text ∈ source) :
    capture = some text := by
  cases h with
  | script b => simp at hmem
  | scripts a b => simp at hmem
  | property selector hselector =>
      simp only [captureProperty, List.mem_cons, Piece.literal.injEq, List.not_mem_nil,
        reduceCtorEq, or_false, false_or] at hmem
      rw [hselector, hmem]
  | apply b =>
      cases capture with
      | none => simp [applyToSelector] at hmem
      | some selector =>
          simp only [applyToSelector, List.mem_cons, Piece.literal.injEq, List.not_mem_nil,
            reduceCtorEq, or_false, false_or] at hmem
          rw [hmem]

section OfProgram

variable (js : Builtin → String) (req : ScriptRequest)

theorem ofProgram_observersSetup :
    ∀ source ∈ observersSetup js req, OfProgram js req.captureElement source := by
  unfold observersSetup
  split
  · exact List.forall_mem_singleton.mpr (.scripts _ _)
  · exact List.forall_mem_singleton.mpr (.script _)
  · exact List.forall_mem_singleton.mpr (.script _)
  · exact List.forall_mem_nil _

theorem ofProgram_htmlSource : OfProgram js req.captureElement (htmlSource js req) := by
  unfold htmlSource
  split
  next selector hselector => exact .property selector hselector
  next => exact .script .pageContent

theorem ofProgram_dataSource : OfProgram js req.captureElement (dataSource js req) := by
  unfold dataSource
  split
  · exact ofProgram_htmlSource js req
  · exact .apply .textExtractor
  · split
    · exact .apply .domNormalize
    · exact ofProgram_htmlSource js req

theorem ofProgram_onRequest {capture : Option String} (requested : Bool) (b : Builtin) :
    ∀ source ∈ onRequest js requested b, OfProgram js capture source := by
  unfold onRequest
  split
  · exact List.forall_mem_singleton.mpr (.script b)
  · exact List.forall_mem_nil _

theorem ofProgram_formatSources :
    ∀ source ∈ formatSources js req, OfProgram js req.captureElement source := by
  simp only [formatSources, List.forall_mem_cons, List.forall_mem_append]
  refine ⟨ofProgram_dataSource js req, ?_⟩
  and_intros <;> exact ofProgram_onRequest js _ _

end OfProgram

/-! ## What the caller's texts change -/

/-- The request without the texts of the caller. -/
def ScriptRequest.blank (req : ScriptRequest) : ScriptRequest :=
  { req with
    waitForFunction := none
    script := none
    captureElement := req.captureElement.map fun _ => "" }

/-- The query without the texts of the caller; that there is an element to capture is not
    one of them. -/
def SummaryQuery.blank (q : SummaryQuery) : SummaryQuery :=
  { q with
    url := ""
    userAgent := none
    acceptLanguage := none
    cookie := none
    timezone := none
    locale := none
    headers := ∅
    blockUrls := []
    blockResourceTypes := []
    requestId := none
    waitForElement := none
    waitForFunction := none
    script := none
    captureElement := q.captureElement.map fun _ => ""
    waitForRequest := [] }

theorem scriptRequest_blank (q : SummaryQuery) : scriptRequest q.blank = (scriptRequest q).blank :=
  rfl

theorem normalize_blank (cfg : CaptureConfig) (q : SummaryQuery) :
    normalize cfg q.blank = (normalize cfg q).blank := by
  have hprofile : q.blank.profile = q.profile := rfl
  unfold normalize applyProfile
  rw [hprofile]
  split <;> rfl

section Blank

variable (js : Builtin → String) (req : ScriptRequest)

theorem observersSetup_blank : observersSetup js req.blank = observersSetup js req := rfl

theorem skeleton_htmlSource_blank :
    skeleton (htmlSource js req.blank) = skeleton (htmlSource js req) := by
  unfold htmlSource ScriptRequest.blank
  cases req.captureElement <;> rfl

theorem skeleton_applyToSelector_blank (b : Builtin) :
    skeleton (applyToSelector js b req.blank.captureElement) =
      skeleton (applyToSelector js b req.captureElement) := by
  unfold applyToSelector ScriptRequest.blank
  cases req.captureElement <;> rfl

theorem skeleton_dataSource_blank :
    skeleton (dataSource js req.blank) = skeleton (dataSource js req) := by
  have hformat : req.blank.dataFormat = req.dataFormat := rfl
  have hnormalize : req.blank.normalizeCustomElements = req.normalizeCustomElements := rfl
  unfold dataSource
  rw [hformat, hnormalize]
  split
  · exact skeleton_htmlSource_blank js req
  · exact skeleton_applyToSelector_blank js req .textExtractor
  · split
    · exact skeleton_applyToSelector_blank js req .domNormalize
    · exact skeleton_htmlSource_blank js req

theorem skeleton_formatSources_blank :
    (formatSources js req.blank).map skeleton = (formatSources js req).map skeleton := by
  rw [formatSources, formatSources, List.map_cons, List.map_cons, skeleton_dataSource_blank]
  rfl

/-- The expressions are told apart. -/
theorem skeleton_expression_inj {o o' : Option String} :
    (o.toList.map fun expression => [Piece.code expression]).map skeleton =
      (o'.toList.map fun expression => [Piece.code expression]).map skeleton ↔ o = o' := by
  cases o <;> cases o' <;> simp [skeleton]

end Blank

/-! ## Disabled scripts -/

/-- A source of the program has its selector as one string token. -/
theorem OfProgram.token {js : Builtin → String} {capture : Option String} {source : Source}
    (h : OfProgram js capture source) (pre : Source) (selector : String) (post : Source)
    (heq : source = pre ++ .literal selector :: post) :
    capture = some selector ∧
      ∃ token, render source = render pre ++ '"' :: token ∧
        Lib.readString token = some (selector.toList, render post) := by
  subst heq
  exact ⟨h.literal (List.mem_append_right pre List.mem_cons_self),
    readString_literal pre post selector⟩

section Disabled

variable (js : Builtin → String) {req : ScriptRequest}

theorem sources_of_script (h : req.script = none) :
    sources js req = observersSetup js req ++
      (req.waitForFunction.toList.map (fun expression => [.code expression]) ++
        formatSources js req) := by
  rw [sources, h]
  rfl

theorem ofProgram_or_expression (h : req.script = none) :
    ∀ source ∈ sources js req, OfProgram js req.captureElement source ∨
      ∃ expression, req.waitForFunction = some expression ∧ source = [.code expression] := by
  rw [sources_of_script js h]
  simp only [List.forall_mem_append, List.forall_mem_map, Option.mem_toList]
  refine ⟨fun source hsource => .inl (ofProgram_observersSetup js req source hsource), ?_,
    fun source hsource => .inl (ofProgram_formatSources js req source hsource)⟩
  intro expression hexpression
  exact .inr ⟨expression, hexpression, rfl⟩

/-- The skeletons of a request without a script. -/
theorem skeleton_sources (h : req.script = none) :
    (sources js req).map skeleton = (observersSetup js req.blank).map skeleton ++
      ((req.waitForFunction.toList.map fun expression => [Piece.code expression]).map skeleton ++
        (formatSources js req.blank).map skeleton) := by
  rw [sources_of_script js h, List.map_append, List.map_append, observersSetup_blank,
    skeleton_formatSources_blank]

theorem skeleton_sources_eq_iff {req' : ScriptRequest} (h : req.script = none)
    (h' : req'.script = none) (hblank : req.blank = req'.blank) :
    (sources js req).map skeleton = (sources js req').map skeleton ↔
      req.waitForFunction = req'.waitForFunction := by
  rw [skeleton_sources js h, skeleton_sources js h', hblank, List.append_cancel_left_eq,
    List.append_cancel_right_eq, skeleton_expression_inj]

end Disabled

/-- With scripts disabled, what a capture evaluates are scripts of the program, with the
    selector as a string token in them, and the expression of `wait_for_function`.  For
    queries that differ in the caller's texts alone it is the same up to these tokens if and
    only if they have the same expression. -/
theorem disabled_scripts (js : Builtin → String) {cfg : CaptureConfig} {ctx : CaptureCtx}
    {parse : UrlParser} {dns : Resolver} (hdisable : cfg.disableScript = true)
    {query q : SummaryQuery} (h : beforeCheckout cfg ctx parse dns query = .ok q) :
    (∀ source ∈ sources js (scriptRequest q),
      (OfProgram js query.captureElement source ∧
        ∀ pre selector post, source = pre ++ .literal selector :: post →
          query.captureElement = some selector ∧
            ∃ token, render source = render pre ++ '"' :: token ∧
              Lib.readString token = some (selector.toList, render post)) ∨
      ∃ expression, query.waitForFunction = some expression ∧ source = [.code expression]) ∧
    ∀ query' q', query.blank = query'.blank → beforeCheckout cfg ctx parse dns query' = .ok q' →
      ((sources js (scriptRequest q)).map skeleton =
          (sources js (scriptRequest q')).map skeleton ↔
        query.waitForFunction = query'.waitForFunction) := by
  have hscript : (scriptRequest q).script = none := beforeCheckout_script hdisable h
  obtain ⟨rfl, -⟩ := beforeCheckout_ok h
  have hcapture : (scriptRequest (normalize cfg query)).captureElement = query.captureElement :=
    normalize_captureElement cfg query
  have hwait (p : SummaryQuery) :
      (scriptRequest (normalize cfg p)).waitForFunction = p.waitForFunction :=
    normalize_waitForFunction cfg p
  constructor
  · intro source hsource
    have hform := ofProgram_or_expression js hscript source hsource
    rw [hcapture, hwait] at hform
    exact hform.imp_left fun hprogram => ⟨hprogram, hprogram.token⟩
  · intro query' q' hblank h'
    have hscript' : (scriptRequest q').script = none := beforeCheckout_script hdisable h'
    obtain ⟨rfl, -⟩ := beforeCheckout_ok h'
    have hrequest : (scriptRequest (normalize cfg query)).blank =
        (scriptRequest (normalize cfg query')).blank := by
      rw [← scriptRequest_blank, ← scriptRequest_blank, ← normalize_blank, ← normalize_blank,
        hblank]
    rw [skeleton_sources_eq_iff js hscript hscript' hrequest, hwait, hwait]

/-- `Url::parse` on the URL of the samples. -/
def parseSample : UrlParser := fun raw =>
  if raw = "https://example.com/" then .ok ⟨"https", some (.domain "example.com"), some 443⟩
  else .error "relative URL without a base"

/-- A public address for every host. -/
def resolveSample : Resolver := fun _ => .ok [.v4 ⟨93, 184, 216, 34⟩]

/-- A query for the element `a[title="x"]`, taken when the expression is true. -/
def waitingQuery (expression : String) : SummaryQuery :=
  { SummaryQuery.defaults 30000 with
    url := "https://example.com/"
    waitForFunction := some expression
    captureElement := some "a[title=\"x\"]" }

/-- With scripts disabled. -/
def lockedConfig : CaptureConfig := ⟨60000, 10000, true⟩

theorem waitingQuery_checkout (expression : String) :
    beforeCheckout lockedConfig ⟨false⟩ parseSample resolveSample (waitingQuery expression) =
      .ok (waitingQuery expression) := by rfl

/-- Two captures of the same element that wait for different expressions. -/
theorem disabled_scripts_waiting :
    (∀ source ∈ sources (fun _ => "") (scriptRequest (waitingQuery "window.ready")),
      OfProgram (fun _ => "") (some "a[title=\"x\"]") source ∨
        source = [.code "window.ready"]) ∧
    (sources (fun _ => "") (scriptRequest (waitingQuery "window.ready"))).map skeleton ≠
      (sources (fun _ => "") (scriptRequest (waitingQuery "window.done"))).map skeleton := by
  obtain ⟨hforms, hsame⟩ :=
    disabled_scripts (fun _ => "") (rfl : lockedConfig.disableScript = true)
      (waitingQuery_checkout "window.ready")
  constructor
  · intro source hsource
    rcases hforms source hsource with ⟨hprogram, -⟩ | ⟨expression, heq, hsource⟩
    · exact .inl hprogram
    · cases heq
      exact .inr hsource
  · intro hskeleton
    have heq := (hsame (waitingQuery "window.done") _ rfl (waitingQuery_checkout _)).mp hskeleton
    exact absurd heq (by decide)

/-- The expression is the caller's and is evaluated, with scripts disabled as without. -/
theorem disabled_scripts_expression :
    ¬ ∀ (js : Builtin → String) (cfg : CaptureConfig) (ctx : CaptureCtx) (parse : UrlParser)
        (dns : Resolver) (query q query' q' : SummaryQuery),
      cfg.disableScript = true → query.blank = query'.blank →
      beforeCheckout cfg ctx parse dns query = .ok q →
      beforeCheckout cfg ctx parse dns query' = .ok q' →
      (sources js (scriptRequest q)).map skeleton =
        (sources js (scriptRequest q')).map skeleton := by
  intro h
  have hskeleton := h (fun _ => "") lockedConfig ⟨false⟩ parseSample resolveSample
    (waitingQuery "window.ready") _ (waitingQuery "window.done") _ rfl rfl
    (waitingQuery_checkout _) (waitingQuery_checkout _)
  exact absurd hskeleton (by decide)

end Capture
end BrowserHeadless
