/-
  BrowserHeadless.Capture.Query

  `SummaryQuery` (src/capture.rs), the parameters of a capture, and its JSON form.

  `summaryFields` lists its fields in source order, each with the codec of its type
  and the key serde derives for it.  Every field has a default, so any object whose
  known keys have the right types is a query; a query whose floats are finite is
  read back as it was written (`SummaryQuery.decode_encode`).
-/

import BrowserHeadless.Lib.Record

namespace BrowserHeadless
namespace Capture

open Lib (Codec Field Json)

/-- `browser::DataFormat`. -/
inductive DataFormat where
  | html
  | markdown
  | text
deriving DecidableEq, Repr

/-- `ResponseFormat`. -/
inductive ResponseFormat where
  | json
  | markdown
deriving DecidableEq, Repr

/-- `browser::Lang`. -/
inductive Lang where
  | en
  | zh
deriving DecidableEq, Repr

/-- `CaptureProfile`. -/
inductive CaptureProfile where
  | content
  | scrape
  | audit
  | lighthouse
deriving DecidableEq, Repr

/-- `rename_all = "lowercase"`. -/
def DataFormat.name : DataFormat → String
  | html => "html"
  | markdown => "markdown"
  | text => "text"

def ResponseFormat.name : ResponseFormat → String
  | json => "json"
  | markdown => "markdown"

def Lang.name : Lang → String
  | en => "en"
  | zh => "zh"

def CaptureProfile.name : CaptureProfile → String
  | content => "content"
  | scrape => "scrape"
  | audit => "audit"
  | lighthouse => "lighthouse"

section Codecs

variable {ε : Type}

def DataFormat.codec : Codec ε DataFormat :=
  .variant [html, markdown, text] name (by rintro (_ | _ | _) <;> decide)

def ResponseFormat.codec : Codec ε ResponseFormat :=
  .variant [json, markdown] name (by rintro (_ | _) <;> decide)

def Lang.codec : Codec ε Lang :=
  .variant [en, zh] name (by rintro (_ | _) <;> decide)

def CaptureProfile.codec : Codec ε CaptureProfile :=
  .variant [content, scrape, audit, lighthouse] name (by rintro (_ | _ | _ | _) <;> decide)

def CaptureProfile.optionCodec : Codec ε (Option CaptureProfile) :=
  .option codec fun _ _ _ => Json.noConfusion

@[simp] theorem DataFormat.codec_valid (f : DataFormat) : (codec : Codec ε DataFormat).Valid f :=
  Codec.valid_variant f

@[simp] theorem ResponseFormat.codec_valid (f : ResponseFormat) :
    (codec : Codec ε ResponseFormat).Valid f := Codec.valid_variant f

@[simp] theorem Lang.codec_valid (l : Lang) : (codec : Codec ε Lang).Valid l :=
  Codec.valid_variant l

@[simp] theorem CaptureProfile.optionCodec_valid (p : Option CaptureProfile) :
    (optionCodec : Codec ε (Option CaptureProfile)).Valid p :=
  Codec.valid_option (fun q => Codec.valid_variant q) p

end Codecs

/-- `SummaryQuery`. -/
structure SummaryQuery where
  url : String
  timeoutMs : UInt64
  screenshot : Bool
  dataFormat : DataFormat
  normalizeCustomElements : Option Bool
  width : Option UInt32
  height : Option UInt32
  deviceScaleFactor : Option Lib.F64
  userAgent : Option String
  acceptLanguage : Option String
  cookie : Option String
  cpuThrottle : Option Lib.F64
  touch : Bool
  timezone : Option String
  locale : Option String
  latitude : Option Lib.F64
  longitude : Option Lib.F64
  accuracy : Option Lib.F64
  headers : Lib.HashMap String String
  blockUrls : List String
  blockResourceTypes : List String
  disableCache : Bool
  disableJavascript : Bool
  pdf : Bool
  har : Bool
  saveDomSnapshot : Bool
  webVitals : Bool
  metrics : Bool
  metadata : Bool
  renderBlocking : Bool
  serviceWorker : Bool
  initiators : Bool
  consoleMessages : Bool
  imageSizing : Bool
  domMutations : Bool
  resources : Bool
  httpErrors : Bool
  coverage : Bool
  resourceHints : Bool
  fontAudit : Bool
  cookies : Bool
  securityScan : Bool
  allMetrics : Bool
  contentOnly : Bool
  requestId : Option String
  waitForElement : Option String
  waitForFunction : Option String
  settleMs : Option UInt64
  script : Option String
  captureElement : Option String
  waitForRequest : List String
  waitUntilLoad : Bool
  format : ResponseFormat
  lang : Lang
  profile : Option CaptureProfile

namespace SummaryQuery

/-- The query of an empty object; `config::default_timeout_ms` is read from the
    environment. -/
def defaults (defaultTimeoutMs : UInt64) : SummaryQuery where
  url := ""
  timeoutMs := defaultTimeoutMs
  screenshot := false
  dataFormat := .html
  normalizeCustomElements := none
  width := none
  height := none
  deviceScaleFactor := none
  userAgent := none
  acceptLanguage := none
  cookie := none
  cpuThrottle := none
  touch := false
  timezone := none
  locale := none
  latitude := none
  longitude := none
  accuracy := none
  headers := ∅
  blockUrls := []
  blockResourceTypes := []
  disableCache := false
  disableJavascript := false
  pdf := false
  har := false
  saveDomSnapshot := false
  webVitals := false
  metrics := false
  metadata := false
  renderBlocking := false
  serviceWorker := false
  initiators := false
  consoleMessages := false
  imageSizing := false
  domMutations := false
  resources := false
  httpErrors := false
  coverage := false
  resourceHints := false
  fontAudit := false
  cookies := false
  securityScan := false
  allMetrics := false
  contentOnly := false
  requestId := none
  waitForElement := none
  waitForFunction := none
  settleMs := none
  script := none
  captureElement := none
  waitForRequest := []
  waitUntilLoad := false
  format := .json
  lang := .en
  profile := none

/-- The order in which a process visits the entries of `headers`. -/
abbrev HeaderOrder := Lib.HashMap.Order String String

/-- The fields, in the order of the source. -/
def summaryFields : List (Field HeaderOrder SummaryQuery) :=
  [
    .of "url" .string (·.url) fun q v => { q with url := v },
    .of "timeout_ms" .u64 (·.timeoutMs) fun q v => { q with timeoutMs := v },
    .of "screenshot" .bool (·.screenshot) fun q v => { q with screenshot := v },
    .of "data_format" DataFormat.codec (·.dataFormat) fun q v => { q with dataFormat := v },
    .of "normalize_custom_elements" .optionBool (·.normalizeCustomElements)
      fun q v => { q with normalizeCustomElements := v },
    .of "width" .optionU32 (·.width) fun q v => { q with width := v },
    .of "height" .optionU32 (·.height) fun q v => { q with height := v },
    .of "device_scale_factor" .optionF64 (·.deviceScaleFactor)
      fun q v => { q with deviceScaleFactor := v },
    .of "user_agent" .optionString (·.userAgent) fun q v => { q with userAgent := v },
    .of "accept_language" .optionString (·.acceptLanguage)
      fun q v => { q with acceptLanguage := v },
    .of "cookie" .optionString (·.cookie) fun q v => { q with cookie := v },
    .of "cpu_throttle" .optionF64 (·.cpuThrottle) fun q v => { q with cpuThrottle := v },
    .of "touch" .bool (·.touch) fun q v => { q with touch := v },
    .of "timezone" .optionString (·.timezone) fun q v => { q with timezone := v },
    .of "locale" .optionString (·.locale) fun q v => { q with locale := v },
    .of "latitude" .optionF64 (·.latitude) fun q v => { q with latitude := v },
    .of "longitude" .optionF64 (·.longitude) fun q v => { q with longitude := v },
    .of "accuracy" .optionF64 (·.accuracy) fun q v => { q with accuracy := v },
    .of "headers" (.hashMap id .string) (·.headers) fun q v => { q with headers := v },
    .of "block_urls" (.list .string) (·.blockUrls) fun q v => { q with blockUrls := v },
    .of "block_resource_types" (.list .string) (·.blockResourceTypes)
      fun q v => { q with blockResourceTypes := v },
    .of "disable_cache" .bool (·.disableCache) fun q v => { q with disableCache := v },
    .of "disable_javascript" .bool (·.disableJavascript)
      fun q v => { q with disableJavascript := v },
    .of "pdf" .bool (·.pdf) fun q v => { q with pdf := v },
    .of "har" .bool (·.har) fun q v => { q with har := v },
    .of "save_dom_snapshot" .bool (·.saveDomSnapshot) fun q v => { q with saveDomSnapshot := v },
    .of "web_vitals" .bool (·.webVitals) fun q v => { q with webVitals := v },
    .of "metrics" .bool (·.metrics) fun q v => { q with metrics := v },
    .of "metadata" .bool (·.metadata) fun q v => { q with metadata := v },
    .of "render_blocking" .bool (·.renderBlocking) fun q v => { q with renderBlocking := v },
    .of "service_worker" .bool (·.serviceWorker) fun q v => { q with serviceWorker := v },
    .of "initiators" .bool (·.initiators) fun q v => { q with initiators := v },
    .of "console_messages" .bool (·.consoleMessages) fun q v => { q with consoleMessages := v },
    .of "image_sizing" .bool (·.imageSizing) fun q v => { q with imageSizing := v },
    .of "dom_mutations" .bool (·.domMutations) fun q v => { q with domMutations := v },
    .of "resources" .bool (·.resources) fun q v => { q with resources := v },
    .of "http_errors" .bool (·.httpErrors) fun q v => { q with httpErrors := v },
    .of "coverage" .bool (·.coverage) fun q v => { q with coverage := v },
    .of "resource_hints" .bool (·.resourceHints) fun q v => { q with resourceHints := v },
    .of "font_audit" .bool (·.fontAudit) fun q v => { q with fontAudit := v },
    .of "cookies" .bool (·.cookies) fun q v => { q with cookies := v },
    .of "security_scan" .bool (·.securityScan) fun q v => { q with securityScan := v },
    .of "all_metrics" .bool (·.allMetrics) fun q v => { q with allMetrics := v },
    .of "content_only" .bool (·.contentOnly) fun q v => { q with contentOnly := v },
    .of "request_id" .optionString (·.requestId) fun q v => { q with requestId := v },
    .of "wait_for_element" .optionString (·.waitForElement)
      fun q v => { q with waitForElement := v },
    .of "wait_for_function" .optionString (·.waitForFunction)
      fun q v => { q with waitForFunction := v },
    .of "settle_ms" .optionU64 (·.settleMs) fun q v => { q with settleMs := v },
    .of "script" .optionString (·.script) fun q v => { q with script := v },
    .of "capture_element" .optionString (·.captureElement)
      fun q v => { q with captureElement := v },
    .of "wait_for_request" (.list .string) (·.waitForRequest)
      fun q v => { q with waitForRequest := v },
    .of "wait_until_load" .bool (·.waitUntilLoad) fun q v => { q with waitUntilLoad := v },
    .of "format" ResponseFormat.codec (·.format) fun q v => { q with format := v },
    .of "lang" Lang.codec (·.lang) fun q v => { q with lang := v },
    .of "profile" CaptureProfile.optionCodec (·.profile) fun q v => { q with profile := v }
  ]

/-- The entries written for a query. -/
def encode (order : HeaderOrder) (q : SummaryQuery) : List (String × Json) :=
  Lib.Record.encode summaryFields order q

/-- The query read from the entries of an object. -/
def decode (defaultTimeoutMs : UInt64) (entries : List (String × Json)) : Option SummaryQuery :=
  Lib.Record.decode summaryFields (defaults defaultTimeoutMs) entries

/-- The floats of a query have a JSON form. -/
def FiniteFloats (q : SummaryQuery) : Prop :=
  ∀ field ∈ [q.deviceScaleFactor, q.cpuThrottle, q.latitude, q.longitude, q.accuracy],
    field.all Lib.F64.isFinite = true

instance (q : SummaryQuery) : Decidable q.FiniteFloats := List.decidableBAll _ _

/-- No two fields share a key. -/
theorem summaryFields_nodup : (summaryFields.map (·.name)).Nodup := by decide

/-- Setting every field of any query to the values of `q` gives `q`. -/
theorem foldl_copy (q b : SummaryQuery) :
    summaryFields.foldl (fun acc f => f.copy q acc) b = q := by
  obtain ⟨⟩ := b
  obtain ⟨⟩ := q
  simp only [summaryFields, List.foldl_cons, List.foldl_nil, Field.of]

/-- All but the floats of a query survives in any case. -/
theorem FiniteFloats.valid {q : SummaryQuery} (h : q.FiniteFloats) :
    ∀ f ∈ summaryFields, f.Valid q := by
  simp only [FiniteFloats, List.forall_mem_cons] at h
  obtain ⟨hscale, hthrottle, hlatitude, hlongitude, haccuracy, -⟩ := h
  simp only [summaryFields, List.forall_mem_cons, Field.of]
  simpa using ⟨hscale, hthrottle, hlatitude, hlongitude, haccuracy⟩

/-- A query with finite floats is read back as it was written. -/
theorem decode_encode (defaultTimeoutMs : UInt64) (order : HeaderOrder) (q : SummaryQuery)
    (h : q.FiniteFloats) : decode defaultTimeoutMs (encode order q) = some q := by
  rw [decode, encode, Lib.Record.decode_encode summaryFields_nodup order _ h.valid, foldl_copy]

end SummaryQuery
end Capture
end BrowserHeadless
