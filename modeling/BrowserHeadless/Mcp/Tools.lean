/-
  BrowserHeadless.Mcp.Tools

  The tools of the MCP server (src/mcp.rs): the query that each makes of its arguments, the
  capture, and the result made of it.

  A tool writes a JSON object and has it read as a query, so it could be refused by its own
  reader; it also expects a capture of one kind.  Neither goes wrong: each object is read as
  the query that is meant (`decode_fields`), and a call is answered by a result of the tool,
  never by an error of the protocol (`callTool_answers`).  Only `page_audit` may have no answer:
  it counts itself as a success and then panics with `to_markdown`.
-/

import BrowserHeadless.Collect.Sooner
import BrowserHeadless.Mcp.Signals
import BrowserHeadless.Mcp.Text

namespace BrowserHeadless
namespace Mcp

open Capture
open Collect (Instant)
open Lib (Codec Json)

/-! ## The arguments -/

/-- `PageFormat`. -/
inductive PageFormat where
  | markdown
  | text
  | html
deriving DecidableEq, Repr

/-- `PageFormat::as_str`. -/
def PageFormat.asStr : PageFormat → String
  | markdown => "markdown"
  | text => "text"
  | html => "html"

/-- The format of a query. -/
def PageFormat.dataFormat : PageFormat → DataFormat
  | markdown => .markdown
  | text => .text
  | html => .html

/-- `AuditLang`. -/
inductive AuditLang where
  | en
  | zh
deriving DecidableEq, Repr

/-- `FetchPageArgs`. -/
structure FetchPageArgs where
  url : String
  format : Option PageFormat
  timeoutMs : Option UInt64
  waitForElement : Option String
  waitForNetworkIdle : Option Bool
  maxChars : Option UInt64

/-- `ScreenshotArgs`. -/
structure ScreenshotArgs where
  url : String
  width : Option UInt32
  height : Option UInt32
  timeoutMs : Option UInt64

/-- `PageAuditArgs`. -/
structure PageAuditArgs where
  url : String
  lang : Option AuditLang
  timeoutMs : Option UInt64

/-- `PageSignalsArgs`. -/
structure PageSignalsArgs where
  url : String
  timeoutMs : Option UInt64
  waitForNetworkIdle : Option Bool

/-! ## The object of each tool -/

/-- `if let Some(v) = value { fields[key] = json!(v) }`. -/
def optional {α : Type} (key : String) (value : Option α) (json : α → Json) :
    List (String × Json) :=
  (value.map fun v => (key, json v)).toList

/-- `timeout_ms`, when there is one. -/
def timeoutField (timeoutMs : Option UInt64) : List (String × Json) :=
  optional "timeout_ms" timeoutMs fun t => jsonInt t.toNat

/-- The object of `fetch_page`. -/
def FetchPageArgs.fields (args : FetchPageArgs) : List (String × Json) :=
  [("url", .str args.url),
    ("content_only", .bool true),
    ("data_format", .str (args.format.getD .markdown).asStr),
    ("wait_until_load", .bool (!args.waitForNetworkIdle.getD false))] ++
  timeoutField args.timeoutMs ++
  optional "wait_for_element" args.waitForElement .str

/-- The object of `page_signals`. -/
def PageSignalsArgs.fields (args : PageSignalsArgs) : List (String × Json) :=
  [("url", .str args.url),
    ("wait_until_load", .bool (!args.waitForNetworkIdle.getD false)),
    ("http_errors", .bool true),
    ("web_vitals", .bool true),
    ("metadata", .bool true),
    ("metrics", .bool true),
    ("data_format", .str "text")] ++
  timeoutField args.timeoutMs

/-- The object of `screenshot`. -/
def ScreenshotArgs.fields (args : ScreenshotArgs) : List (String × Json) :=
  [("url", .str args.url),
    ("screenshot", .bool true)] ++
  optional "width" args.width (fun w => jsonInt w.toNat) ++
  optional "height" args.height (fun h => jsonInt h.toNat) ++
  timeoutField args.timeoutMs

/-- The object of `page_audit`. -/
def PageAuditArgs.fields (args : PageAuditArgs) : List (String × Json) :=
  [("url", .str args.url),
    ("profile", .str "audit")] ++
  timeoutField args.timeoutMs

/-! ## The query of each tool -/

section

variable (dms : UInt64)

/-- The query that `fetch_page` is meant to make. -/
def FetchPageArgs.query (args : FetchPageArgs) : SummaryQuery :=
  { SummaryQuery.defaults dms with
    url := args.url
    timeoutMs := args.timeoutMs.getD dms
    contentOnly := true
    dataFormat := (args.format.getD .markdown).dataFormat
    waitUntilLoad := !args.waitForNetworkIdle.getD false
    waitForElement := args.waitForElement }

/-- The query that `page_signals` is meant to make. -/
def PageSignalsArgs.query (args : PageSignalsArgs) : SummaryQuery :=
  { SummaryQuery.defaults dms with
    url := args.url
    timeoutMs := args.timeoutMs.getD dms
    waitUntilLoad := !args.waitForNetworkIdle.getD false
    httpErrors := true
    webVitals := true
    metadata := true
    metrics := true
    dataFormat := .text }

/-- The query that `screenshot` is meant to make. -/
def ScreenshotArgs.query (args : ScreenshotArgs) : SummaryQuery :=
  { SummaryQuery.defaults dms with
    url := args.url
    timeoutMs := args.timeoutMs.getD dms
    screenshot := true
    width := args.width
    height := args.height }

/-- The query that `page_audit` is meant to make. -/
def PageAuditArgs.query (args : PageAuditArgs) : SummaryQuery :=
  { SummaryQuery.defaults dms with
    url := args.url
    timeoutMs := args.timeoutMs.getD dms
    profile := some .audit }

end

/-! ## Reading the object -/

/-- Reading one entry into a query. -/
def readField (q : SummaryQuery) (e : String × Json) : Option SummaryQuery :=
  Lib.Record.readEntry SummaryQuery.summaryFields q e

theorem summaryFields_optional : ∀ f ∈ SummaryQuery.summaryFields, f.required = false := by
  simp only [SummaryQuery.summaryFields, List.forall_mem_cons, Lib.Field.of, true_and]
  exact fun _ h => absurd h List.not_mem_nil

/-- An object with distinct keys is read entry by entry. -/
theorem decode_eq_foldlM {dms : UInt64} {entries : List (String × Json)}
    (hkeys : (entries.map Prod.fst).Nodup) :
    SummaryQuery.decode dms entries = entries.foldlM readField (SummaryQuery.defaults dms) :=
  Lib.Record.decode_eq_foldlM _ hkeys summaryFields_optional

theorem foldlM_append_of {entries rest : List (String × Json)} {q q' : SummaryQuery}
    (h : entries.foldlM readField q = some q') :
    (entries ++ rest).foldlM readField q = rest.foldlM readField q' := by
  rw [List.foldlM_append, h]
  rfl

/-- An entry that may be missing. -/
theorem foldlM_optional {α : Type} {q q' : SummaryQuery} {key : String} {value : Option α}
    {json : α → Json} (hnone : value = none → q' = q)
    (hsome : ∀ v, value = some v → readField q (key, json v) = some q') :
    (optional key value json).foldlM readField q = some q' := by
  cases value with
  | none => rw [hnone rfl]; rfl
  | some v =>
      show (readField q (key, json v)).bind _ = _
      rw [hsome v rfl]
      rfl

/-- The entry of a field, by the place of the field in the list. -/
theorem readField_at {i : Nat} {name : String} {α : Type}
    {c : Codec SummaryQuery.HeaderOrder α} {get : SummaryQuery → α}
    {set : SummaryQuery → α → SummaryQuery}
    (hfield : SummaryQuery.summaryFields[i]? = some (.of name c get set)) (q : SummaryQuery)
    {json : Json} {v : α} (hread : c.decode json = some v) :
    readField q (name, json) = some (set q v) := by
  have hname := Lib.Record.readEntry_name SummaryQuery.summaryFields_nodup
    (List.mem_of_getElem? hfield) q json
  refine hname.trans ?_
  show (c.decode json).map (set q) = some (set q v)
  rw [hread, Option.map_some]

/-- The first of some entries. -/
theorem foldlM_at {i : Nat} {name : String} {α : Type} {c : Codec SummaryQuery.HeaderOrder α}
    {get : SummaryQuery → α} {set : SummaryQuery → α → SummaryQuery}
    (hfield : SummaryQuery.summaryFields[i]? = some (.of name c get set)) {q : SummaryQuery}
    {json : Json} {v : α} (hread : c.decode json = some v) (rest : List (String × Json)) :
    ((name, json) :: rest).foldlM readField q = rest.foldlM readField (set q v) := by
  rw [List.foldlM_cons, readField_at hfield q hread]
  rfl

theorem optional_keys {α : Type} (key : String) (value : Option α) (json : α → Json) :
    ((optional key value json).map Prod.fst).Sublist [key] := by
  cases value with
  | none => exact List.nil_sublist [key]
  | some v => exact List.Sublist.refl [key]

theorem foldlM_timeoutField (q : SummaryQuery) (timeoutMs : Option UInt64) :
    (timeoutField timeoutMs).foldlM readField q =
      some { q with timeoutMs := timeoutMs.getD q.timeoutMs } := by
  refine foldlM_optional (fun hnone => ?_) fun t ht => ?_
  · rw [hnone]
    rfl
  · have hread := Codec.u64.decode_encode
      (Lib.HashMap.Order.arbitrary : SummaryQuery.HeaderOrder) t trivial
    rw [ht]
    exact readField_at (i := 1) rfl q hread

/-- A value that may be missing. -/
theorem foldlM_option {i : Nat} {name : String} {α : Type}
    {c : Codec SummaryQuery.HeaderOrder (Option α)} {get : SummaryQuery → Option α}
    {set : SummaryQuery → Option α → SummaryQuery}
    (hfield : SummaryQuery.summaryFields[i]? = some (.of name c get set)) {q : SummaryQuery}
    (hnone : set q none = q) (json : α → Json) (hread : ∀ v, c.decode (json v) = some (some v))
    (value : Option α) :
    (optional name value json).foldlM readField q = some (set q value) := by
  refine foldlM_optional (fun h => ?_) fun v hv => ?_
  · rw [h, hnone]
  · rw [hv]
    exact readField_at hfield q (hread v)

theorem decode_optionU32 (v : UInt32) :
    (Codec.optionU32 : Codec SummaryQuery.HeaderOrder (Option UInt32)).decode (jsonInt v.toNat) =
      some (some v) :=
  Codec.optionU32.decode_encode (Lib.HashMap.Order.arbitrary : SummaryQuery.HeaderOrder) (some v)
    (by simp)

/-- The name of a format is read as the format. -/
theorem PageFormat.decode_asStr (f : PageFormat) :
    (DataFormat.codec : Codec SummaryQuery.HeaderOrder DataFormat).decode (.str f.asStr) =
      some f.dataFormat := by
  have hread := DataFormat.codec.decode_encode
    (Lib.HashMap.Order.arbitrary : SummaryQuery.HeaderOrder) f.dataFormat (by simp)
  cases f <;> exact hread

theorem FetchPageArgs.decode_fields (dms : UInt64) (args : FetchPageArgs) :
    SummaryQuery.decode dms args.fields = some (args.query dms) := by
  have hkeys : (args.fields.map Prod.fst).Nodup := by
    refine List.Nodup.sublist ?_ (show (["url", "content_only", "data_format", "wait_until_load"] ++
      ["timeout_ms"] ++ ["wait_for_element"]).Nodup by decide)
    rw [FetchPageArgs.fields, List.map_append, List.map_append]
    exact ((List.Sublist.refl _).append (optional_keys _ _ _)).append (optional_keys _ _ _)
  have hformat := (args.format.getD .markdown).decode_asStr
  have hfixed : [("url", Json.str args.url), ("content_only", .bool true),
      ("data_format", .str (args.format.getD .markdown).asStr),
      ("wait_until_load", .bool (!args.waitForNetworkIdle.getD false))].foldlM readField
        (SummaryQuery.defaults dms) =
      some ({ args with timeoutMs := none, waitForElement := none }.query dms) := by
    rw [foldlM_at (i := 0) rfl rfl, foldlM_at (i := 43) rfl rfl, foldlM_at (i := 3) rfl hformat,
      foldlM_at (i := 51) rfl rfl, List.foldlM_nil]
    rfl
  have htimeout := (foldlM_append_of hfixed).trans (foldlM_timeoutField _ args.timeoutMs)
  have hwait := (foldlM_append_of htimeout).trans (foldlM_option (i := 45) rfl rfl
    Json.str (fun _ => rfl) args.waitForElement)
  rw [decode_eq_foldlM hkeys, FetchPageArgs.fields, hwait]
  rfl

theorem PageSignalsArgs.decode_fields (dms : UInt64) (args : PageSignalsArgs) :
    SummaryQuery.decode dms args.fields = some (args.query dms) := by
  have hkeys : (args.fields.map Prod.fst).Nodup := by
    refine List.Nodup.sublist ?_ (show (["url", "wait_until_load", "http_errors", "web_vitals",
      "metadata", "metrics", "data_format"] ++ ["timeout_ms"]).Nodup by decide)
    rw [PageSignalsArgs.fields, List.map_append]
    exact (List.Sublist.refl _).append (optional_keys _ _ _)
  have hload : [("url", Json.str args.url),
      ("wait_until_load", .bool (!args.waitForNetworkIdle.getD false)),
      ("http_errors", .bool true), ("web_vitals", .bool true)].foldlM readField
        (SummaryQuery.defaults dms) =
      some { SummaryQuery.defaults dms with
        url := args.url
        waitUntilLoad := !args.waitForNetworkIdle.getD false
        httpErrors := true
        webVitals := true } := by
    rw [foldlM_at (i := 0) rfl rfl, foldlM_at (i := 51) rfl rfl, foldlM_at (i := 36) rfl rfl,
      foldlM_at (i := 26) rfl rfl, List.foldlM_nil]
    rfl
  have hfixed : [("url", Json.str args.url),
      ("wait_until_load", .bool (!args.waitForNetworkIdle.getD false)),
      ("http_errors", .bool true), ("web_vitals", .bool true), ("metadata", .bool true),
      ("metrics", .bool true), ("data_format", .str "text")].foldlM readField
        (SummaryQuery.defaults dms) =
      some ({ args with timeoutMs := none }.query dms) := by
    have hformat : (DataFormat.codec : Codec SummaryQuery.HeaderOrder _).decode (.str "text") =
        some .text := PageFormat.text.decode_asStr
    refine (foldlM_append_of hload).trans ?_
    rw [foldlM_at (i := 28) rfl rfl, foldlM_at (i := 27) rfl rfl,
      foldlM_at (i := 3) rfl hformat, List.foldlM_nil]
    rfl
  rw [decode_eq_foldlM hkeys, PageSignalsArgs.fields, foldlM_append_of hfixed, foldlM_timeoutField]
  rfl

theorem ScreenshotArgs.decode_fields (dms : UInt64) (args : ScreenshotArgs) :
    SummaryQuery.decode dms args.fields = some (args.query dms) := by
  have hkeys : (args.fields.map Prod.fst).Nodup := by
    refine List.Nodup.sublist ?_ (show (["url", "screenshot"] ++ ["width"] ++ ["height"] ++
      ["timeout_ms"]).Nodup by decide)
    rw [ScreenshotArgs.fields, List.map_append, List.map_append, List.map_append]
    exact (((List.Sublist.refl _).append (optional_keys _ _ _)).append
      (optional_keys _ _ _)).append (optional_keys _ _ _)
  have hfixed : [("url", Json.str args.url), ("screenshot", .bool true)].foldlM readField
        (SummaryQuery.defaults dms) =
      some ({ args with width := none, height := none, timeoutMs := none }.query dms) := by
    rw [foldlM_at (i := 0) rfl rfl, foldlM_at (i := 2) rfl rfl, List.foldlM_nil]
    rfl
  have hwidth := (foldlM_append_of hfixed).trans (foldlM_option (i := 5) rfl rfl _
    decode_optionU32 args.width)
  have hheight := (foldlM_append_of hwidth).trans (foldlM_option (i := 6) rfl rfl _
    decode_optionU32 args.height)
  rw [decode_eq_foldlM hkeys, ScreenshotArgs.fields, foldlM_append_of hheight, foldlM_timeoutField]
  rfl

theorem PageAuditArgs.decode_fields (dms : UInt64) (args : PageAuditArgs) :
    SummaryQuery.decode dms args.fields = some (args.query dms) := by
  have hkeys : (args.fields.map Prod.fst).Nodup := by
    refine List.Nodup.sublist ?_ (show (["url", "profile"] ++ ["timeout_ms"]).Nodup by decide)
    rw [PageAuditArgs.fields, List.map_append]
    exact (List.Sublist.refl _).append (optional_keys _ _ _)
  have hprofile : (CaptureProfile.optionCodec : Codec SummaryQuery.HeaderOrder _).decode
      (.str "audit") = some (some .audit) :=
    CaptureProfile.optionCodec.decode_encode
      (Lib.HashMap.Order.arbitrary : SummaryQuery.HeaderOrder) (some .audit) (by simp)
  have hfixed : [("url", Json.str args.url), ("profile", .str "audit")].foldlM readField
        (SummaryQuery.defaults dms) =
      some ({ args with timeoutMs := none }.query dms) := by
    rw [foldlM_at (i := 0) rfl rfl, foldlM_at (i := 54) rfl hprofile, List.foldlM_nil]
    rfl
  rw [decode_eq_foldlM hkeys, PageAuditArgs.fields, foldlM_append_of hfixed, foldlM_timeoutField]
  rfl

/-! ## What a tool returns -/

/-- `ContentBlock`; an image is its data and its MIME type. -/
inductive ContentBlock where
  | text (text : String)
  | image (data mimeType : String)
deriving DecidableEq, Repr

/-- `CallToolResult`. -/
structure CallToolResult where
  isError : Bool
  content : List ContentBlock
deriving DecidableEq, Repr

/-- `CallToolResult::success`. -/
def CallToolResult.success (content : List ContentBlock) : CallToolResult := ⟨false, content⟩

/-- `CallToolResult::error`. -/
def CallToolResult.error (content : List ContentBlock) : CallToolResult := ⟨true, content⟩

/-- An internal error of the protocol: `ErrorData::internal_error`. -/
structure ErrorData where
  message : String
deriving DecidableEq, Repr

/-- The outcome that `record_mcp_tool` counts. -/
inductive Outcome where
  | ok
  | error
  | rateLimited
deriving DecidableEq, Repr

/-- The end of a tool call: what it returns, if it does not panic, and what it has recorded on
    the way. -/
structure Answer where
  result : Option (Except ErrorData CallToolResult)
  recorded : Option Outcome

/-- The error of `check_rate`. -/
def rateLimited : CallToolResult := .error [.text "rate limit exceeded (HTTP 429): retry later"]

/-- `build_query`; what serde has to say about the object is left out of the message. -/
def buildQuery (dms : UInt64) (fields : List (String × Json)) : Except ErrorData SummaryQuery :=
  match SummaryQuery.decode dms fields with
  | some q => .ok q
  | none => .error ⟨"failed to build capture query"⟩

/-- `capture_error`. -/
def captureError (e : CaptureError) : CallToolResult :=
  .error [.text ("capture failed (HTTP " ++ toString e.statusU16 ++ "): " ++ e.message)]

section

variable {V : Type} (render : Renderers V)

/-! ## The tools -/

/-- A tool that returns a result. -/
def Answer.returned (result : CallToolResult) (outcome : Outcome) : Answer :=
  ⟨some (.ok result), some outcome⟩

/-- What a tool does with the end of its capture. -/
def respond (unexpected : String) (expected : Captured V → Option Answer) :
    Except CaptureError (Captured V) → Answer
  | .ok captured => (expected captured).getD ⟨some (.error ⟨unexpected⟩), some .error⟩
  | .error e => .returned (captureError e) .error

/-- The success of a tool. -/
def success (block : ContentBlock) : Answer := .returned (.success [block]) .ok

/-- `fetch_page`, from the capture on. -/
def FetchPageArgs.respond (args : FetchPageArgs) : Except CaptureError (Captured V) → Answer :=
  Mcp.respond "unexpected full capture result for content-only query" fun
    | .content c =>
        some (success (.text (formatFetchPageResult args.url c (resolveMaxChars args.maxChars))))
    | .full _ => none

/-- `page_signals`, from the capture on. -/
def PageSignalsArgs.respond (args : PageSignalsArgs) : Except CaptureError (Captured V) → Answer :=
  Mcp.respond "unexpected content-only result for page_signals query" fun
    | .full stat =>
        some (success (.text (render.pretty (buildPageSignalsJson render args.url stat))))
    | .content _ => none

/-- `screenshot`, from the capture on. -/
def ScreenshotArgs.respond (_args : ScreenshotArgs) : Except CaptureError (Captured V) → Answer :=
  Mcp.respond "unexpected content-only result for screenshot query" fun
    | .full stat =>
        match stat.screenshot with
        | some shot => some (success (.image (render.shot shot).1 (render.shot shot).2))
        | none =>
            some (.returned (.error [.text "page loaded but no screenshot was produced"]) .error)
    | .content _ => none

/-- The language of the report. -/
def AuditLang.lang : AuditLang → Lang
  | en => .en
  | zh => .zh

/-- The audit of a report, with a pointer to the right tool in place of the body. -/
def PageAuditArgs.audit (args : PageAuditArgs) (stat : WebPageStat V) : Option String :=
  render.toMarkdown (args.lang.getD .en).lang { stat with
    data := "(omitted — use fetch_page for content; use page_signals for compact JSON health)" }

/-- `page_audit`, from the capture on; the success is recorded before `to_markdown` is called. -/
def PageAuditArgs.respond (args : PageAuditArgs) : Except CaptureError (Captured V) → Answer :=
  Mcp.respond "unexpected content-only result for audit query" fun
    | .full stat =>
        some ⟨(args.audit render stat).map fun text => .ok (.success [.text text]), some .ok⟩
    | .content _ => none

/-- A call of one of the tools. -/
inductive ToolCall where
  | fetchPage (args : FetchPageArgs)
  | pageSignals (args : PageSignalsArgs)
  | screenshot (args : ScreenshotArgs)
  | pageAudit (args : PageAuditArgs)

/-- The object that a call makes. -/
def ToolCall.fields : ToolCall → List (String × Json)
  | fetchPage args => args.fields
  | pageSignals args => args.fields
  | screenshot args => args.fields
  | pageAudit args => args.fields

/-- What a call does with the end of its capture. -/
def ToolCall.respond : ToolCall → Except CaptureError (Captured V) → Answer
  | fetchPage args => args.respond
  | pageSignals args => args.respond render
  | screenshot args => args.respond render
  | pageAudit args => args.respond render

/-- A tool call: the rate limit, the query, the capture and the answer, with when it comes. -/
def callTool (dms : UInt64)
    (capture : SummaryQuery → Option (Except CaptureError (Captured V) × Instant))
    (allowed : Bool) (call : ToolCall) : Option (Answer × Instant) :=
  if !allowed then some (.returned rateLimited .rateLimited, 0)
  else
    match buildQuery dms call.fields with
    -- nothing is recorded then
    | .error e => some (⟨some (.error e), none⟩, 0)
    | .ok q => (capture q).map fun (captured, t) => (call.respond render captured, t)

end

/-! ## Every call is answered -/

/-- The query that a call is meant to make. -/
def ToolCall.query (dms : UInt64) : ToolCall → SummaryQuery
  | fetchPage args => args.query dms
  | pageSignals args => args.query dms
  | screenshot args => args.query dms
  | pageAudit args => args.query dms

/-- No object is refused. -/
theorem buildQuery_fields (dms : UInt64) (call : ToolCall) :
    buildQuery dms call.fields = .ok (call.query dms) := by
  have hdecode : SummaryQuery.decode dms call.fields = some (call.query dms) := by
    cases call with
    | fetchPage args => exact args.decode_fields dms
    | pageSignals args => exact args.decode_fields dms
    | screenshot args => exact args.decode_fields dms
    | pageAudit args => exact args.decode_fields dms
  rw [buildQuery, hdecode]

/-- The answer of a tool: one block, an error unless the outcome is a success, counted once. -/
def Answer.of (outcome : Outcome) (block : ContentBlock) : Answer :=
  .returned ⟨decide (outcome ≠ .ok), [block]⟩ outcome

section

variable {V : Type} (render : Renderers V) {limits : CaptureLimits} {ctx : CaptureCtx}
  {parse : Ssrf.UrlParser} {lower : String → String}
  {parseUrl : String → Option Collect.ParsedUrl}

/-- The call is a `page_audit` of a report on which `to_markdown` panics. -/
def AuditPanics (call : ToolCall) (c : Captured V) : Prop :=
  ∃ args stat, call = .pageAudit args ∧ c = .full stat ∧ args.audit render stat = none

theorem not_auditPanics {call : ToolCall} (h : ∀ args, call ≠ .pageAudit args) (c : Captured V) :
    ¬ AuditPanics render call c := by
  rintro ⟨args, stat, hcall, -⟩
  exact h args hcall

/-- The tool that made a query is ready for the capture that it ends with. -/
theorem respond_ok {dms : UInt64} {call : ToolCall} {w : Surroundings V} {checkoutWait : UInt64}
    {c : Captured V} {t : Instant}
    (h : captureOneUnmetered limits ctx parse lower parseUrl w (call.query dms) checkoutWait =
      some (.ok c, t)) :
    (¬ AuditPanics render call c ∧ ∃ block, call.respond render (.ok c) = .of .ok block) ∨
      (AuditPanics render call c ∧ call.respond render (.ok c) = ⟨none, some .ok⟩) := by
  have hkind := captureOneUnmetered_isFor h
  cases call with
  | fetchPage args =>
      obtain ⟨body, rfl, -⟩ := hkind.content rfl
      exact Or.inl ⟨not_auditPanics render (fun _ h => by cases h) _, _, rfl⟩
  | pageSignals args =>
      obtain ⟨stat, rfl⟩ := hkind.full rfl
      exact Or.inl ⟨not_auditPanics render (fun _ h => by cases h) _, _, rfl⟩
  | screenshot args =>
      obtain ⟨stat, hcapture, rfl⟩ := captureOneUnmetered_ok h
      obtain ⟨shot, hshot⟩ := Option.isSome_iff_exists.mp (capture_screenshot rfl rfl hcapture)
      have hrespond : args.respond render (.ok (.full stat)) =
          .of .ok (.image (render.shot shot).1 (render.shot shot).2) := by
        simp only [ScreenshotArgs.respond, Mcp.respond, hshot]
        rfl
      exact Or.inl ⟨not_auditPanics render (fun _ h => by cases h) _, _, hrespond⟩
  | pageAudit args =>
      obtain ⟨stat, rfl⟩ := hkind.full rfl
      have hrespond : args.respond render (.ok (.full stat)) =
        ⟨(args.audit render stat).map fun text => .ok (.success [.text text]), some .ok⟩ := rfl
      -- the success is recorded whether or not there is a text
      cases haudit : args.audit render stat with
      | none =>
          rw [haudit] at hrespond
          exact Or.inr ⟨⟨args, stat, rfl, rfl, haudit⟩, hrespond⟩
      | some text =>
          rw [haudit] at hrespond
          refine Or.inl ⟨?_, _, hrespond⟩
          rintro ⟨args', stat', hargs, hstat, hnone⟩
          cases hargs
          cases hstat
          rw [haudit] at hnone
          cases hnone

theorem respond_error (call : ToolCall) (e : CaptureError) :
    ∃ block, call.respond render (.error e) = .of .error block := by
  cases call <;> exact ⟨_, rfl⟩

/-- Every tool call ends, in time, whatever its arguments and whatever the pool and the browser
    do.  It is answered by a result of the tool, but for a `page_audit` of a report on which
    `to_markdown` panics: the errors of the protocol that the source prepares for cannot come
    up.  The result is an error exactly when the rate limit or the capture refused, and the
    call is counted once, as what it came to. -/
theorem callTool_answers (limits : CaptureLimits) (ctx : CaptureCtx) (parse : Ssrf.UrlParser)
    (lower : String → String) (parseUrl : String → Option Collect.ParsedUrl) (w : Surroundings V)
    (hwait : limits.checkoutWaitMs ≠ 0) (dms : UInt64) (allowed : Bool) (call : ToolCall) :
    ∃ answer outcome t,
      callTool render dms (captureOne limits ctx parse lower parseUrl w) allowed call =
        some (answer, t) ∧
      answer.recorded = some outcome ∧
      (answer.result = none ↔ allowed = true ∧ ∃ c t', AuditPanics render call c ∧
        captureOne limits ctx parse lower parseUrl w (call.query dms) = some (.ok c, t')) ∧
      (answer.result ≠ none → ∃ block, answer = .of outcome block) ∧
      (outcome = .rateLimited ↔ allowed = false) ∧
      (outcome = .error ↔ allowed = true ∧ ∃ e t',
        captureOne limits ctx parse lower parseUrl w (call.query dms) = some (.error e, t')) ∧
      (limits.maxTimeoutMs ≠ 0 → t ≤ w.dnsTime + fromMillis limits.checkoutWaitMs.toNat +
        (fromMillis limits.maxTimeoutMs.toNat + fromMillis limits.deadlineBufferMs.toNat)) := by
  cases allowed with
  | false =>
      exact ⟨_, .rateLimited, 0, rfl, rfl, iff_of_false nofun (by simp), fun _ => ⟨_, rfl⟩,
        iff_of_true rfl rfl, by simp, fun _ => Nat.zero_le _⟩
  | true =>
      obtain ⟨answer, t, h, htime⟩ := captureOneUnmetered_time limits ctx parse lower parseUrl w
        (call.query dms) hwait
      have hone : captureOne limits ctx parse lower parseUrl w (call.query dms) =
        some (answer, t) := h
      have hcall : callTool render dms (captureOne limits ctx parse lower parseUrl w) true call =
          some (call.respond render answer, t) := by
        simp only [callTool, buildQuery_fields, hone]
        rfl
      rw [hcall, hone]
      cases answer with
      | ok c =>
          have herror : Outcome.ok = .error ↔ true = true ∧ ∃ e t',
              some ((.ok c : Except CaptureError (Captured V)), t) = some (.error e, t') :=
            iff_of_false nofun fun ⟨_, _, _, hnone⟩ => by cases hnone
          -- the capture is of the kind that the tool expects, so only a panic is left
          rcases respond_ok render h with ⟨hfine, block, hblock⟩ | ⟨hpanic, hblock⟩
          · refine ⟨_, .ok, t, rfl, by rw [hblock]; rfl, ?_, fun _ => ⟨block, hblock⟩,
              iff_of_false nofun nofun, herror, htime⟩
            rw [hblock]
            refine iff_of_false nofun ?_
            rintro ⟨-, c', t', hpanic, hc⟩
            cases hc
            exact hfine hpanic
          · refine ⟨_, .ok, t, rfl, by rw [hblock], ?_, fun hsome => ?_,
              iff_of_false nofun nofun, herror, htime⟩
            · rw [hblock]
              exact iff_of_true rfl ⟨rfl, c, t, hpanic, rfl⟩
            · rw [hblock] at hsome
              exact absurd rfl hsome
      | error e =>
          obtain ⟨block, hblock⟩ := respond_error render call e
          refine ⟨_, .error, t, rfl, by rw [hblock]; rfl, ?_, fun _ => ⟨block, hblock⟩,
            iff_of_false nofun nofun, iff_of_true rfl ⟨rfl, e, t, rfl⟩, htime⟩
          rw [hblock]
          refine iff_of_false nofun ?_
          rintro ⟨-, c, t', -, hc⟩
          cases hc

/-- Values shown as nothing. -/
def silent : Renderers Unit where
  vitals := fun _ => .null
  metadata := fun _ => .null
  shot := fun _ => ("", "image/png")
  pretty := fun _ => ""
  toMarkdown := fun _ _ => some ""

/-- An audit of the sample URL. -/
def sampleAudit : ToolCall := .pageAudit ⟨"https://example.com/", some .zh, none⟩

/-- With a pool that is saturated the tool reports an error within 165 s at the latest. -/
theorem callTool_answers_dead :
    ∃ block t,
      callTool silent 30000
          (captureOne defaultLimits ⟨false⟩ Ssrf.sampleParser id (fun _ => none) deadSurroundings)
          true sampleAudit = some (.of .error block, t) ∧
      t ≤ fromMillis 5 + fromMillis 30000 + (fromMillis 120000 + fromMillis 10000) := by
  obtain ⟨answer, outcome, t, h, -, hpanic, hblock, -, herror, htime⟩ := callTool_answers silent
    defaultLimits ⟨false⟩ Ssrf.sampleParser id (fun _ => none) deadSurroundings (by decide) 30000
    true sampleAudit
  have hbusy : ∃ e t', captureOne defaultLimits ⟨false⟩ Ssrf.sampleParser id (fun _ => none)
      deadSurroundings (sampleAudit.query 30000) = some (.error e, t') := ⟨_, _, rfl⟩
  have hanswered : answer.result ≠ none := by
    intro hnone
    obtain ⟨-, c, t', -, hc⟩ := hpanic.mp hnone
    obtain ⟨e, t'', he⟩ := hbusy
    rw [he] at hc
    cases hc
  obtain ⟨block, rfl⟩ := hblock hanswered
  obtain rfl := herror.mpr ⟨rfl, hbusy⟩
  exact ⟨block, t, h, htime (by decide)⟩

/-! ## `page_signals` -/

/-- A call that is let through makes its capture and answers with its end. -/
theorem callTool_allowed (dms : UInt64)
    (capture : SummaryQuery → Option (Except CaptureError (Captured V) × Instant))
    (call : ToolCall) :
    callTool render dms capture true call =
      (capture (call.query dms)).map fun r => (call.respond render r.1, r.2) := by
  simp only [callTool, buildQuery_fields]
  rfl

/-- Reports that show the same are answered in the same way. -/
theorem respond_pageSignals (args : PageSignalsArgs) {a a' : Except CaptureError (WebPageStat V)}
    (h : seen <$> a = seen <$> a') :
    args.respond render (Captured.full <$> a) = args.respond render (Captured.full <$> a') := by
  cases a with
  | error e =>
      cases a' with
      | error e' =>
          rw [Except.error.inj h]
      | ok stat' => cases h
  | ok stat =>
      cases a' with
      | error e' => cases h
      | ok stat' =>
          have hjson := buildPageSignalsJson_congr render args.url (Except.ok.inj h)
          exact congrArg (fun json =>
            success (.text (render.pretty json))) hjson

variable (limits ctx lower parseUrl) in
/-- Two full captures of one page, with different orders of the hash maps, end at the same time
    with reports that show the same. -/
theorem captureUnderDeadline_orders (w : Surroundings V) (o' : MapOrders) {q : SummaryQuery}
    (hq : q.contentOnly = false) :
    ∃ (a a' : Except CaptureError (WebPageStat V)) (t : Instant),
      captureUnderDeadline limits ctx lower parseUrl w q = (Captured.full <$> a, t) ∧
      captureUnderDeadline limits ctx lower parseUrl { w with orders := o' } q =
        (Captured.full <$> a', t) ∧ seen <$> a = seen <$> a' := by
  have hseen := seen_capture w.orders o' lower parseUrl w.page (toRequest ctx w.headerOrder q)
  have hshape : ∀ stat : WebPageStat V, shape q.contentOnly q.url stat = .full stat := by
    intro stat
    rw [shape, hq]
    rfl
  simp only [captureUnderDeadline, hshape]
  cases w.captureTime (toRequest ctx w.headerOrder q) with
  | none => exact ⟨.error _, .error _, _, rfl, rfl, rfl⟩
  | some t =>
      simp only [Option.map_some, timeoutAfter]
      by_cases hle : t ≤ totalDeadline limits q
      · rw [if_pos hle, if_pos hle]
        cases h : capture w.orders lower parseUrl w.page (toRequest ctx w.headerOrder q) with
        | error e =>
            cases h' : capture o' lower parseUrl w.page (toRequest ctx w.headerOrder q) with
            | error e' =>
                rw [h, h'] at hseen
                rw [Except.error.inj hseen]
                exact ⟨.error _, .error _, t, rfl, rfl, rfl⟩
            | ok stat' =>
                rw [h, h'] at hseen
                cases hseen
        | ok stat =>
            cases h' : capture o' lower parseUrl w.page (toRequest ctx w.headerOrder q) with
            | error e' =>
                rw [h, h'] at hseen
                cases hseen
            | ok stat' =>
                rw [h, h'] at hseen
                exact ⟨.ok stat, .ok stat', t, rfl, rfl, congrArg Except.ok (Except.ok.inj hseen)⟩
      · rw [if_neg hle, if_neg hle]
        exact ⟨.error _, .error _, _, rfl, rfl, rfl⟩

/-- The answer of `page_signals` is decided by the page: the orders in which the hash maps of
    the process happen to be iterated cannot be seen in it. -/
theorem callTool_pageSignals_orders (w : Surroundings V) (o' : MapOrders) (dms : UInt64)
    (allowed : Bool) (args : PageSignalsArgs) :
    callTool render dms (captureOne limits ctx parse lower parseUrl w) allowed
        (.pageSignals args) =
      callTool render dms (captureOne limits ctx parse lower parseUrl { w with orders := o' })
        allowed (.pageSignals args) := by
  cases allowed with
  | false => rfl
  | true =>
      rw [callTool_allowed, callTool_allowed]
      simp only [captureOne, captureOneUnmetered]
      cases hq : beforeCheckout limits.toCaptureConfig ctx parse w.dns
        ((ToolCall.pageSignals args).query dms) with
      | error e => rfl
      | ok q =>
          obtain ⟨rfl, -⟩ := beforeCheckout_ok hq
          have hslot : acquire limits.checkoutWaitMs { w with orders := o' } =
            acquire limits.checkoutWaitMs w := rfl
          dsimp only
          rw [hslot]
          cases acquire limits.checkoutWaitMs w with
          | none => rfl
          | some slot =>
              obtain ⟨r, t⟩ := slot
              cases r with
              | error e => rfl
              | ok u =>
                  obtain ⟨a, a', t', h, h', hseen⟩ := captureUnderDeadline_orders
                    limits ctx lower parseUrl w o'
                    (normalize_contentOnly limits.toCaptureConfig
                      ((ToolCall.pageSignals args).query dms))
                  dsimp only
                  rw [h, h']
                  exact congrArg (fun answer => some (answer, lookupTime limits ctx parse w _ + t + t'))
                    (respond_pageSignals render args hseen)

/-- What `page_signals` reports of a page is what its run came to: the status of the document,
    the counts of failures, and whether all is well. -/
theorem callTool_pageSignals_run {w : Surroundings V} {dms : UInt64} {args : PageSignalsArgs}
    {result : CallToolResult} {t : Instant}
    (h : callTool render dms (captureOne limits ctx parse lower parseUrl w) true
      (.pageSignals args) = some (.returned result .ok, t)) :
    ∃ stat s exit,
      result = .success [.text (render.pretty (buildPageSignalsJson render args.url stat))] ∧
      Collect.FullLoop.collect { httpErrors := true, resourceHeaders := true } parseUrl args.url []
        (!args.waitForNetworkIdle.getD false)
        (fromMillis (clampTimeoutMs limits.maxTimeoutMs (args.timeoutMs.getD dms)).toNat)
        w.page.timerWins w.page.timeline = .ok (s, exit) ∧
      httpStatus stat = (s.documentTiming.map (·.status)).getD 0 ∧
      failures (·.failed4xx) stat =
        Multiset.card (Collect.FullLoop.failedRequests s 400 500) % 2 ^ 32 ∧
      failures (·.networkFailures) stat = s.httpNetworkFailures.length % 2 ^ 32 ∧
      (healthy stat = true ↔ (∃ dt, s.documentTiming = some dt ∧ 200 ≤ dt.status ∧
          dt.status < 400) ∧
        2 ^ 32 ∣ Multiset.card (Collect.FullLoop.failedRequests s 500 600)) := by
  rw [callTool_allowed] at h
  obtain ⟨⟨answer, t'⟩, hcapture, hanswer⟩ := Option.map_eq_some_iff.mp h
  have hanswer := (Prod.mk.inj hanswer).1
  cases answer with
  | error e => cases hanswer
  | ok c =>
      obtain ⟨stat, hstat, rfl⟩ := captureOneUnmetered_ok hcapture
      obtain ⟨s, exit, hcollect, htiming, h4xx, h5xx, hnetwork⟩ := failures_capture rfl rfl hstat
      have hstatus : httpStatus stat = (s.documentTiming.map (·.status)).getD 0 := by
        rw [httpStatus, htiming]
      refine ⟨stat, s, exit, ?_, hcollect, hstatus, h4xx, hnetwork, ?_⟩
      · exact (Except.ok.inj (Option.some.inj (Answer.mk.inj hanswer).1)).symm
      · rw [healthy, decide_eq_true_iff, hstatus, h5xx, Nat.dvd_iff_mod_eq_zero, ← and_assoc]
        refine and_congr_left fun _ => ?_
        cases s.documentTiming with
        | none => simp
        | some dt => simp

/-- The numbers and the truth values of an object. -/
def terse : Renderers Unit :=
  { silent with
    pretty := fun json =>
      match json with
      | .obj entries => String.intercalate "," (entries.filterMap fun e =>
          match e.2 with
          | .num (.int n) => some (e.1 ++ "=" ++ toString n)
          | .bool b => some (e.1 ++ "=" ++ toString b)
          | _ => none)
      | _ => "" }

/-- The document came with a 200, one script was not there and one broke: all is well. -/
theorem callTool_pageSignals_run_live :
    ∃ (stat : WebPageStat Unit) (result : CallToolResult) (t : Instant),
      callTool terse 30000
          (captureOne defaultLimits ⟨false⟩ Ssrf.sampleParser id (fun _ => none) liveSurroundings)
          true (.pageSignals ⟨"https://example.com/", none, none⟩) =
        some (.returned result .ok, t) ∧
      result = .success [.text (terse.pretty
        (buildPageSignalsJson terse "https://example.com/" stat))] ∧
      httpStatus stat = 200 ∧ failures (·.failed4xx) stat = 1 ∧
      failures (·.networkFailures) stat = 1 ∧ healthy stat = true := by
  have hcall : ∃ result t, callTool terse 30000
      (captureOne defaultLimits ⟨false⟩ Ssrf.sampleParser id (fun _ => none) liveSurroundings)
      true (.pageSignals ⟨"https://example.com/", none, none⟩) =
        some (.returned result .ok, t) := ⟨_, _, rfl⟩
  obtain ⟨result, t, h⟩ := hcall
  obtain ⟨stat, s, exit, hresult, hcollect, hstatus, h4xx, hnetwork, hhealthy⟩ :=
    callTool_pageSignals_run terse h
  have hrun : ∃ s', Collect.FullLoop.collect { httpErrors := true, resourceHeaders := true }
      (fun _ => none) "https://example.com/" [] true (fromMillis 30000) (fun _ => false)
      loadedPage = .ok s' ∧ s'.1.documentTiming.map (·.status) = some 200 ∧
      Multiset.card (Collect.FullLoop.failedRequests s'.1 400 500) = 1 ∧
      Multiset.card (Collect.FullLoop.failedRequests s'.1 500 600) = 0 ∧
      s'.1.httpNetworkFailures.length = 1 :=
    ⟨_, rfl, rfl, by decide +kernel, by decide +kernel, rfl⟩
  obtain ⟨⟨s', exit'⟩, hs', hdocument, hmissing, hbroken, hreset⟩ := hrun
  obtain ⟨rfl, -⟩ := Prod.mk.inj (Except.ok.inj (hcollect.symm.trans hs'))
  refine ⟨stat, result, t, h, hresult, ?_, ?_, ?_, ?_⟩
  · rw [hstatus, hdocument, Option.getD_some]
  · rw [h4xx, hmissing]
    rfl
  · rw [hnetwork, hreset]
    rfl
  · obtain ⟨dt, hdt, hok⟩ := Option.map_eq_some_iff.mp hdocument
    rw [hhealthy, hbroken]
    exact ⟨⟨dt, hdt, by omega, by omega⟩, Nat.dvd_zero _⟩

end

end Mcp
end BrowserHeadless
