/-
  BrowserHeadless.Collect.Extract

  What the arms of the collect loops extract from an event: document timing,
  response headers, certificates, initiators and the texts of exceptions and
  console calls (src/browser/mod.rs and src/browser/security.rs).
-/

import BrowserHeadless.Collect.Event
import BrowserHeadless.Lib.Ascii
import Mathlib.Data.List.DropRight

namespace BrowserHeadless
namespace Collect

/-! ## Timing -/

/-- `DocumentTiming`. -/
structure DocumentTiming where
  url : String
  status : Nat
  fromCache : Bool
  protocol : String
  dnsMs : Nat
  tcpMs : Nat
  tlsMs : Nat
  ttfbMs : Nat
deriving DecidableEq

/-- The closure `phase` of `build_document_timing`. -/
def phase (a b : ℚ) : Nat :=
  -- the protocol reports `-1` for a phase that did not take place
  let d := rounded (b - a)
  if isFinite d && 0 < d then asU32 d else 0

/-- `build_document_timing`. -/
def buildDocumentTiming (url : String) (status : Nat) (fromCache : Bool) (protocol : String)
    (t : CdpResourceTiming) : DocumentTiming where
  url := url
  status := status
  fromCache := fromCache
  protocol := protocol
  dnsMs := phase t.dnsStart t.dnsEnd
  tcpMs := phase t.connectStart t.connectEnd
  tlsMs := phase t.sslStart t.sslEnd
  ttfbMs := phase t.sendStart t.receiveHeadersEnd

/-- `ResourceTiming`. -/
structure ResourceTiming where
  requestTime : ℚ
  dnsStart : ℚ
  dnsEnd : ℚ
  connectStart : ℚ
  connectEnd : ℚ
  sslStart : ℚ
  sslEnd : ℚ
  sendStart : ℚ
  sendEnd : ℚ
  receiveHeadersEnd : ℚ
deriving DecidableEq

/-- `map_timing`. -/
def mapTiming (t : CdpResourceTiming) : ResourceTiming where
  requestTime := t.requestTime
  dnsStart := t.dnsStart
  dnsEnd := t.dnsEnd
  connectStart := t.connectStart
  connectEnd := t.connectEnd
  sslStart := t.sslStart
  sslEnd := t.sslEnd
  sendStart := t.sendStart
  sendEnd := t.sendEnd
  receiveHeadersEnd := t.receiveHeadersEnd

/-! ## Response headers -/

/-- `char::is_whitespace`: Unicode `White_Space`. -/
def isWhitespace (c : Char) : Bool :=
  let n := c.toNat
  (0x09 ≤ n && n ≤ 0x0d) || n == 0x20 || n == 0x85 || n == 0xa0 || n == 0x1680 ||
    (0x2000 ≤ n && n ≤ 0x200a) || n == 0x2028 || n == 0x2029 || n == 0x202f || n == 0x205f ||
    n == 0x3000

/-- Letters are no blanks. -/
theorem isWhitespace_of_isAlpha {c : Char} (h : c.isAlpha = true) : isWhitespace c = false := by
  have hrange := Lib.toNat_of_isAlpha h
  rw [isWhitespace]
  simp only [Bool.or_eq_false_iff, Bool.and_eq_false_iff, decide_eq_false_iff_not,
    beq_eq_false_iff_ne]
  omega

/-- `str::trim`. -/
def trim (s : String) : String :=
  String.ofList ((s.toList.dropWhile isWhitespace).rdropWhile isWhitespace)

/-- `ResourceHeaderFacts`. -/
structure ResourceHeaderFacts where
  contentEncoding : Option String := none
  cacheControl : Option String := none
  hasSourceMap : Bool := false
  corsAllowOrigin : Option String := none
  corsAllowCredentials : Bool := false
deriving DecidableEq

/-- One header of the pass of `extract_resource_headers`: the body of its
    `for`, whose `continue`s end the chain of tests. -/
def noteHeader (wantResource wantCors : Bool) (facts : ResourceHeaderFacts)
    (h : String × Option String) : ResourceHeaderFacts :=
  let (k, v) := h
  if wantResource && eqIgnoreAsciiCase k "content-encoding" then
    { facts with contentEncoding := v }
  else if wantResource && eqIgnoreAsciiCase k "cache-control" then
    { facts with cacheControl := v }
  else if wantResource && (eqIgnoreAsciiCase k "sourcemap" || eqIgnoreAsciiCase k "x-sourcemap")
  then
    { facts with hasSourceMap := true }
  else if wantCors && eqIgnoreAsciiCase k "access-control-allow-origin" then
    { facts with corsAllowOrigin := v }
  else if wantCors && eqIgnoreAsciiCase k "access-control-allow-credentials" then
    { facts with
      corsAllowCredentials :=
        match v with
        | some v => eqIgnoreAsciiCase (trim v) "true"
        | none => false }
  else facts

/-- `extract_resource_headers`. -/
def extractResourceHeaders (headers : Headers) (wantResource wantCors : Bool) :
    ResourceHeaderFacts :=
  if !wantResource && !wantCors then {}
  else
    match headers with
    | some obj => obj.foldl (noteHeader wantResource wantCors) {}
    | none => {}

/-- `SECURITY_HEADER_NAMES`. -/
def securityHeaderNames : List String :=
  [ "Content-Security-Policy",
    "Content-Security-Policy-Report-Only",
    "Strict-Transport-Security",
    "X-Frame-Options",
    "X-Content-Type-Options",
    "Referrer-Policy",
    "Permissions-Policy",
    "Cross-Origin-Embedder-Policy",
    "Cross-Origin-Opener-Policy",
    "Cross-Origin-Resource-Policy" ]

/-- `extract_security_headers`.  The map it builds has its keys among
    `securityHeaderNames`; it is listed in their order. -/
def extractSecurityHeaders (headers : Headers) : Option (List (String × String)) :=
  match headers with
  | none => none
  | some obj =>
      -- the first header of the name decides, also when its value is no string
      let out := securityHeaderNames.filterMap fun name =>
        match obj.find? fun h => eqIgnoreAsciiCase h.1 name with
        | some (_, some s) => some (name, s)
        | _ => none
      if out.isEmpty then none else some out

/-! ## Certificates -/

/-- `url::Url` as far as the loops and the resource summary read it. -/
structure ParsedUrl where
  hostStr : Option String
  path : String := ""
deriving DecidableEq

/-- `TlsInfo`. -/
structure TlsInfo where
  host : String
  remoteIp : Option String
  remotePort : Option Nat
  protocol : String
  cipher : String
  keyExchange : Option String
  subjectName : String
  issuer : String
  validFrom : ℚ
  validTo : ℚ
  daysRemaining : Int
  sanList : List String
deriving DecidableEq

/-- `u16::try_from(port).ok()`. -/
def portAsU16 (p : Int) : Option Nat := if 0 ≤ p ∧ p < 2 ^ 16 then some p.toNat else none

/-- `extract_tls_info`; `wallSecs` is its reading of the wall clock. -/
def extractTlsInfo (wallSecs : Nat) (sd : CdpSecurityDetails) (host : String)
    (remoteIp : Option String) (remotePort : Option Nat) : TlsInfo where
  host := host
  remoteIp := remoteIp
  remotePort := remotePort
  protocol := sd.protocol
  cipher := sd.cipher
  keyExchange := if sd.keyExchange.isEmpty then none else some sd.keyExchange
  subjectName := sd.subjectName
  issuer := sd.issuer
  validFrom := sd.validFrom
  validTo := sd.validTo
  -- the seconds of a clock are few enough to be exact
  daysRemaining := asI64 (rounded (rounded (sd.validTo - wallSecs) / 86400))
  sanList := sd.sanList

/-! ## Initiators, failures, exceptions and console calls -/

/-- `RequestInitiator`. -/
structure RequestInitiator where
  type : String
  url : Option String
  lineNumber : Option Nat
deriving DecidableEq

/-- `map_initiator`. -/
def mapInitiator (init : CdpInitiator) : RequestInitiator where
  type := asciiLower init.type
  url := init.url
  lineNumber := init.lineNumber.map fun n => asU32 (max n 0)

/-- The lowercased `Debug` text of a resource type. -/
def resourceTypeLabel : ResourceType → String
  | .document => "document"
  | .stylesheet => "stylesheet"
  | .image => "image"
  | .media => "media"
  | .font => "font"
  | .script => "script"
  | .textTrack => "texttrack"
  | .xhr => "xhr"
  | .fetch => "fetch"
  | .prefetch => "prefetch"
  | .eventSource => "eventsource"
  | .webSocket => "websocket"
  | .manifest => "manifest"
  | .signedExchange => "signedexchange"
  | .ping => "ping"
  | .cspViolationReport => "cspviolationreport"
  | .preflight => "preflight"
  | .other => "other"

/-- `format_exception`. -/
def formatException (ev : EventExceptionThrown) : String :=
  let extra := (ev.exception.bind (·.description)).getD ""
  let line := toString ev.lineNumber ++ ":" ++ toString ev.columnNumber ++ " " ++ ev.text
  if extra.isEmpty then line else line ++ " | " ++ extra

/-- The prefix of a description that names a class, if it can. -/
def classPrefix (desc : String) : Option String :=
  if ':' ∈ desc.toList then
    let head := trim (String.ofList (desc.toList.takeWhile (· != ':')))
    -- a class name starts with a letter and has no blanks
    match head.toList with
    | c :: _ => if c.isAlpha && !head.toList.any isWhitespace then some head else none
    | [] => none
  else none

/-- `classify_exception`. -/
def classifyException (ev : EventExceptionThrown) : String :=
  match ev.exception with
  | none => "Other"
  | some exc =>
      match exc.className.filter fun s => !s.isEmpty with
      | some c => c
      | none => (exc.description.bind classPrefix).getD "Other"

/-- `lines().next()` of a nonempty text: up to the first line feed, without a
    carriage return before it. -/
def firstLine (raw : String) : String :=
  let line := raw.toList.takeWhile (· != '\n')
  -- a carriage return counts as part of the line end only before a line feed
  if '\n' ∈ raw.toList ∧ line.getLast? = some '\r' then String.ofList line.dropLast
  else String.ofList line

/-- `exception_sample_message`. -/
def exceptionSampleMessage (ev : EventExceptionThrown) : Option String :=
  let desc := (ev.exception.bind (·.description)).filter fun s => !s.isEmpty
  let raw := desc.getD ev.text
  if raw.isEmpty then none else some (String.ofList ((firstLine raw).toList.take 200))

/-- `format_console`. -/
def formatConsole (ev : EventConsoleApiCalled) : String :=
  let parts := ev.args.map fun a =>
    (a.value.or a.description).getD ("[" ++ a.type ++ "]")
  "[" ++ asciiLower ev.type ++ "] " ++ String.intercalate " " parts

end Collect
end BrowserHeadless
