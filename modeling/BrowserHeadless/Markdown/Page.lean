/-
  BrowserHeadless.Markdown.Page

  `WebPageStat::to_markdown`, as far as it can panic, and the page content it ends with.

  Most of the rendering fills templates with values that are written as they stand and
  cannot fail.  Kept here, section by section and in the order of the source, is what
  is computed on the way by an operation that panics: the texts that are cut at a byte
  index, the subtractions and the sums.  Integer arithmetic panics on overflow where
  the build checks for it (`checked`) and wraps where it does not.
-/

import BrowserHeadless.Lib.Float
import BrowserHeadless.Lib.Utf8
import BrowserHeadless.Capture.Query
import BrowserHeadless.Collect.FullLoop
import BrowserHeadless.Coverage.Css
import BrowserHeadless.Summary.Resources

namespace BrowserHeadless
namespace Markdown

open Lib Capture
open Collect (DocumentTiming TlsInfo FailedRequest NetworkFailure)
open Coverage (CoverageReport)
open Summary (ResourceSummary)

/-! ## What is rendered -/

/-- `ClsTopSource`. -/
structure ClsTopSource where
  selector : String

/-- `LongTaskOffender`. -/
structure LongTaskOffender where
  source : String

/-- `LoafOffender`. -/
structure LoafOffender where
  sourceUrl : String

/-- `WebVitals`. -/
structure WebVitals where
  clsTopSources : List ClsTopSource := []
  loafCount : Nat := 0
  loafTopOffenders : List LoafOffender := []
  longTaskTopOffenders : List LongTaskOffender := []

/-- `HttpErrors`, its lists in the order they are shown. -/
structure HttpErrors where
  failedCount : Nat
  failed4xx : List FailedRequest
  failed5xx : List FailedRequest
  networkFailures : List NetworkFailure
  redirectCount : Nat

/-- `SriGap`. -/
structure SriGap where
  tag : String
  url : String

/-- `SriAudit`. -/
structure SriAudit where
  totalCrossOrigin : Nat
  missing : List SriGap

/-- `RenderBlocker`. -/
structure RenderBlocker where
  tag : String
  url : String

/-- `ImageSizing`. -/
structure ImageSizing where
  url : String
  loaded : Bool
  transferredBytes : Option Nat
  wasteRatio : Option F64

/-- `ImageIssue`. -/
structure ImageIssue where
  url : String

/-- `ImageAudit`. -/
structure ImageAudit where
  oversized : List ImageIssue
  missingDimensions : List ImageIssue
  missingLazy : List ImageIssue
  missingSrcset : List ImageIssue

/-- `FontIssue`. -/
structure FontIssue where
  sourceUrl : Option String

/-- `PageMetadata`. -/
structure PageMetadata where
  og : HashMap String String
  twitter : HashMap String String

/-- `DomMutations`. -/
structure DomMutations where
  totalAddedNodes : Nat
  totalRemovedNodes : Nat
  totalAttributeChanges : Nat

/-- `ResourceSummary::default()`. -/
def noResources : ResourceSummary where
  bytesByType := ∅
  countByType := ∅
  statusDistribution := ∅
  cacheHitRatio := F64.ofInt 0
  cachedBytes := 0
  thirdPartyBytes := 0
  largestResource := none
  protocolDistribution := ∅
  compressedCount := 0
  uncompressedTextCount := 0
  uncompressedTextBytes := 0
  connectionsReused := 0
  connectionsNew := 0
  uniqueHosts := 0
  compressionBreakdown := ∅
  cacheControlPresent := 0
  cacheControlMissing := 0
  topThirdPartyDomains := []
  thirdPartyScriptBytes := 0
  thirdPartyScriptOrigins := []
  modernProtocolShare := F64.ofInt 0
  legacyImageBytes := 0
  modernImageBytes := 0
  sourceMapsPresent := 0
  sourceMapsMissing := 0
  duplicateResources := ⟨[], [], 0⟩
  mixedContent := {}
  maxInitiatorChainDepth := none
  topLargestByType := ∅
  uncompressedTextResources := []
  cachePolicyIssues := []

/-- `WebPageStat`: the fields that the sections below read.  Of `security_scan` that is
    `sri`, of `font_audit` it is `missing_swap`. -/
structure WebPageStat where
  data : String
  webVitals : Option WebVitals := none
  documentTiming : Option DocumentTiming := none
  httpErrors : Option HttpErrors := none
  resourceSummary : ResourceSummary := noResources
  coverage : Option CoverageReport := none
  tlsInfo : Option TlsInfo := none
  tlsCertificates : List TlsInfo := []
  securityHeaders : Option (HashMap String String) := none
  sri : Option SriAudit := none
  renderBlockingResources : Option (List RenderBlocker) := none
  imageSizing : Option (List ImageSizing) := none
  imageAudit : Option ImageAudit := none
  missingSwap : Option (List FontIssue) := none
  metadata : Option PageMetadata := none
  domMutations : Option DomMutations := none

/-- A value that a section computes: a text as it is shown, or a number. -/
inductive Cell where
  | text (s : String)
  | number (n : Int)
deriving DecidableEq

/-! ## Operations that can panic -/

/-- `if s.len() > limit { format!("…{}", &s[s.len() - keep..]) } else { s.clone() }`. -/
def cutFront (limit keep : Nat) (s : String) : Option String :=
  if limit < s.utf8ByteSize then
    (Utf8.sliceFrom s (s.utf8ByteSize - keep)).map fun tail => "…" ++ tail
  else some s

/-- `if s.len() > limit { format!("{}…", &s[..limit]) } else { s.clone() }`. -/
def cutBack (limit : Nat) (s : String) : Option String :=
  if limit < s.utf8ByteSize then (Utf8.sliceTo s limit).map fun head => head ++ "…" else some s

/-- `a + b` of unsigned integers of `w` bits. -/
def add (checked : Bool) (w a b : Nat) : Option Nat :=
  if a + b < 2 ^ w then some (a + b) else if checked then none else some ((a + b) % 2 ^ w)

/-- `a - b` of two `usize`s. -/
def sub (checked : Bool) (a b : Nat) : Option Nat :=
  if b ≤ a then some (a - b) else if checked then none else some (a + 2 ^ 64 - b)

/-- `-n` of an `i64`. -/
def neg (checked : Bool) (n : Int) : Option Int :=
  if n = -2 ^ 63 then if checked then none else some n else some (-n)

/-- Parts that are written one after the other; a panic ends them all. -/
def inOrder (parts : List (Option (List Cell))) : Option (List Cell) :=
  (parts.mapM id).map List.flatten

/-- `if let Some(a) = x`. -/
def ifSome {α : Type} (x : Option α) (body : α → Option (List Cell)) : Option (List Cell) :=
  match x with
  | some a => body a
  | none => some []

/-- Texts in rows of their own, each cut at the front. -/
def rows (limit keep : Nat) (texts : List String) : Option (List Cell) :=
  texts.mapM fun s => (cutFront limit keep s).map Cell.text

/-- A sum. -/
def sum (checked : Bool) (w a b : Nat) : Option (List Cell) :=
  (add checked w a b).map fun (n : Nat) => [Cell.number n]

/-- `…and N more`, for what a list has beyond the entries shown. -/
def andMore (checked : Bool) (len shown : Nat) : Option (List Cell) :=
  if shown < len then (sub checked len shown).map fun (n : Nat) => [Cell.number n] else some []

/-- `format_tls_expiry`. -/
def formatTlsExpiry (checked : Bool) (daysRemaining : Int) : Option String :=
  if daysRemaining < 0 then
    (neg checked daysRemaining).map fun n => s!"**EXPIRED {n} days ago**"
  else if daysRemaining < 30 then some s!"**expires in {daysRemaining} days ⚠️**"
  else some s!"expires in {daysRemaining} days"

/-! ## The sections -/

section Sections

variable (checked : Bool)

/-- `## Web Vitals`. -/
def webVitals (v : WebVitals) : Option (List Cell) :=
  inOrder
    [ andMore checked v.clsTopSources.length 3,
      rows 70 67 ((v.longTaskTopOffenders.take 3).map (·.source)),
      if 0 < v.loafCount then
        inOrder ((v.loafTopOffenders.take 3).map fun o =>
          if o.sourceUrl = "" then some [Cell.text "(inline / unknown)"]
          else rows 70 67 [o.sourceUrl])
      else some [] ]

/-- `## Document Timing`. -/
def documentTiming (dt : DocumentTiming) : Option (List Cell) := rows 80 77 [dt.url]

/-- `## HTTP Errors`. -/
def httpErrors (he : HttpErrors) : Option (List Cell) :=
  if 0 < he.failedCount ∨ 0 < he.redirectCount then
    inOrder
      [ rows 80 77 ((he.failed4xx.take 5).map (·.url)),
        rows 80 77 ((he.failed5xx.take 5).map (·.url)),
        -- a canceled request is rarely a finding
        rows 80 77 (((he.networkFailures.filter (!·.canceled)).take 5).map (·.url)) ]
  else some []

/-- The duplicates of `## Resource Summary`. -/
def duplicateResources (dr : Summary.DuplicateResources) : Option (List Cell) :=
  if 0 < dr.wastedBytes ∨ dr.exactUrl ≠ [] ∨ dr.likelySameFile ≠ [] then
    rows 80 77 ((dr.exactUrl.take 3).map (·.key))
  else some []

/-- The mixed content of `## Resource Summary`. -/
def mixedContent (mc : Summary.MixedContent) : Option (List Cell) :=
  if mc.detected then rows 80 77 ((mc.resources.take 3).map (·.url)) else some []

/-- The types that have a list of their largest resources. -/
def buckets : List String := ["javascript", "css", "image", "font"]

/-- The largest resources of a type. -/
def largestOf (rs : ResourceSummary) (bucket : String) : List Summary.LargestResource :=
  (rs.topLargestByType.lookup bucket).getD []

/-- `## Resource Summary`. -/
def resourceSummary (rs : ResourceSummary) : Option (List Cell) :=
  if rs.bytesByType = ∅ then some []
  else
    inOrder
      [ sum checked 32 rs.connectionsReused rs.connectionsNew,
        sum checked 32 rs.cacheControlPresent rs.cacheControlMissing,
        sum checked 64 rs.legacyImageBytes rs.modernImageBytes,
        sum checked 32 rs.sourceMapsPresent rs.sourceMapsMissing,
        duplicateResources rs.duplicateResources,
        mixedContent rs.mixedContent,
        inOrder (buckets.map fun bucket => rows 80 77 (((largestOf rs bucket).take 5).map (·.url))),
        rows 80 77 ((rs.uncompressedTextResources.take 5).map (·.url)),
        rows 80 77 ((rs.cachePolicyIssues.take 5).map (·.url)) ]

/-- `## CSS / JS Coverage`. -/
def coverage (cov : CoverageReport) : Option (List Cell) :=
  rows 80 77 ((cov.topUnused.take 5).map (·.url))

/-- The validity of a certificate. -/
def validity (tls : TlsInfo) : Option (List Cell) :=
  (formatTlsExpiry checked tls.daysRemaining).map fun s => [Cell.text s]

/-- `items.sort_by_key(|(k, _)| k.as_str())`. -/
def sortByKey (items : List (Σ _ : String, String)) : List (Σ _ : String, String) :=
  items.insertionSort fun a b => a.1 ≤ b.1

/-- `## Security Headers`. -/
def securityHeaders (order : HashMap.Order String String) (sh : HashMap String String) :
    Option (List Cell) :=
  (sortByKey (order.entries sh)).mapM fun kv => (cutBack 200 kv.2).map Cell.text

/-- `## Security Scan`. -/
def securityScan (sri : SriAudit) : Option (List Cell) :=
  if 0 < sri.totalCrossOrigin then andMore checked sri.missing.length 5 else some []

/-- `## Render-Blocking Resources`. -/
def renderBlocking (rb : List RenderBlocker) : Option (List Cell) := andMore checked rb.length 10

/-- An image that wastes much of what was loaded. -/
def isOffender (i : ImageSizing) : Bool :=
  i.loaded && i.wasteRatio.any (F64.le ⟨0x3fd999999999999a#64⟩)
    && i.transferredBytes.all (20000 ≤ ·)

/-- The image audit, inside `## Image Sizing`. -/
def imageAudit (audit : ImageAudit) : Option (List Cell) :=
  inOrder
    ([audit.oversized, audit.missingDimensions, audit.missingLazy, audit.missingSrcset].map
      fun issues => rows 60 57 ((issues.take 5).map (·.url)))

/-- `## Image Sizing`. -/
def imageSizing (audit : Option ImageAudit) (imgs : List ImageSizing) : Option (List Cell) :=
  inOrder
    [ rows 60 57 (((imgs.filter isOffender).take 10).map (·.url)),
      ifSome audit imageAudit ]

/-- `## Font Audit`. -/
def fontAudit (missingSwap : List FontIssue) : Option (List Cell) :=
  rows 70 67 ((missingSwap.take 5).filterMap (·.sourceUrl))

/-- `## Page Metadata`. -/
def metadata (md : PageMetadata) : Option (List Cell) :=
  inOrder [andMore checked md.og.keys.card 8, andMore checked md.twitter.keys.card 8]

/-- `## DOM Mutations`. -/
def domMutations (dm : DomMutations) : Option (List Cell) := do
  let n ← add checked 64 dm.totalAddedNodes dm.totalRemovedNodes
  sum checked 64 n dm.totalAttributeChanges

end Sections

/-! ## The page content -/

/-- The heading of the page content. -/
def contentHeading : Lang → String
  | .en => "## Page Content"
  | .zh => "## 页面内容"

/-- What is written after the heading: the captured text between two fences. -/
def pageContent (data : String) : String :=
  "\n```\n" ++ data ++ (if data.toList.getLast? = some '\n' then "" else "\n") ++ "```\n"

/-- What `to_markdown` returns: the values its sections compute, the heading of the last
    one and the text from there on. -/
structure Rendered where
  cells : List Cell
  heading : String
  content : String

/-- `to_markdown`; `order` is the order in which a map of headers is visited. -/
def toMarkdown (checked : Bool) (order : HashMap.Order String String) (lang : Lang)
    (stat : WebPageStat) : Option Rendered := do
  let cells ← inOrder
    [ ifSome stat.webVitals (webVitals checked),
      ifSome stat.documentTiming documentTiming,
      ifSome stat.httpErrors httpErrors,
      resourceSummary checked stat.resourceSummary,
      ifSome stat.coverage coverage,
      ifSome stat.tlsInfo (validity checked),
      inOrder (stat.tlsCertificates.map (validity checked)),
      ifSome stat.securityHeaders (securityHeaders order),
      ifSome stat.sri (securityScan checked),
      ifSome stat.renderBlockingResources (renderBlocking checked),
      ifSome stat.imageSizing (imageSizing stat.imageAudit),
      ifSome stat.missingSwap fontAudit,
      ifSome stat.metadata (metadata checked),
      ifSome stat.domMutations (domMutations checked) ]
  return { cells, heading := contentHeading lang, content := pageContent stat.data }

end Markdown
end BrowserHeadless
