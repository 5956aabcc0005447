/-
  BrowserHeadless.Summary.Resources

  `build_resource_summary` (src/browser/mod.rs): the aggregates over the resources of a
  capture.

  One loop keeps two dozen counters and maps.  Each group of them has a definition of its
  own, in the order of the source, and sets its fields by `addIf` and `upsertIf`; the
  lists of findings are derived from the resources after the loop.  `u32` and `u64`
  additions wrap around.

  `lower` stands for `str::to_lowercase`, `parseUrl` for `url::Url::parse(..).ok()`, and
  the orders in which the hash maps are iterated are parameters (`Orders`).
-/

import BrowserHeadless.Collect.FullLoop
import BrowserHeadless.Lib.Float
import BrowserHeadless.Lib.Group
import BrowserHeadless.Lib.Sort
import BrowserHeadless.Summary.Classify

namespace BrowserHeadless
namespace Summary

open Lib (HashMap F64 addIf upsertIf tally topBy)
open Collect (WebPageResource ParsedUrl startsWith urlContains)

/-! ## The report -/

/-- `DomainBytes`. -/
structure DomainBytes where
  host : String
  bytes : Nat
  count : Nat
deriving DecidableEq

/-- `LargestResource`. -/
structure LargestResource where
  url : String
  bytes : Nat
  mimeType : String
  fromCache : Bool
deriving DecidableEq

/-- `UncompressedResource`. -/
structure UncompressedResource where
  url : String
  mimeType : String
  bytes : Nat
deriving DecidableEq

/-- `CachePolicyIssue`. -/
structure CachePolicyIssue where
  url : String
  mimeType : String
  cacheControl : String
  reason : String
deriving DecidableEq

/-- `MixedContentResource`. -/
structure MixedContentResource where
  url : String
  contentSize : Nat
  kind : String
deriving DecidableEq

/-- `MixedContent`. -/
structure MixedContent where
  detected : Bool := false
  totalCount : Nat := 0
  resources : List MixedContentResource := []
deriving DecidableEq

/-- `DuplicateEntry`. -/
structure DuplicateEntry where
  key : String
  urls : List String
  count : Nat
  bytesEach : Nat
  wastedBytes : Nat
deriving DecidableEq

/-- `DuplicateResources`. -/
structure DuplicateResources where
  exactUrl : List DuplicateEntry
  likelySameFile : List DuplicateEntry
  wastedBytes : Nat
deriving DecidableEq

/-- The variables of the loop over the resources: the counters of the summary and the
    locals beside them. -/
@[ext] structure Totals where
  bytesByType : HashMap String Nat := ∅
  countByType : HashMap String Nat := ∅
  cacheControlPresent : Nat := 0
  cacheControlMissing : Nat := 0
  legacyImageBytes : Nat := 0
  modernImageBytes : Nat := 0
  sourceMapsPresent : Nat := 0
  sourceMapsMissing : Nat := 0
  statusDistribution : HashMap String Nat := ∅
  cacheHits : Nat := 0
  cachedBytes : Nat := 0
  realNetworkResponses : Nat := 0
  connectionsReused : Nat := 0
  connectionsNew : Nat := 0
  protocolDistribution : HashMap String Nat := ∅
  modernProtocolHits : Nat := 0
  compressionBreakdown : HashMap String Nat := ∅
  compressedCount : Nat := 0
  uncompressedTextCount : Nat := 0
  uncompressedTextBytes : Nat := 0
  hosts : Finset String := ∅
  thirdPartyBytes : Nat := 0
  thirdPartyByHost : HashMap String (Nat × Nat) := ∅
  thirdPartyScriptBytes : Nat := 0
  thirdPartyScriptsByHost : HashMap String (Nat × Nat) := ∅
  largest : Option (String × Nat) := none

/-- `ResourceSummary` as `build_resource_summary` fills it. -/
@[ext] structure ResourceSummary where
  bytesByType : HashMap String Nat
  countByType : HashMap String Nat
  statusDistribution : HashMap String Nat
  cacheHitRatio : F64
  cachedBytes : Nat
  thirdPartyBytes : Nat
  largestResource : Option (String × Nat)
  protocolDistribution : HashMap String Nat
  compressedCount : Nat
  uncompressedTextCount : Nat
  uncompressedTextBytes : Nat
  connectionsReused : Nat
  connectionsNew : Nat
  uniqueHosts : Nat
  compressionBreakdown : HashMap String Nat
  cacheControlPresent : Nat
  cacheControlMissing : Nat
  topThirdPartyDomains : List DomainBytes
  thirdPartyScriptBytes : Nat
  thirdPartyScriptOrigins : List DomainBytes
  modernProtocolShare : F64
  legacyImageBytes : Nat
  modernImageBytes : Nat
  sourceMapsPresent : Nat
  sourceMapsMissing : Nat
  duplicateResources : DuplicateResources
  mixedContent : MixedContent
  maxInitiatorChainDepth : Option Nat
  topLargestByType : HashMap String (List LargestResource)
  uncompressedTextResources : List UncompressedResource
  cachePolicyIssues : List CachePolicyIssue

/-! ## The loop -/

/-- The protocol of a response in `protocol_distribution`. -/
def protocolOf (lower : String → String) (r : WebPageResource) : String :=
  if r.protocol = "" then "unknown" else lower r.protocol

/-- HTTP/2 and every variant of HTTP/3. -/
def isModernProtocol (proto : String) : Bool := proto == "h2" || startsWith proto "h3"

/-- The host of a resource. -/
def hostOf (r : WebPageResource) : Option String := r.parsedUrl.bind (·.hostStr)

/-- The host of a resource if it is a third party to `targetHost`. -/
def thirdPartyHost (targetHost : String) (r : WebPageResource) : Option String :=
  (hostOf r).filter fun h => targetHost != "" && h != targetHost

/-- A JS or CSS resource. -/
def isCode (r : WebPageResource) : Bool :=
  mimeBucket r.mimeType == "javascript" || mimeBucket r.mimeType == "css"

/-- A resource that came over the network. -/
def fromNetwork (r : WebPageResource) : Bool := !r.fromCache

namespace Totals

def countType (r : WebPageResource) (s : Totals) : Totals :=
  { s with
    bytesByType :=
      upsertIf (some (mimeBucket r.mimeType)) 0 (fun v => (v + r.contentSize) % 2 ^ 64)
        s.bytesByType
    countByType :=
      upsertIf (some (mimeBucket r.mimeType)) 0 (fun v => (v + 1) % 2 ^ 32) s.countByType }

/-- Cached responses count, too: they carry the headers of the origin. -/
def countCacheControl (r : WebPageResource) (s : Totals) : Totals :=
  { s with
    cacheControlPresent := addIf (2 ^ 32) r.cacheControl.isSome 1 s.cacheControlPresent
    cacheControlMissing := addIf (2 ^ 32) r.cacheControl.isNone 1 s.cacheControlMissing }

def countImage (r : WebPageResource) (s : Totals) : Totals :=
  { s with
    legacyImageBytes :=
      addIf (2 ^ 64) (isLegacyImage r.mimeType) r.contentSize s.legacyImageBytes
    modernImageBytes :=
      addIf (2 ^ 64) (!isLegacyImage r.mimeType && isModernImage r.mimeType) r.contentSize
        s.modernImageBytes }

def countSourceMap (r : WebPageResource) (s : Totals) : Totals :=
  { s with
    sourceMapsPresent := addIf (2 ^ 32) (isCode r && r.hasSourceMap) 1 s.sourceMapsPresent
    sourceMapsMissing := addIf (2 ^ 32) (isCode r && !r.hasSourceMap) 1 s.sourceMapsMissing }

def countStatus (r : WebPageResource) (s : Totals) : Totals :=
  { s with
    statusDistribution :=
      upsertIf (some (statusBucket r.status)) 0 (fun v => (v + 1) % 2 ^ 32)
        s.statusDistribution }

/-- Cache hits never touched the wire: connection and protocol are counted without them. -/
def countConnection (lower : String → String) (r : WebPageResource) (s : Totals) : Totals :=
  { s with
    cacheHits := addIf (2 ^ 32) r.fromCache 1 s.cacheHits
    cachedBytes := addIf (2 ^ 64) r.fromCache r.contentSize s.cachedBytes
    realNetworkResponses := addIf (2 ^ 32) (fromNetwork r) 1 s.realNetworkResponses
    connectionsReused :=
      addIf (2 ^ 32) (fromNetwork r && r.connectionReused) 1 s.connectionsReused
    connectionsNew :=
      addIf (2 ^ 32) (fromNetwork r && !r.connectionReused) 1 s.connectionsNew
    modernProtocolHits :=
      addIf (2 ^ 32) (fromNetwork r && isModernProtocol (protocolOf lower r)) 1
        s.modernProtocolHits
    protocolDistribution :=
      upsertIf (if fromNetwork r then some (protocolOf lower r) else none) 0
        (fun v => (v + 1) % 2 ^ 32) s.protocolDistribution }

/-- The breakdown has one row for each first coding; the other counters look at the
    presence of the header. -/
def countCompression (r : WebPageResource) (s : Totals) : Totals :=
  { s with
    compressionBreakdown :=
      upsertIf
        (if fromNetwork r && isTextCompressible r.mimeType then some (codingOf r.contentEncoding)
          else none)
        0 (fun v => (v + 1) % 2 ^ 32) s.compressionBreakdown
    compressedCount :=
      addIf (2 ^ 32) (fromNetwork r && r.contentEncoding.isSome) 1 s.compressedCount
    uncompressedTextCount :=
      addIf (2 ^ 32)
        (fromNetwork r && (r.contentEncoding.isNone && isTextCompressible r.mimeType)) 1
        s.uncompressedTextCount
    uncompressedTextBytes :=
      addIf (2 ^ 64)
        (fromNetwork r && (r.contentEncoding.isNone && isTextCompressible r.mimeType))
        r.contentSize s.uncompressedTextBytes }

/-- A pair of bytes and count goes up by one resource. -/
def addResource (r : WebPageResource) (slot : Nat × Nat) : Nat × Nat :=
  ((slot.1 + r.contentSize) % 2 ^ 64, (slot.2 + 1) % 2 ^ 32)

/-- The third-party host of a script. -/
def scriptHost (targetHost : String) (r : WebPageResource) : Option String :=
  (thirdPartyHost targetHost r).filter fun _ => mimeBucket r.mimeType == "javascript"

def countHost (targetHost : String) (r : WebPageResource) (s : Totals) : Totals :=
  { s with
    hosts := (hostOf r).elim s.hosts fun h => insert h s.hosts
    thirdPartyBytes :=
      addIf (2 ^ 64) (thirdPartyHost targetHost r).isSome r.contentSize s.thirdPartyBytes
    thirdPartyByHost :=
      upsertIf (thirdPartyHost targetHost r) (0, 0) (addResource r) s.thirdPartyByHost
    thirdPartyScriptBytes :=
      addIf (2 ^ 64) (scriptHost targetHost r).isSome r.contentSize s.thirdPartyScriptBytes
    thirdPartyScriptsByHost :=
      upsertIf (scriptHost targetHost r) (0, 0) (addResource r) s.thirdPartyScriptsByHost }

/-- Only a larger resource replaces the largest one. -/
def larger (r : WebPageResource) : Option (String × Nat) → Option (String × Nat)
  | none => some (r.url, r.contentSize)
  | some (url, size) =>
      if size < r.contentSize then some (r.url, r.contentSize) else some (url, size)

def noteLargest (r : WebPageResource) (s : Totals) : Totals :=
  { s with largest := larger r s.largest }

/-- The body of the loop. -/
def step (lower : String → String) (targetHost : String) (s : Totals) (r : WebPageResource) :
    Totals :=
  noteLargest r <| countHost targetHost r <| countCompression r <| countConnection lower r <|
    countStatus r <| countSourceMap r <| countImage r <| countCacheControl r <| countType r s

/-- The loop. -/
def ofResources (lower : String → String) (targetHost : String)
    (resources : List WebPageResource) : Totals :=
  resources.foldl (step lower targetHost) {}

end Totals

/-! ## Third parties -/

/-- More bytes first, then by host. -/
def DomainBytes.le (a b : DomainBytes) : Prop :=
  b.bytes < a.bytes ∨ (b.bytes = a.bytes ∧ a.host ≤ b.host)

instance : DecidableRel DomainBytes.le := fun a b => by
  unfold DomainBytes.le
  infer_instance

/-- The hosts of a map in their order. -/
def rankedDomains (order : HashMap.Order String (Nat × Nat)) (byHost : HashMap String (Nat × Nat)) :
    List DomainBytes :=
  ((order.entries byHost).map fun e => ⟨e.1, e.2.1, e.2.2⟩).insertionSort DomainBytes.le

/-! ## Mixed content -/

/-- `build_mixed_content`. -/
def buildMixedContent (resources : List WebPageResource) (targetUrl : String) : MixedContent :=
  if !startsWith targetUrl "https://" then {}
  else
    let offenders : List MixedContentResource :=
      (resources.filter fun r => startsWith r.url "http://").map fun r =>
        { url := r.url, contentSize := r.contentSize, kind := mimeBucket r.mimeType }
    let totalCount := offenders.length % 2 ^ 32
    if totalCount = 0 then {}
    else
      { detected := true
        totalCount := totalCount
        resources := topBy (·.contentSize) 10 offenders }

/-! ## Initiator chains -/

/-- The initiator's URL, unless it is empty. -/
def initiatorUrl (r : WebPageResource) : Option String :=
  (r.initiator.bind (·.url)).filter fun p => p != ""

/-- The map `parent`: the last resource with a URL decides. -/
def parentOf (resources : List WebPageResource) : HashMap String String :=
  resources.foldl (fun m r => (initiatorUrl r).elim m fun p => m.insert r.url p) ∅

/-- The `while` loop from one URL: the number of hops until there is no parent, the
    parent has been seen, or after `fuel` hops. -/
def chainLength (parent : HashMap String String) : Nat → String → Finset String → Nat
  | 0, _, _ => 0
  | fuel + 1, current, seen =>
      match parent.lookup current with
      | none => 0
      | some p => if p ∈ seen then 0 else 1 + chainLength parent fuel p (insert p seen)

/-- The longest chain; `depth > 100` ends a walk after 101 hops. -/
def maxChainLength (parent : HashMap String String) (resources : List WebPageResource) : Nat :=
  resources.foldl (fun depth r => max depth (chainLength parent 101 r.url {r.url})) 0

/-- `compute_initiator_chain_depth`. -/
def computeInitiatorChainDepth (resources : List WebPageResource) : Option Nat :=
  if !resources.any (fun r => r.initiator.isSome) then none
  else some (maxChainLength (parentOf resources) resources)

/-! ## Duplicates -/

/-- The copies of each key. -/
def groupBy {κ : Type} [DecidableEq κ] (key : WebPageResource → Option κ)
    (resources : List WebPageResource) : HashMap κ (List WebPageResource) :=
  tally key [] (fun copies r => copies ++ [r]) ∅ resources

/-- A sum of `u64`s. -/
def sumU64 (l : List Nat) : Nat := l.sum % 2 ^ 64

/-- The report on one URL: all but the largest copy are waste. -/
def exactEntry (e : Σ _ : String, List WebPageResource) : Option DuplicateEntry :=
  if e.2.length < 2 then none
  else
    let sizes := (e.2.map (·.contentSize)).insertionSort (· ≥ ·)
    some
      { key := e.1
        urls := [e.1]
        count := e.2.length % 2 ^ 32
        bytesEach := sizes.head?.getD 0
        wastedBytes := sumU64 (sizes.drop 1) }

/-- The key of the second pass. -/
def nameAndSize (r : WebPageResource) : Option (String × Nat) :=
  if r.contentSize = 0 then none else (urlBasename r.url).map fun name => (name, r.contentSize)

/-- The distinct URLs of some copies. -/
def distinctUrls (copies : List WebPageResource) : List String :=
  ((copies.map (·.url)).insertionSort (· ≤ ·)).destutter (· ≠ ·)

/-- The report on one name and size. -/
def likelyEntry (e : Σ _ : String × Nat, List WebPageResource) : Option DuplicateEntry :=
  let urls := distinctUrls e.2
  if urls.length < 2 then none
  else
    let count := urls.length % 2 ^ 32
    some
      { key := e.1.1 ++ "|" ++ toString e.1.2
        urls := urls
        count := count
        bytesEach := e.1.2
        -- `count - 1` in `u64`
        wastedBytes := (count + 2 ^ 64 - 1) * e.1.2 % 2 ^ 64 }

/-- The orders in which the hash maps of the summary are iterated. -/
structure Orders where
  thirdParty : HashMap.Order String (Nat × Nat)
  scripts : HashMap.Order String (Nat × Nat)
  byUrl : HashMap.Order String (List WebPageResource)
  byNameSize : HashMap.Order (String × Nat) (List WebPageResource)
  byBucket : HashMap.Order String (List WebPageResource)

/-- Arbitrary orders. -/
noncomputable def Orders.arbitrary : Orders where
  thirdParty := .arbitrary
  scripts := .arbitrary
  byUrl := .arbitrary
  byNameSize := .arbitrary
  byBucket := .arbitrary

/-- The entries of the first pass, in the order of the map. -/
def exactEntries (orders : Orders) (resources : List WebPageResource) : List DuplicateEntry :=
  (orders.byUrl.entries (groupBy (fun r => some r.url) resources)).filterMap exactEntry

/-- The entries of the second pass. -/
def likelyEntries (orders : Orders) (resources : List WebPageResource) : List DuplicateEntry :=
  (orders.byNameSize.entries (groupBy nameAndSize resources)).filterMap likelyEntry

/-- `build_duplicate_resources`. -/
def buildDuplicateResources (orders : Orders) (resources : List WebPageResource) :
    DuplicateResources :=
  let exact := exactEntries orders resources
  let likely := likelyEntries orders resources
  { exactUrl := topBy (·.wastedBytes) 10 exact
    likelySameFile := topBy (·.wastedBytes) 10 likely
    wastedBytes := sumU64 ((exact ++ likely).map (·.wastedBytes)) }

/-! ## The largest resources of each type -/

/-- The bucket in which a resource is ranked; a cache hit without bytes is not. -/
def rankedBucket (r : WebPageResource) : Option String :=
  if isStaticAssetBucket (mimeBucket r.mimeType) && !(r.fromCache && r.contentSize == 0) then
    some (mimeBucket r.mimeType)
  else none

/-- An entry of the ranking. -/
def LargestResource.of (r : WebPageResource) : LargestResource where
  url := r.url
  bytes := r.contentSize
  mimeType := r.mimeType
  fromCache := r.fromCache

/-- `top_largest_by_type`. -/
def topLargestByType (orders : Orders) (resources : List WebPageResource) :
    HashMap String (List LargestResource) :=
  (orders.byBucket.entries (groupBy rankedBucket resources)).foldl
    (fun m e =>
      let top := (topBy (·.contentSize) 5 e.2).map LargestResource.of
      if top = [] then m else m.insert e.1 top)
    ∅

/-! ## Findings -/

/-- A text response without a `Content-Encoding` header, of one kilobyte at least. -/
def isUncompressed (r : WebPageResource) : Bool :=
  fromNetwork r && r.contentEncoding.isNone && isTextCompressible r.mimeType &&
    1024 ≤ r.contentSize

/-- `uncompressed_text_resources`. -/
def uncompressedTextResources (resources : List WebPageResource) : List UncompressedResource :=
  topBy (·.bytes) 20 ((resources.filter isUncompressed).map fun r =>
    { url := r.url, mimeType := r.mimeType, bytes := r.contentSize })

/-- The finding on the cache policy of a resource, with its size. -/
def cachePolicyFinding (r : WebPageResource) : Option (Nat × CachePolicyIssue) :=
  if !isStaticAssetBucket (mimeBucket r.mimeType) then none
  else
    match r.cacheControl with
    | none => none
    | some cc =>
        let ccLower := asciiLower cc
        let finding reason :=
          some (r.contentSize,
            { url := r.url, mimeType := r.mimeType, cacheControl := cc, reason := reason })
        -- a declared policy is no oversight
        if urlContains ccLower "no-store" || urlContains ccLower "no-cache" then none
        else if (parseMaxAge cc).any fun maxAge => maxAge < 60 then finding "short_max_age"
        else if r.parsedUrl.any isHashedUrlPath && !urlContains ccLower "immutable" then
          finding "missing_immutable"
        else none

/-- `cache_policy_issues`. -/
def cachePolicyIssues (resources : List WebPageResource) : List CachePolicyIssue :=
  (topBy Prod.fst 20 (resources.filterMap cachePolicyFinding)).map Prod.snd

/-! ## `build_resource_summary` -/

/-- The host of the target, empty if it has none. -/
def targetHostOf (parseUrl : String → Option ParsedUrl) (targetUrl : String) : String :=
  ((parseUrl targetUrl).bind (·.hostStr)).getD ""

/-- `build_resource_summary`. -/
def buildResourceSummary (lower : String → String) (parseUrl : String → Option ParsedUrl)
    (orders : Orders) (resources : List WebPageResource) (targetUrl : String) :
    ResourceSummary :=
  let s := Totals.ofResources lower (targetHostOf parseUrl targetUrl) resources
  { bytesByType := s.bytesByType
    countByType := s.countByType
    statusDistribution := s.statusDistribution
    cacheHitRatio :=
      if resources.isEmpty then F64.ofInt 0 else F64.ratio s.cacheHits resources.length
    cachedBytes := s.cachedBytes
    thirdPartyBytes := s.thirdPartyBytes
    largestResource := s.largest
    protocolDistribution := s.protocolDistribution
    compressedCount := s.compressedCount
    uncompressedTextCount := s.uncompressedTextCount
    uncompressedTextBytes := s.uncompressedTextBytes
    connectionsReused := s.connectionsReused
    connectionsNew := s.connectionsNew
    uniqueHosts := s.hosts.card % 2 ^ 32
    compressionBreakdown := s.compressionBreakdown
    cacheControlPresent := s.cacheControlPresent
    cacheControlMissing := s.cacheControlMissing
    topThirdPartyDomains := (rankedDomains orders.thirdParty s.thirdPartyByHost).take 10
    thirdPartyScriptBytes := s.thirdPartyScriptBytes
    thirdPartyScriptOrigins := (rankedDomains orders.scripts s.thirdPartyScriptsByHost).take 10
    modernProtocolShare :=
      if 0 < s.realNetworkResponses then F64.ratio s.modernProtocolHits s.realNetworkResponses
      else F64.ofInt 0
    legacyImageBytes := s.legacyImageBytes
    modernImageBytes := s.modernImageBytes
    sourceMapsPresent := s.sourceMapsPresent
    sourceMapsMissing := s.sourceMapsMissing
    duplicateResources := buildDuplicateResources orders resources
    mixedContent := buildMixedContent resources targetUrl
    maxInitiatorChainDepth := computeInitiatorChainDepth resources
    topLargestByType := topLargestByType orders resources
    uncompressedTextResources := uncompressedTextResources resources
    cachePolicyIssues := cachePolicyIssues resources }

end Summary
end BrowserHeadless
