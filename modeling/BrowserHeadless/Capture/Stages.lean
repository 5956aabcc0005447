/-
  BrowserHeadless.Capture.Stages

  The stages of `browser::capture` (src/browser/mod.rs), cut at its awaits.

  `capture` creates an incognito browser context, opens a page in it, applies
  the overrides of the request in one `try_join!`, drives `collect_summary`,
  waits and runs the user's script, reads the outputs in a second `try_join!`
  and last spawns the teardown task.  Which of these it goes through depends on
  the request; `Stage.next` is that order.
-/

import BrowserHeadless.Cdp
import Mathlib.Data.Rat.Defs

namespace BrowserHeadless
namespace Capture

/-- The fields of `SummaryRequest` that decide which browser calls are made. -/
structure SummaryRequest where
  width : Option Nat := none
  height : Option Nat := none
  deviceScaleFactor : Option ℚ := none
  touch : Bool := false
  headers : List (String × String) := []
  timezone : Option String := none
  locale : Option String := none
  geolocation : Option (ℚ × ℚ × ℚ) := none
  cookies : List (String × String) := []
  disableCache : Bool := false
  blockUrls : List String := []
  blockResourceTypes : List String := []
  ssrfGuard : Bool := false
  disableJavascript : Bool := false
  cpuThrottle : Option ℚ := none
  waitForElement : Option String := none
  waitForFunction : Option String := none
  settle : Option Nat := none
  script : Option String := none
  pdf : Bool := false
  saveDomSnapshot : Bool := false
  webVitals : Bool := false
  domMutations : Bool := false
  metrics : Bool := false
  metadata : Bool := false
  renderBlocking : Bool := false
  serviceWorker : Bool := false
  imageSizing : Bool := false
  resourceHints : Bool := false
  fontAudit : Bool := false
  securityScan : Bool := false
  coverage : Bool := false

/-- The arms of the setup `try_join!`. -/
inductive ApplyArm where
  | viewport
  | touchEmulation
  | userAgent
  | extraHeaders
  | timezone
  | locale
  | geolocation
  | cookies
  | cacheDisabled
  | blockedUrls
  | requestInterception
  | disableJavascript
  | cpuThrottle
  | observersSetup
  | performanceEnable
  | coverageSetup
deriving DecidableEq, Repr

/-- Whether an arm of the setup stage talks to the browser; the others return
    `Ok` at their first poll. -/
def ApplyArm.requested (req : SummaryRequest) : ApplyArm → Bool
  | viewport => req.width.isSome || req.height.isSome || req.deviceScaleFactor.isSome
  | touchEmulation => req.touch
  | userAgent => true
  | extraHeaders => !req.headers.isEmpty
  | timezone => req.timezone.isSome
  | locale => req.locale.isSome
  | geolocation => req.geolocation.isSome
  | cookies => !req.cookies.isEmpty
  | cacheDisabled => req.disableCache
  | blockedUrls => !req.blockUrls.isEmpty
  -- names that parse to no resource type do not count
  | requestInterception =>
      !(req.blockResourceTypes.filterMap parseResourceType).isEmpty || req.ssrfGuard
  | disableJavascript => req.disableJavascript
  -- a factor of one or less is no throttling
  | cpuThrottle =>
      match req.cpuThrottle with
      | some r => 1 < r
      | none => false
  | observersSetup => req.webVitals || req.domMutations
  | performanceEnable => req.metrics
  | coverageSetup => req.coverage

/-- The arms of the output-format `try_join!`. -/
inductive FormatArm where
  | data
  | pdf
  | domSnapshot
  | webVitals
  | domMutations
  | metrics
  | metadata
  | renderBlocking
  | serviceWorker
  | imageSizing
  | resourceHints
  | fontAudit
  | securityScan
deriving DecidableEq, Repr

/-- Whether an arm of the format stage talks to the browser. -/
def FormatArm.requested (req : SummaryRequest) : FormatArm → Bool
  | data => true
  | pdf => req.pdf
  | domSnapshot => req.saveDomSnapshot
  | webVitals => req.webVitals
  | domMutations => req.domMutations
  | metrics => req.metrics
  | metadata => req.metadata
  | renderBlocking => req.renderBlocking
  | serviceWorker => req.serviceWorker
  | imageSizing => req.imageSizing
  | resourceHints => req.resourceHints
  | fontAudit => req.fontAudit
  | securityScan => req.securityScan

/-- The setup arms that are pending after the first poll of the join. -/
def applyArms (req : SummaryRequest) : List ApplyArm :=
  [.viewport, .touchEmulation, .userAgent, .extraHeaders, .timezone, .locale, .geolocation,
    .cookies, .cacheDisabled, .blockedUrls, .requestInterception, .disableJavascript,
    .cpuThrottle, .observersSetup, .performanceEnable, .coverageSetup].filter (·.requested req)

/-- The format arms that are pending after the first poll of the join. -/
def formatArms (req : SummaryRequest) : List FormatArm :=
  [.data, .pdf, .domSnapshot, .webVitals, .domMutations, .metrics, .metadata, .renderBlocking,
    .serviceWorker, .imageSizing, .resourceHints, .fontAudit, .securityScan].filter
      (·.requested req)

/-- Where a running `capture` stands. -/
inductive Stage where
  /-- At the await of `Target.createBrowserContext`. -/
  | createContext
  /-- Building the `CreateTargetParams`; no await. -/
  | targetParams
  /-- At the await of `browser.new_page`. -/
  | newPage
  /-- In the setup `try_join!`, with the arms still pending. -/
  | apply (pending : List ApplyArm)
  /-- At the await of `collect_summary`. -/
  | collect
  /-- At the await of `wait_for_selector`. -/
  | waitForElement
  /-- At the await of `wait_for_function`. -/
  | waitForFunction
  /-- At the await of the settle sleep. -/
  | settle
  /-- At the await of `page.evaluate(script)`. -/
  | script
  /-- In the output-format `try_join!`, with the arms still pending. -/
  | format (pending : List FormatArm)
  /-- All outputs are in; the teardown task is spawned next. -/
  | teardown
deriving DecidableEq, Repr

namespace Stage

/-- After the user's script. -/
def afterScript (req : SummaryRequest) : Stage := format (formatArms req)

/-- After the settle sleep. -/
def afterSettle (req : SummaryRequest) : Stage :=
  if req.script.isSome then script else afterScript req

/-- After `wait_for_function`. -/
def afterFunction (req : SummaryRequest) : Stage :=
  if req.settle.isSome then settle else afterSettle req

/-- After `wait_for_selector`. -/
def afterElement (req : SummaryRequest) : Stage :=
  if req.waitForFunction.isSome then waitForFunction else afterFunction req

/-- After `collect_summary`. -/
def afterCollect (req : SummaryRequest) : Stage :=
  if req.waitForElement.isSome then waitForElement else afterElement req

/-- The stage after the current one came back with `Ok`.  A join is left only
    when none of its arms is pending; `teardown` is the last. -/
def next (req : SummaryRequest) : Stage → Option Stage
  | createContext => some targetParams
  | targetParams => some newPage
  | newPage => some (apply (applyArms req))
  | apply [] => some collect
  | apply (_ :: _) => none
  | collect => some (afterCollect req)
  | waitForElement => some (afterElement req)
  | waitForFunction => some (afterFunction req)
  | settle => some (afterSettle req)
  | script => some (afterScript req)
  | format [] => some teardown
  | format (_ :: _) => none
  | teardown => none

/-- The stage with the `k`-th pending arm of its join completed. -/
def completeArm (k : Nat) : Stage → Option Stage
  | apply pending => if k < pending.length then some (apply (pending.eraseIdx k)) else none
  | format pending => if k < pending.length then some (format (pending.eraseIdx k)) else none
  | _ => none

/-- Whether the stage can come back with an error that `?` returns. -/
def fallible : Stage → Bool
  | apply [] | format [] | settle | teardown => false
  | _ => true

/-- Whether the task is suspended at the stage, so that the deadline can drop
    the future there. -/
def awaits : Stage → Bool
  | apply [] | format [] | targetParams | teardown => false
  | _ => true

end Stage
end Capture
end BrowserHeadless
