/-
  BrowserHeadless.Capture.One

  `capture_one` and `capture_one_queued` (src/capture.rs): a query from its validation to the
  capture it ends with.

  `toRequest` is the request that a query makes of the browser, `captureOneUnmetered` the
  pipeline in virtual time: validation, the wait for a slot of the pool, the capture under the
  hard deadline, the shape of the answer.  What the pool and the browser do, and when, is a
  parameter, and either may never answer (`captureOneUnmetered_answers`).

  A content-only capture suppresses whatever else the query asks for.  `forContent` is what is
  left of the query and of the page then; nothing else can be seen in the answer
  (`captureOneUnmetered_content`).
-/

import BrowserHeadless.Capture.Cookies
import BrowserHeadless.Capture.Preflight
import BrowserHeadless.Capture.Report
import BrowserHeadless.Ssrf.Interception

namespace BrowserHeadless
namespace Capture

open Collect (Instant ParsedUrl)
open Ssrf (UrlParser Resolver)

/-! ## The request -/

/-- The value of a double; the decoder of a query lets no others than finite ones through. -/
def toRat (x : Lib.F64) : ℚ :=
  match x.value with
  | .finite neg units => (if neg then -1 else 1) * (units / 2 ^ 1074)
  | _ => 0

/-- `geolocation`: it takes both coordinates. -/
def geolocationOf (q : SummaryQuery) : Option (ℚ × ℚ × ℚ) :=
  match q.latitude, q.longitude with
  | some latitude, some longitude =>
      some (toRat latitude, toRat longitude, (q.accuracy.map toRat).getD 100)
  | _, _ => none

/-- The `SummaryRequest` of a query; `order` is the one in which its headers are visited. -/
def toRequest (ctx : CaptureCtx) (order : SummaryQuery.HeaderOrder) (q : SummaryQuery) :
    ReportRequest :=
  let lean := q.contentOnly
  { url := q.url
    timeout := fromMillis q.timeoutMs.toNat
    screenshot := q.screenshot && !lean
    waitForRequest := q.waitForRequest
    waitUntilLoad := q.waitUntilLoad
    width := q.width.map UInt32.toNat
    height := q.height.map UInt32.toNat
    deviceScaleFactor := q.deviceScaleFactor.map toRat
    cookies := (q.cookie.map parseCookieHeader).getD []
    timezone := q.timezone
    locale := q.locale
    geolocation := geolocationOf q
    cpuThrottle := q.cpuThrottle.map toRat
    touch := q.touch
    headers := (order.entries q.headers).map fun e => (e.1, e.2)
    blockUrls := q.blockUrls
    blockResourceTypes := q.blockResourceTypes
    ssrfGuard := !ctx.allowPrivateIps
    disableCache := q.disableCache
    waitForElement := q.waitForElement
    waitForFunction := q.waitForFunction
    settle := q.settleMs.map fun ms => fromMillis ms.toNat
    script := q.script
    captureElement := q.captureElement
    dataFormat := q.dataFormat
    normalizeCustomElements := q.normalizeCustomElements.getD true
    disableJavascript := q.disableJavascript
    contentOnly := lean
    -- binary captures are on explicit request only
    pdf := q.pdf && !lean
    har := q.har && !lean
    saveDomSnapshot := q.saveDomSnapshot && !lean
    webVitals := !lean && (q.webVitals || q.allMetrics)
    metrics := !lean && (q.metrics || q.allMetrics)
    metadata := !lean && (q.metadata || q.allMetrics)
    renderBlocking := !lean && (q.renderBlocking || q.allMetrics)
    serviceWorker := !lean && (q.serviceWorker || q.allMetrics)
    initiators := !lean && (q.initiators || q.allMetrics)
    consoleMessages := !lean && (q.consoleMessages || q.allMetrics)
    imageSizing := !lean && (q.imageSizing || q.allMetrics)
    domMutations := !lean && (q.domMutations || q.allMetrics)
    resources := !lean && (q.resources || q.allMetrics)
    httpErrors := !lean && (q.httpErrors || q.allMetrics)
    -- `all_metrics` leaves the coverage alone
    coverage := q.coverage && !lean
    resourceHints := !lean && (q.resourceHints || q.allMetrics)
    fontAudit := !lean && (q.fontAudit || q.allMetrics)
    securityScan := !lean && (q.securityScan || q.allMetrics)
    collectCookies := !lean && (q.cookies || q.allMetrics) }

/-! ## The answer -/

/-- `ContentResponse`. -/
structure ContentResponse where
  status : Nat
  finalUrl : String
  charCount : Nat
  data : String
deriving DecidableEq, Repr

/-- `Captured`. -/
inductive Captured (V : Type) where
  | content (body : ContentResponse)
  | full (stat : WebPageStat V)

/-- The end of `capture_one_unmetered`. -/
def shape {V : Type} (lean : Bool) (requestedUrl : String) (stat : WebPageStat V) : Captured V :=
  if lean then
    let landed := Collect.contentResponse requestedUrl stat.documentTiming
    .content
      { status := landed.status
        finalUrl := landed.finalUrl
        charCount := stat.data.length
        data := stat.data }
  else .full stat

/-! ## The pipeline -/

/-- `tokio::time::timeout` of something that is ready after some time, if ever: its value, or
    `none` when the limit comes first, and when that is. -/
def timeoutAfter {α : Type} (limit : Instant) (ready : Option (Instant × α)) :
    Option α × Instant :=
  match ready with
  | some (t, a) => if t ≤ limit then (some a, t) else (none, limit)
  | none => (none, limit)

/-- The settings of `capture_one`, with those of the validation. -/
structure CaptureLimits extends CaptureConfig where
  checkoutWaitMs : UInt64
  deadlineBufferMs : UInt64
  /-- `job_ttl`, in milliseconds. -/
  jobTtlMs : UInt64

/-- What one capture meets: the resolver, the pool and the page, each with the time it takes;
    `none` for what never answers. -/
structure Surroundings (V : Type) where
  dns : Resolver
  /-- How long a lookup takes. -/
  dnsTime : Instant
  /-- `ctx.pool.checkout()`. -/
  checkout : Option (Instant × Except Unit Unit)
  headerOrder : SummaryQuery.HeaderOrder
  orders : MapOrders
  page : Page V
  /-- How long `browser::capture` takes over a request. -/
  captureTime : ReportRequest → Option Instant

section

variable {V : Type} (limits : CaptureLimits) (ctx : CaptureCtx) (parse : UrlParser)
  (lower : String → String) (parseUrl : String → Option ParsedUrl)

/-- What the caller is told of the answer of the pool. -/
def slotAnswer : Except Unit Unit → Except CaptureError Unit
  | .ok () => .ok ()
  | .error () => .error ⟨.serviceUnavailable, "browser pool unavailable; retry shortly"⟩

/-- The wait for a slot; a wait of zero has no bound. -/
def acquire (waitMs : UInt64) (w : Surroundings V) : Option (Except CaptureError Unit × Instant) :=
  if waitMs = 0 then w.checkout.map fun (t, r) => (slotAnswer r, t)
  else
    match timeoutAfter (fromMillis waitMs.toNat) w.checkout with
    | (some r, t) => some (slotAnswer r, t)
    | (none, t) =>
        some (.error ⟨.serviceUnavailable, "browser pool saturated; no slot within " ++
          toString waitMs.toNat ++ "ms, retry shortly"⟩, t)

/-- The deadline of the whole capture. -/
def totalDeadline (q : SummaryQuery) : Instant :=
  fromMillis q.timeoutMs.toNat + fromMillis limits.deadlineBufferMs.toNat

/-- The capture under the hard deadline. -/
def captureUnderDeadline (w : Surroundings V) (q : SummaryQuery) :
    Except CaptureError (Captured V) × Instant :=
  let req := toRequest ctx w.headerOrder q
  let ran := (w.captureTime req).map fun t => (t, capture w.orders lower parseUrl w.page req)
  match timeoutAfter (totalDeadline limits q) ran with
  | (some (.ok stat), t) => (.ok (shape q.contentOnly q.url stat), t)
  | (some (.error e), t) => (.error (CaptureError.fromBrowser e), t)
  | (none, t) =>
      (.error ⟨.gatewayTimeout, "total request deadline " ++
        toString (asMillis (totalDeadline limits q)) ++ "ms exceeded (timeout_ms=" ++
        toString q.timeoutMs.toNat ++ " + " ++ toString limits.deadlineBufferMs.toNat ++
        "ms buffer)"⟩, t)

/-- The time of the validation: that of the lookup, where there is one. -/
def lookupTime (w : Surroundings V) (query : SummaryQuery) : Instant :=
  if looksUp limits.toCaptureConfig ctx parse query then w.dnsTime else 0

/-- `capture_one_unmetered`: the answer and when it comes, or `none` when it waits for a slot
    for ever. -/
def captureOneUnmetered (w : Surroundings V) (query : SummaryQuery) (checkoutWait : UInt64) :
    Option (Except CaptureError (Captured V) × Instant) :=
  let checked := lookupTime limits ctx parse w query
  match beforeCheckout limits.toCaptureConfig ctx parse w.dns query with
  | .error e => some (.error e, checked)
  | .ok q =>
      match acquire checkoutWait w with
      | none => none
      | some (.error e, t) => some (.error e, checked + t)
      | some (.ok (), t) =>
          let (answer, t') := captureUnderDeadline limits ctx lower parseUrl w q
          some (answer, checked + t + t')

/-- `capture_one`. -/
def captureOne (w : Surroundings V) (q : SummaryQuery) :
    Option (Except CaptureError (Captured V) × Instant) :=
  captureOneUnmetered limits ctx parse lower parseUrl w q limits.checkoutWaitMs

/-- `capture_one_queued`. -/
def captureOneQueued (w : Surroundings V) (q : SummaryQuery) :
    Option (Except CaptureError (Captured V) × Instant) :=
  captureOneUnmetered limits ctx parse lower parseUrl w q limits.jobTtlMs

/-! ## The time of an answer -/

variable {limits ctx parse lower parseUrl}

variable (limits ctx parse) in
theorem lookupTime_le (w : Surroundings V) (query : SummaryQuery) :
    lookupTime limits ctx parse w query ≤ w.dnsTime := by
  rw [lookupTime]
  split
  next => exact le_refl w.dnsTime
  next => exact Nat.zero_le w.dnsTime

theorem timeoutAfter_le {α : Type} (limit : Instant) (ready : Option (Instant × α)) :
    (timeoutAfter limit ready).2 ≤ limit := by
  unfold timeoutAfter
  split
  next t a =>
      split
      next h => exact h
      next => exact le_refl limit
  next => exact le_refl limit

/-- A value that comes was ready. -/
theorem eq_some_of_timeoutAfter {α : Type} {limit t : Instant} {ready : Option (Instant × α)}
    {a : α} (h : timeoutAfter limit ready = (some a, t)) : ready = some (t, a) := by
  unfold timeoutAfter at h
  split at h
  next t' a' =>
      split at h
      next =>
          obtain ⟨ha, rfl⟩ := Prod.mk.inj h
          rw [Option.some.inj ha]
      next => cases h
  next => cases h

/-- A bounded wait ends in time, with a slot or with a 503. -/
theorem acquire_answers {waitMs : UInt64} (hwait : waitMs ≠ 0) (w : Surroundings V) :
    ∃ r t, acquire waitMs w = some (r, t) ∧ t ≤ fromMillis waitMs.toNat ∧
      ∀ e, r = .error e → e.statusU16 = 503 := by
  have hle := timeoutAfter_le (fromMillis waitMs.toNat) w.checkout
  rw [acquire, if_neg hwait]
  split
  next r t hr =>
      rw [hr] at hle
      refine ⟨slotAnswer r, t, rfl, hle, fun e he => ?_⟩
      cases r with
      | ok slot => cases he
      | error u =>
          rw [← Except.error.inj he]
          rfl
  next t ht =>
      rw [ht] at hle
      refine ⟨_, t, rfl, hle, fun e he => ?_⟩
      rw [← Except.error.inj he]
      rfl

/-- The statuses with which a capture can fail. -/
def captureStatuses : List Nat := [400, 403, 404, 408, 500, 502, 503, 504]

theorem statusU16_fromBrowser (e : Error) :
    (CaptureError.fromBrowser e).statusU16 ∈ captureStatuses := by
  cases e with
  | cdp m => exact (by decide : (500 : Nat) ∈ captureStatuses)
  | notFound m => exact (by decide : (404 : Nat) ∈ captureStatuses)
  | timeout m => exact (by decide : (408 : Nat) ∈ captureStatuses)
  | upstreamFailure status url => exact (by decide : (502 : Nat) ∈ captureStatuses)
  | invalidInput m => exact (by decide : (400 : Nat) ∈ captureStatuses)

/-- The deadline ends every capture. -/
theorem captureUnderDeadline_answers (limits : CaptureLimits) (ctx : CaptureCtx)
    (lower : String → String) (parseUrl : String → Option ParsedUrl) (w : Surroundings V)
    (q : SummaryQuery) :
    (captureUnderDeadline limits ctx lower parseUrl w q).2 ≤ totalDeadline limits q ∧
      ∀ e, (captureUnderDeadline limits ctx lower parseUrl w q).1 = .error e →
        e.statusU16 ∈ captureStatuses := by
  have hle := timeoutAfter_le (totalDeadline limits q)
    ((w.captureTime (toRequest ctx w.headerOrder q)).map fun t =>
      (t, capture w.orders lower parseUrl w.page (toRequest ctx w.headerOrder q)))
  simp only [captureUnderDeadline]
  split
  next stat t ht =>
      rw [ht] at hle
      exact ⟨hle, fun e he => by cases he⟩
  next err t ht =>
      rw [ht] at hle
      refine ⟨hle, fun e he => ?_⟩
      rw [← Except.error.inj he]
      exact statusU16_fromBrowser err
  next t ht =>
      rw [ht] at hle
      refine ⟨hle, fun e he => ?_⟩
      rw [← Except.error.inj he]
      exact (by decide : (504 : Nat) ∈ captureStatuses)

theorem validateUrl_error {raw : String} {e : CaptureError} (h : validateUrl parse raw = .error e) :
    e.statusU16 = 400 := by
  rw [validateUrl] at h
  split at h
  next =>
      rw [← Except.error.inj h]
      rfl
  next =>
      split at h
      next => cases h
      next =>
          rw [← Except.error.inj h]
          rfl

theorem checkSsrf_error {dns : Resolver} {url : Ssrf.Url} {e : CaptureError}
    (h : checkSsrf dns url = .error e) : e.statusU16 = 400 ∨ e.statusU16 = 403 := by
  rw [checkSsrf] at h
  split at h
  next => cases h
  next =>
      rw [← Except.error.inj h]
      exact Or.inl rfl
  next =>
      rw [← Except.error.inj h]
      exact Or.inl rfl
  next =>
      rw [← Except.error.inj h]
      exact Or.inr rfl

/-- What is refused before the checkout is a bad request or forbidden. -/
theorem beforeCheckout_error {cfg : CaptureConfig} {dns : Resolver} {q : SummaryQuery}
    {e : CaptureError} (h : beforeCheckout cfg ctx parse dns q = .error e) :
    e.statusU16 = 400 ∨ e.statusU16 = 403 := by
  simp only [beforeCheckout] at h
  split at h
  next =>
      rw [← Except.error.inj h]
      exact Or.inr rfl
  next =>
      split at h
      next err hvalid =>
          rw [← Except.error.inj h]
          exact Or.inl (validateUrl_error hvalid)
      next url hvalid =>
          split at h
          next => cases h
          next =>
              split at h
              next err hssrf =>
                  rw [← Except.error.inj h]
                  exact checkSsrf_error hssrf
              next => cases h

/-- A content object for a content-only query, the whole report for any other; the content is
    counted as it is. -/
structure IsFor (query : SummaryQuery) (c : Captured V) : Prop where
  content : (applyProfile query).contentOnly = true →
    ∃ body, c = .content body ∧ body.charCount = body.data.length
  full : (applyProfile query).contentOnly = false → ∃ stat, c = .full stat

theorem normalize_contentOnly (cfg : CaptureConfig) (q : SummaryQuery) :
    (normalize cfg q).contentOnly = (applyProfile q).contentOnly := rfl

theorem isFor_shape {query : SummaryQuery} {lean : Bool} {url : String} {stat : WebPageStat V}
    (h : (applyProfile query).contentOnly = lean) : IsFor query (shape lean url stat) := by
  constructor
  case content =>
    intro hlean
    rw [← h, hlean]
    exact ⟨_, rfl, rfl⟩
  case full =>
    intro hfull
    rw [← h, hfull]
    exact ⟨stat, rfl⟩

/-- A maximum bounds what it clamps. -/
theorem clampTimeoutMs_le {max : UInt64} (hmax : max ≠ 0) (requested : UInt64) :
    (clampTimeoutMs max requested).toNat ≤ max.toNat := by
  have hpos : 1 ≤ max.toNat := by
    rw [Nat.one_le_iff_ne_zero]
    intro hzero
    exact hmax (UInt64.toNat_inj.mp (by rw [hzero]; rfl))
  rw [clampTimeoutMs, if_neg hmax]
  split
  next => exact hpos
  next =>
      split
      next => exact le_refl _
      next hle => exact UInt64.le_iff_toNat_le.mp (UInt64.not_lt.mp hle)

@[simp] theorem normalize_timeoutMs (cfg : CaptureConfig) (q : SummaryQuery) :
    (normalize cfg q).timeoutMs = clampTimeoutMs cfg.maxTimeoutMs q.timeoutMs := by
  unfold normalize applyProfile
  split <;> rfl

theorem fromMillis_mono {m n : Nat} (h : m ≤ n) : fromMillis m ≤ fromMillis n :=
  Nat.mul_le_mul_right 1000000 h

theorem totalDeadline_normalize_le (hmax : limits.maxTimeoutMs ≠ 0) (query : SummaryQuery) :
    totalDeadline limits (normalize limits.toCaptureConfig query) ≤
      fromMillis limits.maxTimeoutMs.toNat + fromMillis limits.deadlineBufferMs.toNat := by
  rw [totalDeadline, normalize_timeoutMs]
  exact Nat.add_le_add_right (fromMillis_mono (clampTimeoutMs_le hmax query.timeoutMs)) _

/-- What a capture that succeeds is made of. -/
theorem captureOneUnmetered_ok {w : Surroundings V} {query : SummaryQuery} {checkoutWait : UInt64}
    {c : Captured V} {t : Instant}
    (h : captureOneUnmetered limits ctx parse lower parseUrl w query checkoutWait =
      some (.ok c, t)) :
    ∃ stat, capture w.orders lower parseUrl w.page
        (toRequest ctx w.headerOrder (normalize limits.toCaptureConfig query)) = .ok stat ∧
      c = shape (normalize limits.toCaptureConfig query).contentOnly query.url stat := by
  simp only [captureOneUnmetered] at h
  split at h
  next => cases h
  next q hq =>
      obtain ⟨rfl, -⟩ := beforeCheckout_ok hq
      split at h
      next => cases h
      next => cases h
      next slot t' hslot =>
          have hcaptured := (Prod.mk.inj (Option.some.inj h)).1
          simp only [captureUnderDeadline] at hcaptured
          split at hcaptured
          next stat ran hran =>
              obtain ⟨time, -, hran⟩ := Option.map_eq_some_iff.mp (eq_some_of_timeoutAfter hran)
              refine ⟨stat, (Prod.mk.inj hran).2, ?_⟩
              rw [← Except.ok.inj hcaptured, normalize_url]
          next => cases hcaptured
          next => cases hcaptured

/-- A capture that succeeds is of the kind that was asked for. -/
theorem captureOneUnmetered_isFor {w : Surroundings V} {query : SummaryQuery}
    {checkoutWait : UInt64} {c : Captured V} {t : Instant}
    (h : captureOneUnmetered limits ctx parse lower parseUrl w query checkoutWait =
      some (.ok c, t)) : IsFor query c := by
  obtain ⟨stat, -, rfl⟩ := captureOneUnmetered_ok h
  exact isFor_shape (normalize_contentOnly _ query).symm

/-- The errors of a capture. -/
theorem captureOneUnmetered_status {w : Surroundings V} {query : SummaryQuery}
    {checkoutWait : UInt64} (hwait : checkoutWait ≠ 0) {e : CaptureError} {t : Instant}
    (h : captureOneUnmetered limits ctx parse lower parseUrl w query checkoutWait =
      some (.error e, t)) : e.statusU16 ∈ captureStatuses := by
  obtain ⟨r, t', hr, -, hbusy⟩ := acquire_answers hwait w
  simp only [captureOneUnmetered, hr] at h
  split at h
  next err herr =>
      rw [← Except.error.inj (Prod.mk.inj (Option.some.inj h)).1]
      rcases beforeCheckout_error herr with hstatus | hstatus <;> rw [hstatus] <;> decide
  next q hq =>
      cases r with
      | error err =>
          rw [← Except.error.inj (Prod.mk.inj (Option.some.inj h)).1, hbusy err rfl]
          decide
      | ok slot =>
          exact (captureUnderDeadline_answers limits ctx lower parseUrl w q).2 e
            (Prod.mk.inj (Option.some.inj h)).1

/-- With a bounded wait for the slot there is an answer, and in time. -/
theorem captureOneUnmetered_time (limits : CaptureLimits) (ctx : CaptureCtx) (parse : UrlParser)
    (lower : String → String) (parseUrl : String → Option ParsedUrl) (w : Surroundings V)
    (query : SummaryQuery) {checkoutWait : UInt64} (hwait : checkoutWait ≠ 0) :
    ∃ answer t, captureOneUnmetered limits ctx parse lower parseUrl w query checkoutWait =
        some (answer, t) ∧
      (limits.maxTimeoutMs ≠ 0 → t ≤ w.dnsTime + fromMillis checkoutWait.toNat +
        (fromMillis limits.maxTimeoutMs.toNat + fromMillis limits.deadlineBufferMs.toNat)) := by
  have hlookup := lookupTime_le limits ctx parse w query
  rw [captureOneUnmetered]
  dsimp only
  split
  next e he =>
      -- refused before the pool is asked
      exact ⟨.error e, _, rfl, fun _ => (hlookup.trans (Nat.le_add_right w.dnsTime
        (fromMillis checkoutWait.toNat))).trans (Nat.le_add_right _ _)⟩
  next q hq =>
      obtain ⟨rfl, -⟩ := beforeCheckout_ok hq
      obtain ⟨r, t, hr, hle, -⟩ := acquire_answers hwait w
      have hslot := Nat.add_le_add hlookup hle
      rw [hr]
      cases r with
      | error e => exact ⟨.error e, _, rfl, fun _ => hslot.trans (Nat.le_add_right _ _)⟩
      | ok slot =>
          obtain ⟨htime, -⟩ := captureUnderDeadline_answers limits ctx lower parseUrl w
            (normalize limits.toCaptureConfig query)
          exact ⟨_, _, rfl, fun hmax => Nat.add_le_add hslot
            (htime.trans (totalDeadline_normalize_le hmax query))⟩

/-- Every capture with a bounded wait for its slot is answered, whatever the pool and the
    browser do and whatever the query asks for: in time, with a capture of the kind that it
    asked for, or with one of the errors of a capture. -/
theorem captureOneUnmetered_answers (limits : CaptureLimits) (ctx : CaptureCtx) (parse : UrlParser)
    (lower : String → String) (parseUrl : String → Option ParsedUrl) (w : Surroundings V)
    (query : SummaryQuery) {checkoutWait : UInt64} (hwait : checkoutWait ≠ 0) :
    ∃ answer t, captureOneUnmetered limits ctx parse lower parseUrl w query checkoutWait =
        some (answer, t) ∧
      (limits.maxTimeoutMs ≠ 0 → t ≤ w.dnsTime + fromMillis checkoutWait.toNat +
        (fromMillis limits.maxTimeoutMs.toNat + fromMillis limits.deadlineBufferMs.toNat)) ∧
      (∀ c, answer = .ok c → IsFor query c) ∧
      ∀ e, answer = .error e → e.statusU16 ∈ captureStatuses := by
  obtain ⟨answer, t, h, htime⟩ := captureOneUnmetered_time limits ctx parse lower parseUrl w
    query hwait
  refine ⟨answer, t, h, htime, ?_, ?_⟩
  · rintro c rfl
    exact captureOneUnmetered_isFor h
  · rintro e rfl
    exact captureOneUnmetered_status hwait h

/-- A browser that does not answer. -/
def deadPage : Page Unit where
  setup := fun _ => .error (.cdp "")
  navigate := .error (.cdp "")
  start := 0
  timeline := ⟨[], .nil, fun _ h => absurd h List.not_mem_nil⟩
  timerWins := fun _ => false
  leanTimerWins := fun _ => false
  getCookies := .error (.cdp "")
  captureScreenshot := .error (.cdp "")
  takePreciseCoverage := .error (.cdp "")
  stopRuleUsageTracking := .error (.cdp "")
  clock := fun _ => 0
  findElement := fun _ _ => .error (.cdp "")
  evaluate := fun _ _ => .error (.cdp "")
  content := .error (.cdp "")
  outerHtml := fun _ => .error (.cdp "")
  extractText := fun _ => .error (.cdp "")
  normalizeDom := fun _ => .error (.cdp "")
  convert := fun _ => .error ""
  printToPdf := .error (.cdp "")
  captureSnapshot := .error (.cdp "")
  webVitals := .error (.cdp "")
  domMutations := .error (.cdp "")
  metrics := .error (.cdp "")
  metadata := .error (.cdp "")
  renderBlocking := .error (.cdp "")
  serviceWorker := .error (.cdp "")
  imageSizing := .error (.cdp "")
  resourceHints := .error (.cdp "")
  fontAudit := .error (.cdp "")
  securityScan := .error (.cdp "")

/-- The sample URL resolves; neither the pool nor the browser ever answers. -/
noncomputable def deadSurroundings : Surroundings Unit where
  dns := Ssrf.sampleResolver
  dnsTime := fromMillis 5
  checkout := none
  headerOrder := .arbitrary
  orders := ⟨.arbitrary, .arbitrary, .arbitrary, .arbitrary, .arbitrary, .arbitrary⟩
  page := deadPage
  captureTime := fun _ => none

/-- A page that loads after 200 ms, with a script that is not there and one that breaks. -/
def loadedPage : Collect.Timeline Collect.Event 0 where
  deliveries :=
    [{ now := 100000000, ev := .lifecycle ⟨"init", 1⟩ },
      { Collect.FullLoop.answer "1" .document "https://example.com/" 200 with now := 150000000 },
      { Collect.FullLoop.answer "2" .script "https://example.com/x.js" 404 with now := 180000000 },
      { Collect.FullLoop.reset "3" 3 with now := 190000000 },
      { now := 200000000, ev := .lifecycle ⟨"load", 2⟩ }]
  ordered := ⟨by decide, fun _ _ => Nat.zero_le _⟩

/-- A browser that loads it and answers what is asked most. -/
def livePage : Page Unit :=
  { deadPage with
    setup := fun _ => .ok ()
    navigate := .ok ()
    start := 0
    timeline := loadedPage
    extractText := fun _ => .ok "text"
    webVitals := .ok ()
    metrics := .ok ()
    metadata := .ok () }

/-- The page in a pool with a free slot. -/
noncomputable def liveSurroundings : Surroundings Unit :=
  { deadSurroundings with
    checkout := some (0, .ok ())
    page := livePage
    captureTime := fun _ => some (fromMillis 350) }

/-- The default settings. -/
def defaultLimits : CaptureLimits where
  maxTimeoutMs := 120000
  maxSettleMs := 30000
  disableScript := false
  checkoutWaitMs := 30000
  deadlineBufferMs := 10000
  jobTtlMs := 3600000

/-- With a saturated pool the caller is told within the 30 s that it waits for a slot. -/
theorem captureOneUnmetered_answers_dead :
    ∃ answer t, captureOneUnmetered defaultLimits ⟨false⟩ Ssrf.sampleParser id (fun _ => none)
        deadSurroundings Ssrf.sampleQuery 30000 = some (answer, t) ∧
      (defaultLimits.maxTimeoutMs ≠ 0 → t ≤ fromMillis 5 + fromMillis 30000 +
        (fromMillis 120000 + fromMillis 10000)) ∧
      (∀ c, answer = .ok c → IsFor Ssrf.sampleQuery c) ∧
      ∀ e, answer = .error e → e.statusU16 ∈ captureStatuses :=
  captureOneUnmetered_answers defaultLimits ⟨false⟩ Ssrf.sampleParser id (fun _ => none)
    deadSurroundings Ssrf.sampleQuery (by decide)

/-! ## The screenshot -/

@[simp] theorem WebPageStat.screenshot_addScan (raw : Option (SecurityScan V))
    (stat : WebPageStat V) : (stat.addScan raw).screenshot = stat.screenshot := by
  cases raw <;> rfl

@[simp] theorem WebPageStat.screenshot_addImages (raw : Option (List Images.ImageSizing))
    (stat : WebPageStat V) : (stat.addImages raw).screenshot = stat.screenshot := by
  cases raw <;> rfl

@[simp] theorem WebPageStat.screenshot_addHar (har : Bool) (url : String)
    (stat : WebPageStat V) : (stat.addHar har url).screenshot = stat.screenshot := by
  cases har <;> rfl

@[simp] theorem WebPageStat.screenshot_addHints (parseUrl : String → Option ParsedUrl)
    (raw : Option Summary.RawResourceHints) (stat : WebPageStat V) :
    (stat.addHints parseUrl raw).screenshot = stat.screenshot := by
  cases raw <;> rfl

@[simp] theorem WebPageStat.screenshot_dropResources (resources : Bool) (stat : WebPageStat V) :
    (stat.dropResources resources).screenshot = stat.screenshot := by
  cases resources <;> rfl

theorem WebPageStat.screenshot_derive (parseUrl : String → Option ParsedUrl) (req : ReportRequest)
    (reads : Reads V req.toSummaryRequest) (stat : WebPageStat V) :
    (stat.derive parseUrl req reads).screenshot = stat.screenshot := by
  simp only [WebPageStat.derive, WebPageStat.screenshot_dropResources,
    WebPageStat.screenshot_addHints, WebPageStat.screenshot_addHar,
    WebPageStat.screenshot_addImages, WebPageStat.screenshot_addScan]
  rfl

/-- A full capture that is asked for a screenshot has one, or fails. -/
theorem capture_screenshot {orders : MapOrders} {page : Page V} {req : ReportRequest}
    {stat : WebPageStat V} (hlean : req.contentOnly = false) (hshot : req.screenshot = true)
    (h : capture orders lower parseUrl page req = .ok stat) : stat.screenshot.isSome = true := by
  rw [capture] at h
  obtain ⟨-, -, h⟩ := Lib.bind_eq_ok.mp h
  obtain ⟨summary, hsummary, h⟩ := Lib.bind_eq_ok.mp h
  obtain ⟨-, -, h⟩ := Lib.bind_eq_ok.mp h
  obtain ⟨reads, -, h⟩ := Lib.bind_eq_ok.mp h
  have hfull : req.captures.lean = false := hlean
  rw [← Except.ok.inj h, WebPageStat.screenshot_derive]
  rw [collectSummary, hfull] at hsummary
  obtain ⟨-, -, h⟩ := Lib.bind_eq_ok.mp hsummary
  obtain ⟨⟨s, exit⟩, -, h⟩ := Lib.bind_eq_ok.mp h
  obtain ⟨cookies, -, h⟩ := Lib.bind_eq_ok.mp h
  obtain ⟨screenshot, hscreenshot, h⟩ := Lib.bind_eq_ok.mp h
  obtain ⟨coverage, -, h⟩ := Lib.bind_eq_ok.mp h
  rw [← Except.ok.inj h]
  have hasked : req.captures.screenshot = true := hshot
  rw [hasked] at hscreenshot
  obtain ⟨shot, -, hsome⟩ := Lib.bind_eq_ok.mp hscreenshot
  rw [← Except.ok.inj hsome]
  rfl

/-! ## Content only -/

/-- A request that asks for the content and nothing else. -/
structure ReportRequest.Bare (req : ReportRequest) : Prop where
  contentOnly : req.contentOnly = true
  screenshot : req.screenshot = false
  pdf : req.pdf = false
  har : req.har = false
  saveDomSnapshot : req.saveDomSnapshot = false
  webVitals : req.webVitals = false
  metrics : req.metrics = false
  metadata : req.metadata = false
  renderBlocking : req.renderBlocking = false
  serviceWorker : req.serviceWorker = false
  imageSizing : req.imageSizing = false
  domMutations : req.domMutations = false
  resources : req.resources = false
  resourceHints : req.resourceHints = false
  fontAudit : req.fontAudit = false
  securityScan : req.securityScan = false

/-- The browser calls of a content-only capture. -/
def captureContent (page : Page V) (req : ReportRequest) : Except Error (WebPageStat V) := do
  page.setup req.toSummaryRequest
  let stat ← collectSummaryLean page req.timeout req.waitForRequest req.waitUntilLoad
  postLoadWaits page req.toSummaryRequest req.timeout
  let data ← extractData page req.dataFormat req.captureElement req.normalizeCustomElements
  return { stat with data := data }

/-- Then `capture` makes these calls and no others. -/
theorem capture_bare (orders : MapOrders) (page : Page V) {req : ReportRequest} (h : req.Bare) :
    capture orders lower parseUrl page req = captureContent page req := by
  obtain ⟨⟨⟩⟩ := req
  obtain ⟨rfl, rfl, rfl, rfl, rfl, rfl, rfl, rfl, rfl, rfl, rfl, rfl, rfl, rfl, rfl, rfl⟩ := h
  simp only [capture, captureContent, collectSummary, ReportRequest.captures, if_true]
  refine bind_congr fun _ => ?_
  -- the lean loop, then arms that return at once but for the first
  simp only [bind_assoc, collectSummaryLean, pure_bind]
  refine bind_congr fun _ => bind_congr fun _ => bind_congr fun _ => ?_
  simp only [readPage, requested, gated, bind_assoc, pure_bind]
  refine bind_congr fun _ => ?_
  rfl

/-- The page without what a content-only capture does not look at. -/
def Page.forContent (page : Page V) : Page V :=
  { page with
    timerWins := fun _ => false
    getCookies := .error (.cdp "")
    captureScreenshot := .error (.cdp "")
    takePreciseCoverage := .error (.cdp "")
    stopRuleUsageTracking := .error (.cdp "")
    printToPdf := .error (.cdp "")
    captureSnapshot := .error (.cdp "")
    webVitals := .error (.cdp "")
    domMutations := .error (.cdp "")
    metrics := .error (.cdp "")
    metadata := .error (.cdp "")
    renderBlocking := .error (.cdp "")
    serviceWorker := .error (.cdp "")
    imageSizing := .error (.cdp "")
    resourceHints := .error (.cdp "")
    fontAudit := .error (.cdp "")
    securityScan := .error (.cdp "") }

/-- The query without what a content-only capture does not look at. -/
def SummaryQuery.forContent (q : SummaryQuery) : SummaryQuery :=
  { q with
    screenshot := false
    pdf := false
    har := false
    saveDomSnapshot := false
    webVitals := false
    metrics := false
    metadata := false
    renderBlocking := false
    serviceWorker := false
    initiators := false
    consoleMessages := false
    imageSizing := false
    domMutations := false
    resources := false
    httpErrors := false
    coverage := false
    resourceHints := false
    fontAudit := false
    cookies := false
    securityScan := false
    allMetrics := false
    requestId := none
    format := .json
    lang := .en
    profile := none }

theorem captureContent_forContent (page : Page V) (req : ReportRequest) :
    captureContent page.forContent req = captureContent page req := rfl

theorem toRequest_forContent (ctx : CaptureCtx) (order : SummaryQuery.HeaderOrder)
    {q : SummaryQuery} (h : q.contentOnly = true) :
    toRequest ctx order q.forContent = toRequest ctx order q := by
  simp only [toRequest, SummaryQuery.forContent, h, Bool.not_true, Bool.and_false, Bool.false_and]
  rfl

theorem bare_toRequest (ctx : CaptureCtx) (order : SummaryQuery.HeaderOrder) {q : SummaryQuery}
    (h : q.contentOnly = true) : (toRequest ctx order q).Bare := by
  constructor <;> simp [toRequest, h]

/-- What is looked at of a content-only query. -/
theorem SummaryQuery.eq_of_forContent {q q' : SummaryQuery} (h : q'.forContent = q.forContent) :
    q'.contentOnly = q.contentOnly ∧ q'.url = q.url ∧ q'.timeoutMs = q.timeoutMs ∧
      q'.script = q.script := by
  have hlean := congrArg SummaryQuery.contentOnly h
  have hurl := congrArg SummaryQuery.url h
  have htimeout := congrArg SummaryQuery.timeoutMs h
  have hscript := congrArg SummaryQuery.script h
  exact ⟨hlean, hurl, htimeout, hscript⟩

/-- Two queries that ask for the same content make one request of the browser. -/
theorem toRequest_content (ctx : CaptureCtx) (order : SummaryQuery.HeaderOrder)
    {q q' : SummaryQuery} (hlean : q.contentOnly = true) (hq : q'.forContent = q.forContent) :
    toRequest ctx order q' = toRequest ctx order q := by
  have hlean' : q'.contentOnly = true := (SummaryQuery.eq_of_forContent hq).1.trans hlean
  rw [← toRequest_forContent ctx order hlean', hq, toRequest_forContent ctx order hlean]

/-- A content-only capture of two pages that differ in what is not looked at. -/
theorem captureUnderDeadline_content (limits : CaptureLimits) (ctx : CaptureCtx)
    {w : Surroundings V} (orders : MapOrders) {page : Page V}
    {time : ReportRequest → Option Instant} (hpage : page.forContent = w.page.forContent)
    (htime : ∀ req, req.Bare → time req = w.captureTime req) {q q' : SummaryQuery}
    (hlean : q.contentOnly = true) (hq : q'.forContent = q.forContent)
    (lower lower' : String → String) (parseUrl parseUrl' : String → Option ParsedUrl) :
    captureUnderDeadline limits ctx lower' parseUrl'
        { w with orders := orders, page := page, captureTime := time } q' =
      captureUnderDeadline limits ctx lower parseUrl w q := by
  obtain ⟨hsame, hurl, htimeout, -⟩ := SummaryQuery.eq_of_forContent hq
  have hlean' : q'.contentOnly = true := hsame.trans hlean
  have hreq := toRequest_content ctx w.headerOrder hlean hq
  have hrun : capture orders lower' parseUrl' page (toRequest ctx w.headerOrder q') =
      capture w.orders lower parseUrl w.page (toRequest ctx w.headerOrder q) := by
    rw [hreq, capture_bare orders page (bare_toRequest ctx w.headerOrder hlean),
      capture_bare w.orders w.page (bare_toRequest ctx w.headerOrder hlean),
      ← captureContent_forContent, hpage, captureContent_forContent]
  -- one request, and so one time
  have hran : time (toRequest ctx w.headerOrder q') = w.captureTime (toRequest ctx w.headerOrder q) :=
    (congrArg time hreq).trans (htime _ (bare_toRequest ctx w.headerOrder hlean))
  simp only [captureUnderDeadline, totalDeadline, hrun, hran, hurl, htimeout, hlean, hlean']

/-- What the validation looks at is left of the query. -/
theorem beforeCheckout_forContent (cfg : CaptureConfig) (ctx : CaptureCtx) (parse : UrlParser)
    (dns : Resolver) {q q' : SummaryQuery}
    (hnormal : (normalize cfg q').forContent = (normalize cfg q).forContent) :
    (beforeCheckout cfg ctx parse dns q').map (fun _ => normalize cfg q) =
      beforeCheckout cfg ctx parse dns q := by
  obtain ⟨-, hurl, -, hscript⟩ := SummaryQuery.eq_of_forContent hnormal
  simp only [beforeCheckout, hscript, hurl]
  split
  next => rfl
  next =>
      cases validateUrl parse (normalize cfg q).url with
      | error e => rfl
      | ok url =>
          dsimp only
          split
          next => rfl
          next =>
              cases checkSsrf dns url with
              | error e => rfl
              | ok u => rfl

/-- Two queries that ask for the same content come to the lookup, or not, together. -/
theorem lookupTime_forContent (limits : CaptureLimits) (ctx : CaptureCtx) (parse : UrlParser)
    (w : Surroundings V) {q q' : SummaryQuery}
    (hnormal : (normalize limits.toCaptureConfig q').forContent =
      (normalize limits.toCaptureConfig q).forContent) :
    lookupTime limits ctx parse w q' = lookupTime limits ctx parse w q := by
  obtain ⟨-, hurl, -, hscript⟩ := SummaryQuery.eq_of_forContent hnormal
  simp only [lookupTime, looksUp, hurl, hscript]
  rfl

/-- Nothing but the content can be seen in a content-only capture.  Two queries that ask for
    the same content, whatever they ask for beyond it, make one request of the browser and
    have the same answer at the same time; and so have two pages that differ in what is beyond
    it only, in any order of the maps, if such a request takes as long on both. -/
theorem captureOneUnmetered_content (limits : CaptureLimits) (ctx : CaptureCtx) (parse : UrlParser)
    (lower lower' : String → String) (parseUrl parseUrl' : String → Option ParsedUrl)
    (w : Surroundings V) (orders : MapOrders) (page : Page V)
    (time : ReportRequest → Option Instant) (hpage : page.forContent = w.page.forContent)
    (htime : ∀ req, req.Bare → time req = w.captureTime req) (q q' : SummaryQuery)
    (hlean : (applyProfile q).contentOnly = true)
    (hq : (applyProfile q').forContent = (applyProfile q).forContent) (checkoutWait : UInt64) :
    toRequest ctx w.headerOrder (normalize limits.toCaptureConfig q') =
      toRequest ctx w.headerOrder (normalize limits.toCaptureConfig q) ∧
    captureOneUnmetered limits ctx parse lower' parseUrl'
        { w with orders := orders, page := page, captureTime := time } q' checkoutWait =
      captureOneUnmetered limits ctx parse lower parseUrl w q checkoutWait := by
  have hnormal : (normalize limits.toCaptureConfig q').forContent =
      (normalize limits.toCaptureConfig q).forContent :=
    congrArg (applyClamps limits.toCaptureConfig) hq
  have hnormalLean : (normalize limits.toCaptureConfig q).contentOnly = true := hlean
  refine ⟨toRequest_content ctx w.headerOrder hnormalLean hnormal, ?_⟩
  have hbefore := beforeCheckout_forContent limits.toCaptureConfig ctx parse w.dns hnormal
  have hlookup : lookupTime limits ctx parse
      { w with orders := orders, page := page, captureTime := time } q' =
        lookupTime limits ctx parse w q :=
    lookupTime_forContent limits ctx parse w hnormal
  simp only [captureOneUnmetered, hlookup]
  -- both are let through, or both are refused with one error
  cases hq' : beforeCheckout limits.toCaptureConfig ctx parse w.dns q' with
  | error e =>
      rw [hq'] at hbefore
      rw [← hbefore]
      rfl
  | ok query' =>
      rw [hq'] at hbefore
      rw [← hbefore, (beforeCheckout_ok hq').1]
      have hacquire : acquire checkoutWait
          { w with orders := orders, page := page, captureTime := time } =
            acquire checkoutWait w := rfl
      have hcapture := captureUnderDeadline_content limits ctx orders hpage htime hnormalLean
        hnormal lower lower' parseUrl parseUrl'
      simp only [hacquire, Except.map, hcapture]

/-- A screenshot, all metrics and a correlation id on top, a browser with a cookie, and one that
    takes its time over anything else than the content: the answer is the text of the page. -/
theorem captureOneUnmetered_content_live :
    captureOneUnmetered defaultLimits ⟨false⟩ Ssrf.sampleParser id (fun _ => none)
        { liveSurroundings with
          page := { livePage with getCookies := .ok [] }
          captureTime := fun req => if req.contentOnly then some (fromMillis 350) else none }
        { Ssrf.sampleQuery with
          contentOnly := true
          waitUntilLoad := true
          dataFormat := .text
          screenshot := true
          allMetrics := true
          requestId := some "r1" } 30000 =
      some (.ok (.content ⟨200, "https://example.com/", 4, "text"⟩), fromMillis 355) := by
  have hsame := captureOneUnmetered_content defaultLimits ⟨false⟩ Ssrf.sampleParser id id
    (fun _ => none) (fun _ => none) liveSurroundings liveSurroundings.orders
    { livePage with getCookies := .ok [] }
    (fun req => if req.contentOnly then some (fromMillis 350) else none) rfl
    (fun req hbare => by rw [hbare.contentOnly]; rfl)
    { Ssrf.sampleQuery with contentOnly := true, waitUntilLoad := true, dataFormat := .text }
    { Ssrf.sampleQuery with
      contentOnly := true
      waitUntilLoad := true
      dataFormat := .text
      screenshot := true
      allMetrics := true
      requestId := some "r1" } rfl rfl 30000
  exact hsame.2.trans rfl

end

end Capture
end BrowserHeadless
