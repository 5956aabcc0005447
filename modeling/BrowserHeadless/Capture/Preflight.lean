/-
  BrowserHeadless.Capture.Preflight

  What `capture_one_unmetered` (src/capture.rs) does before it asks the pool for a
  slot: it applies the profile and the clamps to the query, then refuses scripts
  that are disabled, URLs that are not `http(s)` and, unless private addresses are
  allowed, hosts that fail the SSRF test.
-/

import BrowserHeadless.Capture.Query
import BrowserHeadless.Error
import BrowserHeadless.Ssrf.Check

namespace BrowserHeadless
namespace Capture

open Ssrf (Url UrlParser Resolver HostPasses)

/-- The settings `capture_one_unmetered` reads from `config`. -/
structure CaptureConfig where
  maxTimeoutMs : UInt64
  maxSettleMs : UInt64
  disableScript : Bool
deriving DecidableEq, Repr

/-- `CaptureCtx`, less the pool. -/
structure CaptureCtx where
  allowPrivateIps : Bool
deriving DecidableEq, Repr

/-- `apply_profile`. -/
def applyProfile (q : SummaryQuery) : SummaryQuery :=
  match q.profile with
  | none => q
  | some .content => { q with contentOnly := true, waitUntilLoad := true }
  | some .scrape => { q with contentOnly := true, disableJavascript := true, waitUntilLoad := true }
  | some .audit => { q with allMetrics := true }
  | some .lighthouse => { q with allMetrics := true, coverage := true }

/-- `clamp_timeout_ms`; a maximum of zero means none. -/
def clampTimeoutMs (max requested : UInt64) : UInt64 :=
  if max = 0 then if requested < 1 then 1 else requested
  else if requested < 1 then 1
  else if max < requested then max
  else requested

/-- `clamp_settle_ms`. -/
def clampSettleMs (max requested : UInt64) : UInt64 :=
  if max = 0 then requested
  else if max < requested then max
  else requested

/-- `apply_clamps`. -/
def applyClamps (cfg : CaptureConfig) (q : SummaryQuery) : SummaryQuery :=
  { q with
    timeoutMs := clampTimeoutMs cfg.maxTimeoutMs q.timeoutMs
    settleMs := q.settleMs.map (clampSettleMs cfg.maxSettleMs) }

/-- The query the capture runs with. -/
def normalize (cfg : CaptureConfig) (q : SummaryQuery) : SummaryQuery :=
  applyClamps cfg (applyProfile q)

/-- `validate_url`. -/
def validateUrl (parse : UrlParser) (raw : String) : Except CaptureError Url :=
  match parse raw with
  | .error e => .error ⟨.badRequest, "invalid URL: " ++ e⟩
  | .ok url =>
      if url.isHttp then .ok url
      else .error ⟨.badRequest, "scheme `" ++ url.scheme ++ "` not allowed; only http/https"⟩

/-- `check_ssrf`. -/
def checkSsrf (dns : Resolver) (url : Url) : Except CaptureError Unit :=
  match Ssrf.checkUrl dns url with
  | .ok () => .ok ()
  | .error .noHost => .error ⟨.badRequest, Ssrf.SsrfError.noHost.toText⟩
  | .error (.dnsFailed m) => .error ⟨.badRequest, (Ssrf.SsrfError.dnsFailed m).toText⟩
  | .error (.blocked m) => .error ⟨.forbidden, (Ssrf.SsrfError.blocked m).toText⟩

/-- `capture_one_unmetered` up to the checkout: the query it goes on with. -/
def beforeCheckout (cfg : CaptureConfig) (ctx : CaptureCtx) (parse : UrlParser) (dns : Resolver)
    (query : SummaryQuery) : Except CaptureError SummaryQuery :=
  let q := normalize cfg query
  if cfg.disableScript && q.script.isSome then
    .error ⟨.forbidden, "script parameter disabled by BROWSER_HEADLESS_DISABLE_SCRIPT"⟩
  else
    match validateUrl parse q.url with
    | .error e => .error e
    | .ok url =>
        if ctx.allowPrivateIps then .ok q
        else
          match checkSsrf dns url with
          | .error e => .error e
          | .ok () => .ok q

/-- `check_url` has to look the host up. -/
def isDomain (url : Url) : Bool :=
  match url.host with
  | some (.domain _) => true
  | _ => false

/-- The resolver is asked before the checkout. -/
def looksUp (cfg : CaptureConfig) (ctx : CaptureCtx) (parse : UrlParser)
    (query : SummaryQuery) : Bool :=
  let q := normalize cfg query
  if cfg.disableScript && q.script.isSome then false
  else
    match validateUrl parse q.url with
    | .error _ => false
    | .ok url => !ctx.allowPrivateIps && isDomain url

/-! ## What the normalization leaves alone -/

@[simp] theorem normalize_url (cfg : CaptureConfig) (q : SummaryQuery) :
    (normalize cfg q).url = q.url := by
  unfold normalize applyProfile
  split <;> rfl

@[simp] theorem normalize_script (cfg : CaptureConfig) (q : SummaryQuery) :
    (normalize cfg q).script = q.script := by
  unfold normalize applyProfile
  split <;> rfl

@[simp] theorem normalize_blockResourceTypes (cfg : CaptureConfig) (q : SummaryQuery) :
    (normalize cfg q).blockResourceTypes = q.blockResourceTypes := by
  unfold normalize applyProfile
  split <;> rfl

@[simp] theorem normalize_waitForFunction (cfg : CaptureConfig) (q : SummaryQuery) :
    (normalize cfg q).waitForFunction = q.waitForFunction := by
  unfold normalize applyProfile
  split <;> rfl

@[simp] theorem normalize_captureElement (cfg : CaptureConfig) (q : SummaryQuery) :
    (normalize cfg q).captureElement = q.captureElement := by
  unfold normalize applyProfile
  split <;> rfl

/-- The correlation id has no part in it. -/
theorem normalize_requestId (cfg : CaptureConfig) (q : SummaryQuery) (r : Option String) :
    normalize cfg { q with requestId := r } = { normalize cfg q with requestId := r } := by
  simp only [normalize, applyProfile]
  split <;> rfl

/-! ## What gets to the checkout -/

theorem validateUrl_eq_ok_iff {parse : UrlParser} {raw : String} {url : Url} :
    validateUrl parse raw = .ok url ↔ parse raw = .ok url ∧ url.isHttp = true := by
  rw [validateUrl]
  cases parse raw with
  | error e => simp
  | ok url' =>
      dsimp only
      split
      next hhttp =>
        constructor
        · rintro ⟨⟩
          exact ⟨rfl, hhttp⟩
        · rintro ⟨⟨⟩, -⟩
          rfl
      next hhttp =>
        constructor
        · rintro ⟨⟩
        · rintro ⟨⟨⟩, hurl⟩
          exact absurd hurl hhttp

theorem checkSsrf_eq_ok_iff {dns : Resolver} {url : Url} :
    checkSsrf dns url = .ok () ↔ HostPasses dns url := by
  rw [← Ssrf.checkUrl_eq_ok_iff, checkSsrf]
  split <;> simp [*]

/-- With the guard on, a capture that gets to the checkout is for an `http(s)` URL
    whose host passes. -/
theorem beforeCheckout_ok {cfg : CaptureConfig} {ctx : CaptureCtx} {parse : UrlParser}
    {dns : Resolver} {query q : SummaryQuery}
    (h : beforeCheckout cfg ctx parse dns query = .ok q) :
    q = normalize cfg query ∧ ∃ url, parse query.url = .ok url ∧ url.isHttp = true ∧
      (ctx.allowPrivateIps = false → HostPasses dns url) := by
  simp only [beforeCheckout, normalize_url] at h
  split at h
  · cases h
  · split at h
    · cases h
    next url hvalid =>
      obtain ⟨hparse, hhttp⟩ := validateUrl_eq_ok_iff.mp hvalid
      split at h
      next hallow =>
        cases h
        exact ⟨rfl, url, hparse, hhttp, fun hoff => absurd hallow (by simp [hoff])⟩
      next =>
        split at h
        · cases h
        next hssrf =>
          cases h
          exact ⟨rfl, url, hparse, hhttp, fun _ => checkSsrf_eq_ok_iff.mp hssrf⟩

theorem checkSsrf_congr {url : Url} (h : isDomain url = false) (dns dns' : Resolver) :
    checkSsrf dns url = checkSsrf dns' url := by
  have hcheck : Ssrf.checkUrl dns url = Ssrf.checkUrl dns' url := by
    rw [Ssrf.checkUrl, Ssrf.checkUrl]
    rw [isDomain] at h
    split at h
    next => cases h
    next hhost =>
        cases host : url.host with
        | none => rfl
        | some name =>
            cases name with
            | domain name => exact absurd host (hhost name)
            | ipv4 ip | ipv6 ip => rfl
  rw [checkSsrf, checkSsrf, hcheck]

/-- Where it is not asked, the resolver does not matter. -/
theorem beforeCheckout_congr {cfg : CaptureConfig} {ctx : CaptureCtx} {parse : UrlParser}
    {query : SummaryQuery} (h : looksUp cfg ctx parse query = false) (dns dns' : Resolver) :
    beforeCheckout cfg ctx parse dns query = beforeCheckout cfg ctx parse dns' query := by
  simp only [looksUp] at h
  simp only [beforeCheckout]
  split at h
  next hscript => rw [if_pos hscript, if_pos hscript]
  next hscript =>
      rw [if_neg hscript, if_neg hscript]
      split at h
      next => rfl
      next url hvalid =>
          by_cases hallow : ctx.allowPrivateIps = true
          · simp only [hallow, if_true]
          · rw [Bool.eq_false_iff.mpr hallow, Bool.not_false, Bool.true_and] at h
            simp only [checkSsrf_congr h dns dns']

/-- With scripts disabled, there is none in a query that gets there. -/
theorem beforeCheckout_script {cfg : CaptureConfig} {ctx : CaptureCtx} {parse : UrlParser}
    {dns : Resolver} {query q : SummaryQuery} (hdisable : cfg.disableScript = true)
    (h : beforeCheckout cfg ctx parse dns query = .ok q) : q.script = none := by
  obtain ⟨rfl, -⟩ := beforeCheckout_ok h
  by_contra hscript
  have hsome : (normalize cfg query).script.isSome = true := Option.isSome_iff_ne_none.mpr hscript
  rw [beforeCheckout, hdisable, hsome] at h
  cases h

end Capture
end BrowserHeadless
