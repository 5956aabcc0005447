/-
  BrowserHeadless.Http.Front

  The front of the server (src/http.rs): the routes, the API key, the rate limit, and the MCP
  service behind them (src/mcp.rs), up to the point where work starts.

  The extractors of axum come first, then the key, then the rate limit.  `front` is the machine
  of the requests and of the tool calls that MCP sessions start later.  A request without the
  key cannot be noticed by the others (`strangers_unnoticed`), what starts within a time is
  bounded by the rate limit (`started_le`), and no tool runs that did not come with the key
  (`tools_accounted`).
-/

import BrowserHeadless.Capture.Batch
import BrowserHeadless.Lib.Machine
import BrowserHeadless.Mcp.Tools
import BrowserHeadless.RateLimit

namespace BrowserHeadless
namespace Http

open Capture (SummaryQuery BatchQuery)
open Lib (Machine TokenBucket)
open Mcp (ToolCall)
open RateLimit (RateLimiter)

/-! ## Headers -/

/-- `HeaderMap`: the headers as they came, their names in lower case, with what
    `HeaderValue::to_str` makes of their values, `none` for an error. -/
abbrev HeaderMap := List (String × Option String)

/-- `headers.get(name).and_then(|v| v.to_str().ok())`. -/
def header (headers : HeaderMap) (name : String) : Option String :=
  (headers.lookup name).join

/-- `check_api_key`. -/
def checkApiKey (apiKey : Option String) (headers : HeaderMap) : Except CaptureError Unit :=
  match apiKey with
  | none => .ok ()
  | some required =>
      match header headers "x-api-key" with
      | some provided =>
          if provided = required then .ok () else .error ⟨.unauthorized, "invalid X-Api-Key"⟩
      | none => .error ⟨.unauthorized, "missing X-Api-Key header"⟩

/-- `resolve_request_id`; a fresh UUID is `none`. -/
def resolveRequestId (param : Option String) (headers : HeaderMap) : Option String :=
  param.or (header headers "x-request-id")

/-! ## Requests -/

/-- What an extractor makes of a request, or the status of its rejection. -/
abbrev Extracted (α : Type) := Except Nat α

/-- A request, by its route and method. -/
inductive Request where
  | healthz
  | readyz
  | metrics
  | openapiJson
  | summary (q : Extracted SummaryQuery)
  | summaryPost (q : Extracted SummaryQuery)
  | summaryBatch (batch : Extracted BatchQuery)
  | jobsSubmit (q : Extracted SummaryQuery)
  | jobsGet (id : String)
  /-- Anything under `/mcp`, with the tool calls that it carries. -/
  | mcp (calls : List ToolCall)
  /-- No such route, or not with this method. -/
  | unrouted (status : Nat)

/-- Work that is let through. -/
inductive Work where
  | capture (q : SummaryQuery) (requestId : Option String)
  | batch (batch : BatchQuery)
  | submit (q : SummaryQuery)
  | poll (id : String)
  | tool (call : ToolCall)

/-- The URLs that work is to capture. -/
def Work.urls : Work → Nat
  | capture _ _ => 1
  | batch b => b.urls.length
  | submit _ => 1
  | poll _ => 0
  | tool _ => 1

/-- What becomes of a request or a tool call at the front. -/
inductive Reply where
  | served
  | rejected (status : Nat)
  | refused (e : CaptureError)
  | session (calls : List ToolCall)
  | started (work : Work)
  | limited (call : ToolCall)

/-- A reply, and the answer of the rate limiter if it was asked. -/
structure Output where
  reply : Reply
  token : Option Bool

/-- The settings of the router. -/
structure Settings where
  apiKey : Option String
  protectMetrics : Bool
  jobs : Bool
  disableMcp : Bool
  maxBatchUrls : Nat

/-- The rate limiter, and the tool calls of the MCP sessions that have not started. -/
structure State where
  limiter : RateLimiter
  pending : List ToolCall

/-! ## Handlers -/

/-- `check_rate`, then the handler's own checks. -/
def checkRate (s : State) (now : ℚ) (inner : Except CaptureError Work) : State × Output :=
  let (allowed, limiter) := s.limiter.tryAcquire now
  let s := { s with limiter := limiter }
  if allowed then
    match inner with
    | .ok work => (s, ⟨.started work, some true⟩)
    | .error e => (s, ⟨.refused e, some true⟩)
  else (s, ⟨.refused ⟨.tooManyRequests, "rate limit exceeded; retry shortly"⟩, some false⟩)

section

variable (cfg : Settings)

/-- A capture route: the extractor, `check_auth`, `check_rate`, and what the handler itself
    has to say. -/
def handler {α : Type} (s : State) (now : ℚ) (headers : HeaderMap) (extracted : Extracted α)
    (inner : α → Except CaptureError Work) : State × Output :=
  match extracted with
  | .error status => (s, ⟨.rejected status, none⟩)
  | .ok a =>
      match checkApiKey cfg.apiKey headers with
      | .error e => (s, ⟨.refused e, none⟩)
      | .ok () => checkRate s now (inner a)

/-- `summary_inner`, up to the capture. -/
def summaryInner (headers : HeaderMap) (q : SummaryQuery) : Except CaptureError Work :=
  if q.url = "" then .error ⟨.badRequest, "`url` must not be empty"⟩
  else .ok (.capture q (resolveRequestId q.requestId headers))

/-- `summary_handler` and `summary_handler_post`. -/
def summaryHandler (s : State) (now : ℚ) (headers : HeaderMap) (q : Extracted SummaryQuery) :
    State × Output :=
  handler cfg s now headers q (summaryInner headers)

/-- `summary_batch_handler`. -/
def summaryBatchHandler (s : State) (now : ℚ) (headers : HeaderMap)
    (batch : Extracted BatchQuery) : State × Output :=
  handler cfg s now headers batch fun batch =>
    if batch.urls.isEmpty then .error ⟨.badRequest, "`urls` must not be empty"⟩
    else if cfg.maxBatchUrls < batch.urls.length then
      .error ⟨.badRequest, "too many urls (" ++ toString batch.urls.length ++ ", max " ++
        toString cfg.maxBatchUrls ++ ")"⟩
    else .ok (.batch batch)

/-- `jobs_submit`; the route is there with a backend only. -/
def jobsSubmit (s : State) (now : ℚ) (headers : HeaderMap) (q : Extracted SummaryQuery) :
    State × Output :=
  handler cfg s now headers q fun q =>
    if q.url = "" then .error ⟨.badRequest, "`url` must not be empty"⟩ else .ok (.submit q)

/-- `jobs_get`. -/
def jobsGet (s : State) (now : ℚ) (headers : HeaderMap) (id : String) : State × Output :=
  handler cfg s now headers (.ok id) fun id => .ok (.poll id)

/-- `metrics_endpoint`. -/
def metricsEndpoint (s : State) (headers : HeaderMap) : State × Output :=
  if cfg.protectMetrics then
    match checkApiKey cfg.apiKey headers with
    | .error e => (s, ⟨.refused e, none⟩)
    | .ok () => (s, ⟨.served, none⟩)
  else (s, ⟨.served, none⟩)

/-- `mcp_auth`; the session that it lets through starts its tool calls later. -/
def mcpAuth (s : State) (headers : HeaderMap) (calls : List ToolCall) : State × Output :=
  match checkApiKey cfg.apiKey headers with
  | .ok () => ({ s with pending := s.pending ++ calls }, ⟨.session calls, none⟩)
  | .error e => (s, ⟨.refused e, none⟩)

/-- A route that is not there. -/
def notFound (s : State) : State × Output := (s, ⟨.rejected 404, none⟩)

/-- `router`. -/
def route (s : State) (now : ℚ) (headers : HeaderMap) : Request → State × Output
  | .healthz => (s, ⟨.served, none⟩)
  | .readyz => (s, ⟨.served, none⟩)
  | .metrics => metricsEndpoint cfg s headers
  | .openapiJson => (s, ⟨.served, none⟩)
  | .summary q => summaryHandler cfg s now headers q
  | .summaryPost q => summaryHandler cfg s now headers q
  | .summaryBatch batch => summaryBatchHandler cfg s now headers batch
  | .jobsSubmit q => if cfg.jobs then jobsSubmit cfg s now headers q else notFound s
  | .jobsGet id => if cfg.jobs then jobsGet cfg s now headers id else notFound s
  | .mcp calls => if cfg.disableMcp then notFound s else mcpAuth cfg s headers calls
  | .unrouted status => (s, ⟨.rejected status, none⟩)

/-- What happens at the front: a request comes, or a session starts one of its calls. -/
inductive Event where
  | request (headers : HeaderMap) (req : Request)
  | toolStart (i : Nat)

/-- `check_rate` of the MCP server. -/
def toolStart (s : State) (now : ℚ) (i : Nat) : State × Output :=
  match s.pending[i]? with
  | none => (s, ⟨.served, none⟩)
  | some call =>
      let (allowed, limiter) := s.limiter.tryAcquire now
      ({ limiter := limiter, pending := s.pending.eraseIdx i },
        ⟨if allowed then .started (.tool call) else .limited call, some allowed⟩)

/-- The front of the server. -/
def front : Machine State (ℚ × Event) Output where
  step := fun s e =>
    match e.2 with
    | .request headers req => route cfg s e.1 headers req
    | .toolStart i => toolStart s e.1 i

end

/-! ## Without the key -/

/-- The event is a tool call, or a request with the key. -/
def carriesKey (cfg : Settings) (e : ℚ × Event) : Bool :=
  match e.2 with
  | .request headers _ => (checkApiKey cfg.apiKey headers).toOption.isSome
  | .toolStart _ => true

/-- The request gets as far as the check of the key. -/
def Request.guarded (cfg : Settings) : Request → Bool
  | .metrics => cfg.protectMetrics
  | .summary q => q.toOption.isSome
  | .summaryPost q => q.toOption.isSome
  | .summaryBatch batch => batch.toOption.isSome
  | .jobsSubmit q => cfg.jobs && q.toOption.isSome
  | .jobsGet _ => cfg.jobs
  | .mcp _ => !cfg.disableMcp
  | _ => false

/-- What a request without the key gets: the error of the check if it gets that far, and
    otherwise what needs no key. -/
def TurnedAway (s : State) (guarded : Bool) (e : CaptureError) (r : State × Output) : Prop :=
  r.1 = s ∧ r.2.token = none ∧
    (guarded = true → r.2.reply = .refused e) ∧
    (guarded = false → r.2.reply = .served ∨ ∃ status, r.2.reply = .rejected status)

variable {cfg : Settings}

theorem TurnedAway.served (s : State) (e : CaptureError) :
    TurnedAway s false e (s, ⟨.served, none⟩) :=
  ⟨rfl, rfl, nofun, fun _ => .inl rfl⟩

theorem TurnedAway.rejected (s : State) (e : CaptureError) (status : Nat) :
    TurnedAway s false e (s, ⟨.rejected status, none⟩) :=
  ⟨rfl, rfl, nofun, fun _ => .inr ⟨status, rfl⟩⟩

theorem TurnedAway.refused (s : State) (e : CaptureError) :
    TurnedAway s true e (s, ⟨.refused e, none⟩) :=
  ⟨rfl, rfl, fun _ => rfl, nofun⟩

section

variable {s : State} {now : ℚ} {headers : HeaderMap} {e : CaptureError}

/-- A malformed request is not told about the key. -/
theorem handler_turnedAway {α : Type} (hkey : checkApiKey cfg.apiKey headers = .error e)
    (extracted : Extracted α) (inner : α → Except CaptureError Work) :
    TurnedAway s extracted.toOption.isSome e (handler cfg s now headers extracted inner) := by
  cases extracted with
  | error status => exact .rejected s e status
  | ok a =>
      rw [handler, hkey]
      exact .refused s e

theorem route_turnedAway (hkey : checkApiKey cfg.apiKey headers = .error e) (req : Request) :
    TurnedAway s (req.guarded cfg) e (route cfg s now headers req) := by
  cases req with
  | healthz => exact .served s e
  | readyz => exact .served s e
  | metrics =>
      simp only [route, metricsEndpoint, Request.guarded, hkey]
      cases cfg.protectMetrics with
      | false => exact .served s e
      | true => exact .refused s e
  | openapiJson => exact .served s e
  | summary q => exact handler_turnedAway hkey q _
  | summaryPost q => exact handler_turnedAway hkey q _
  | summaryBatch batch => exact handler_turnedAway hkey batch _
  | jobsSubmit q =>
      simp only [route, Request.guarded]
      cases cfg.jobs with
      | false => exact .rejected s e 404
      | true => exact handler_turnedAway hkey q _
  | jobsGet id =>
      simp only [route, Request.guarded]
      cases cfg.jobs with
      | false => exact .rejected s e 404
      | true =>
          show TurnedAway s true e (jobsGet cfg s now headers id)
          exact handler_turnedAway hkey (.ok id) _
  | mcp calls =>
      simp only [route, Request.guarded]
      cases cfg.disableMcp with
      | false =>
          simp only [mcpAuth, hkey]
          exact .refused s e
      | true => exact .rejected s e 404
  | unrouted status => exact .rejected s e status

end

theorem step_stranger (s : State) (e : ℚ × Event) (h : carriesKey cfg e = false) :
    ((front cfg).step s e).1 = s := by
  obtain ⟨now, event⟩ := e
  cases event with
  | request headers req =>
      cases hkey : checkApiKey cfg.apiKey headers with
      | error err => exact (route_turnedAway hkey req).1
      | ok u =>
          simp only [carriesKey, hkey] at h
          cases h
  | toolStart i => cases h

theorem checkApiKey_error {apiKey : Option String} {headers : HeaderMap} {e : CaptureError}
    (h : checkApiKey apiKey headers = .error e) : e.statusU16 = 401 := by
  unfold checkApiKey at h
  split at h
  next => cases h
  next =>
      split at h
      next =>
          split at h
          next => cases h
          next =>
              rw [← Except.error.inj h]
              rfl
      next =>
          rw [← Except.error.inj h]
          rfl

/-- Requests without the key cannot be noticed: the others are answered as if they had not
    come.  Each of them is told what is wrong with its key, unless it is for a probe or is
    refused as malformed before the key is looked at. -/
theorem strangers_unnoticed (cfg : Settings) (s : State) (es : List (ℚ × Event)) :
    (front cfg).run s (es.filter (carriesKey cfg)) =
        (((front cfg).run s es).1, ((front cfg).run s es).2.filter fun e => carriesKey cfg e.1) ∧
      ∀ e ∈ ((front cfg).run s es).2, ∀ now headers req err,
        e.1 = (now, .request headers req) → checkApiKey cfg.apiKey headers = .error err →
          err.statusU16 = 401 ∧ e.2.token = none ∧
          (req.guarded cfg = true → e.2.reply = .refused err) ∧
          (req.guarded cfg = false →
            e.2.reply = .served ∨ ∃ status, e.2.reply = .rejected status) := by
  refine ⟨Machine.run_filter step_stranger s es, Machine.forall_mem_log ?_ s es⟩
  rintro t _ now headers req err rfl hkey
  have hturned : TurnedAway t (req.guarded cfg) err (route cfg t now headers req) :=
    route_turnedAway hkey req
  exact ⟨checkApiKey_error hkey, hturned.2⟩

/-! ## The rate limit -/

/-- The reply starts work. -/
def Output.started (o : Output) : Bool :=
  match o.reply with
  | .started _ => true
  | _ => false

/-- The URLs that a reply lets through. -/
def Output.urls (o : Output) : Nat :=
  match o.reply with
  | .started work => work.urls
  | _ => 0

/-- The most URLs that one token pays for. -/
def Settings.maxUrls (cfg : Settings) : Nat := max cfg.maxBatchUrls 1

theorem Output.urls_eq_zero {o : Output} (h : o.started = false) : o.urls = 0 := by
  obtain ⟨reply, token⟩ := o
  cases reply with
  | started work => cases h
  | served => rfl
  | rejected status => rfl
  | refused e => rfl
  | session calls => rfl
  | limited call => rfl

/-- How a step deals with the limiter: it leaves it alone and starts nothing, or it asks it
    once and starts nothing against its answer. -/
inductive Asks (cfg : Settings) (s : State) (now : ℚ) (r : State × Output) : Prop where
  | never (limiter : r.1.limiter = s.limiter) (token : r.2.token = none)
      (started : r.2.started = false)
  | once (allowed : Bool) (limiter : s.limiter.tryAcquire now = (allowed, r.1.limiter))
      (token : r.2.token = some allowed) (started : r.2.started = true → allowed = true)
      (urls : r.2.urls ≤ cfg.maxUrls)

theorem checkRate_asks {s : State} {now : ℚ} {inner : Except CaptureError Work}
    (hinner : ∀ work, inner = .ok work → work.urls ≤ cfg.maxUrls) :
    Asks cfg s now (checkRate s now inner) := by
  cases hasked : s.limiter.tryAcquire now with
  | mk allowed limiter =>
      simp only [checkRate, hasked]
      cases allowed with
      | false => exact .once false hasked rfl nofun (Nat.zero_le _)
      | true =>
          cases inner with
          | error e => exact .once true hasked rfl nofun (Nat.zero_le _)
          | ok work => exact .once true hasked rfl (fun _ => rfl) (hinner work rfl)

theorem handler_asks {α : Type} {s : State} {now : ℚ} {headers : HeaderMap}
    {extracted : Extracted α} {inner : α → Except CaptureError Work}
    (hinner : ∀ a work, inner a = .ok work → work.urls ≤ cfg.maxUrls) :
    Asks cfg s now (handler cfg s now headers extracted inner) := by
  cases extracted with
  | error status => exact .never rfl rfl rfl
  | ok a =>
      simp only [handler]
      cases checkApiKey cfg.apiKey headers with
      | error e => exact .never rfl rfl rfl
      | ok u => exact checkRate_asks (hinner a)

theorem one_le_maxUrls (cfg : Settings) : 1 ≤ cfg.maxUrls := Nat.le_max_right _ _

theorem summaryInner_urls {headers : HeaderMap} (q : SummaryQuery) (work : Work)
    (h : summaryInner headers q = .ok work) : work.urls ≤ cfg.maxUrls := by
  unfold summaryInner at h
  split at h
  next => cases h
  next =>
      rw [← Except.ok.inj h]
      exact one_le_maxUrls cfg

theorem route_asks (s : State) (now : ℚ) (headers : HeaderMap) (req : Request) :
    Asks cfg s now (route cfg s now headers req) := by
  cases req with
  | healthz => exact .never rfl rfl rfl
  | readyz => exact .never rfl rfl rfl
  | metrics =>
      simp only [route, metricsEndpoint]
      cases cfg.protectMetrics with
      | false => exact .never rfl rfl rfl
      | true =>
          cases checkApiKey cfg.apiKey headers with
          | error e => exact .never rfl rfl rfl
          | ok u => exact .never rfl rfl rfl
  | openapiJson => exact .never rfl rfl rfl
  | summary q => exact handler_asks summaryInner_urls
  | summaryPost q => exact handler_asks summaryInner_urls
  | summaryBatch batch =>
      refine handler_asks fun batch work h => ?_
      split at h
      next => cases h
      next =>
          split at h
          next => cases h
          next hle =>
              rw [← Except.ok.inj h]
              exact (Nat.le_of_not_lt hle).trans (Nat.le_max_left _ _)
  | jobsSubmit q =>
      simp only [route]
      cases cfg.jobs with
      | false => exact .never rfl rfl rfl
      | true =>
          refine handler_asks fun q work h => ?_
          split at h
          next => cases h
          next =>
              rw [← Except.ok.inj h]
              exact one_le_maxUrls cfg
  | jobsGet id =>
      simp only [route]
      cases cfg.jobs with
      | false => exact .never rfl rfl rfl
      | true =>
          show Asks cfg s now (jobsGet cfg s now headers id)
          refine handler_asks fun id work h => ?_
          rw [← Except.ok.inj h]
          exact Nat.zero_le _
  | mcp calls =>
      simp only [route, mcpAuth]
      cases cfg.disableMcp with
      | true => exact .never rfl rfl rfl
      | false =>
          cases checkApiKey cfg.apiKey headers with
          | error e => exact .never rfl rfl rfl
          | ok u => exact .never rfl rfl rfl
  | unrouted status => exact .never rfl rfl rfl

theorem toolStart_asks (s : State) (now : ℚ) (i : Nat) : Asks cfg s now (toolStart s now i) := by
  unfold toolStart
  split
  next => exact .never rfl rfl rfl
  next call hcall =>
      cases hasked : s.limiter.tryAcquire now with
      | mk allowed limiter =>
          cases allowed with
          | false => exact .once false hasked rfl nofun (Nat.zero_le _)
          | true => exact .once true hasked rfl (fun _ => rfl) (one_le_maxUrls cfg)

/-- Every step asks the limiter once at most. -/
theorem step_asks (cfg : Settings) (s : State) (e : ℚ × Event) :
    Asks cfg s e.1 ((front cfg).step s e) := by
  obtain ⟨now, event⟩ := e
  cases event with
  | request headers req => exact route_asks s now headers req
  | toolStart i => exact toolStart_asks s now i

/-- The limiter as a machine of its own. -/
def limiterMachine : Machine RateLimiter ℚ Bool where
  step := fun lim now => ((lim.tryAcquire now).2, (lim.tryAcquire now).1)

theorem limiterMachine_run (lim : RateLimiter) (times : List ℚ) :
    limiterMachine.run lim times =
      ((lim.tryAcquireAll times).2, times.zip (lim.tryAcquireAll times).1) := by
  induction times generalizing lim with
  | nil => rfl
  | cons now times ih =>
      rw [Machine.run_cons, ih]
      rfl

/-- What the limiter was asked in a step, and its answer. -/
def asked (e : (ℚ × Event) × Output) : Option (ℚ × Bool) := e.2.token.map fun b => (e.1.1, b)

/-- The limiter sees the steps that ask it, and nothing else. -/
theorem limiter_run (cfg : Settings) (s : State) (es : List (ℚ × Event)) :
    limiterMachine.run s.limiter ((((front cfg).run s es).2.filterMap asked).map Prod.fst) =
      (((front cfg).run s es).1.limiter, ((front cfg).run s es).2.filterMap asked) := by
  refine Machine.run_component State.limiter asked (fun t e h => ?_) (fun t e c d h => ?_) s es
  · rcases step_asks cfg t e with ⟨limiter, -, -⟩ | ⟨allowed, -, token, -, -⟩
    · exact limiter
    · rw [asked, token] at h
      cases h
  · rcases step_asks cfg t e with ⟨-, token, -⟩ | ⟨allowed, limiter, token, -, -⟩
    · rw [asked, token] at h
      cases h
    · rw [asked, token] at h
      obtain ⟨rfl, rfl⟩ := Prod.mk.inj (Option.some.inj h)
      simp only [limiterMachine, limiter]

/-- The step took place between two times. -/
def during (start stop : ℚ) (e : (ℚ × Event) × Output) : Bool :=
  decide (start ≤ e.1.1) && decide (e.1.1 ≤ stop)

/-- What starts, starts with a token. -/
theorem asked_of_started (cfg : Settings) {s : State} {es : List (ℚ × Event)} :
    ∀ e ∈ ((front cfg).run s es).2,
      (e.2.started = true → asked e = some (e.1.1, true)) ∧
      e.2.urls ≤ if e.2.started then cfg.maxUrls else 0 := by
  refine Machine.forall_mem_log (fun t e => ?_) s es
  rcases step_asks cfg t e with ⟨-, -, started⟩ | ⟨allowed, -, token, started, urls⟩
  · refine ⟨fun h => ?_, ?_⟩
    · rw [started] at h
      cases h
    · rw [Output.urls_eq_zero started]
      exact Nat.zero_le _
  · refine ⟨fun h => ?_, ?_⟩
    · rw [asked, token, started h, Option.map_some]
    · split
      next => exact urls
      next h => exact (Output.urls_eq_zero (Bool.eq_false_iff.mpr h)).le

/-- The calls of the limiter that are allowed within a time are at least the starts. -/
theorem countP_started_le (cfg : Settings) (s : State) (es : List (ℚ × Event)) (start stop : ℚ) :
    ((front cfg).run s es).2.countP (fun e => during start stop e && e.2.started) ≤
      TokenBucket.allowedBetween start stop
        ((((front cfg).run s es).2.filterMap asked).map Prod.fst)
        (s.limiter.tryAcquireAll ((((front cfg).run s es).2.filterMap asked).map Prod.fst)).1 := by
  have hlog := congrArg Prod.snd (limiter_run cfg s es)
  rw [limiterMachine_run] at hlog
  dsimp only at hlog
  rw [TokenBucket.allowedBetween, hlog, List.countP_filterMap]
  refine List.countP_mono_left fun e he h => ?_
  rw [Bool.and_eq_true] at h
  rw [(asked_of_started cfg e he).1 h.2]
  simpa [during] using h.1

/-- The URLs of some steps, by the steps that start work. -/
theorem sum_urls_le {log : List ((ℚ × Event) × Output)} {k : Nat}
    (h : ∀ e ∈ log, e.2.urls ≤ if e.2.started then k else 0) (p : (ℚ × Event) × Output → Bool) :
    ((log.filter p).map fun e => e.2.urls).sum ≤
      k * log.countP fun e => p e && e.2.started := by
  induction log with
  | nil => exact Nat.zero_le _
  | cons e log ih =>
      have hrest := ih fun e' he' => h e' (List.mem_cons_of_mem e he')
      have hfirst := h e List.mem_cons_self
      rw [List.countP_cons, Nat.mul_add]
      cases hp : p e with
      | false =>
          rw [List.filter_cons_of_neg (by simp [hp])]
          exact hrest.trans (Nat.le_add_right _ _)
      | true =>
          rw [List.filter_cons_of_pos hp, List.map_cons, List.sum_cons, Nat.add_comm]
          refine Nat.add_le_add hrest (hfirst.trans ?_)
          cases e.2.started with
          | false => exact Nat.zero_le _
          | true => simp

theorem askTimes_sorted (cfg : Settings) (s : State) {es : List (ℚ × Event)}
    (hsorted : (es.map Prod.fst).Pairwise (· ≤ ·)) :
    ((((front cfg).run s es).2.filterMap asked).map Prod.fst).Pairwise (· ≤ ·) := by
  rw [← Machine.run_inputs (front cfg) s es, List.map_map, List.pairwise_map] at hsorted
  rw [List.pairwise_map, List.pairwise_filterMap]
  refine hsorted.imp fun {e e'} hle c hc c' hc' => ?_
  obtain ⟨b, -, rfl⟩ := Option.map_eq_some_iff.mp hc
  obtain ⟨b', -, rfl⟩ := Option.map_eq_some_iff.mp hc'
  exact hle

/-- The starts within a time, from a limiter that is on and full. -/
theorem countP_started_window (cfg : Settings) {capacity rate : ℚ} (hcap : 0 ≤ capacity)
    (hrate : 0 ≤ rate) (created : ℚ) (pending : List ToolCall) {es : List (ℚ × Event)}
    (hsorted : (es.map Prod.fst).Pairwise (· ≤ ·)) {start stop : ℚ} (hle : start ≤ stop) :
    (((front cfg).run ⟨RateLimiter.full capacity rate created, pending⟩ es).2.countP
        (fun e => during start stop e && e.2.started) : ℚ) ≤ capacity + rate * (stop - start) := by
  have hallowed := countP_started_le cfg
    ⟨RateLimiter.full capacity rate created, pending⟩ es start stop
  have htimes := askTimes_sorted cfg
    ⟨RateLimiter.full capacity rate created, pending⟩ hsorted
  rw [RateLimit.full_eq_ofBucket] at hallowed htimes ⊢
  rw [RateLimit.tryAcquireAll_bucket] at hallowed
  refine (Nat.cast_le.mpr hallowed).trans ?_
  exact TokenBucket.allowedBetween_le hrate hcap le_rfl htimes hle

/-- With the rate limit on, what starts within a time, over REST and MCP together, is bounded
    by the burst and the rate, and so are the URLs that it is to capture: no route and no
    session gets past the limiter.  The levels of the bucket are exact here; a rounded level
    may let one more through. -/
theorem started_le (cfg : Settings) {rps burst : BitVec 32} (hrps : rps ≠ 0) (created : ℚ)
    (pending : List ToolCall) {es : List (ℚ × Event)}
    (hsorted : (es.map Prod.fst).Pairwise (· ≤ ·)) {start stop : ℚ} (hle : start ≤ stop) :
    let log := ((front cfg).run ⟨RateLimiter.fromEnv rps burst created, pending⟩ es).2
    (log.countP (fun e => during start stop e && e.2.started) : ℚ) ≤
        (max burst.toNat 1 : ℕ) + rps.toNat * (stop - start) ∧
      ((((log.filter (during start stop)).map fun e => e.2.urls).sum : ℕ) : ℚ) ≤
        cfg.maxUrls * ((max burst.toNat 1 : ℕ) + rps.toNat * (stop - start)) := by
  intro log
  have hcount : (log.countP (fun e => during start stop e && e.2.started) : ℚ) ≤
      (max burst.toNat 1 : ℕ) + rps.toNat * (stop - start) := by
    have hwindow := countP_started_window cfg
      (Nat.cast_nonneg (max burst.toNat 1)) (Nat.cast_nonneg rps.toNat) created pending hsorted hle
    have hfull : RateLimiter.fromEnv rps burst created =
        RateLimiter.full (max burst.toNat 1 : ℕ) rps.toNat created := if_neg hrps
    rwa [← hfull] at hwindow
  refine ⟨hcount, ?_⟩
  have hsum : ((log.filter (during start stop)).map fun e => e.2.urls).sum ≤
      cfg.maxUrls * log.countP fun e => during start stop e && e.2.started :=
    sum_urls_le (fun e he => (asked_of_started cfg e he).2) (during start stop)
  calc ((((log.filter (during start stop)).map fun e => e.2.urls).sum : ℕ) : ℚ)
      ≤ ((cfg.maxUrls * log.countP fun e => during start stop e && e.2.started : ℕ) : ℚ) :=
        Nat.cast_le.mpr hsum
    _ = cfg.maxUrls * (log.countP (fun e => during start stop e && e.2.started) : ℚ) :=
        Nat.cast_mul _ _
    _ ≤ cfg.maxUrls * ((max burst.toNat 1 : ℕ) + rps.toNat * (stop - start)) :=
        mul_le_mul_of_nonneg_left hcount (Nat.cast_nonneg _)

/-- A server without a key, with the job queue on. -/
def openServer : Settings where
  apiKey := none
  protectMetrics := false
  jobs := true
  disableMcp := false
  maxBatchUrls := 50

/-- A session with two tool calls, between which jobs are polled. -/
def pollingRun : List (ℚ × Event) :=
  [(0, .request [] (.mcp [.pageAudit ⟨"", none, none⟩, .pageAudit ⟨"", none, none⟩])),
    (0, .request [] (.jobsGet "")), (0, .toolStart 0), (0, .request [] (.jobsGet "")),
    (1, .toolStart 0)]

/-- The bound is met: two tokens at the start, and one more within the second. -/
theorem started_le_pollingRun :
    let log := ((front openServer).run ⟨RateLimiter.fromEnv 1 2 0, []⟩ pollingRun).2
    log.countP (fun e => during 0 1 e && e.2.started) = 3 ∧
      (log.countP (fun e => during 0 1 e && e.2.started) : ℚ) ≤
        (max (2 : BitVec 32).toNat 1 : ℕ) + (1 : BitVec 32).toNat * (1 - 0) ∧
      ((((log.filter (during 0 1)).map fun e => e.2.urls).sum : ℕ) : ℚ) ≤
        openServer.maxUrls *
          ((max (2 : BitVec 32).toNat 1 : ℕ) + (1 : BitVec 32).toNat * (1 - 0)) := by
  refine ⟨by decide +kernel, ?_⟩
  exact started_le openServer (by decide) 0 [] (by simp [pollingRun]) zero_le_one

/-! ## The tools of the sessions -/

/-- The tool calls that a step lets in. -/
def letIn (e : (ℚ × Event) × Output) : List ToolCall :=
  match e.2.reply with
  | .session calls => calls
  | _ => []

/-- The tool call that a step takes up, to start it or to refuse it. -/
def takenUp (e : (ℚ × Event) × Output) : Option ToolCall :=
  match e.2.reply with
  | .started (.tool call) => some call
  | .limited call => some call
  | _ => none

/-- A reply that has nothing to do with the sessions. -/
def Reply.isRest : Reply → Bool
  | .session _ => false
  | .started (.tool _) => false
  | .limited _ => false
  | _ => true

/-- A step of the REST routes leaves the sessions alone, and asks the limiter with the key
    only. -/
structure Rest (cfg : Settings) (s : State) (headers : HeaderMap) (r : State × Output) : Prop where
  pending : r.1.pending = s.pending
  reply : r.2.reply.isRest = true
  key : r.2.token ≠ none → checkApiKey cfg.apiKey headers = .ok ()

section

variable {s : State} {now : ℚ} {headers : HeaderMap}

/-- A reply without the limiter. -/
theorem rest_of_never {reply : Reply} (h : reply.isRest = true) :
    Rest cfg s headers (s, ⟨reply, none⟩) :=
  ⟨rfl, h, fun hne => absurd rfl hne⟩

theorem handler_rest {α : Type} {extracted : Extracted α} {inner : α → Except CaptureError Work}
    (hinner : ∀ a work, inner a = .ok work → (Reply.started work).isRest = true) :
    Rest cfg s headers (handler cfg s now headers extracted inner) := by
  cases extracted with
  | error status => exact rest_of_never rfl
  | ok a =>
      simp only [handler]
      cases hkey : checkApiKey cfg.apiKey headers with
      | error e => exact rest_of_never rfl
      | ok u =>
          cases hasked : s.limiter.tryAcquire now with
          | mk allowed limiter =>
              simp only [checkRate, hasked]
              cases allowed with
              | false => exact ⟨rfl, rfl, fun _ => hkey⟩
              | true =>
                  cases hwork : inner a with
                  | error e => exact ⟨rfl, rfl, fun _ => hkey⟩
                  | ok work => exact ⟨rfl, hinner a work hwork, fun _ => hkey⟩

theorem summaryInner_rest (q : SummaryQuery) (work : Work)
    (h : summaryInner headers q = .ok work) : (Reply.started work).isRest = true := by
  unfold summaryInner at h
  split at h
  next => cases h
  next =>
      rw [← Except.ok.inj h]
      rfl

/-- All routes but that of the sessions. -/
theorem route_rest {req : Request} (hreq : ∀ calls, req ≠ .mcp calls) :
    Rest cfg s headers (route cfg s now headers req) := by
  cases req with
  | healthz => exact rest_of_never rfl
  | readyz => exact rest_of_never rfl
  | metrics =>
      simp only [route, metricsEndpoint]
      cases cfg.protectMetrics with
      | false => exact rest_of_never rfl
      | true =>
          cases checkApiKey cfg.apiKey headers with
          | error e => exact rest_of_never rfl
          | ok u => exact rest_of_never rfl
  | openapiJson => exact rest_of_never rfl
  | summary q => exact handler_rest summaryInner_rest
  | summaryPost q => exact handler_rest summaryInner_rest
  | summaryBatch batch =>
      refine handler_rest fun batch work h => ?_
      split at h
      next => cases h
      next =>
          split at h
          next => cases h
          next =>
              rw [← Except.ok.inj h]
              rfl
  | jobsSubmit q =>
      simp only [route]
      cases cfg.jobs with
      | false => exact rest_of_never rfl
      | true =>
          refine handler_rest fun q work h => ?_
          split at h
          next => cases h
          next =>
              rw [← Except.ok.inj h]
              rfl
  | jobsGet id =>
      simp only [route]
      cases cfg.jobs with
      | false => exact rest_of_never rfl
      | true =>
          show Rest cfg s headers (jobsGet cfg s now headers id)
          refine handler_rest fun id work h => ?_
          rw [← Except.ok.inj h]
          rfl
  | mcp calls => exact absurd rfl (hreq calls)
  | unrouted status => exact rest_of_never rfl

end

theorem letIn_of_isRest {e : (ℚ × Event) × Output} (h : e.2.reply.isRest = true) :
    letIn e = [] ∧ takenUp e = none := by
  obtain ⟨event, reply, token⟩ := e
  cases reply with
  | served => exact ⟨rfl, rfl⟩
  | rejected status => exact ⟨rfl, rfl⟩
  | refused err => exact ⟨rfl, rfl⟩
  | session calls => cases h
  | started work =>
      cases work with
      | capture q id => exact ⟨rfl, rfl⟩
      | batch b => exact ⟨rfl, rfl⟩
      | submit q => exact ⟨rfl, rfl⟩
      | poll id => exact ⟨rfl, rfl⟩
      | tool call => cases h
  | limited call => cases h

/-- What one step does with the tool calls: those that it lets in come with the key, and so
    does what asks the limiter. -/
structure Accounted (cfg : Settings) (s : State) (e : ℚ × Event) (r : State × Output) : Prop where
  calls : (s.pending ++ letIn (e, r.2)).Perm ((takenUp (e, r.2)).toList ++ r.1.pending)
  key : letIn (e, r.2) ≠ [] ∨ r.2.token ≠ none → carriesKey cfg e = true

theorem Rest.accounted {s : State} {now : ℚ} {headers : HeaderMap} {req : Request}
    {r : State × Output} (h : Rest cfg s headers r) :
    Accounted cfg s (now, .request headers req) r := by
  obtain ⟨hin, hup⟩ := letIn_of_isRest (e := ((now, .request headers req), r.2)) h.reply
  constructor
  · rw [hin, hup, List.append_nil, h.pending]
    exact List.Perm.refl _
  · rintro (hne | htoken)
    · exact absurd hin hne
    · simp only [carriesKey, h.key htoken]
      rfl

theorem mcpAuth_accounted (s : State) (now : ℚ) (headers : HeaderMap) (calls : List ToolCall) :
    Accounted cfg s (now, .request headers (.mcp calls)) (mcpAuth cfg s headers calls) := by
  unfold mcpAuth
  split
  next hkey =>
      refine ⟨List.Perm.refl _, fun _ => ?_⟩
      simp only [carriesKey, hkey]
      rfl
  next => exact (rest_of_never rfl).accounted

theorem toolStart_accounted (s : State) (now : ℚ) (i : Nat) :
    Accounted cfg s (now, .toolStart i) (toolStart s now i) := by
  refine ⟨?_, fun _ => rfl⟩
  unfold toolStart
  split
  next =>
      rw [letIn, List.append_nil]
      exact List.Perm.refl _
  next call hcall =>
      obtain ⟨hlt, rfl⟩ := List.getElem?_eq_some_iff.mp hcall
      have hperm := (List.getElem_cons_eraseIdx_perm hlt).symm
      cases s.limiter.tryAcquire now with
      | mk allowed limiter =>
          cases allowed with
          | false => simpa [letIn, takenUp] using hperm
          | true => simpa [letIn, takenUp] using hperm

theorem step_accounted (cfg : Settings) (s : State) (e : ℚ × Event) :
    Accounted cfg s e ((front cfg).step s e) := by
  obtain ⟨now, event⟩ := e
  cases event with
  | request headers req =>
      by_cases hmcp : ∃ calls, req = .mcp calls
      · obtain ⟨calls, rfl⟩ := hmcp
        show Accounted cfg s _ (if cfg.disableMcp then notFound s else mcpAuth cfg s headers calls)
        cases cfg.disableMcp with
        | true => exact Rest.accounted (rest_of_never rfl)
        | false => exact mcpAuth_accounted s now headers calls
      · exact (route_rest fun calls h => hmcp ⟨calls, h⟩).accounted
  | toolStart i => exact toolStart_accounted s now i

/-- The tool calls that came in with requests that carried the key are those that a session
    has started or been refused and those that are pending.  The limiter is asked for requests
    with the key, and for tool calls, only. -/
theorem tools_accounted (cfg : Settings) (limiter : RateLimiter) (es : List (ℚ × Event)) :
    let r := (front cfg).run ⟨limiter, []⟩ es
    (r.2.flatMap letIn).Perm (r.2.filterMap takenUp ++ r.1.pending) ∧
      ∀ e ∈ r.2, letIn e ≠ [] ∨ e.2.token ≠ none → carriesKey cfg e.1 = true := by
  refine ⟨?_, Machine.forall_mem_log (fun t e => (step_accounted cfg t e).key) _ es⟩
  refine Machine.run_history (fun (t : State) log =>
    (log.flatMap letIn).Perm (log.filterMap takenUp ++ t.pending)) (List.Perm.refl _)
    (fun t log e ih => ?_) es
  have hstep := (step_accounted cfg t e).calls
  have htaken : [(e, ((front cfg).step t e).2)].filterMap takenUp =
      (takenUp (e, ((front cfg).step t e).2)).toList := by
    cases h : takenUp (e, ((front cfg).step t e).2) with
    | none => rw [List.filterMap_cons_none h]; rfl
    | some call => rw [List.filterMap_cons_some h]; rfl
  rw [List.flatMap_append, List.flatMap_singleton, List.filterMap_append, htaken,
    List.append_assoc]
  refine (ih.append_right _).trans ?_
  rw [List.append_assoc]
  exact hstep.append_left _

end Http
end BrowserHeadless
