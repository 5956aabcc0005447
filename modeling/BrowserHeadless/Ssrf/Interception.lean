/-
  BrowserHeadless.Ssrf.Interception

  The one `Fetch` interception of a capture (src/browser/mod.rs,
  `apply_request_interception`): the patterns it enables and the task that answers
  the paused requests.

  Two features share it: the resource types a caller blocks, and the SSRF guard on
  navigations and redirects.  Each event goes through both tests in one place, so a
  paused request is never answered twice.
-/

import BrowserHeadless.Capture.Preflight
import BrowserHeadless.Cdp

namespace BrowserHeadless
namespace Ssrf

open Capture (CaptureConfig CaptureCtx SummaryQuery beforeCheckout beforeCheckout_ok)

/-! ## Setting it up -/

/-- `Fetch.RequestStage`. -/
inductive RequestStage where
  | request
  | response
deriving DecidableEq, Repr

/-- `Fetch.RequestPattern`. -/
structure RequestPattern where
  urlPattern : Option String
  resourceType : Option ResourceType
  requestStage : Option RequestStage
deriving DecidableEq, Repr

/-- `FetchEnableParams`. -/
structure FetchEnableParams where
  patterns : Option (List RequestPattern)
  handleAuthRequests : Option Bool
deriving DecidableEq, Repr

/-- Every request of the type `rt`. -/
def requestPattern (rt : ResourceType) : RequestPattern where
  urlPattern := some "*"
  resourceType := some rt
  requestStage := none

/-- What `apply_request_interception` sends, and what its task keeps. -/
structure Interception where
  params : FetchEnableParams
  blocked : List ResourceType
  ssrfGuard : Bool
deriving DecidableEq, Repr

/-- The types a caller blocks, less the names nothing is known by. -/
def blockedTypes (types : List String) : List ResourceType := types.filterMap parseResourceType

/-- The patterns to pause on.  Under the guard a `Document` is always one of them. -/
def patterns (blocked : List ResourceType) (ssrfGuard : Bool) : List RequestPattern :=
  if ssrfGuard && !blocked.contains .document then
    blocked.map requestPattern ++ [requestPattern .document]
  else blocked.map requestPattern

/-- The interception for `types`; none when neither feature is active. -/
def interception (types : List String) (ssrfGuard : Bool) : Option Interception :=
  let blocked := blockedTypes types
  if blocked.isEmpty && !ssrfGuard then none
  else some ⟨⟨some (patterns blocked ssrfGuard), some false⟩, blocked, ssrfGuard⟩

/-- `apply_request_interception`, by the answers to `Fetch.enable` and to the
    registration of the listener. -/
def applyRequestInterception (types : List String) (ssrfGuard : Bool)
    (enable listen : Except Error Unit) : Except Error (Option Interception) :=
  match interception types ssrfGuard with
  | none => .ok none
  | some it =>
      match enable with
      | .error e => .error e
      | .ok () =>
          match listen with
          | .error e => .error e
          | .ok () => .ok (some it)

/-- The interception of a capture: the guard is on unless private addresses are
    allowed. -/
def captureInterception (ctx : CaptureCtx) (q : SummaryQuery) : Option Interception :=
  interception q.blockResourceTypes (!ctx.allowPrivateIps)

/-! ## Answering the paused requests -/

/-- `EventRequestPaused`, with the URL of its request. -/
structure EventRequestPaused where
  requestId : String
  url : String
  resourceType : ResourceType
deriving DecidableEq, Repr

/-- `Network.ErrorReason`, as far as it is used. -/
inductive ErrorReason where
  | blockedByClient
deriving DecidableEq, Repr

/-- The two commands that answer a paused request. -/
inductive Command where
  | failRequest (requestId : String) (errorReason : ErrorReason)
  | continueRequest (requestId : String)
deriving DecidableEq, Repr

/-- The answer to an event, by the resolver as it is at the time. -/
def verdict (it : Interception) (parse : UrlParser) (dns : Resolver) (e : EventRequestPaused) :
    Command :=
  if it.blocked.any (fun t => t == e.resourceType) then
    .failRequest e.requestId .blockedByClient
  else if it.ssrfGuard && e.resourceType = .document then
    match rawUrlBlocked parse dns e.url with
    | some _ => .failRequest e.requestId .blockedByClient
    | none => .continueRequest e.requestId
  else .continueRequest e.requestId

/-- What wakes the task: an event, the capture dropping its sender, or the end of
    the event stream. -/
inductive Input where
  | event (e : EventRequestPaused) (dns : Resolver)
  | stop
  | closed

/-- The commands of the task.  A command that fails is logged and the loop goes on. -/
def drain (it : Interception) (parse : UrlParser) : List Input → List Command
  | [] => []
  | .event e dns :: rest => verdict it parse dns e :: drain it parse rest
  | .stop :: _ => []
  | .closed :: _ => []

/-- The events the task takes before it stops. -/
def processed : List Input → List (EventRequestPaused × Resolver)
  | [] => []
  | .event e dns :: rest => (e, dns) :: processed rest
  | .stop :: _ => []
  | .closed :: _ => []

/-! ## What the guard lets through -/

/-- A request URL the guard has nothing against: it does not parse, it is not
    `http(s)`, or its host passes. -/
def LetThrough (parse : UrlParser) (dns : Resolver) (raw : String) : Prop :=
  (∃ err, parse raw = .error err) ∨
    ∃ url, parse raw = .ok url ∧ (url.isHttp = false ∨ HostPasses dns url)

theorem rawUrlBlocked_letThrough {parse : UrlParser} {dns : Resolver} {raw : String} :
    rawUrlBlocked parse dns raw = none ↔ LetThrough parse dns raw := by
  rw [rawUrlBlocked_eq_none_iff, LetThrough]
  cases hparse : parse raw with
  | error err => simp
  | ok url =>
      have hbool := Bool.eq_false_or_eq_true url.isHttp
      simp only [Except.ok.injEq, reduceCtorEq, exists_false, false_or, exists_eq_left',
        forall_eq']
      constructor
      · intro h
        rcases hbool with hhttp | hhttp
        · exact Or.inr (h hhttp)
        · exact Or.inl hhttp
      · rintro (hhttp | hpass) h
        · rw [hhttp] at h
          cases h
        · exact hpass

/-! ## One event -/

/-- How a command answers an event when the types `blocked` are blocked and the
    guard is on. -/
structure Answers (blocked : List ResourceType) (parse : UrlParser)
    (event : EventRequestPaused × Resolver) (c : Command) : Prop where
  own : c = .failRequest event.1.requestId .blockedByClient ∨
    c = .continueRequest event.1.requestId
  blocks : event.1.resourceType ∈ blocked →
    c = .failRequest event.1.requestId .blockedByClient
  document : event.1.resourceType = .document → c = .continueRequest event.1.requestId →
    LetThrough parse event.2 event.1.url

/-- A verdict is one of the two commands, for the request of the event. -/
theorem verdict_own (it : Interception) (parse : UrlParser) (dns : Resolver)
    (e : EventRequestPaused) :
    verdict it parse dns e = .failRequest e.requestId .blockedByClient ∨
      verdict it parse dns e = .continueRequest e.requestId := by
  rw [verdict]
  split
  · exact Or.inl rfl
  · split
    · split
      · exact Or.inl rfl
      · exact Or.inr rfl
    · exact Or.inr rfl

/-- A request goes on exactly if its type is not blocked and, when it is a document
    under the guard, its URL is let through. -/
theorem verdict_eq_continue_iff (it : Interception) (parse : UrlParser) (dns : Resolver)
    (e : EventRequestPaused) :
    verdict it parse dns e = .continueRequest e.requestId ↔
      e.resourceType ∉ it.blocked ∧
        (it.ssrfGuard = true → e.resourceType = .document → LetThrough parse dns e.url) := by
  have hany : it.blocked.any (fun t => t == e.resourceType) = true ↔
      e.resourceType ∈ it.blocked := by
    simp [List.any_eq_true]
  rw [verdict]
  split
  next hblocked => simp [hany.mp hblocked]
  next hfree =>
    rw [hany] at hfree
    split
    next hguard =>
      simp only [Bool.and_eq_true, decide_eq_true_eq] at hguard
      rw [← rawUrlBlocked_letThrough]
      split <;> simp_all
    next hguard =>
      simp only [Bool.and_eq_true, decide_eq_true_eq, not_and] at hguard
      refine iff_of_true rfl ⟨hfree, fun hon hdoc => absurd hdoc (hguard hon)⟩

/-- Step lemma: under the guard every event is answered as it should be. -/
theorem verdict_answers (it : Interception) (hguard : it.ssrfGuard = true) (parse : UrlParser)
    (dns : Resolver) (e : EventRequestPaused) :
    Answers it.blocked parse (e, dns) (verdict it parse dns e) where
  own := verdict_own it parse dns e
  blocks := by
    intro hmem
    rcases verdict_own it parse dns e with hfail | hcont
    · exact hfail
    · exact absurd hmem ((verdict_eq_continue_iff it parse dns e).mp hcont).1
  document := by
    intro hdoc hcont
    exact ((verdict_eq_continue_iff it parse dns e).mp hcont).2 hguard hdoc

/-! ## The whole run -/

/-- Run lemma: the commands answer the processed events one for one, in order. -/
theorem drain_answers (it : Interception) (hguard : it.ssrfGuard = true) (parse : UrlParser)
    (inputs : List Input) :
    List.Forall₂ (Answers it.blocked parse) (processed inputs) (drain it parse inputs) := by
  induction inputs with
  | nil => exact .nil
  | cons input rest ih =>
      cases input with
      | event e dns => exact .cons (verdict_answers it hguard parse dns e) ih
      | stop => exact .nil
      | closed => exact .nil

/-- Under the guard documents are always paused. -/
theorem document_mem_patterns (blocked : List ResourceType) :
    requestPattern .document ∈ patterns blocked true := by
  rw [patterns]
  split
  · exact List.mem_append_right _ (List.mem_singleton.mpr rfl)
  next h =>
    have hmem : ResourceType.document ∈ blocked := by simpa using h
    exact List.mem_map_of_mem hmem

/-- The guard alone is reason enough for an interception. -/
theorem interception_guarded (types : List String) :
    ∃ it, interception types true = some it ∧
      it.params.patterns = some (patterns (blockedTypes types) true) ∧
      it.blocked = blockedTypes types ∧ it.ssrfGuard = true := by
  refine ⟨⟨⟨some (patterns (blockedTypes types) true), some false⟩, blockedTypes types, true⟩,
    ?_, rfl, rfl, rfl⟩
  rw [interception, Bool.not_true, Bool.and_false]
  rfl

/-- An interception that was set up is the one of the types. -/
theorem applyRequestInterception_ok {types : List String} {ssrfGuard : Bool}
    {enable listen : Except Error Unit} {r : Option Interception}
    (h : applyRequestInterception types ssrfGuard enable listen = .ok r) :
    r = interception types ssrfGuard := by
  rw [applyRequestInterception] at h
  split at h
  next hnone =>
    cases h
    exact hnone.symm
  next it hsome =>
    split at h
    · cases h
    · split at h
      · cases h
      · cases h
        exact hsome.symm

/-- The SSRF decisions are sound.

    With the guard on, whatever types are blocked: documents are paused, and over any
    sequence of inputs each processed event is answered once, for its own request,
    failed if its type is blocked and, if it is a document, continued only when its
    URL is let through.  Nor does a capture reach the checkout for anything but an
    `http(s)` URL whose host passes, and one that does has the guard on. -/
theorem ssrf_sound (parse : UrlParser) (types : List String) :
    (∃ it sent, interception types true = some it ∧
      it.params.patterns = some sent ∧ requestPattern .document ∈ sent ∧
      (∀ enable listen r, applyRequestInterception types true enable listen = .ok r →
        r = some it) ∧
      ∀ inputs, List.Forall₂ (Answers (blockedTypes types) parse) (processed inputs)
        (drain it parse inputs)) ∧
    ∀ (cfg : CaptureConfig) (ctx : CaptureCtx) (dns : Resolver) (query q : SummaryQuery),
      ctx.allowPrivateIps = false → beforeCheckout cfg ctx parse dns query = .ok q →
      captureInterception ctx q = interception query.blockResourceTypes true ∧
      ∃ url, parse query.url = .ok url ∧ url.isHttp = true ∧ HostPasses dns url := by
  constructor
  · obtain ⟨it, hsome, hsent, hblocked, hguard⟩ := interception_guarded types
    refine ⟨it, _, hsome, hsent, document_mem_patterns _, ?_, ?_⟩
    · intro enable listen r h
      rw [applyRequestInterception_ok h, hsome]
    · intro inputs
      rw [← hblocked]
      exact drain_answers it hguard parse inputs
  · intro cfg ctx dns query q hoff hok
    obtain ⟨rfl, url, hparse, hhttp, hpass⟩ := beforeCheckout_ok hok
    have htypes : captureInterception ctx (Capture.normalize cfg query)
        = interception query.blockResourceTypes true := by
      rw [captureInterception, Capture.normalize_blockResourceTypes, hoff, Bool.not_false]
    exact ⟨htypes, url, hparse, hhttp, hpass hoff⟩

/-- `Url::parse` on the URL of the sample, and on a text that is no URL. -/
def sampleParser : UrlParser := fun raw =>
  if raw = "https://example.com/" then .ok ⟨"https", some (.domain "example.com"), some 443⟩
  else .error "relative URL without a base"

/-- A public address for every host. -/
def sampleResolver : Resolver := fun _ => .ok [.v4 ⟨93, 184, 216, 34⟩]

/-- A capture of the sample URL with images blocked. -/
def sampleQuery : SummaryQuery :=
  { SummaryQuery.defaults 30000 with
    url := "https://example.com/"
    blockResourceTypes := ["img"] }

/-- The sample capture, which gets to the checkout. -/
theorem ssrf_sound_sample :
    (∃ it sent, interception ["img"] true = some it ∧
      it.params.patterns = some sent ∧ requestPattern .document ∈ sent ∧
      applyRequestInterception ["img"] true (.ok ()) (.ok ()) = .ok (some it) ∧
      List.Forall₂ (Answers [.image] sampleParser)
        [(⟨"1", "https://example.com/", .document⟩, sampleResolver)]
        (drain it sampleParser
          [.event ⟨"1", "https://example.com/", .document⟩ sampleResolver, .stop])) ∧
    ∃ url, sampleParser "https://example.com/" = .ok url ∧ url.isHttp = true ∧
      HostPasses sampleResolver url := by
  obtain ⟨⟨it, sent, hsome, hsent, hdoc, -, hrun⟩, hcheckout⟩ :=
    ssrf_sound sampleParser ["img"]
  refine ⟨⟨it, sent, hsome, hsent, hdoc, ?_, hrun [.event _ _, .stop]⟩, ?_⟩
  · rw [applyRequestInterception, hsome]
  · exact (hcheckout ⟨60000, 10000, false⟩ ⟨false⟩ sampleResolver sampleQuery sampleQuery rfl
      (by rfl)).2

end Ssrf
end BrowserHeadless
