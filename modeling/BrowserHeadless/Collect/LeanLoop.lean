/-
  BrowserHeadless.Collect.LeanLoop

  `collect_summary_lean` (src/browser/mod.rs), the collect loop of content-only
  captures, and the content envelope that `capture_one_unmetered`
  (src/capture.rs) makes of its result.

  The loop selects among its streams and a timer, so what it consumes is some
  sequence of lifecycle and response events; `LeanLoop.run` is the loop on such
  a sequence.
-/

import BrowserHeadless.Collect.Extract
import BrowserHeadless.Error
import BrowserHeadless.Lib.Fold

namespace BrowserHeadless
namespace Collect

/-- The streams the lean loop listens to. -/
inductive LeanEvent where
  | lifecycle (ev : EventLifecycleEvent)
  | responseReceived (ev : EventResponseReceived)
deriving DecidableEq

namespace LeanLoop

/-- The variables of the loop. -/
structure State where
  documentTiming : Option DocumentTiming := none
  pendingPatterns : List String
  idleAt : Option Instant := none
  loadAt : Option Instant := none
  fcpTs : Option ℚ := none
  dclTs : Option ℚ := none
  loadTs : Option ℚ := none
  initTs : Option ℚ := none
deriving DecidableEq

/-- The state before the first iteration. -/
def State.init (waitForRequest : List String) : State where
  pendingPatterns := waitForRequest

/-- The lifecycle arm. -/
def onLifecycle (now : Instant) (ev : EventLifecycleEvent) (s : State) : State :=
  let ts := ev.timestamp
  match ev.name with
  | "init" => { s with initTs := s.initTs.or (some ts) }
  | "firstContentfulPaint" => { s with fcpTs := s.fcpTs.or (some ts) }
  | "DOMContentLoaded" => { s with dclTs := s.dclTs.or (some ts) }
  | "load" => { s with loadTs := s.loadTs.or (some ts), loadAt := s.loadAt.or (some now) }
  | "networkIdle" => { s with idleAt := s.idleAt.or (some now) }
  | _ => s

/-- The `wait_for_request` part of the response arm: the patterns still pending
    after the response. -/
def matchPatterns (pending : List String) (respUrl : String) (status : Int) :
    Except Error (List String) :=
  match pending.findIdx? fun p => urlContains respUrl p with
  | none => .ok pending
  | some pos =>
      -- a matched response must have succeeded
      if !(200 ≤ status ∧ status < 400) then .error (.upstreamFailure status respUrl)
      else .ok (swapRemove pending pos)

/-- The Document part of the response arm. -/
def trackDocument (ev : EventResponseReceived) (timing : Option DocumentTiming) :
    Option DocumentTiming :=
  if ev.type = .document then
    let s := statusAsU32 ev.response.status
    if s < 400 then
      let fromCache := ev.response.fromDiskCache.getD false ||
        ev.response.fromServiceWorker.getD false || ev.response.fromPrefetchCache.getD false
      let protocol := ev.response.protocol.getD ""
      match ev.response.timing with
      | some t => some (buildDocumentTiming ev.response.url s fromCache protocol t)
      -- a cached document has no timing: its phases are zero
      | none =>
          if fromCache then
            some { url := ev.response.url, status := s, fromCache := fromCache,
                   protocol := protocol, dnsMs := 0, tcpMs := 0, tlsMs := 0, ttfbMs := 0 }
          else timing
    else timing
  else timing

/-- The response arm. -/
def onResponse (ev : EventResponseReceived) (s : State) : Except Error State :=
  if !isRealResource ev.response.url then .ok s
  else
    -- the patterns come first: a failing one ends the loop before the arm records
    match matchPatterns s.pendingPatterns ev.response.url ev.response.status with
    | .error e => .error e
    | .ok pending =>
        .ok { s with
          pendingPatterns := pending
          documentTiming := trackDocument ev s.documentTiming }

/-- One turn of the `select!`. -/
def step (s : State) (d : Delivery LeanEvent) : Except Error State :=
  match d.ev with
  | .lifecycle ev => .ok (onLifecycle d.now ev s)
  | .responseReceived ev => onResponse ev s

/-- The loop on the events it consumes. -/
def run (waitForRequest : List String) (ds : List (Delivery LeanEvent)) : Except Error State :=
  Lib.consume step (State.init waitForRequest) ds

/-- The closure `to_ms`. -/
def toMs (initTs ts : Option ℚ) : Nat :=
  match initTs, ts with
  | some i, some t => if i ≤ t then asU32 (rounded (rounded (t - i) * 1000)) else 0
  | _, _ => 0

/-- `gate_at`. -/
def gateAt (waitUntilLoad : Bool) (s : State) : Option Instant :=
  if waitUntilLoad then s.loadAt else s.idleAt

/-- The fields of `WebPageStat` that the lean path fills; the others are empty. -/
structure Summary where
  fcpTime : Nat
  dclTime : Nat
  loadTime : Nat
  documentTiming : Option DocumentTiming
deriving DecidableEq

/-- The `WebPageStat` at the end of `collect_summary_lean`. -/
def finish (s : State) : Summary where
  fcpTime := toMs s.initTs s.fcpTs
  dclTime := toMs s.initTs s.dclTs
  loadTime := toMs s.initTs s.loadTs
  documentTiming := s.documentTiming

end LeanLoop

/-- The fields of `ContentResponse` that report where the page landed. -/
structure ContentResponse where
  status : Nat
  finalUrl : String
deriving DecidableEq

/-- The content envelope of `capture_one_unmetered`. -/
def contentResponse (requestedUrl : String) (timing : Option DocumentTiming) : ContentResponse :=
  match timing with
  | some dt => ⟨dt.status, dt.url⟩
  | none => ⟨0, requestedUrl⟩

end Collect
end BrowserHeadless
