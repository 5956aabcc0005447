/-
  BrowserHeadless.Collect.Interleaving

  The streams that feed the resource inventory, and what their interleavings
  leave in it.

  A `Family` is one finite sequence for each of the four streams; the loop
  consumes some interleaving of them (`Interleaves`).  Whatever it is, each
  request gets the same signals of each kind (`Interleaves.streams`), so only
  where the kinds conflict can the inventory depend on the interleaving.
-/

import BrowserHeadless.Collect.Request
import BrowserHeadless.Collect.Subframe

namespace BrowserHeadless
namespace Collect
namespace FullLoop

open Lib (HashMap)

/-! ## Families of streams -/

/-- The events of the four streams. -/
@[ext]
structure Family where
  requests : List EventRequestWillBeSent := []
  responses : List EventResponseReceived := []
  finished : List EventLoadingFinished := []
  failed : List EventLoadingFailed := []

end FullLoop

def Event.asRequest : Event → Option EventRequestWillBeSent
  | .requestWillBeSent ev => some ev
  | _ => none

def Event.asResponse : Event → Option EventResponseReceived
  | .responseReceived ev => some ev
  | _ => none

def Event.asFinished : Event → Option EventLoadingFinished
  | .loadingFinished ev => some ev
  | _ => none

def Event.asFailed : Event → Option EventLoadingFailed
  | .loadingFailed ev => some ev
  | _ => none

namespace FullLoop

/-- The deliveries are an interleaving of the family, with events of other
    streams anywhere in between, and all of them come from streams that the
    loop has subscribed to. -/
structure Interleaves (c : CollectCaptures) (F : Family) (ds : List (Delivery Event)) : Prop where
  requests : (ds.filterMap fun d => d.ev.asRequest) = F.requests
  responses : (ds.filterMap fun d => d.ev.asResponse) = F.responses
  finished : (ds.filterMap fun d => d.ev.asFinished) = F.finished
  failed : (ds.filterMap fun d => d.ev.asFailed) = F.failed
  subscribed : ∀ d ∈ ds, c.subscribed d.ev = true

/-- The recorded requests of one id. -/
def Family.sentBy (F : Family) (id : String) : List EventRequestWillBeSent :=
  F.requests.filter fun ev => ev.requestId = id ∧ isRealResource ev.url = true

/-- The recorded responses of one id. -/
def Family.respondedTo (F : Family) (id : String) : List EventResponseReceived :=
  F.responses.filter fun ev => ev.requestId = id ∧ isRealResource ev.response.url = true

/-- The `loadingFinished` events of one id. -/
def Family.finishedFor (F : Family) (id : String) : List EventLoadingFinished :=
  F.finished.filter fun ev => ev.requestId = id

/-- The `loadingFailed` events of one id. -/
def Family.failedFor (F : Family) (id : String) : List EventLoadingFailed :=
  F.failed.filter fun ev => ev.requestId = id

/-- The signals of one request are those of the family. -/
structure Streams (F : Family) (id : String) (as : List Signal) : Prop where
  sent : sentOf as = F.sentBy id
  responded : respondedOf as = F.respondedTo id
  finished : finishedOf as = F.finishedFor id
  failed : failedOf as = F.failedFor id

/-- Every interleaving of a family gives a request the same signals of each
    kind. -/
theorem Interleaves.streams {c : CollectCaptures} {F : Family} {ds : List (Delivery Event)}
    (h : Interleaves c F ds) (id : String) : Streams F id (signals c id ds) := by
  constructor
  case sent =>
    rw [sentOf, signals, Family.sentBy, ← h.requests, List.filterMap_filterMap,
      List.filter_filterMap]
    refine List.filterMap_congr fun d hd => ?_
    have hsub := h.subscribed d hd
    cases hev : d.ev with
    | requestWillBeSent ev =>
        rw [hev] at hsub
        have hc : c.initiators = true := hsub
        by_cases hp : ev.requestId = id ∧ isRealResource ev.url = true
        · simp [signal, hc, hp.1, hp.2, Event.asRequest, Signal.asSent, Option.filter]
        · simp [signal, hc, hp, Event.asRequest, Option.filter]
    | _ => simp only [signal, Event.asRequest]; first | rfl | (split <;> rfl)
  case responded =>
    rw [respondedOf, signals, Family.respondedTo, ← h.responses, List.filterMap_filterMap,
      List.filter_filterMap]
    refine List.filterMap_congr fun d _ => ?_
    cases hev : d.ev with
    | responseReceived ev =>
        by_cases hp : ev.requestId = id ∧ isRealResource ev.response.url = true
        · simp [signal, hp.1, hp.2, Event.asResponse, Signal.asResponded, Option.filter]
        · simp [signal, hp, Event.asResponse, Option.filter]
    | _ => simp only [signal, Event.asResponse]; first | rfl | (split <;> rfl)
  case finished =>
    rw [finishedOf, signals, Family.finishedFor, ← h.finished, List.filterMap_filterMap,
      List.filter_filterMap]
    refine List.filterMap_congr fun d _ => ?_
    cases hev : d.ev with
    | loadingFinished ev =>
        by_cases hp : ev.requestId = id
        · simp [signal, hp, Event.asFinished, Signal.asFinished, Option.filter]
        · simp [signal, hp, Event.asFinished, Option.filter]
    | _ => simp only [signal, Event.asFinished]; first | rfl | (split <;> rfl)
  case failed =>
    rw [failedOf, signals, Family.failedFor, ← h.failed, List.filterMap_filterMap,
      List.filter_filterMap]
    refine List.filterMap_congr fun d hd => ?_
    have hsub := h.subscribed d hd
    cases hev : d.ev with
    | loadingFailed ev =>
        rw [hev] at hsub
        have hc : c.httpErrors = true := hsub
        by_cases hp : ev.requestId = id
        · simp [signal, hc, hp, Event.asFailed, Signal.asFailed, Option.filter]
        · simp [signal, hc, hp, Event.asFailed, Option.filter]
    | _ => simp only [signal, Event.asFailed]; first | rfl | (split <;> rfl)

/-- Every interleaving delivers the responses in the order of their stream. -/
theorem Interleaves.responseOf {c : CollectCaptures} {F : Family} {ds : List (Delivery Event)}
    (h : Interleaves c F ds) :
    ds.filterMap responseOf = F.responses.map fun ev => ev.response := by
  rw [← h.responses, List.map_filterMap]
  refine List.filterMap_congr fun d _ => ?_
  unfold FullLoop.responseOf Delivery.shared
  cases d.ev <;> rfl

/-! ## Families that can be consumed -/

/-- The streams that are not empty are subscribed to. -/
structure Subscribed (c : CollectCaptures) (F : Family) : Prop where
  initiators : F.requests ≠ [] → c.initiators = true
  httpErrors : F.failed ≠ [] → c.httpErrors = true

/-- The loop has subscribed to the streams that are not empty, and the responses
    do not end it with `UpstreamFailure`. -/
structure Consumable (c : CollectCaptures) (waitForRequest : List String) (F : Family) : Prop
    extends Subscribed c F where
  upstream_ok : upstream waitForRequest (F.responses.map fun ev => ev.response) = .ok ()

section Run

variable {c : CollectCaptures} {waitForRequest : List String} {F : Family}
  {ds : List (Delivery Event)}

/-- Whether an interleaving is consumed does not depend on the interleaving. -/
theorem Interleaves.run_end (h : Interleaves c F ds) (parseUrl : String → Option ParsedUrl)
    (url : String) (waitForRequest : List String) :
    (run c parseUrl url waitForRequest ds).map (fun _ => ()) =
      upstream waitForRequest (F.responses.map fun ev => ev.response) := by
  rw [run, (projects_patterns c parseUrl).consume_end, h.responseOf]
  rfl

/-- A family with an interleaving that is consumed can be consumed. -/
theorem Interleaves.consumable {parseUrl : String → Option ParsedUrl} {url : String} {t : State}
    (h : Interleaves c F ds)
    (hrun : run c parseUrl url waitForRequest ds = .ok t) : Consumable c waitForRequest F where
  initiators := by
    intro hne
    obtain ⟨ev, hev⟩ := List.exists_mem_of_ne_nil _ hne
    rw [← h.requests, List.mem_filterMap] at hev
    obtain ⟨d, hd, hreq⟩ := hev
    have hsub := h.subscribed d hd
    unfold Event.asRequest at hreq
    split at hreq
    case h_1 ev' hd' => rwa [hd'] at hsub
    case h_2 => cases hreq
  httpErrors := by
    intro hne
    obtain ⟨ev, hev⟩ := List.exists_mem_of_ne_nil _ hne
    rw [← h.failed, List.mem_filterMap] at hev
    obtain ⟨d, hd, hfail⟩ := hev
    have hsub := h.subscribed d hd
    unfold Event.asFailed at hfail
    split at hfail
    case h_1 ev' hd' => rwa [hd'] at hsub
    case h_2 => cases hfail
  upstream_ok := by
    rw [← h.run_end parseUrl url waitForRequest, hrun]
    rfl

/-- Every interleaving of a family that can be consumed is consumed. -/
theorem Interleaves.run_ok (h : Interleaves c F ds) (hF : Consumable c waitForRequest F)
    (parseUrl : String → Option ParsedUrl) (url : String) :
    ∃ t, run c parseUrl url waitForRequest ds = .ok t := by
  have hend := h.run_end parseUrl url waitForRequest
  rw [hF.upstream_ok] at hend
  cases hrun : run c parseUrl url waitForRequest ds with
  | ok t => exact ⟨t, rfl⟩
  | error e =>
      rw [hrun] at hend
      cases hend

end Run

end FullLoop
end Collect
end BrowserHeadless
