/-
  BrowserHeadless.Collect.Track

  The full collect loop seen by one request.

  The arms that fill the resource inventory touch one request id each, so the
  loop is, for every id, a machine on the entry of that id, its send time and
  its abort flag (`Track.act`); the loop's maps are the product of these
  machines (`run_track`), and the network failures are what the machines report
  (`step_networkFailures`).
-/

import BrowserHeadless.Collect.FullLoop
import BrowserHeadless.Lib.Register

namespace BrowserHeadless
namespace Collect
namespace FullLoop

open Lib (HashMap)

/-- What the loop knows about one request. -/
@[ext]
structure Track where
  entry : Option WebPageResource := none
  type : Option ResourceType := none
  sentAt : Option ℚ := none
  aborted : Bool := false
deriving DecidableEq

/-- The track of a request in a state. -/
def track (s : State) (id : String) : Track where
  entry := s.resources.lookup id
  type := s.httpResourceTypes.lookup id
  sentAt := s.requestSentAt.lookup id
  aborted := decide (id ∈ s.quickAbortIds)

/-- The URL known for a request; empty when there is none. -/
def Track.url (tr : Track) : String := (tr.entry.map fun r => r.url).getD ""

/-- The failure is of a pseudo-scheme entry. -/
def Track.pseudo (tr : Track) : Bool := tr.url != "" && !isRealResource tr.url

/-- The network failure that a `loadingFailed` event adds, if it is not
    suppressed. -/
def Track.failure (tr : Track) (ev : EventLoadingFailed) : Option NetworkFailure :=
  if tr.pseudo || isQuickAbort ev tr.sentAt then none
  else
    some
      { url := tr.url
        errorText := ev.errorText
        resourceType := resourceTypeLabel ev.type
        canceled := ev.canceled.getD false }

/-- The events that concern one request. -/
inductive Signal where
  | responded (ev : EventResponseReceived)
  | finished (ev : EventLoadingFinished)
  | sent (ev : EventRequestWillBeSent)
  | failed (ev : EventLoadingFailed)

/-- What an event means to the request `id`; nothing when it is of another
    request, of a pseudo-scheme, or of a stream that is not subscribed. -/
def signal (c : CollectCaptures) (id : String) : Event → Option Signal
  | .responseReceived ev =>
      if ev.requestId = id ∧ isRealResource ev.response.url = true then some (.responded ev)
      else none
  | .loadingFinished ev => if ev.requestId = id then some (.finished ev) else none
  | .requestWillBeSent ev =>
      if c.initiators = true ∧ ev.requestId = id ∧ isRealResource ev.url = true then
        some (.sent ev)
      else none
  | .loadingFailed ev =>
      if c.httpErrors = true ∧ ev.requestId = id then some (.failed ev) else none
  | _ => none

/-- The machine of the request `id`. -/
def Track.act (c : CollectCaptures) (parseUrl : String → Option ParsedUrl) (id : String)
    (tr : Track) : Signal → Track
  | .responded ev =>
      { tr with
        entry := some (fillEntry c parseUrl ev (tr.entry.getD { requestId := id }))
        type := if c.httpErrors then some ev.type else tr.type }
  | .finished ev =>
      { tr with
        entry := tr.entry.map fun entry =>
          { entry with contentSize := asU64 (max ev.encodedDataLength 0) } }
  | .sent ev =>
      { tr with
        entry := some (noteRequest parseUrl ev (tr.entry.getD { requestId := id }))
        sentAt := some ev.timestamp }
  | .failed ev =>
      if tr.pseudo = false ∧ isQuickAbort ev tr.sentAt = true then { tr with aborted := true }
      else tr

/-! ## The loop refines the tracks -/

theorem track_recordResponse (c : CollectCaptures) (parseUrl : String → Option ParsedUrl)
    (wallSecs : Nat) (ev : EventResponseReceived) (s : State) (id : String) :
    track (recordResponse c parseUrl wallSecs ev s) id =
      if ev.requestId = id then (track s id).act c parseUrl id (.responded ev)
      else track s id := by
  -- the request of the event, or another one whose keys the arm does not touch
  by_cases hid : ev.requestId = id
  · subst hid
    rw [if_pos rfl]
    refine Track.ext (Finmap.lookup_insert s.resources) ?_ rfl rfl
    simp only [track, recordResponse, Track.act]
    split
    · exact Finmap.lookup_insert s.httpResourceTypes
    · rfl
  · have hne : id ≠ ev.requestId := fun h => hid h.symm
    rw [if_neg hid]
    refine Track.ext (Finmap.lookup_insert_of_ne s.resources hne) ?_ rfl rfl
    simp only [track, recordResponse]
    split
    · exact Finmap.lookup_insert_of_ne s.httpResourceTypes hne
    · rfl

theorem track_onFinished (c : CollectCaptures) (parseUrl : String → Option ParsedUrl)
    (ev : EventLoadingFinished) (s : State) (id : String) :
    track (onFinished ev s) id =
      if ev.requestId = id then (track s id).act c parseUrl id (.finished ev)
      else track s id := by
  by_cases hid : ev.requestId = id
  · subst hid
    rw [if_pos rfl]
    exact Track.ext (HashMap.lookup_modify_self s.resources ev.requestId _) rfl rfl rfl
  · have hne : id ≠ ev.requestId := fun h => hid h.symm
    rw [if_neg hid]
    exact Track.ext (HashMap.lookup_modify_ne s.resources _ hne) rfl rfl rfl

theorem track_onRequest (c : CollectCaptures) (parseUrl : String → Option ParsedUrl)
    (ev : EventRequestWillBeSent) (s : State) (id : String) :
    track (onRequest parseUrl ev s) id =
      if ev.requestId = id ∧ isRealResource ev.url = true then
        (track s id).act c parseUrl id (.sent ev)
      else track s id := by
  unfold onRequest
  by_cases hreal : isRealResource ev.url = true
  · simp only [hreal, Bool.not_true, Bool.false_eq_true, if_false, and_true]
    by_cases hid : ev.requestId = id
    · subst hid
      rw [if_pos rfl]
      exact Track.ext (HashMap.lookup_upsert_self s.resources ev.requestId _ _) rfl
        (Finmap.lookup_insert s.requestSentAt) rfl
    · have hne : id ≠ ev.requestId := fun h => hid h.symm
      rw [if_neg hid]
      exact Track.ext (HashMap.lookup_upsert_ne s.resources _ _ hne) rfl
        (Finmap.lookup_insert_of_ne s.requestSentAt hne) rfl
  · simp [hreal]

/-- The test of the `loadingFailed` arm for a pseudo-scheme entry. -/
theorem pseudo_track (s : State) (id : String) :
    (track s id).pseudo = true ↔
      ((s.resources.lookup id).map fun r => r.url).getD "" ≠ "" ∧
        (!isRealResource (((s.resources.lookup id).map fun r => r.url).getD "")) = true := by
  simp [Track.pseudo, Track.url, track]

theorem track_onFailed (c : CollectCaptures) (parseUrl : String → Option ParsedUrl)
    (ev : EventLoadingFailed) (s : State) (id : String) :
    track (onFailed ev s) id =
      if ev.requestId = id then (track s id).act c parseUrl id (.failed ev)
      else track s id := by
  simp only [onFailed, ← pseudo_track, Track.act]
  by_cases hid : ev.requestId = id
  · subst hid
    rw [if_pos rfl]
    -- a pseudo-scheme entry returns before the quick-abort test
    by_cases hpseudo : (track s ev.requestId).pseudo = true
    · rw [if_pos hpseudo, if_neg]
      rintro ⟨hp, -⟩
      rw [hpseudo] at hp
      cases hp
    · rw [if_neg hpseudo]
      by_cases hquick : isQuickAbort ev (s.requestSentAt.lookup ev.requestId) = true
      · rw [if_pos hquick, if_pos ⟨by simpa using hpseudo, hquick⟩]
        simp [track]
      · rw [if_neg hquick, if_neg fun h => hquick h.2]
        rfl
  · have hne : id ≠ ev.requestId := fun h => hid h.symm
    rw [if_neg hid]
    split
    · rfl
    · split
      · simp [track, hne]
      · rfl

/-- Lifecycle events concern no request. -/
theorem track_onLifecycle (now : Instant) (ev : EventLifecycleEvent) (s : State) (id : String) :
    track (onLifecycle now ev s) id = track s id := by
  simp only [onLifecycle]
  split <;> rfl

/-- An event that is not subscribed to concerns no request. -/
theorem signal_of_not_subscribed {c : CollectCaptures} {e : Event} (id : String)
    (h : c.subscribed e = false) : signal c id e = none := by
  cases e with
  | requestWillBeSent ev => simp [signal, show c.initiators = false from h]
  | loadingFailed ev => simp [signal, show c.httpErrors = false from h]
  | consoleApiCalled ev => rfl
  | styleSheetAdded ev => rfl
  | _ => cases h

/-- Every step acts on each track by itself, as far as its event concerns the
    request. -/
theorem step_track {c : CollectCaptures} {parseUrl : String → Option ParsedUrl} (id : String)
    (s : State) (d : Delivery Event) (s' : State) (h : step c parseUrl s d = .ok s') :
    track s' id = (signal c id d.ev).elim (track s id) ((track s id).act c parseUrl id) := by
  cases step_cases h with
  | lifecycle ev hev =>
      rw [hev, track_onLifecycle]
      rfl
  | skipped ev hev hreal => simp [hev, signal, hreal]
  | recorded ev hev hreal pending _ =>
      rw [hev, track_recordResponse]
      simp only [signal, hreal, and_true]
      split <;> rfl
  | finished ev hev =>
      rw [hev, track_onFinished c parseUrl]
      simp only [signal]
      split <;> rfl
  | exception ev hev =>
      rw [hev]
      rfl
  | console ev hev =>
      rw [hev]
      rfl
  | request ev hev hc =>
      rw [hev, track_onRequest c parseUrl]
      simp only [signal, hc, true_and]
      split <;> rfl
  | failed ev hev hc =>
      rw [hev, track_onFailed c parseUrl]
      simp only [signal, hc, true_and]
      split <;> rfl
  | styleSheet ev hev =>
      rw [hev]
      rfl
  | ignored hsub =>
      rw [signal_of_not_subscribed id hsub]
      rfl

/-- The signals of some deliveries for the request `id`. -/
def signals (c : CollectCaptures) (id : String) (ds : List (Delivery Event)) : List Signal :=
  ds.filterMap fun d => signal c id d.ev

/-- Where the machine of the request `id` ends after some signals. -/
def trackAfter (c : CollectCaptures) (parseUrl : String → Option ParsedUrl) (id : String)
    (as : List Signal) : Track :=
  as.foldl (Track.act c parseUrl id) {}

/-- After a run each request is where its own machine ends. -/
theorem run_track {c : CollectCaptures} {parseUrl : String → Option ParsedUrl} {url : String}
    {waitForRequest : List String} {ds : List (Delivery Event)} {t : State}
    (h : run c parseUrl url waitForRequest ds = .ok t) (id : String) :
    track t id = trackAfter c parseUrl id (signals c id ds) := by
  have := Lib.consume_view (fun s => track s id)
    (fun tr d => (signal c id d.ev).elim tr (tr.act c parseUrl id)) (step_track id) h
  -- deliveries that concern other requests drop out of the fold
  rw [this, trackAfter, signals, List.foldl_filterMap]
  congr 1
  funext tr d
  cases signal c id d.ev <;> rfl

/-- The network failures that a step reports. -/
def reportedFailure (c : CollectCaptures) (s : State) (e : Event) : Option NetworkFailure :=
  match e with
  | .loadingFailed ev => if c.httpErrors then (track s ev.requestId).failure ev else none
  | _ => none

/-- The failure that the `loadingFailed` arm reports is that of the track. -/
theorem httpNetworkFailures_onFailed (ev : EventLoadingFailed) (s : State) :
    (onFailed ev s).httpNetworkFailures =
      s.httpNetworkFailures ++ ((track s ev.requestId).failure ev).toList := by
  simp only [onFailed, ← pseudo_track, Track.failure]
  cases hpseudo : (track s ev.requestId).pseudo with
  | true => simp
  | false =>
      simp only [Bool.false_eq_true, if_false, Bool.false_or]
      by_cases hquick : isQuickAbort ev (s.requestSentAt.lookup ev.requestId) = true
      · simp [hquick, track]
      · simp only [hquick, track]
        rfl

/-- Network failures come from `loadingFailed` events alone, as the track of
    their request has it. -/
theorem step_networkFailures {c : CollectCaptures} {parseUrl : String → Option ParsedUrl}
    {s s' : State} {d : Delivery Event} (h : step c parseUrl s d = .ok s') :
    s'.httpNetworkFailures = s.httpNetworkFailures ++ (reportedFailure c s d.ev).toList := by
  unfold reportedFailure
  cases step_cases h with
  | lifecycle ev hev =>
      simp only [hev, onLifecycle]
      split <;> simp
  | skipped ev hev => simp [hev]
  | recorded ev hev => simp [hev, recordResponse]
  | finished ev hev => simp [hev, onFinished]
  | exception ev hev => simp [hev, onException]
  | console ev hev => simp [hev, onConsole]
  | request ev hev =>
      simp only [hev, onRequest]
      split <;> simp
  | failed ev hev hc =>
      simp only [hev, hc, if_true]
      exact httpNetworkFailures_onFailed ev s
  | styleSheet ev hev => simp [hev, onStyleSheet]
  | ignored hsub =>
      cases hev : d.ev with
      | loadingFailed ev =>
          rw [hev] at hsub
          simp [show c.httpErrors = false from hsub]
      | _ => simp

end FullLoop
end Collect
end BrowserHeadless
