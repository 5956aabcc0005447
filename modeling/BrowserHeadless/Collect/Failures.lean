/-
  BrowserHeadless.Collect.Failures

  The `loadingFailed` events of a sequence, each with the events before it.

  What the arm does with such an event depends on the events before it alone: on the URL
  known for the request, and on the time of its last request.  So the failures that are
  reported (`run_networkFailures`) and the requests that are aborted (`aborted_after`) are
  read off the sequence.
-/

import BrowserHeadless.Collect.Inventory

namespace BrowserHeadless
namespace Collect
namespace FullLoop

open Lib (HashMap)

/-- A `loadingFailed` event and the events before it. -/
structure Failure where
  before : List (Delivery Event)
  ev : EventLoadingFailed

/-- The failure of a delivery, if it is one. -/
def failureAt (before : List (Delivery Event)) (d : Delivery Event) : List Failure :=
  match d.ev with
  | .loadingFailed ev => [⟨before, ev⟩]
  | _ => []

/-- The failures among some events that come after others. -/
def failuresFrom : List (Delivery Event) → List (Delivery Event) → List Failure
  | _, [] => []
  | before, d :: rest => failureAt before d ++ failuresFrom (before ++ [d]) rest

/-- The failures of a sequence. -/
def failures (ds : List (Delivery Event)) : List Failure := failuresFrom [] ds

theorem failuresFrom_append (before ds ds' : List (Delivery Event)) :
    failuresFrom before (ds ++ ds') =
      failuresFrom before ds ++ failuresFrom (before ++ ds) ds' := by
  induction ds generalizing before with
  | nil => rw [List.nil_append, failuresFrom, List.nil_append, List.append_nil]
  | cons d ds ih =>
      rw [List.cons_append, failuresFrom, failuresFrom, ih, List.append_assoc, List.append_assoc]
      rfl

theorem failures_concat (ds : List (Delivery Event)) (d : Delivery Event) :
    failures (ds ++ [d]) = failures ds ++ failureAt ds d := by
  rw [failures, failuresFrom_append, ← failures, List.nil_append, failuresFrom, failuresFrom,
    List.append_nil]

/-! ## What is known of a request -/

/-- The URL that is known for a request after some events. -/
def knownUrl (c : CollectCaptures) (id : String) (ds : List (Delivery Event)) : String :=
  (signals c id ds).foldl urlStep ""

/-- The time of the last request. -/
def lastSent (c : CollectCaptures) (id : String) (ds : List (Delivery Event)) : Option ℚ :=
  Lib.lastWrite (fun ev => some ev.timestamp) (sentOf (signals c id ds))

/-- The failure is a quick abort. -/
def Failure.quick (c : CollectCaptures) (f : Failure) : Bool :=
  isQuickAbort f.ev (lastSent c f.ev.requestId f.before)

/-- The report on the failure. -/
def Failure.report (c : CollectCaptures) (f : Failure) : NetworkFailure where
  url := knownUrl c f.ev.requestId f.before
  errorText := f.ev.errorText
  resourceType := resourceTypeLabel f.ev.type
  canceled := f.ev.canceled.getD false

/-- The failures that are reported. -/
def reported (c : CollectCaptures) (ds : List (Delivery Event)) : List Failure :=
  (failures ds).filter fun f => !f.quick c

theorem reported_concat (c : CollectCaptures) (ds : List (Delivery Event)) (d : Delivery Event) :
    reported c (ds ++ [d]) = reported c ds ++ (failureAt ds d).filter fun f => !f.quick c := by
  rw [reported, failures_concat, List.filter_append, ← reported]

/-- Some request of the id is aborted right after it was sent. -/
def QuickAborted (c : CollectCaptures) (ds : List (Delivery Event)) (id : String) : Prop :=
  ∃ f ∈ failures ds, f.ev.requestId = id ∧ f.quick c = true

theorem signals_concat (c : CollectCaptures) (id : String) (ds : List (Delivery Event))
    (d : Delivery Event) :
    signals c id (ds ++ [d]) = signals c id ds ++ (signal c id d.ev).toList := by
  rw [signals, Lib.filterMap_concat]
  rfl

section Known

variable {c : CollectCaptures} {id : String} {ds : List (Delivery Event)}

/-- The events that concern a request. -/
theorem signal_eq_some {e : Event} {a : Signal} (h : signal c id e = some a) :
    (∃ ev, e = .responseReceived ev ∧ a = .responded ev ∧ ev.requestId = id ∧
      isRealResource ev.response.url = true) ∨
    (∃ ev, e = .loadingFinished ev ∧ a = .finished ev ∧ ev.requestId = id) ∨
    (∃ ev, e = .requestWillBeSent ev ∧ a = .sent ev ∧ c.initiators = true ∧ ev.requestId = id ∧
      isRealResource ev.url = true) ∨
    (∃ ev, e = .loadingFailed ev ∧ a = .failed ev ∧ c.httpErrors = true ∧ ev.requestId = id) := by
  cases e with
  | responseReceived ev =>
      obtain ⟨hcond, ha⟩ := Option.ite_none_right_eq_some.mp h
      exact Or.inl ⟨ev, rfl, (Option.some.inj ha).symm, hcond⟩
  | loadingFinished ev =>
      obtain ⟨hcond, ha⟩ := Option.ite_none_right_eq_some.mp h
      exact Or.inr (Or.inl ⟨ev, rfl, (Option.some.inj ha).symm, hcond⟩)
  | requestWillBeSent ev =>
      obtain ⟨hcond, ha⟩ := Option.ite_none_right_eq_some.mp h
      exact Or.inr (Or.inr (Or.inl ⟨ev, rfl, (Option.some.inj ha).symm, hcond⟩))
  | loadingFailed ev =>
      obtain ⟨hcond, ha⟩ := Option.ite_none_right_eq_some.mp h
      exact Or.inr (Or.inr (Or.inr ⟨ev, rfl, (Option.some.inj ha).symm, hcond⟩))
  | _ => cases h

/-- A response recorded for a request is one of the sequence. -/
theorem mem_respondedOf {ev : EventResponseReceived} (h : ev ∈ respondedOf (signals c id ds)) :
    ev.requestId = id ∧ ∃ d ∈ ds, d.ev = .responseReceived ev := by
  obtain ⟨a, ha, hev⟩ := List.mem_filterMap.mp h
  obtain ⟨d, hd, hsig⟩ := List.mem_filterMap.mp ha
  rcases signal_eq_some hsig with ⟨r, hr, rfl, hid, -⟩ | ⟨_, -, rfl, -⟩ | ⟨_, -, rfl, -⟩ |
    ⟨_, -, rfl, -⟩
  · obtain rfl : r = ev := Option.some.inj hev
    exact ⟨hid, d, hd, hr⟩
  all_goals cases hev

/-- Only real URLs are recorded. -/
theorem isRealResource_knownUrl (c : CollectCaptures) (id : String)
    (ds : List (Delivery Event)) : isRealResource (knownUrl c id ds) = true := by
  induction ds using List.reverseRecOn with
  | nil => rfl
  | append_singleton ds d ih =>
      rw [knownUrl, signals_concat, List.foldl_append, ← knownUrl]
      cases hsig : signal c id d.ev with
      | none => exact ih
      | some a =>
          show isRealResource (urlStep (knownUrl c id ds) a) = true
          rcases signal_eq_some hsig with ⟨ev, -, rfl, -, hreal⟩ | ⟨ev, -, rfl, -⟩ |
            ⟨ev, -, rfl, -, -, hreal⟩ | ⟨ev, -, rfl, -⟩
          · exact hreal
          · exact ih
          · rw [urlStep]
            split
            · exact hreal
            · exact ih
          · exact ih

/-- So no entry is of a pseudo-scheme. -/
theorem pseudo_after (c : CollectCaptures) (parseUrl : String → Option ParsedUrl) (id : String)
    (ds : List (Delivery Event)) :
    (trackAfter c parseUrl id (signals c id ds)).pseudo = false := by
  rw [Track.pseudo, url_after, ← knownUrl, isRealResource_knownUrl]
  exact Bool.and_false _

theorem quickAborted_concat (c : CollectCaptures) (id : String) (ds : List (Delivery Event))
    (d : Delivery Event) :
    QuickAborted c (ds ++ [d]) id ↔ QuickAborted c ds id ∨
      ∃ ev, d.ev = .loadingFailed ev ∧ ev.requestId = id ∧
        isQuickAbort ev (lastSent c id ds) = true := by
  have hlast : (∃ f ∈ failureAt ds d, f.ev.requestId = id ∧ f.quick c = true) ↔
      ∃ ev, d.ev = .loadingFailed ev ∧ ev.requestId = id ∧
        isQuickAbort ev (lastSent c id ds) = true := by
    unfold failureAt
    constructor
    · rintro ⟨f, hf, rfl, hquick⟩
      split at hf
      next ev hev =>
          rw [List.mem_singleton.mp hf] at hquick ⊢
          exact ⟨ev, hev, rfl, hquick⟩
      next => cases hf
    · rintro ⟨ev, hev, rfl, hquick⟩
      rw [hev]
      exact ⟨⟨ds, ev⟩, List.mem_singleton_self _, rfl, hquick⟩
  rw [QuickAborted, failures_concat]
  simp only [List.mem_append, or_and_right, exists_or]
  rw [hlast]
  rfl

/-- A request is marked as aborted exactly if one of its failures is a quick abort. -/
theorem aborted_after (hc : c.httpErrors = true) (parseUrl : String → Option ParsedUrl)
    (id : String) (ds : List (Delivery Event)) :
    (trackAfter c parseUrl id (signals c id ds)).aborted = true ↔ QuickAborted c ds id := by
  induction ds using List.reverseRecOn with
  | nil =>
      refine iff_of_false Bool.false_ne_true ?_
      rintro ⟨f, hf, -⟩
      cases hf
  | append_singleton ds d ih =>
      have hpseudo := pseudo_after c parseUrl id ds
      have hsent := sentAt_after c parseUrl id (signals c id ds)
      rw [← lastSent] at hsent
      rw [signals_concat, quickAborted_concat, ← ih]
      cases hsig : signal c id d.ev with
      | none =>
          have hother : ¬ ∃ ev, d.ev = .loadingFailed ev ∧ ev.requestId = id ∧
              isQuickAbort ev (lastSent c id ds) = true := by
            rintro ⟨ev, hev, hid, -⟩
            rw [hev, signal, if_pos ⟨hc, hid⟩] at hsig
            cases hsig
          rw [Option.toList_none, List.append_nil, or_iff_left hother]
      | some a =>
          rw [Option.toList_some, trackAfter_concat]
          rcases signal_eq_some hsig with ⟨ev, hev, rfl, -⟩ | ⟨ev, hev, rfl, -⟩ |
            ⟨ev, hev, rfl, -⟩ | ⟨ev, hev, rfl, -, hid⟩
          -- only a failure can abort
          · simp [hev, Track.act]
          · simp [hev, Track.act]
          · simp [hev, Track.act]
          · have hfail : (∃ ev', d.ev = .loadingFailed ev' ∧ ev'.requestId = id ∧
                isQuickAbort ev' (lastSent c id ds) = true) ↔
                isQuickAbort ev (lastSent c id ds) = true := by
              rw [hev]
              constructor
              · rintro ⟨ev', hev', -, hquick⟩
                cases hev'
                exact hquick
              · intro hquick
                exact ⟨ev, rfl, hid, hquick⟩
            rw [hfail, Track.act, hpseudo, hsent]
            by_cases hquick : isQuickAbort ev (lastSent c id ds) = true
            · simp [hquick]
            · simp [hquick]

end Known

/-! ## What a run reports -/

section Run

variable {c : CollectCaptures} {parseUrl : String → Option ParsedUrl} {url : String}
  {waitForRequest : List String}

/-- What one more event adds to the network failures. -/
theorem step_reported (hc : c.httpErrors = true) {ds : List (Delivery Event)} {s s' : State}
    {d : Delivery Event} (hrun : run c parseUrl url waitForRequest ds = .ok s)
    (hstep : step c parseUrl s d = .ok s') :
    s'.httpNetworkFailures = s.httpNetworkFailures ++
      ((failureAt ds d).filter fun f => !f.quick c).map fun f => f.report c := by
  rw [step_networkFailures hstep]
  unfold reportedFailure failureAt
  cases hev : d.ev with
  | loadingFailed ev =>
      have hsent := sentAt_after c parseUrl ev.requestId (signals c ev.requestId ds)
      rw [← lastSent] at hsent
      simp only
      rw [if_pos hc, run_track hrun, Track.failure, pseudo_after, Bool.false_or, hsent, url_after,
        ← knownUrl]
      by_cases hquick : isQuickAbort ev (lastSent c ev.requestId ds) = true
      · simp [Failure.quick, hquick]
      · simp [Failure.quick, hquick, Failure.report]
  | _ => rfl

theorem run_concat {ds : List (Delivery Event)} {s s' : State} {d : Delivery Event}
    (hrun : run c parseUrl url waitForRequest ds = .ok s) (hstep : step c parseUrl s d = .ok s') :
    run c parseUrl url waitForRequest (ds ++ [d]) = .ok s' := by
  rw [run, Lib.consume_append_ok hrun]
  exact Lib.consume_cons_ok hstep

/-- The network failures of a run are its failures but the quick aborts. -/
theorem run_networkFailures (hc : c.httpErrors = true) {ds : List (Delivery Event)} {t : State}
    (h : run c parseUrl url waitForRequest ds = .ok t) :
    t.httpNetworkFailures = (reported c ds).map fun f => f.report c := by
  have hinv := Lib.consume_history
    (fun pre s => run c parseUrl url waitForRequest pre = .ok s ∧
      s.httpNetworkFailures = (reported c pre).map fun f => f.report c)
    (fun pre d s s' _ hs hstep => by
      refine ⟨run_concat hs.1 hstep, ?_⟩
      rw [step_reported hc hs.1 hstep, hs.2, reported_concat, List.map_append])
    ⟨rfl, rfl⟩ h
  exact hinv.2

end Run

end FullLoop
end Collect
end BrowserHeadless
