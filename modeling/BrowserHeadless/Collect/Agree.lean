/-
  BrowserHeadless.Collect.Agree

  The lean and the full collect loop agree on what they both track.

  The variables of the lean loop are variables of the full loop as well, and the
  arms that the lean loop does not have leave them alone: the full loop projects
  onto the lean one (`FullLoop.projects_lean`).  The instants at which the gates
  are marked differ between two runs, so the runs are compared after both are
  projected onto the lean loop with the instants forgotten.
-/

import BrowserHeadless.Collect.LeanLoop
import BrowserHeadless.Collect.FullLoop

namespace BrowserHeadless
namespace Collect

/-- The events of the full loop that the lean loop consumes too. -/
def Event.shared : Event → Option LeanEvent
  | .lifecycle ev => some (.lifecycle ev)
  | .responseReceived ev => some (.responseReceived ev)
  | _ => none

/-- The delivery of a shared event, as the lean loop would have had it. -/
def Delivery.shared (d : Delivery Event) : Option (Delivery LeanEvent) :=
  d.ev.shared.map fun e => { now := d.now, wallSecs := d.wallSecs, ev := e }

/-- A delivery with no clock readings. -/
def Delivery.untimed (d : Delivery LeanEvent) : Delivery LeanEvent := { ev := d.ev }

/-! ## The lean loop without its clock -/

namespace LeanLoop

/-- The state with the instants of the gate marks forgotten. -/
def State.timeless (s : State) : State :=
  { s with idleAt := s.idleAt.map fun _ => 0, loadAt := s.loadAt.map fun _ => 0 }

/-- A mark that is set only once is set at any time. -/
theorem map_or_mark (m : Option Instant) (now : Instant) :
    (m.or (some now)).map (fun _ => (0 : Instant)) = (m.map fun _ => 0).or (some 0) := by
  cases m <;> rfl

theorem timeless_onLifecycle (now : Instant) (ev : EventLifecycleEvent) (s : State) :
    (onLifecycle now ev s).timeless = onLifecycle 0 ev s.timeless := by
  unfold onLifecycle
  split <;> simp only [State.timeless, map_or_mark]

theorem timeless_onResponse (ev : EventResponseReceived) (s : State) :
    (onResponse ev s).map State.timeless = onResponse ev s.timeless := by
  unfold onResponse
  by_cases hreal : isRealResource ev.response.url
  · simp only [hreal, Bool.not_true, Bool.false_eq_true, if_false]
    cases hm : matchPatterns s.pendingPatterns ev.response.url ev.response.status with
    | error e => simp only [State.timeless, hm, Except.map]
    | ok pending => simp only [State.timeless, hm, Except.map]
  · simp only [hreal, Bool.not_false, if_true, Except.map]

/-- The loop does not look at the clock of its events. -/
theorem projects_timeless :
    Lib.Projects step step State.timeless (fun d => some d.untimed) where
  skip s d h := by cases h
  keep s d b h := by
    cases h
    cases hev : d.ev with
    | lifecycle ev =>
        simp only [step, Delivery.untimed, hev, Except.map]
        exact congrArg Except.ok (timeless_onLifecycle d.now ev s)
    -- the response arm does not read the clock
    | responseReceived ev =>
        simp only [step, Delivery.untimed, hev]
        exact timeless_onResponse ev s

/-- The loop fails with `UpstreamFailure` only. -/
theorem step_eq_error {s : State} {d : Delivery LeanEvent} {e : Error}
    (h : step s d = .error e) : ∃ status url, e = .upstreamFailure status url := by
  cases hev : d.ev with
  | lifecycle ev => simp [step, hev] at h
  | responseReceived ev =>
      simp only [step, hev, onResponse, matchPatterns] at h
      split at h
      · cases h
      · split at h
        · rename_i hm
          split at hm
          · cases hm
          · split at hm
            · cases hm
              cases h
              exact ⟨_, _, rfl⟩
            · cases hm
        · cases h

end LeanLoop

/-! ## The full loop seen by the lean loop -/

namespace FullLoop

/-- The variables that the lean loop has too. -/
def State.leanView (s : State) : LeanLoop.State where
  documentTiming := s.documentTiming
  pendingPatterns := s.pendingPatterns
  idleAt := s.idleAt
  loadAt := s.loadAt
  fcpTs := s.fcpTs
  dclTs := s.dclTs
  loadTs := s.loadTs
  initTs := s.initTs

theorem leanView_onLifecycle (now : Instant) (ev : EventLifecycleEvent) (s : State) :
    (onLifecycle now ev s).leanView = LeanLoop.onLifecycle now ev s.leanView := by
  obtain ⟨name, ts⟩ := ev
  by_cases hknown :
      name ∈ ["init", "firstContentfulPaint", "DOMContentLoaded", "load", "networkIdle"]
  · simp only [List.mem_cons, List.not_mem_nil, or_false] at hknown
    rcases hknown with rfl | rfl | rfl | rfl | rfl <;> rfl
  -- none of the five names: both loops fall through
  · simp only [List.mem_cons, List.not_mem_nil, or_false, not_or] at hknown
    obtain ⟨hinit, hfcp, hdcl, hload, hidle⟩ := hknown
    simp only [onLifecycle, LeanLoop.onLifecycle]

/-- Both loops take the timing of a Document from the same fields: the full
    loop reads them back from the entry it has just filled. -/
theorem trackDocument_fillEntry (c : CollectCaptures) (parseUrl : String → Option ParsedUrl)
    (ev : EventResponseReceived) (entry : WebPageResource) (timing : Option DocumentTiming) :
    trackDocument ev (fillEntry c parseUrl ev entry) timing = LeanLoop.trackDocument ev timing := by
  unfold trackDocument LeanLoop.trackDocument
  by_cases hdoc : ev.type = .document
  · simp only [hdoc, if_true, fillEntry]
    by_cases hs : statusAsU32 ev.response.status < 400
    · simp only [hs, if_true]
      cases ev.response.timing with
      | some t => rfl
      | none =>
          -- the lean loop copies `from_cache`, the full loop writes `true`
          by_cases hcache : (ev.response.fromDiskCache.getD false ||
              ev.response.fromServiceWorker.getD false ||
              ev.response.fromPrefetchCache.getD false) = true
          · simp only [hcache]
          · simp only [hcache]
            rfl
    · simp only [hs, if_false]
  · simp only [hdoc, if_false]

theorem matchPatterns_eq (pending : List String) (url : String) (status : Int) :
    matchPatterns pending url status = LeanLoop.matchPatterns pending url status := rfl

theorem leanView_onResponse (c : CollectCaptures) (parseUrl : String → Option ParsedUrl)
    (wallSecs : Nat) (ev : EventResponseReceived) (s : State) :
    (onResponse c parseUrl wallSecs ev s).map State.leanView =
      LeanLoop.onResponse ev s.leanView := by
  unfold onResponse LeanLoop.onResponse
  by_cases hreal : isRealResource ev.response.url
  · simp only [hreal, Bool.not_true, Bool.false_eq_true, if_false, matchPatterns_eq]
    cases hm : LeanLoop.matchPatterns s.pendingPatterns ev.response.url ev.response.status with
    | error e => simp only [State.leanView, hm, Except.map]
    | ok pending =>
        simp only [State.leanView, hm, Except.map, recordResponse, trackDocument_fillEntry]
  · simp only [hreal, Bool.not_false, if_true, Except.map]

theorem leanView_onRequest (parseUrl : String → Option ParsedUrl) (ev : EventRequestWillBeSent)
    (s : State) : (onRequest parseUrl ev s).leanView = s.leanView := by
  unfold onRequest
  split <;> rfl

theorem leanView_onFailed (ev : EventLoadingFailed) (s : State) :
    (onFailed ev s).leanView = s.leanView := by
  simp only [onFailed]
  split
  · rfl
  · split <;> rfl

/-- The full loop projects onto the lean loop. -/
theorem projects_lean (c : CollectCaptures) (parseUrl : String → Option ParsedUrl) :
    Lib.Projects (step c parseUrl) LeanLoop.step State.leanView Delivery.shared where
  skip s d h := by
    cases hev : d.ev with
    | lifecycle ev => simp [hev, Delivery.shared, Event.shared] at h
    | responseReceived ev => simp [hev, Delivery.shared, Event.shared] at h
    | loadingFinished ev => simp only [step, hev, Except.map]; rfl
    | exceptionThrown ev => simp only [step, hev, Except.map]; rfl
    | consoleApiCalled ev =>
        simp only [step, hev, Except.map]
        split <;> rfl
    | requestWillBeSent ev =>
        simp only [step, hev, Except.map]
        split
        · rw [leanView_onRequest]
        · rfl
    | loadingFailed ev =>
        simp only [step, hev, Except.map]
        split
        · rw [leanView_onFailed]
        · rfl
    | styleSheetAdded ev =>
        simp only [step, hev, Except.map]
        split <;> rfl
  keep s d b h := by
    cases hev : d.ev with
    | lifecycle ev =>
        simp only [hev, Delivery.shared, Event.shared, Option.map_some, Option.some.injEq] at h
        subst h
        simp only [step, LeanLoop.step, hev, Except.map, leanView_onLifecycle]
    | responseReceived ev =>
        simp only [hev, Delivery.shared, Event.shared, Option.map_some, Option.some.injEq] at h
        subst h
        simp only [step, LeanLoop.step, hev, leanView_onResponse]
    | loadingFinished ev => simp [hev, Delivery.shared, Event.shared] at h
    | exceptionThrown ev => simp [hev, Delivery.shared, Event.shared] at h
    | consoleApiCalled ev => simp [hev, Delivery.shared, Event.shared] at h
    | requestWillBeSent ev => simp [hev, Delivery.shared, Event.shared] at h
    | loadingFailed ev => simp [hev, Delivery.shared, Event.shared] at h
    | styleSheetAdded ev => simp [hev, Delivery.shared, Event.shared] at h

/-- The two clamps of a negative phase agree. -/
theorem toMs_eq (initTs ts : Option ℚ) : toMs initTs ts = LeanLoop.toMs initTs ts := by
  unfold toMs LeanLoop.toMs
  cases initTs with
  | none => rfl
  | some i =>
      cases ts with
      | none => rfl
      | some t =>
          -- the lean loop tests the order, the full loop clamps the difference
          by_cases h : i ≤ t
          · have hmax : max (rounded (t - i)) 0 = rounded (t - i) :=
              max_eq_left (rounded_nonneg (by linarith))
            simp only [h, if_true, hmax]
          · have hmax : max (rounded (t - i)) 0 = 0 :=
              max_eq_right (rounded_nonpos (by linarith))
            simp only [h, if_false, hmax, zero_mul, rounded_zero]
            rfl

end FullLoop

/-- What the two loops have in common when neither fails. -/
structure Agree (c : CollectCaptures) (waitUntilLoad : Bool) (s : LeanLoop.State)
    (t : FullLoop.State) : Prop where
  documentTiming : (FullLoop.finish c t).documentTiming = (LeanLoop.finish s).documentTiming
  fcpTime : (FullLoop.finish c t).fcpTime = (LeanLoop.finish s).fcpTime
  dclTime : (FullLoop.finish c t).dclTime = (LeanLoop.finish s).dclTime
  loadTime : (FullLoop.finish c t).loadTime = (LeanLoop.finish s).loadTime
  pendingPatterns : t.pendingPatterns = s.pendingPatterns
  gate : (FullLoop.gateAt waitUntilLoad t).isSome = (LeanLoop.gateAt waitUntilLoad s).isSome

/-- States that the projections identify agree. -/
theorem Agree.of_view {c : CollectCaptures} {waitUntilLoad : Bool} {s : LeanLoop.State}
    {t : FullLoop.State} (h : s.timeless = t.leanView.timeless) :
    Agree c waitUntilLoad s t := by
  simp only [LeanLoop.State.timeless, FullLoop.State.leanView, LeanLoop.State.mk.injEq] at h
  obtain ⟨hdoc, hpending, hidle, hload, hfcp, hdcl, hloadTs, hinit⟩ := h
  -- of an instant only its presence is compared
  have hmarks : ∀ {m m' : Option Instant},
      m.map (fun _ => (0 : Instant)) = m'.map (fun _ => 0) → m'.isSome = m.isSome := by
    intro m m' hm
    rw [← Option.isSome_map (f := fun _ => (0 : Instant)), ← hm, Option.isSome_map]
  constructor
  case documentTiming => exact hdoc.symm
  case fcpTime =>
    simp only [FullLoop.finish, LeanLoop.finish, FullLoop.toMs_eq, hfcp, hinit]
  case dclTime =>
    simp only [FullLoop.finish, LeanLoop.finish, FullLoop.toMs_eq, hdcl, hinit]
  case loadTime =>
    simp only [FullLoop.finish, LeanLoop.finish, FullLoop.toMs_eq, hloadTs, hinit]
  case pendingPatterns => exact hpending.symm
  case gate =>
    simp only [FullLoop.gateAt, LeanLoop.gateAt]
    split
    · exact hmarks hload
    · exact hmarks hidle

/-- The two loops agree: on sequences with the same lifecycle and response
    events, whatever else the full loop consumes in between, either both fail
    with the same `UpstreamFailure` at the same event or both end in states that
    agree. -/
theorem leanLoop_fullLoop_agree (c : CollectCaptures) (parseUrl : String → Option ParsedUrl)
    (url : String) (waitForRequest : List String) (waitUntilLoad : Bool)
    (ls : List (Delivery LeanEvent)) (fs : List (Delivery Event))
    (h : ls.map (fun d => d.ev) = fs.filterMap fun d => d.ev.shared) :
    (∃ s t, LeanLoop.run waitForRequest ls = .ok s ∧
      FullLoop.run c parseUrl url waitForRequest fs = .ok t ∧ Agree c waitUntilLoad s t) ∨
    (∃ status failedUrl pre a pre' b,
      Lib.FailsAt LeanLoop.step (.init waitForRequest) ls pre a
        (.upstreamFailure status failedUrl) ∧
      Lib.FailsAt (FullLoop.step c parseUrl) (.init url waitForRequest) fs pre' b
        (.upstreamFailure status failedUrl) ∧
      pre.map (fun d => d.ev) = (pre'.filterMap fun d => d.ev.shared) ∧
      some a.ev = b.ev.shared) := by
  -- the deliveries of both loops, projected to their events without clocks
  have hlean : ∀ ds : List (Delivery LeanEvent),
      (ds.filterMap fun d => some d.untimed) =
        (ds.map fun d => d.ev).map fun e => ({ ev := e } : Delivery LeanEvent) := by
    intro ds
    rw [List.map_map, ← List.filterMap_eq_map]
    rfl
  have hshared : ∀ ds : List (Delivery Event),
      (ds.filterMap fun d => d.shared.bind fun d => some d.untimed) =
        (ds.filterMap fun d => d.ev.shared).map fun e => ({ ev := e } : Delivery LeanEvent) := by
    intro ds
    rw [List.map_filterMap]
    congr 1
    funext d
    simp only [Delivery.shared]
    cases d.ev.shared <;> rfl
  have hfull := (FullLoop.projects_lean c parseUrl).comp LeanLoop.projects_timeless
  have hinit : (LeanLoop.State.init waitForRequest).timeless =
      (FullLoop.State.init url waitForRequest).leanView.timeless := rfl
  -- both loops project onto the lean loop without its clock
  rcases LeanLoop.projects_timeless.agree hfull hinit (by rw [hlean, hshared, h]) with
    ⟨s, t, hs, ht, hview⟩ | ⟨e, pre, a, pre', b, d, ha, hb, hpre, hda, hdb⟩
  · exact .inl ⟨s, t, hs, ht, .of_view hview⟩
  · refine .inr ?_
    obtain ⟨status, failedUrl, rfl⟩ : ∃ status url, e = .upstreamFailure status url := by
      obtain ⟨-, t, -, -, hstep⟩ := ha
      exact LeanLoop.step_eq_error hstep
    refine ⟨status, failedUrl, pre, a, pre', b, ha, hb, ?_, ?_⟩
    · rw [hlean, hshared] at hpre
      exact List.map_injective_iff.mpr (fun e e' he => congrArg Delivery.ev he) hpre
    · cases hda
      simp only [Delivery.shared] at hdb
      cases hs : b.ev.shared with
      | none => simp [hs] at hdb
      | some e =>
          simp only [hs, Option.map_some, Option.bind_some, Option.some.injEq] at hdb
          exact congrArg (fun d => some (Delivery.ev d)) hdb.symm

/-- The two loops on a page that loads, the full one with a `loadingFinished` in
    between: they agree, the first alternative. -/
theorem leanLoop_fullLoop_agree_loading :
    ∃ s t,
      LeanLoop.run [] [{ now := 1, ev := .lifecycle ⟨"init", 1⟩ },
        { now := 4, ev := .lifecycle ⟨"load", 2⟩ }] = .ok s ∧
      FullLoop.run {} (fun _ => none) "https://a.example/" []
        [{ now := 2, ev := .lifecycle ⟨"init", 1⟩ }, { now := 3, ev := .loadingFinished ⟨"r1", 9⟩ },
          { now := 5, ev := .lifecycle ⟨"load", 2⟩ }] = .ok t ∧
      Agree {} true s t := by
  rcases leanLoop_fullLoop_agree {} (fun _ => none) "https://a.example/" [] true
    [{ now := 1, ev := .lifecycle ⟨"init", 1⟩ }, { now := 4, ev := .lifecycle ⟨"load", 2⟩ }]
    [{ now := 2, ev := .lifecycle ⟨"init", 1⟩ }, { now := 3, ev := .loadingFinished ⟨"r1", 9⟩ },
      { now := 5, ev := .lifecycle ⟨"load", 2⟩ }] rfl with
    h | ⟨status, failedUrl, pre, a, pre', b, hfail, -⟩
  · exact h
  · have := hfail.consume
    cases this

end Collect
end BrowserHeadless
