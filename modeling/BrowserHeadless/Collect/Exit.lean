/-
  BrowserHeadless.Collect.Exit

  When the collect loops end.

  Both loops race their streams with a timer that is set anew in each iteration, to
  `collect_stop_at` of the deadline, the gate, the pending patterns and the time of the
  last event.  Time is virtual: the events come at given times, a turn of the loop takes
  none, and the timer fires when it is due.  `Running` is what holds at the top of the
  loop; `ExitLaw` follows from it where the loop ends.
-/

import BrowserHeadless.Collect.Subframe
import BrowserHeadless.Lib.TimedLoop

namespace BrowserHeadless
namespace Collect

/-! ## The stop time -/

/-- `POST_IDLE_GRACE`, 500 ms. -/
def postIdleGrace : Instant := 500000000

/-- `QUIET_GRACE`, 100 ms. -/
def quietGrace : Instant := 100000000

/-- `collect_stop_at`. -/
def collectStopAt (deadline : Instant) (gateAt : Option Instant) (patternsPending : Bool)
    (lastEventAt : Instant) : Instant :=
  match gateAt with
  | some t =>
      if !patternsPending then
        min (min deadline (t + postIdleGrace)) (max lastEventAt t + quietGrace)
      else deadline
  | none => deadline

theorem collectStopAt_le (deadline : Instant) (gateAt : Option Instant) (patternsPending : Bool)
    (lastEventAt : Instant) :
    collectStopAt deadline gateAt patternsPending lastEventAt ≤ deadline := by
  unfold collectStopAt
  split
  · split
    · exact (min_le_left _ _).trans (min_le_left _ _)
    · exact le_refl deadline
  · exact le_refl deadline

/-- Without the gate, or with patterns pending, the timer is set to the deadline. -/
theorem collectStopAt_waiting (deadline lastEventAt : Instant) {gateAt : Option Instant}
    {patternsPending : Bool} (h : ¬ ((∃ g, gateAt = some g) ∧ patternsPending = false)) :
    collectStopAt deadline gateAt patternsPending lastEventAt = deadline := by
  cases gateAt with
  | none => rfl
  | some g =>
      cases patternsPending with
      | true => rfl
      | false => exact absurd ⟨⟨g, rfl⟩, rfl⟩ h

/-- The timed events of a capture.  What is queued when the loop starts comes then. -/
structure Timeline (ε : Type) (start : Instant) where
  deliveries : List (Delivery ε)
  ordered : Lib.SortedFrom (fun d : Delivery ε => d.now) start deliveries

/-- The events that pass a test. -/
def Timeline.filter {ε : Type} {start : Instant} (tl : Timeline ε start) (p : Delivery ε → Bool) :
    Timeline ε start where
  deliveries := tl.deliveries.filter p
  ordered := ⟨tl.ordered.1.filter p, fun d hd => tl.ordered.2 d (List.mem_of_mem_filter hd)⟩

theorem Delivery.now_shared {d : Delivery Event} {e : Delivery LeanEvent}
    (h : Delivery.shared d = some e) : e.now = d.now := by
  obtain ⟨ev, -, rfl⟩ := Option.map_eq_some_iff.mp h
  rfl

/-- The events that the lean loop has streams for. -/
def Timeline.shared {start : Instant} (tl : Timeline Event start) : Timeline LeanEvent start where
  deliveries := tl.deliveries.filterMap Delivery.shared
  ordered := by
    constructor
    · rw [List.pairwise_filterMap]
      refine tl.ordered.1.imp fun {a b} hab e he e' he' => ?_
      show e.now ≤ e'.now
      rw [Delivery.now_shared he, Delivery.now_shared he']
      exact hab
    · intro e he
      obtain ⟨d, hd, hde⟩ := List.mem_filterMap.mp he
      show start ≤ e.now
      rw [Delivery.now_shared hde]
      exact tl.ordered.2 d hd

/-- The lean loop with its timer: the state and the time at its end. -/
def LeanLoop.collect (waitForRequest : List String) (waitUntilLoad : Bool) (timeout : Instant)
    (timerWins : List (Delivery LeanEvent) → Bool) {start : Instant}
    (tl : Timeline LeanEvent start) : Except Error (LeanLoop.State × Instant) :=
  let deadline := start + timeout
  Lib.consumeUntil LeanLoop.step
    (fun s lastEventAt => collectStopAt deadline (LeanLoop.gateAt waitUntilLoad s)
      (!s.pendingPatterns.isEmpty) lastEventAt)
    (fun d => d.now) timerWins start (LeanLoop.State.init waitForRequest) tl.deliveries

/-- The full loop with its timer.  A stream it has not subscribed to never wakes it. -/
def FullLoop.collect (c : CollectCaptures) (parseUrl : String → Option ParsedUrl) (url : String)
    (waitForRequest : List String) (waitUntilLoad : Bool) (timeout : Instant)
    (timerWins : List (Delivery Event) → Bool) {start : Instant} (tl : Timeline Event start) :
    Except Error (FullLoop.State × Instant) :=
  let deadline := start + timeout
  Lib.consumeUntil (FullLoop.step c parseUrl)
    (fun s lastEventAt => collectStopAt deadline (FullLoop.gateAt waitUntilLoad s)
      (!s.pendingPatterns.isEmpty) lastEventAt)
    (fun d => d.now) timerWins start (FullLoop.State.init url waitForRequest)
    (tl.filter fun d => c.subscribed d.ev).deliveries

/-! ## The clocks of a timeline -/

/-- The lifecycle event that opens the gate. -/
def EventLifecycleEvent.isGate (waitUntilLoad : Bool) (ev : EventLifecycleEvent) : Bool :=
  ev.name == if waitUntilLoad then "load" else "networkIdle"

/-- A gate event of the lean loop. -/
def LeanLoop.isGate (waitUntilLoad : Bool) (d : Delivery LeanEvent) : Bool :=
  match d.ev with
  | .lifecycle ev => ev.isGate waitUntilLoad
  | .responseReceived _ => false

/-- A gate event of the full loop. -/
def FullLoop.isGate (waitUntilLoad : Bool) (d : Delivery Event) : Bool :=
  match d.ev with
  | .lifecycle ev => ev.isGate waitUntilLoad
  | _ => false

section Clocks

variable {ε : Type}

/-- When the first gate event comes. -/
def firstGate (isGate : Delivery ε → Bool) (ds : List (Delivery ε)) : Option Instant :=
  (ds.find? isGate).map fun d => d.now

/-- When the last pattern is matched, counting from a time: at once if there is none. -/
def matchedAt (responseOf : Delivery ε → Option Response) :
    List String → Instant → List (Delivery ε) → Option Instant
  | [], t, _ => some t
  | _ :: _, _, [] => none
  | p :: ps, t, d :: ds =>
      match responseOf d with
      | none => matchedAt responseOf (p :: ps) t ds
      | some r =>
          match patternStep (p :: ps) r with
          | .ok pending => matchedAt responseOf pending d.now ds
          | .error _ => none

/-- The loop has until the deadline, and once the gate has fired and the patterns are
    matched it ends when the streams are quiet: `g` is the time of the gate, `p` that of
    the last match, `times` those of the events, and `exit` the time of the end. -/
structure ExitLaw (deadline : Instant) (g p : Option Instant) (times : List Instant)
    (exit : Instant) : Prop where
  bounded : exit ≤ deadline
  waits : ¬ ((∃ g', g = some g' ∧ g' ≤ deadline) ∧ ∃ p', p = some p' ∧ p' ≤ deadline) →
    exit = deadline
  early : ∀ g' p', g = some g' → p = some p' → g' ≤ deadline → p' ≤ deadline →
    min deadline (g' + quietGrace) ≤ exit
  late : ∀ g' p', g = some g' → p = some p' → g' ≤ deadline → p' ≤ deadline →
    exit ≤ min deadline (max p' (g' + postIdleGrace))
  quiet : ∀ g' p', g = some g' → p = some p' → g' ≤ deadline → p' ≤ deadline →
    exit < deadline → exit < g' + postIdleGrace →
    ∀ t ∈ times, ¬ (exit < t + quietGrace ∧ t < exit)

theorem firstGate_cons (isGate : Delivery ε → Bool) (d : Delivery ε) (ds : List (Delivery ε)) :
    firstGate isGate (d :: ds) = if isGate d then some d.now else firstGate isGate ds := by
  rw [firstGate, List.find?_cons]
  cases hd : isGate d with
  | true => rfl
  | false => rfl

theorem mem_of_firstGate {isGate : Delivery ε → Bool} {ds : List (Delivery ε)} {g : Instant}
    (h : firstGate isGate ds = some g) : ∃ d ∈ ds, d.now = g := by
  obtain ⟨d, hd, hg⟩ := Option.map_eq_some_iff.mp h
  exact ⟨d, List.mem_of_find?_eq_some hd, hg⟩

/-- Patterns that are pending are matched by an event still to come. -/
theorem mem_of_matchedAt {responseOf : Delivery ε → Option Response} {pending : List String}
    {t p : Instant} {ds : List (Delivery ε)} (hpending : pending ≠ [])
    (h : matchedAt responseOf pending t ds = some p) : ∃ d ∈ ds, d.now = p := by
  induction ds generalizing pending t with
  | nil =>
      obtain ⟨q, qs, rfl⟩ := List.exists_cons_of_ne_nil hpending
      cases h
  | cons d ds ih =>
      obtain ⟨q, qs, rfl⟩ := List.exists_cons_of_ne_nil hpending
      rw [matchedAt] at h
      cases hr : responseOf d with
      | none =>
          rw [hr] at h
          obtain ⟨d', hd', hp⟩ := ih hpending h
          exact ⟨d', List.mem_cons_of_mem d hd', hp⟩
      | some r =>
          rw [hr] at h
          cases hstep : patternStep (q :: qs) r with
          | error e =>
              simp only [hstep] at h
              cases h
          | ok rest =>
              simp only [hstep] at h
              by_cases hdone : rest = []
              · subst hdone
                rw [matchedAt] at h
                exact ⟨d, List.mem_cons_self, Option.some.inj h⟩
              · obtain ⟨d', hd', hp⟩ := ih hdone h
                exact ⟨d', List.mem_cons_of_mem d hd', hp⟩

/-- Events that are no gate events do not matter. -/
theorem firstGate_filter {isGate q : Delivery ε → Bool} (h : ∀ d, isGate d = true → q d = true)
    (ds : List (Delivery ε)) : firstGate isGate (ds.filter q) = firstGate isGate ds := by
  induction ds with
  | nil => rfl
  | cons d ds ih =>
      rw [List.filter_cons, firstGate_cons]
      split
      next => rw [firstGate_cons, ih]
      next hq =>
          rw [ih, if_neg]
          exact fun hgate => hq (h d hgate)

/-- Nor do events that are no responses. -/
theorem matchedAt_filter {responseOf : Delivery ε → Option Response} {q : Delivery ε → Bool}
    (h : ∀ d, q d = false → responseOf d = none) (pending : List String) (t : Instant)
    (ds : List (Delivery ε)) :
    matchedAt responseOf pending t (ds.filter q) = matchedAt responseOf pending t ds := by
  induction ds generalizing pending t with
  | nil => rfl
  | cons d ds ih =>
      cases pending with
      | nil => rw [matchedAt, matchedAt]
      | cons p ps =>
          rw [List.filter_cons, matchedAt]
          split
          next =>
              rw [matchedAt]
              simp only [ih]
          next hq => rw [h d (Bool.eq_false_iff.mpr hq), ih]

theorem patternStep_nil (r : Response) : patternStep [] r = .ok [] := by
  unfold patternStep
  split
  · rfl
  · rfl

end Clocks

/-! ## The top of the loop -/

section Loop

variable {ε σ : Type}

/-- What the exit depends on: the loop marks its gate at the first gate event, and keeps
    the patterns as `wait_for_request` does. -/
structure Collects (step : σ → Delivery ε → Except Error σ) (gateAt : σ → Option Instant)
    (pending : σ → List String) (isGate : Delivery ε → Bool)
    (responseOf : Delivery ε → Option Response) : Prop where
  gate : ∀ s d s', step s d = .ok s' →
    gateAt s' = (gateAt s).or (if isGate d then some d.now else none)
  patterns : Lib.Projects step patternStep pending responseOf

/-- At the top of the loop, after `taken` and before `post`: what is known of the clocks of
    all events `ds`. -/
structure Running (gateAt : σ → Option Instant) (pending : σ → List String)
    (isGate : Delivery ε → Bool) (responseOf : Delivery ε → Option Response)
    (waitForRequest : List String) (start deadline : Instant) (ds taken post : List (Delivery ε))
    (s : σ) (last : Instant) : Prop where
  bounded : last ≤ deadline
  past : ∀ d ∈ taken, d.now ≤ last
  unmarked : gateAt s = none → firstGate isGate ds = firstGate isGate post
  marked : ∀ g, gateAt s = some g → firstGate isGate ds = some g ∧ g ≤ last
  matching : ∃ t ≤ last, matchedAt responseOf waitForRequest start ds =
    matchedAt responseOf (pending s) t post
  /-- Once the loop is ready it does not run past the grace window. -/
  grace : ∀ g p, gateAt s = some g → pending s = [] →
    matchedAt responseOf waitForRequest start ds = some p → last ≤ max p (g + postIdleGrace)

variable {step : σ → Delivery ε → Except Error σ} {gateAt : σ → Option Instant}
  {pending : σ → List String} {isGate : Delivery ε → Bool}
  {responseOf : Delivery ε → Option Response} {waitForRequest : List String}
  {start deadline : Instant} {ds taken post : List (Delivery ε)} {s s' : σ} {d : Delivery ε}
  {last : Instant}

/-- One event in the clock of the patterns. -/
theorem Collects.matchedAt_cons (C : Collects step gateAt pending isGate responseOf)
    (hstep : step s d = .ok s') (t : Instant) (ds : List (Delivery ε)) :
    ∃ t', matchedAt responseOf (pending s) t (d :: ds) = matchedAt responseOf (pending s') t' ds ∧
      (t' = t ∨ t' = d.now) ∧ (pending s ≠ [] → pending s' = [] → t' = d.now) := by
  cases hr : responseOf d with
  | none =>
      -- not a response: the patterns stay
      have hskip := C.patterns.skip s d hr
      rw [hstep] at hskip
      have hsame : pending s' = pending s := Except.ok.inj hskip
      refine ⟨t, ?_, Or.inl rfl, fun hne hnil => absurd (hsame ▸ hnil) hne⟩
      rw [hsame]
      cases hp : pending s with
      | nil => rw [matchedAt, matchedAt]
      | cons q qs => rw [matchedAt, hr]
  | some r =>
      have hkeep := C.patterns.keep s d r hr
      rw [hstep] at hkeep
      cases hp : pending s with
      | nil =>
          rw [hp, patternStep_nil] at hkeep
          have hnil : pending s' = [] := Except.ok.inj hkeep
          refine ⟨t, ?_, Or.inl rfl, fun hne => absurd rfl hne⟩
          rw [hnil, matchedAt, matchedAt]
      | cons q qs =>
          rw [hp] at hkeep
          refine ⟨d.now, ?_, Or.inr rfl, fun _ _ => rfl⟩
          rw [matchedAt, hr]
          simp only [← hkeep, Except.map]

/-- The gate is not missed. -/
theorem Collects.unmarked_step (C : Collects step gateAt pending isGate responseOf)
    (h : Running gateAt pending isGate responseOf waitForRequest start deadline ds taken
      (d :: post) s last)
    (hstep : step s d = .ok s') (hnone : gateAt s' = none) :
    firstGate isGate ds = firstGate isGate post := by
  have hgate := C.gate s d s' hstep
  rw [hnone] at hgate
  obtain ⟨hold, hnot⟩ := Option.or_eq_none_iff.mp hgate.symm
  rw [h.unmarked hold, firstGate_cons]
  split
  next hd => simp [hd] at hnot
  next => rfl

/-- The mark is the first gate event. -/
theorem Collects.marked_step (C : Collects step gateAt pending isGate responseOf)
    (h : Running gateAt pending isGate responseOf waitForRequest start deadline ds taken
      (d :: post) s last)
    (hlast : last ≤ d.now) (hstep : step s d = .ok s') {g : Instant} (hg : gateAt s' = some g) :
    firstGate isGate ds = some g ∧ g ≤ d.now := by
  have hgate := C.gate s d s' hstep
  cases hold : gateAt s with
  | some g' =>
      rw [hg, hold, Option.some_or, Option.some.injEq] at hgate
      obtain ⟨hfirst, hle⟩ := h.marked g' hold
      rw [hgate]
      exact ⟨hfirst, hle.trans hlast⟩
  | none =>
      rw [hg, hold, Option.none_or] at hgate
      rw [h.unmarked hold, firstGate_cons]
      split at hgate
      next hd =>
          rw [if_pos hd]
          exact ⟨hgate.symm, (Option.some.inj hgate).le⟩
      next => cases hgate

/-- An event in the grace window, or the one that opens it. -/
theorem Collects.grace_step (C : Collects step gateAt pending isGate responseOf)
    (h : Running gateAt pending isGate responseOf waitForRequest start deadline ds taken
      (d :: post) s last)
    (htimer : d.now ≤ collectStopAt deadline (gateAt s) (!(pending s).isEmpty) last)
    (hstep : step s d = .ok s') {g p : Instant} (hg : gateAt s' = some g)
    (hdone : pending s' = []) (hp : matchedAt responseOf waitForRequest start ds = some p) :
    d.now ≤ max p (g + postIdleGrace) := by
  have hgate := C.gate s d s' hstep
  cases hold : gateAt s with
  | none =>
      -- the gate fires now
      rw [hg, hold, Option.none_or] at hgate
      split at hgate
      next =>
          rw [Option.some.inj hgate]
          exact (Nat.le_add_right _ _).trans (le_max_right _ _)
      next => cases hgate
  | some g' =>
      rw [hg, hold, Option.some_or, Option.some.injEq] at hgate
      by_cases hready : pending s = []
      · rw [hold, hready, collectStopAt] at htimer
        rw [hgate]
        refine (htimer.trans ?_).trans (le_max_right _ _)
        exact (min_le_left _ _).trans (min_le_right _ _)
      · -- the last pattern is matched now
        obtain ⟨t, -, hmatch⟩ := h.matching
        obtain ⟨t', hmatch', -, hlastMatch⟩ := C.matchedAt_cons hstep t post
        rw [hmatch, hmatch', hdone, matchedAt, hlastMatch hready hdone, Option.some.injEq] at hp
        rw [← hp]
        exact le_max_left _ _

/-- An event that comes while the timer runs. -/
theorem Collects.running_step (C : Collects step gateAt pending isGate responseOf)
    (h : Running gateAt pending isGate responseOf waitForRequest start deadline ds taken
      (d :: post) s last)
    (hlast : last ≤ d.now)
    (htimer : d.now ≤ collectStopAt deadline (gateAt s) (!(pending s).isEmpty) last)
    (hstep : step s d = .ok s') :
    Running gateAt pending isGate responseOf waitForRequest start deadline ds (taken ++ [d]) post
      s' d.now where
  bounded := htimer.trans (collectStopAt_le _ _ _ _)
  past e he := by
    rcases List.mem_append.mp he with hold | hnew
    · exact (h.past e hold).trans hlast
    · rw [List.mem_singleton.mp hnew]
  unmarked := C.unmarked_step h hstep
  marked _ hg := C.marked_step h hlast hstep hg
  matching := by
    obtain ⟨t, ht, hmatch⟩ := h.matching
    obtain ⟨t', hmatch', hclock, -⟩ := C.matchedAt_cons hstep t post
    refine ⟨t', ?_, hmatch.trans hmatch'⟩
    rcases hclock with rfl | rfl
    · exact ht.trans hlast
    · exact le_refl _
  grace _ _ hg hdone hp := C.grace_step h htimer hstep hg hdone hp

/-- The arithmetic of an exit with window `W` and quiet time `Q`: the last event at `last`,
    the gate at `g`, the last match at `p`. -/
theorem exit_bounds {exit last deadline g p W Q : Nat} (hQ : Q ≤ W)
    (hexit : exit = max last (min (min deadline (g + W)) (max last g + Q)))
    (hlast : last ≤ deadline) (hg : g ≤ last) (hgrace : last ≤ max p (g + W)) :
    exit ≤ deadline ∧ min deadline (g + Q) ≤ exit ∧ exit ≤ min deadline (max p (g + W)) ∧
      (exit < deadline → exit < g + W → exit = last + Q) := by
  omega

/-- The end, once the gate has fired and the patterns are matched. -/
theorem Running.exitLaw_ready
    (h : Running gateAt pending isGate responseOf waitForRequest start deadline ds taken post s
      last) {exit : Instant}
    (hexit : exit = max last (collectStopAt deadline (gateAt s) (!(pending s).isEmpty) last))
    (hpost : ∀ d ∈ post, exit ≤ d.now) (hsplit : ds = taken ++ post) {g : Instant}
    (hg : gateAt s = some g) (hdone : pending s = []) :
    ExitLaw deadline (firstGate isGate ds) (matchedAt responseOf waitForRequest start ds)
      (ds.map fun d => d.now) exit := by
  have hlast := h.bounded
  obtain ⟨t, ht, hmatch⟩ := h.matching
  obtain ⟨hfirst, hgle⟩ := h.marked g hg
  rw [hdone, matchedAt] at hmatch
  have hgrace := h.grace g t hg hdone hmatch
  rw [hg, hdone] at hexit
  obtain ⟨hbounded, hearly, hlate, hquiet⟩ :=
    exit_bounds (by decide : quietGrace ≤ postIdleGrace) hexit hlast hgle hgrace
  rw [hfirst, hmatch]
  constructor
  case bounded => exact hbounded
  case waits =>
    intro hnot
    exact absurd ⟨⟨g, rfl, hgle.trans hlast⟩, t, rfl, ht.trans hlast⟩ hnot
  case early =>
    intro g' p' hg' _ _ _
    rw [← Option.some.inj hg']
    exact hearly
  case late =>
    intro g' p' hg' hp' _ _
    rw [← Option.some.inj hg', ← Option.some.inj hp']
    exact hlate
  case quiet =>
    intro g' p' hg' _ _ _ hdeadline hwindow e he
    rintro ⟨hrecent, hbefore⟩
    rw [← Option.some.inj hg'] at hwindow
    obtain ⟨d, hd, rfl⟩ := List.mem_map.mp he
    rw [hsplit] at hd
    rcases List.mem_append.mp hd with htaken | hcoming
    · -- the timer was set by the last event
      rw [hquiet hdeadline hwindow] at hrecent
      exact absurd (Nat.add_le_add_right (h.past d htaken) quietGrace) hrecent.not_ge
    · exact absurd (hpost d hcoming) hbefore.not_ge

/-- The end at the deadline; the gate or the last match comes after it, if they do. -/
theorem Running.exitLaw_waiting
    (h : Running gateAt pending isGate responseOf waitForRequest start deadline ds taken post s
      last) {exit : Instant}
    (hexit : exit = max last (collectStopAt deadline (gateAt s) (!(pending s).isEmpty) last))
    (hpost : ∀ d ∈ post, exit ≤ d.now)
    (hready : ¬ ((∃ g, gateAt s = some g) ∧ pending s = [])) :
    ExitLaw deadline (firstGate isGate ds) (matchedAt responseOf waitForRequest start ds)
      (ds.map fun d => d.now) exit := by
  obtain ⟨t, -, hmatch⟩ := h.matching
  have hstop : exit = deadline := by
    rw [hexit, collectStopAt_waiting deadline last, max_eq_right h.bounded]
    rw [Bool.not_eq_false', List.isEmpty_iff]
    exact hready
  constructor
  case bounded => exact hstop.le
  case waits => exact fun _ => hstop
  case early =>
    intro g' p' _ _ _ _
    rw [hstop]
    exact min_le_left _ _
  case late =>
    intro g' p' hg' hp' _ _
    refine le_min hstop.le ?_
    cases hg : gateAt s with
    | none =>
        -- the gate fires after the end
        rw [h.unmarked hg] at hg'
        obtain ⟨d, hd, rfl⟩ := mem_of_firstGate hg'
        exact ((hpost d hd).trans (Nat.le_add_right _ _)).trans (le_max_right _ _)
    | some g =>
        have hpending : pending s ≠ [] := fun hnil => hready ⟨⟨g, hg⟩, hnil⟩
        rw [hmatch] at hp'
        obtain ⟨d, hd, rfl⟩ := mem_of_matchedAt hpending hp'
        exact (hpost d hd).trans (le_max_left _ _)
  case quiet =>
    intro _ _ _ _ _ _ hdeadline
    exact absurd hstop hdeadline.ne

/-- Where the loop ends. -/
theorem Running.exitLaw
    (h : Running gateAt pending isGate responseOf waitForRequest start deadline ds taken post s
      last) {exit : Instant}
    (hexit : exit = max last (collectStopAt deadline (gateAt s) (!(pending s).isEmpty) last))
    (hpost : ∀ d ∈ post, exit ≤ d.now) (hsplit : ds = taken ++ post) :
    ExitLaw deadline (firstGate isGate ds) (matchedAt responseOf waitForRequest start ds)
      (ds.map fun d => d.now) exit := by
  by_cases hready : (∃ g, gateAt s = some g) ∧ pending s = []
  · obtain ⟨⟨g, hg⟩, hdone⟩ := hready
    exact h.exitLaw_ready hexit hpost hsplit hg hdone
  · exact h.exitLaw_waiting hexit hpost hready

/-- A loop with this timer obeys the exit law. -/
theorem Collects.exitLaw (C : Collects step gateAt pending isGate responseOf)
    {timeout : Instant} {timerWins : List (Delivery ε) → Bool} (tl : Timeline ε start) {t : σ}
    {exit : Instant} (hgate : gateAt s = none) (hpending : pending s = waitForRequest)
    (h : Lib.consumeUntil step
      (fun s last => collectStopAt (start + timeout) (gateAt s) (!(pending s).isEmpty) last)
      (fun d => d.now) timerWins start s tl.deliveries = .ok (t, exit)) :
    ExitLaw (start + timeout) (firstGate isGate tl.deliveries)
      (matchedAt responseOf waitForRequest start tl.deliveries)
      (tl.deliveries.map fun d => d.now) exit := by
  obtain ⟨taken, post, last, hsplit, hrunning, hexit, hpost⟩ :=
    Lib.consumeUntil_history
      (Running gateAt pending isGate responseOf waitForRequest start (start + timeout)
        tl.deliveries)
      (fun _ _ _ _ _ _ hinv hlast _ htimer hstep => C.running_step hinv hlast htimer hstep)
      [] tl.ordered
      { bounded := Nat.le_add_right _ _
        past := fun d hd => absurd hd List.not_mem_nil
        unmarked := fun _ => rfl
        marked := fun g hg => by rw [hgate] at hg; cases hg
        matching := ⟨start, le_refl _, by rw [hpending]⟩
        grace := fun g p hg => by rw [hgate] at hg; cases hg } h
  exact hrunning.exitLaw hexit hpost hsplit

end Loop

/-! ## The two loops -/

namespace LeanLoop

theorem gateAt_onLifecycle (waitUntilLoad : Bool) (now : Instant) (ev : EventLifecycleEvent)
    (s : State) :
    gateAt waitUntilLoad (onLifecycle now ev s) =
      (gateAt waitUntilLoad s).or (if ev.isGate waitUntilLoad then some now else none) := by
  obtain ⟨name, ts⟩ := ev
  by_cases hknown : name = "load" ∨ name = "networkIdle"
  · rcases hknown with rfl | rfl
    · cases waitUntilLoad with
      | true => rfl
      | false => exact (Option.or_none).symm
    · cases waitUntilLoad with
      | true => exact (Option.or_none).symm
      | false => rfl
  · -- any other event: the marks stay
    obtain ⟨hload, hidle⟩ := not_or.mp hknown
    have hnot : EventLifecycleEvent.isGate waitUntilLoad ⟨name, ts⟩ = false := by
      cases waitUntilLoad with
      | true => exact beq_eq_false_iff_ne.mpr hload
      | false => exact beq_eq_false_iff_ne.mpr hidle
    rw [hnot, if_neg Bool.false_ne_true, Option.or_none]
    simp only [onLifecycle]
    split
    next => rfl
    next => rfl
    next => rfl
    next => exact absurd rfl hload
    next => exact absurd rfl hidle
    next => rfl

theorem gateAt_onResponse (waitUntilLoad : Bool) {ev : EventResponseReceived} {s s' : State}
    (h : onResponse ev s = .ok s') : gateAt waitUntilLoad s' = gateAt waitUntilLoad s := by
  rw [onResponse] at h
  split at h
  · rw [Except.ok.inj h]
  · split at h
    · cases h
    · rw [← Except.ok.inj h]
      rfl

theorem collects (waitUntilLoad : Bool) :
    Collects step (gateAt waitUntilLoad) State.pendingPatterns (isGate waitUntilLoad)
      responseOf where
  gate s d s' hstep := by
    cases hev : d.ev with
    | lifecycle ev =>
        rw [step, hev] at hstep
        rw [← Except.ok.inj hstep, gateAt_onLifecycle, isGate, hev]
    | responseReceived ev =>
        rw [step, hev] at hstep
        rw [gateAt_onResponse waitUntilLoad hstep, isGate, hev]
        exact (Option.or_none).symm
  patterns := projects_patterns

end LeanLoop

namespace FullLoop

/-- The gate is seen through the lean loop. -/
theorem isGate_shared (waitUntilLoad : Bool) (d : Delivery Event) :
    isGate waitUntilLoad d =
      (d.shared.map fun b => LeanLoop.isGate waitUntilLoad b).getD false := by
  rw [isGate, Delivery.shared]
  cases hev : d.ev with
  | lifecycle ev => rfl
  | responseReceived ev => rfl
  | _ => rfl

theorem collects (c : CollectCaptures) (parseUrl : String → Option ParsedUrl)
    (waitUntilLoad : Bool) :
    Collects (step c parseUrl) (gateAt waitUntilLoad) State.pendingPatterns
      (isGate waitUntilLoad) responseOf where
  gate s d s' hstep := by
    show LeanLoop.gateAt waitUntilLoad s'.leanView =
      (LeanLoop.gateAt waitUntilLoad s.leanView).or _
    rw [isGate_shared]
    cases hd : d.shared with
    | none =>
        have hskip := (projects_lean c parseUrl).skip s d hd
        rw [hstep] at hskip
        have hview : s'.leanView = s.leanView := Except.ok.inj hskip
        rw [hview]
        exact (Option.or_none).symm
    | some b =>
        have hkeep := (projects_lean c parseUrl).keep s d b hd
        rw [hstep] at hkeep
        have hnow : b.now = d.now := by
          obtain ⟨e, -, rfl⟩ := Option.map_eq_some_iff.mp hd
          rfl
        rw [(LeanLoop.collects waitUntilLoad).gate s.leanView b s'.leanView hkeep.symm, hnow]
        rfl
  patterns := projects_patterns c parseUrl

/-- Lifecycle events are always subscribed to. -/
theorem firstGate_subscribed (c : CollectCaptures) (waitUntilLoad : Bool) {start : Instant}
    (tl : Timeline Event start) :
    firstGate (isGate waitUntilLoad) (tl.filter fun d => c.subscribed d.ev).deliveries =
      firstGate (isGate waitUntilLoad) tl.deliveries := by
  refine firstGate_filter (fun d hgate => ?_) tl.deliveries
  rw [isGate] at hgate
  split at hgate
  next ev hev =>
      rw [hev]
      rfl
  next => cases hgate

/-- And so are responses. -/
theorem matchedAt_subscribed (c : CollectCaptures) (waitForRequest : List String) {start : Instant}
    (tl : Timeline Event start) :
    matchedAt responseOf waitForRequest start (tl.filter fun d => c.subscribed d.ev).deliveries =
      matchedAt responseOf waitForRequest start tl.deliveries := by
  refine matchedAt_filter (fun d hsub => ?_) waitForRequest start tl.deliveries
  rw [responseOf, Delivery.shared]
  cases hev : d.ev with
  | responseReceived ev =>
      rw [hev] at hsub
      cases hsub
  | lifecycle ev => rfl
  | _ => rfl

/-- The loop fails with `UpstreamFailure` only. -/
theorem step_eq_error {c : CollectCaptures} {parseUrl : String → Option ParsedUrl} {s : State}
    {d : Delivery Event} {e : Error} (h : step c parseUrl s d = .error e) :
    ∃ status url, e = .upstreamFailure status url := by
  obtain ⟨b, -, hb⟩ := (projects_lean c parseUrl).kept_of_error h
  exact LeanLoop.step_eq_error hb

/-- The loop with its timer is the loop on the events it takes. -/
theorem run_of_collect {c : CollectCaptures} {parseUrl : String → Option ParsedUrl} {url : String}
    {waitForRequest : List String} {waitUntilLoad : Bool} {timeout start exit : Instant}
    {timerWins : List (Delivery Event) → Bool} {tl : Timeline Event start} {t : State}
    (h : collect c parseUrl url waitForRequest waitUntilLoad timeout timerWins tl = .ok (t, exit)) :
    ∃ taken post, tl.deliveries.filter (fun d => c.subscribed d.ev) = taken ++ post ∧
      run c parseUrl url waitForRequest taken = .ok t ∧ ∀ d ∈ post, exit ≤ d.now :=
  Lib.consumeUntil_consume (tl.filter fun d => c.subscribed d.ev).ordered h

end FullLoop

/-- The lean loop with its timer is the loop on the events it takes. -/
theorem LeanLoop.run_of_collect {waitForRequest : List String} {waitUntilLoad : Bool}
    {timeout start exit : Instant} {timerWins : List (Delivery LeanEvent) → Bool}
    {tl : Timeline LeanEvent start} {t : LeanLoop.State}
    (h : LeanLoop.collect waitForRequest waitUntilLoad timeout timerWins tl = .ok (t, exit)) :
    ∃ taken post, tl.deliveries = taken ++ post ∧ LeanLoop.run waitForRequest taken = .ok t ∧
      ∀ d ∈ post, exit ≤ d.now :=
  Lib.consumeUntil_consume tl.ordered h

/-- Both loops end with `UpstreamFailure` or by the exit law. -/
theorem collect_exit (waitForRequest : List String) (waitUntilLoad : Bool)
    (start timeout : Instant) :
    (∀ (timerWins : List (Delivery LeanEvent) → Bool) (tl : Timeline LeanEvent start),
      (∃ status failedUrl, LeanLoop.collect waitForRequest waitUntilLoad timeout timerWins tl =
        .error (.upstreamFailure status failedUrl)) ∨
      ∃ t exit, LeanLoop.collect waitForRequest waitUntilLoad timeout timerWins tl =
          .ok (t, exit) ∧
        ExitLaw (start + timeout) (firstGate (LeanLoop.isGate waitUntilLoad) tl.deliveries)
          (matchedAt LeanLoop.responseOf waitForRequest start tl.deliveries)
          (tl.deliveries.map fun d => d.now) exit) ∧
    ∀ (c : CollectCaptures) (parseUrl : String → Option ParsedUrl) (url : String)
      (timerWins : List (Delivery Event) → Bool) (tl : Timeline Event start),
      (∃ status failedUrl, FullLoop.collect c parseUrl url waitForRequest waitUntilLoad timeout
        timerWins tl = .error (.upstreamFailure status failedUrl)) ∨
      ∃ t exit, FullLoop.collect c parseUrl url waitForRequest waitUntilLoad timeout timerWins
          tl = .ok (t, exit) ∧
        ExitLaw (start + timeout)
          (firstGate (FullLoop.isGate waitUntilLoad) tl.deliveries)
          (matchedAt FullLoop.responseOf waitForRequest start tl.deliveries)
          ((tl.filter fun d => c.subscribed d.ev).deliveries.map fun d => d.now) exit := by
  refine ⟨fun timerWins tl => ?_, fun c parseUrl url timerWins tl => ?_⟩
  · cases hrun : LeanLoop.collect waitForRequest waitUntilLoad timeout timerWins tl with
    | error e =>
        obtain ⟨s, d, hstep⟩ := Lib.consumeUntil_eq_error hrun
        obtain ⟨status, failedUrl, rfl⟩ := LeanLoop.step_eq_error hstep
        exact Or.inl ⟨status, failedUrl, rfl⟩
    | ok r =>
        obtain ⟨t, exit⟩ := r
        have hgate : LeanLoop.gateAt waitUntilLoad (LeanLoop.State.init waitForRequest) = none := by
          cases waitUntilLoad <;> rfl
        exact Or.inr ⟨t, exit, rfl, (LeanLoop.collects waitUntilLoad).exitLaw tl hgate rfl hrun⟩
  · cases hrun : FullLoop.collect c parseUrl url waitForRequest waitUntilLoad timeout timerWins
      tl with
    | error e =>
        obtain ⟨s, d, hstep⟩ := Lib.consumeUntil_eq_error hrun
        obtain ⟨status, failedUrl, rfl⟩ := FullLoop.step_eq_error hstep
        exact Or.inl ⟨status, failedUrl, rfl⟩
    | ok r =>
        obtain ⟨t, exit⟩ := r
        have hgate : FullLoop.gateAt waitUntilLoad (FullLoop.State.init url waitForRequest) =
            none := by
          cases waitUntilLoad <;> rfl
        have hlaw := (FullLoop.collects c parseUrl waitUntilLoad).exitLaw
          (tl.filter fun d => c.subscribed d.ev) hgate rfl hrun
        rw [FullLoop.firstGate_subscribed, FullLoop.matchedAt_subscribed] at hlaw
        exact Or.inr ⟨t, exit, rfl, hlaw⟩

/-- A page that loads after 200 ms and is then quiet is done after 300 ms. -/
example : (LeanLoop.collect [] true 1000000000 (fun _ => false)
    (⟨[{ now := 200000000, ev := .lifecycle { name := "load", timestamp := 1 } }],
      List.pairwise_singleton _ _, fun _ _ => Nat.zero_le _⟩ : Timeline LeanEvent 0)).map
    Prod.snd = .ok 300000000 := rfl

end Collect
end BrowserHeadless
