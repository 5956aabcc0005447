/-
  BrowserHeadless.Queue.JobTime

  How long a worker is at work on the captures of one job (src/worker.rs), and whether it is
  done before the job may be taken from it.

  `reclaim` presumes that a worker is dead when its entry has been idle for `visibility_ms`.
  An entry is idle from its delivery on: it has to be read and dispatched, `process_one` writes
  the marker of its job, and `capture_to_result` makes up to `job_max_retries + 1` captures,
  each with its own wait for a slot and its own deadline.  `jobTime` is the longest that the
  captures take; the presumption is right of a worker that is at them exactly when what comes
  before and `jobTime` are less together (`capturesEnd_iff`).
-/

import BrowserHeadless.Capture.One
import BrowserHeadless.Lib.Retry
import BrowserHeadless.Queue.Retry

namespace BrowserHeadless
namespace Queue

open Capture (CaptureCtx CaptureLimits SummaryQuery Surroundings acquire beforeCheckout
  captureUnderDeadline clampTimeoutMs fromMillis lookupTime looksUp timeoutAfter totalDeadline)
open Collect (Instant ParsedUrl)

variable {β V : Type}

/-! ## The loop with its times -/

section Loop

variable (jobMaxRetries jobRetryBackoffMs : UInt64) (id : String)
  (captureOne : Nat → Option (CaptureResult β × Instant))

/-- The `loop` of `capture_to_result` from the counter `attempt` on: the result, and how long it
    takes; `none` when a capture never ends. -/
def captureLoopTimed (attempt : UInt64) (i : Nat) : Option (JobResult β × Instant) :=
  match captureOne i with
  | none => none
  | some (.ok data, t) => some (JobResult.ok id data, t)
  | some (.error e, t) =>
      let status := e.statusU16
      if h : isRetryable status = true ∧ attempt < jobMaxRetries then
        (captureLoopTimed (attempt + 1) (i + 1)).map fun (r, t') =>
          (r, t + fromMillis jobRetryBackoffMs.toNat + t')
      else some (JobResult.err id status e.message, t)
termination_by jobMaxRetries.toNat - attempt.toNat
decreasing_by
  have hlt : attempt.toNat < jobMaxRetries.toNat := h.2
  rw [toNat_attempt_succ h.2]
  omega

/-- `capture_to_result`. -/
def captureToResultTimed : Option (JobResult β × Instant) :=
  captureLoopTimed jobMaxRetries jobRetryBackoffMs id captureOne 0 0

end Loop

section Spec

variable {jobMaxRetries jobRetryBackoffMs : UInt64} {id : String}
  {captureOne : Nat → Option (CaptureResult β × Instant)}

/-- The loop hangs with its capture. -/
theorem captureLoopTimed_hangs {attempt : UInt64} {i : Nat} (hone : captureOne i = none) :
    captureLoopTimed jobMaxRetries jobRetryBackoffMs id captureOne attempt i = none := by
  rw [captureLoopTimed, hone]

/-- A transient outcome within the budget: the backoff, and one more round. -/
theorem captureLoopTimed_again {attempt : UInt64} {i : Nat} {answer : CaptureResult β}
    {t : Instant} (hone : captureOne i = some (answer, t)) (h : isTransient answer = true)
    (hlt : attempt < jobMaxRetries) :
    captureLoopTimed jobMaxRetries jobRetryBackoffMs id captureOne attempt i =
      (captureLoopTimed jobMaxRetries jobRetryBackoffMs id captureOne (attempt + 1) (i + 1)).map
        fun (r, t') => (r, t + fromMillis jobRetryBackoffMs.toNat + t') := by
  rw [captureLoopTimed, hone]
  cases answer with
  | ok data => cases h
  | error e => exact dif_pos ⟨h, hlt⟩

/-- A definitive outcome, or the last of the budget: its result. -/
theorem captureLoopTimed_stop {attempt : UInt64} {i : Nat} {answer : CaptureResult β}
    {t : Instant} (hone : captureOne i = some (answer, t))
    (h : isTransient answer = false ∨ ¬ attempt < jobMaxRetries) :
    captureLoopTimed jobMaxRetries jobRetryBackoffMs id captureOne attempt i =
      some ((outcomeOf answer).result id, t) := by
  rw [captureLoopTimed, hone]
  cases answer with
  | ok data => rfl
  | error e =>
      refine dif_neg fun hand => ?_
      rcases h with hdefinitive | hbudget
      · exact Bool.eq_false_iff.mp hdefinitive hand.1
      · exact hbudget hand.2

/-- The loop of the worker is one of attempts that may pass. -/
theorem captureLoopTimed_eq_retry (budget : Nat) : ∀ (attempt : UInt64) (i : Nat),
    attempt.toNat + budget = jobMaxRetries.toNat →
    captureLoopTimed jobMaxRetries jobRetryBackoffMs id captureOne attempt i =
      (Lib.retry isTransient (fromMillis jobRetryBackoffMs.toNat) captureOne budget i).map
        fun (c, t) => ((outcomeOf c).result id, t) := by
  induction budget with
  | zero =>
      intro attempt i hbudget
      have hstop : ¬ attempt < jobMaxRetries := fun hlt => by
        have hlt' : attempt.toNat < jobMaxRetries.toNat := hlt
        omega
      cases hone : captureOne i with
      | none => rw [captureLoopTimed_hangs hone, Lib.retry_eq_none hone, Option.map_none]
      | some ended =>
          rw [captureLoopTimed_stop hone (Or.inr hstop), Lib.retry, hone, Option.map_some]
  | succ budget ih =>
      intro attempt i hbudget
      have hlt : attempt < jobMaxRetries := by
        show attempt.toNat < jobMaxRetries.toNat
        omega
      have hnext : (attempt + 1).toNat + budget = jobMaxRetries.toNat := by
        rw [toNat_attempt_succ hlt]
        omega
      cases hone : captureOne i with
      | none => rw [captureLoopTimed_hangs hone, Lib.retry_eq_none hone, Option.map_none]
      | some ended =>
          by_cases htransient : isTransient ended.1 = true
          · rw [captureLoopTimed_again hone htransient hlt, ih (attempt + 1) (i + 1) hnext,
              Lib.retry_again hone htransient, Option.map_map, Option.map_map]
            rfl
          · rw [captureLoopTimed_stop hone (Or.inl (Bool.eq_false_iff.mpr htransient)),
              Lib.retry_stop hone (Bool.eq_false_iff.mpr htransient), Option.map_some]

theorem captureToResultTimed_eq_retry :
    captureToResultTimed jobMaxRetries jobRetryBackoffMs id captureOne =
      (Lib.retry isTransient (fromMillis jobRetryBackoffMs.toNat) captureOne
        jobMaxRetries.toNat 0).map fun (c, t) => ((outcomeOf c).result id, t) :=
  captureLoopTimed_eq_retry jobMaxRetries.toNat 0 0 (Nat.zero_add jobMaxRetries.toNat)

/-- Once every capture ends, the times do not matter to the result. -/
theorem captureToResultTimed_result {answer : Nat → CaptureResult β} {time : Nat → Instant}
    (hends : ∀ i, captureOne i = some (answer i, time i)) :
    (captureToResultTimed jobMaxRetries jobRetryBackoffMs id captureOne).map Prod.fst =
      some (captureToResult jobMaxRetries id answer).1 := by
  obtain ⟨n, hn, hbefore, hlast, hrun⟩ := Lib.retry_history isTransient
    (fromMillis jobRetryBackoffMs.toNat) hends jobMaxRetries.toNat 0
  simp only [Nat.zero_add] at hbefore hlast hrun
  rw [captureToResultTimed_eq_retry, hrun]
  rcases hlast with hdefinitive | rfl
  · rw [captureToResult_of_definitive hn hbefore hdefinitive]
    rfl
  · by_cases hdefinitive : isTransient (answer jobMaxRetries.toNat) = false
    · rw [captureToResult_of_definitive le_rfl hbefore hdefinitive]
      rfl
    · rw [captureToResult_of_transient fun j hj => ?_]
      · rfl
      · rcases Nat.lt_or_eq_of_le hj with hlt | rfl
        · exact hbefore j hlt
        · exact Bool.eq_true_of_not_eq_false hdefinitive

end Spec

/-! ## The captures of a job -/

section Job

variable (limits : CaptureLimits) (ctx : CaptureCtx) (parse : Ssrf.UrlParser)
  (lower : String → String) (parseUrl : String → Option ParsedUrl)
  (toValue : Capture.Captured V → Except String β)

/-- The `i`th capture of a job, converted; each meets surroundings of its own. -/
def jobCapture (w : Nat → Surroundings V) (query : SummaryQuery) (i : Nat) :
    Option (CaptureResult β × Instant) :=
  (Capture.captureOne limits ctx parse lower parseUrl (w i) query).map fun (answer, t) =>
    (answer.map toValue, t)

/-- The longest that one capture takes, when its resolver takes `dns` at most. -/
def captureTime (dns : Instant) : Instant :=
  dns + fromMillis limits.checkoutWaitMs.toNat +
    (fromMillis limits.maxTimeoutMs.toNat + fromMillis limits.deadlineBufferMs.toNat)

/-- The longest that the captures of one job take. -/
def jobTime (jobMaxRetries jobRetryBackoffMs : UInt64) (dns : Instant) : Instant :=
  (jobMaxRetries.toNat + 1) * captureTime limits dns +
    jobMaxRetries.toNat * fromMillis jobRetryBackoffMs.toNat

/-- What passes before the captures of an entry: from its delivery to the start of
    `process_one`, and until the `SETEX` of the marker is answered. -/
structure Handover where
  dispatch : Instant
  marker : Instant

/-- `process_one` up to the result, and how long the entry has been idle then. -/
def processTimed (jobMaxRetries jobRetryBackoffMs : UInt64) (id : String) (h : Handover)
    (w : Nat → Surroundings V) (query : SummaryQuery) : Option (JobResult β × Instant) :=
  (captureToResultTimed jobMaxRetries jobRetryBackoffMs id
    (jobCapture limits ctx parse lower parseUrl toValue w query)).map fun (r, t) =>
      (r, h.dispatch + h.marker + t)

variable {limits ctx parse}

/-- A job is done within its time. -/
theorem captureToResultTimed_le (jobMaxRetries jobRetryBackoffMs : UInt64) (id : String)
    (hwait : limits.checkoutWaitMs ≠ 0) (hmax : limits.maxTimeoutMs ≠ 0) {dns : Instant}
    {w : Nat → Surroundings V} (hdns : ∀ i, (w i).dnsTime ≤ dns) (query : SummaryQuery) :
    ∃ r t, captureToResultTimed jobMaxRetries jobRetryBackoffMs id
        (jobCapture limits ctx parse lower parseUrl toValue w query) = some (r, t) ∧
      t ≤ jobTime limits jobMaxRetries jobRetryBackoffMs dns := by
  have hone : ∀ i, ∃ c t, jobCapture limits ctx parse lower parseUrl toValue w query i =
      some (c, t) ∧ t ≤ captureTime limits dns := by
    intro i
    obtain ⟨answer, t, hanswer, htime⟩ := Capture.captureOneUnmetered_time limits ctx parse lower
      parseUrl (w i) query hwait
    refine ⟨answer.map toValue, t, ?_, (htime hmax).trans ?_⟩
    · rw [jobCapture, Capture.captureOne, hanswer]
      rfl
    · exact Nat.add_le_add_right (Nat.add_le_add_right (hdns i) _) _
  obtain ⟨c, t, hrun, ht⟩ := Lib.retry_le isTransient (fromMillis jobRetryBackoffMs.toNat)
    (Nat.zero_le _) (Nat.zero_le _) hone jobMaxRetries.toNat 0
  refine ⟨(outcomeOf c).result id, t, ?_, ht⟩
  rw [captureToResultTimed_eq_retry, hrun]
  rfl

/-! ## A browser that hangs -/

/-- The slot comes at the last moment, and then the browser never answers. -/
def hanging (limits : CaptureLimits) (dns : Instant) (w : Surroundings V) : Surroundings V :=
  { w with
    dnsTime := dns
    checkout := some (fromMillis limits.checkoutWaitMs.toNat, .ok ())
    captureTime := fun _ => none }

/-- A query whose URL and script are let through is let through with any other timeout. -/
theorem beforeCheckout_timeoutMs {cfg : Capture.CaptureConfig} {dns : Ssrf.Resolver}
    {query q : SummaryQuery} (h : beforeCheckout cfg ctx parse dns query = .ok q)
    (ms : UInt64) :
    beforeCheckout cfg ctx parse dns { query with timeoutMs := ms } =
      .ok (Capture.normalize cfg { query with timeoutMs := ms }) := by
  simp only [beforeCheckout, Capture.normalize_script, Capture.normalize_url] at h ⊢
  split at h
  next => cases h
  next hallowed =>
      rw [if_neg hallowed]
      split at h
      next => cases h
      next =>
          split at h
          next hprivate => rw [if_pos hprivate]
          next hguarded =>
              rw [if_neg hguarded]
              split at h
              next => cases h
              next => rfl

/-- And its host is looked up, or not, as before. -/
theorem looksUp_timeoutMs (cfg : Capture.CaptureConfig) (query : SummaryQuery) (ms : UInt64) :
    looksUp cfg ctx parse { query with timeoutMs := ms } = looksUp cfg ctx parse query := by
  simp only [looksUp, Capture.normalize_script, Capture.normalize_url]

theorem captureUnderDeadline_hanging (limits : CaptureLimits) (ctx : CaptureCtx)
    (lower : String → String) (parseUrl : String → Option ParsedUrl) (dns : Instant)
    (w : Surroundings V) (q : SummaryQuery) :
    ∃ message, captureUnderDeadline limits ctx lower parseUrl (hanging limits dns w) q =
      (.error ⟨.gatewayTimeout, message⟩, totalDeadline limits q) :=
  ⟨_, rfl⟩

/-- A capture that hangs takes all the time that it is given, and its error is one that may
    pass. -/
theorem jobCapture_hanging (hwait : limits.checkoutWaitMs ≠ 0) (dns : Instant)
    {w : Surroundings V} {query q : SummaryQuery}
    (hpass : beforeCheckout limits.toCaptureConfig ctx parse w.dns query = .ok q)
    (hlookup : looksUp limits.toCaptureConfig ctx parse query = true) (i : Nat) :
    ∃ c, isTransient c = true ∧
      jobCapture limits ctx parse lower parseUrl toValue (fun _ => hanging limits dns w) query i =
        some (c, dns + fromMillis limits.checkoutWaitMs.toNat + totalDeadline limits q) := by
  have hslot : acquire limits.checkoutWaitMs (hanging limits dns w) =
      some (.ok (), fromMillis limits.checkoutWaitMs.toNat) := by
    simp only [acquire, if_neg hwait, hanging, timeoutAfter, le_refl, if_true, Capture.slotAnswer]
  have hpass' : beforeCheckout limits.toCaptureConfig ctx parse (hanging limits dns w).dns query =
      .ok q := hpass
  obtain ⟨message, hlate⟩ := captureUnderDeadline_hanging limits ctx lower parseUrl dns w q
  refine ⟨.error ⟨.gatewayTimeout, message⟩, rfl, ?_⟩
  have htime : lookupTime limits ctx parse (hanging limits dns w) query = dns := if_pos hlookup
  rw [jobCapture, Capture.captureOne, Capture.captureOneUnmetered]
  simp only [hpass', hslot, hlate, htime]
  rfl

/-- Every capture of the job hangs: the whole budget is used up. -/
theorem captureToResultTimed_hanging (jobMaxRetries jobRetryBackoffMs : UInt64) (id : String)
    (hwait : limits.checkoutWaitMs ≠ 0) (dns : Instant) {w : Surroundings V}
    {query q : SummaryQuery}
    (hpass : beforeCheckout limits.toCaptureConfig ctx parse w.dns query = .ok q)
    (hlookup : looksUp limits.toCaptureConfig ctx parse query = true) :
    ∃ r, captureToResultTimed jobMaxRetries jobRetryBackoffMs id
        (jobCapture limits ctx parse lower parseUrl toValue (fun _ => hanging limits dns w)
          query) =
      some (r, (jobMaxRetries.toNat + 1) *
          (dns + fromMillis limits.checkoutWaitMs.toNat + totalDeadline limits q) +
        jobMaxRetries.toNat * fromMillis jobRetryBackoffMs.toNat) := by
  have hone := jobCapture_hanging lower parseUrl toValue hwait dns hpass hlookup
  choose c hagain hends using hone
  refine ⟨(outcomeOf (c (0 + jobMaxRetries.toNat))).result id, ?_⟩
  rw [captureToResultTimed_eq_retry, Lib.retry_eq isTransient _ hends hagain]
  rfl

/-- Without a bound on the wait for a slot a job may never end. -/
theorem captureToResultTimed_waiting (jobMaxRetries jobRetryBackoffMs : UInt64) (id : String)
    (hwait : limits.checkoutWaitMs = 0) {w : Surroundings V} {query q : SummaryQuery}
    (hpass : beforeCheckout limits.toCaptureConfig ctx parse w.dns query = .ok q)
    (hcheckout : w.checkout = none) :
    captureToResultTimed jobMaxRetries jobRetryBackoffMs id
      (jobCapture limits ctx parse lower parseUrl toValue (fun _ => w) query) = none := by
  have hone : jobCapture limits ctx parse lower parseUrl toValue (fun _ => w) query 0 = none := by
    simp only [jobCapture, Capture.captureOne, Capture.captureOneUnmetered, hpass, acquire, hwait,
      if_true, hcheckout, Option.map_none]
  rw [captureToResultTimed_eq_retry, Lib.retry_eq_none hone]
  rfl

/-- The longest timeout that a query can get; without a maximum, the greatest `u64`. -/
def longestTimeoutMs (limits : CaptureLimits) : UInt64 :=
  if limits.maxTimeoutMs = 0 then -1 else limits.maxTimeoutMs

theorem clampTimeoutMs_longest (limits : CaptureLimits) :
    clampTimeoutMs limits.maxTimeoutMs (longestTimeoutMs limits) = longestTimeoutMs limits := by
  by_cases hmax : limits.maxTimeoutMs = 0
  · rw [longestTimeoutMs, if_pos hmax, hmax]
    decide
  · have hpos : ¬ limits.maxTimeoutMs < 1 := fun hlt => by
      have hlt' : limits.maxTimeoutMs.toNat < 1 := hlt
      exact hmax (UInt64.toNat_inj.mp (Nat.lt_one_iff.mp hlt'))
    rw [longestTimeoutMs, if_neg hmax, clampTimeoutMs, if_neg hmax, if_neg hpos,
      if_neg (UInt64.lt_irrefl _)]

/-- A job that hangs is done no sooner than its longest timeout. -/
theorem longestTimeoutMs_le (limits : CaptureLimits) (retries : Nat) (dns pause : Instant)
    {query : SummaryQuery} (hquery : query.timeoutMs = longestTimeoutMs limits) :
    fromMillis (longestTimeoutMs limits).toNat ≤
      (retries + 1) * (dns + fromMillis limits.checkoutWaitMs.toNat +
        totalDeadline limits query) + retries * pause := by
  rw [totalDeadline, hquery, Nat.succ_mul]
  omega

/-- The captures of every job end before its entry may be claimed from its worker, whatever the
    pool and the browser do, exactly when the wait for a slot and the timeout are bounded and
    the longest job, with what comes before it, is shorter than the visibility timeout. -/
theorem capturesEnd_iff (jobMaxRetries jobRetryBackoffMs visibilityMs : UInt64) (id : String)
    (dispatch marker dns : Instant) {w₀ : Surroundings V} {query₀ q₀ : SummaryQuery}
    (hpass : beforeCheckout limits.toCaptureConfig ctx parse w₀.dns query₀ = .ok q₀)
    (hlookup : looksUp limits.toCaptureConfig ctx parse query₀ = true) :
    (∀ (h : Handover) (w : Nat → Surroundings V) (query : SummaryQuery),
      h.dispatch ≤ dispatch → h.marker ≤ marker → (∀ i, (w i).dnsTime ≤ dns) →
      ∃ r t, processTimed limits ctx parse lower parseUrl toValue jobMaxRetries jobRetryBackoffMs
          id h w query = some (r, t) ∧ t < fromMillis visibilityMs.toNat) ↔
      limits.checkoutWaitMs ≠ 0 ∧ limits.maxTimeoutMs ≠ 0 ∧
        dispatch + marker + jobTime limits jobMaxRetries jobRetryBackoffMs dns <
          fromMillis visibilityMs.toNat := by
  constructor
  · intro hall
    have hwait : limits.checkoutWaitMs ≠ 0 := by
      intro hzero
      -- the pool never answers
      have hnone := captureToResultTimed_waiting lower parseUrl toValue jobMaxRetries
        jobRetryBackoffMs id hzero (w := { w₀ with dnsTime := 0, checkout := none }) hpass rfl
      obtain ⟨r, t, hrun, -⟩ := hall ⟨0, 0⟩ (fun _ => { w₀ with dnsTime := 0, checkout := none })
        query₀ (Nat.zero_le dispatch) (Nat.zero_le marker) fun _ => Nat.zero_le dns
      rw [processTimed, hnone] at hrun
      cases hrun
    -- from here on the pool answers at the last moment and the browser never does: the job takes
    -- the longest that a job can take
    obtain ⟨r, hhang⟩ := captureToResultTimed_hanging lower parseUrl toValue jobMaxRetries
      jobRetryBackoffMs id hwait dns (beforeCheckout_timeoutMs hpass (longestTimeoutMs limits))
      ((looksUp_timeoutMs _ _ _).trans hlookup)
    obtain ⟨r', t, hrun, ht⟩ := hall ⟨dispatch, marker⟩ (fun _ => hanging limits dns w₀)
      { query₀ with timeoutMs := longestTimeoutMs limits } (le_refl dispatch) (le_refl marker)
      fun _ => le_refl dns
    rw [processTimed, hhang] at hrun
    obtain ⟨-, rfl⟩ := Prod.mk.inj (Option.some.inj hrun)
    have htimeout : (Capture.normalize limits.toCaptureConfig
        { query₀ with timeoutMs := longestTimeoutMs limits }).timeoutMs =
          longestTimeoutMs limits := by
      rw [Capture.normalize_timeoutMs, clampTimeoutMs_longest]
    have hmax : limits.maxTimeoutMs ≠ 0 := by
      intro hzero
      -- the greatest timeout is no less than any visibility timeout
      have hle := (longestTimeoutMs_le limits jobMaxRetries.toNat dns
        (fromMillis jobRetryBackoffMs.toNat) htimeout).trans (Nat.le_add_left _ (dispatch + marker))
      have hlong : visibilityMs.toNat ≤ (longestTimeoutMs limits).toNat := by
        rw [longestTimeoutMs, if_pos hzero]
        exact Nat.le_of_lt_succ visibilityMs.toNat_lt
      exact absurd (hle.trans_lt ht) (Nat.not_lt.mpr (Capture.fromMillis_mono hlong))
    refine ⟨hwait, hmax, ?_⟩
    rw [totalDeadline, htimeout, longestTimeoutMs, if_neg hmax] at ht
    exact ht
  · rintro ⟨hwait, hmax, hfits⟩ h w query hdispatch hmarker hdns
    obtain ⟨r, t, hrun, ht⟩ := captureToResultTimed_le lower parseUrl toValue jobMaxRetries
      jobRetryBackoffMs id hwait hmax hdns query
    refine ⟨r, h.dispatch + h.marker + t, ?_, lt_of_le_of_lt ?_ hfits⟩
    · rw [processTimed, hrun]
      rfl
    · exact Nat.add_le_add (Nat.add_le_add hdispatch hmarker) ht

end Job

/-- A job whose resolver takes up to 5 s, with two retries and 500 ms before each, of a worker
    that is there within 100 ms and whose Redis answers within the 65 s of its connection: by the
    defaults its captures may go on when its entry is idle for the 120 s of the visibility
    timeout, but not with 600 s. -/
theorem capturesEnd_iff_defaults :
    (¬ ∀ (h : Handover) (w : Nat → Surroundings Unit) (query : SummaryQuery),
      h.dispatch ≤ fromMillis 100 → h.marker ≤ fromMillis 65000 →
      (∀ i, (w i).dnsTime ≤ fromMillis 5000) →
        ∃ r t, processTimed Capture.defaultLimits ⟨false⟩ Ssrf.sampleParser id (fun _ => none)
            (fun _ => (.ok 0 : Except String Nat)) 2 500 "1" h w query =
          some (r, t) ∧ t < fromMillis 120000) ∧
    ∀ (h : Handover) (w : Nat → Surroundings Unit) (query : SummaryQuery),
      h.dispatch ≤ fromMillis 100 → h.marker ≤ fromMillis 65000 →
      (∀ i, (w i).dnsTime ≤ fromMillis 5000) →
        ∃ r t, processTimed Capture.defaultLimits ⟨false⟩ Ssrf.sampleParser id (fun _ => none)
            (fun _ => (.ok 0 : Except String Nat)) 2 500 "1" h w query =
          some (r, t) ∧ t < fromMillis 600000 := by
  have hpass : beforeCheckout Capture.defaultLimits.toCaptureConfig ⟨false⟩ Ssrf.sampleParser
      Capture.deadSurroundings.dns Ssrf.sampleQuery =
        .ok (Capture.normalize Capture.defaultLimits.toCaptureConfig Ssrf.sampleQuery) := by
    rfl
  constructor
  · intro hall
    exact absurd ((capturesEnd_iff id (fun _ => none) (fun _ => .ok 0) 2 500 120000 "1"
      (fromMillis 100) (fromMillis 65000) (fromMillis 5000) hpass rfl).mp hall).2.2 (by decide)
  · exact (capturesEnd_iff id (fun _ => none) (fun _ => .ok 0) 2 500 600000 "1"
      (fromMillis 100) (fromMillis 65000) (fromMillis 5000) hpass rfl).mpr (by decide)

end Queue
end BrowserHeadless
