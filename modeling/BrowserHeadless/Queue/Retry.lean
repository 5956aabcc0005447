/-
  BrowserHeadless.Queue.Retry

  `capture_to_result` (src/worker.rs): one capture of a job, tried again while it fails in
  a way that may pass.

  The outcomes of all attempts are given beforehand as an infinite sequence.  The loop
  consumes them up to the first definitive one, and at most `job_max_retries + 1` of them
  (`captureToResult_spec`).
-/

import BrowserHeadless.Error
import BrowserHeadless.Queue.Worker

namespace BrowserHeadless
namespace Queue

variable {β : Type}

/-- `is_retryable`. -/
def isRetryable (status : Nat) : Bool :=
  status == 408 || status == 502 || status == 503 || status == 504

section Loop

variable (jobMaxRetries : UInt64) (id : String) (captureOne : Nat → CaptureResult β)

/-- The `loop` from the counter `attempt` on; `i` counts the captures made.  The result
    comes with the number of captures it took. -/
def captureLoop (attempt : UInt64) (i : Nat) : JobResult β × Nat :=
  match captureOne i with
  | .ok data => (JobResult.ok id data, i + 1)
  | .error e =>
      let status := e.statusU16
      if h : isRetryable status = true ∧ attempt < jobMaxRetries then
        captureLoop (attempt + 1) (i + 1)
      else (JobResult.err id status e.message, i + 1)
termination_by jobMaxRetries.toNat - attempt.toNat
decreasing_by
  have hlt : attempt.toNat < jobMaxRetries.toNat := h.2
  have hmax := jobMaxRetries.toNat_lt
  rw [UInt64.toNat_add]
  show jobMaxRetries.toNat - (attempt.toNat + 1) % 2 ^ 64 < _
  omega

/-- `capture_to_result`. -/
def captureToResult : JobResult β × Nat := captureLoop jobMaxRetries id captureOne 0 0

end Loop

/-! ## Outcomes -/

/-- The outcome may be another one when the capture is made again. -/
def isTransient : CaptureResult β → Bool
  | .ok _ => false
  | .error e => isRetryable e.statusU16

/-- The outcome as the worker sees it. -/
def outcomeOf : CaptureResult β → CaptureOutcome β
  | .ok data => .ok data
  | .error e => .err e.statusU16 e.message

/-- The retryable errors, by kind. -/
theorem isRetryable_iff (e : CaptureError) :
    isRetryable e.statusU16 = true ↔
      e.kind = .timeout ∨ e.kind = .badGateway ∨ e.kind = .serviceUnavailable ∨
        e.kind = .gatewayTimeout := by
  rw [CaptureError.statusU16]
  cases e.kind <;> decide

section Spec

variable {jobMaxRetries : UInt64} {id : String} {captureOne : Nat → CaptureResult β}

/-- A transient outcome within the budget: one more round. -/
theorem captureLoop_again {attempt : UInt64} {i : Nat}
    (h : isTransient (captureOne i) = true) (hlt : attempt < jobMaxRetries) :
    captureLoop jobMaxRetries id captureOne attempt i =
      captureLoop jobMaxRetries id captureOne (attempt + 1) (i + 1) := by
  rw [captureLoop]
  cases hone : captureOne i with
  | ok data =>
      rw [hone] at h
      exact absurd h (by simp [isTransient])
  | error e =>
      rw [hone] at h
      exact dif_pos ⟨h, hlt⟩

/-- A definitive outcome, or the last of the budget: its result. -/
theorem captureLoop_stop {attempt : UInt64} {i : Nat}
    (h : isTransient (captureOne i) = false ∨ ¬ attempt < jobMaxRetries) :
    captureLoop jobMaxRetries id captureOne attempt i =
      ((outcomeOf (captureOne i)).result id, i + 1) := by
  rw [captureLoop]
  cases hone : captureOne i with
  | ok data => rfl
  | error e =>
      rw [hone] at h
      refine dif_neg fun hand => ?_
      rcases h with htransient | hbudget
      · exact Bool.eq_false_iff.mp htransient hand.1
      · exact hbudget hand.2

/-- The counter does not wrap around before the budget is used up. -/
theorem toNat_attempt_succ {attempt : UInt64} (h : attempt < jobMaxRetries) :
    (attempt + 1).toNat = attempt.toNat + 1 := by
  have hlt : attempt.toNat < jobMaxRetries.toNat := h
  have hmax := jobMaxRetries.toNat_lt
  rw [UInt64.toNat_add]
  show (attempt.toNat + 1) % 2 ^ 64 = _
  omega

/-- The loop from any counter within the budget: `n` transient outcomes, then the one that
    is returned. -/
theorem captureLoop_spec (budget : Nat) : ∀ (attempt : UInt64) (i : Nat),
    attempt.toNat + budget = jobMaxRetries.toNat →
    ∃ n, n ≤ budget ∧ (∀ j < n, isTransient (captureOne (i + j)) = true) ∧
      (isTransient (captureOne (i + n)) = false ∨ n = budget) ∧
      captureLoop jobMaxRetries id captureOne attempt i =
        ((outcomeOf (captureOne (i + n))).result id, i + n + 1) := by
  induction budget with
  | zero =>
      intro attempt i hbudget
      have hstop : ¬ attempt < jobMaxRetries := fun hlt => by
        have hlt' : attempt.toNat < jobMaxRetries.toNat := hlt
        omega
      exact ⟨0, Nat.le_refl 0, by simp, Or.inr rfl, captureLoop_stop (Or.inr hstop)⟩
  | succ budget ih =>
      intro attempt i hbudget
      by_cases htransient : isTransient (captureOne i) = true
      · have hlt : attempt < jobMaxRetries := by
          show attempt.toNat < jobMaxRetries.toNat
          omega
        obtain ⟨n, hn, hbefore, hlast, hrun⟩ := ih (attempt + 1) (i + 1) (by
          rw [toNat_attempt_succ hlt]
          omega)
        have hshift : ∀ j, i + 1 + j = i + (j + 1) := fun j => by omega
        refine ⟨n + 1, by omega, ?_, ?_, ?_⟩
        · intro j hj
          cases j with
          | zero => exact htransient
          | succ j =>
              rw [← hshift]
              exact hbefore j (by omega)
        · rw [← hshift]
          exact hlast.imp_right fun h => by omega
        · rw [captureLoop_again htransient hlt, hrun, hshift]
      · have hstop := Bool.eq_false_iff.mpr htransient
        exact ⟨0, Nat.zero_le _, by simp, Or.inl hstop, captureLoop_stop (Or.inl hstop)⟩

end Spec

/-- What a job's last outcome is reported as. -/
theorem result_ok (id : String) (value : β) :
    (outcomeOf (.ok (.ok value))).result id = ⟨id, 200, some value, none⟩ := rfl

theorem result_error (id : String) (e : CaptureError) :
    (outcomeOf (.error e)).result id =
      (⟨id, e.statusU16, none, some e.message⟩ : JobResult β) := rfl

/-- The captures that are made: transient ones, then the one that is reported. -/
theorem exists_last_capture (jobMaxRetries : UInt64) (id : String)
    (captureOne : Nat → CaptureResult β) :
    ∃ n, n ≤ jobMaxRetries.toNat ∧ (∀ j < n, isTransient (captureOne j) = true) ∧
      (isTransient (captureOne n) = false ∨ n = jobMaxRetries.toNat) ∧
      captureToResult jobMaxRetries id captureOne =
        ((outcomeOf (captureOne n)).result id, n + 1) := by
  obtain ⟨n, hn, hbefore, hlast, hrun⟩ :=
    captureLoop_spec jobMaxRetries.toNat 0 0 (Nat.zero_add jobMaxRetries.toNat)
  simp only [Nat.zero_add] at hbefore hlast hrun
  exact ⟨n, hn, hbefore, hlast, hrun⟩

/-- A definitive outcome within the budget is the one that is reported, whatever failed
    before it. -/
theorem captureToResult_of_definitive {jobMaxRetries : UInt64} {id : String}
    {captureOne : Nat → CaptureResult β} {k : Nat} (hk : k ≤ jobMaxRetries.toNat)
    (hbefore : ∀ j < k, isTransient (captureOne j) = true)
    (hdefinitive : isTransient (captureOne k) = false) :
    captureToResult jobMaxRetries id captureOne = ((outcomeOf (captureOne k)).result id, k + 1) := by
  obtain ⟨n, hn, hbefore', hlast, hrun⟩ := exists_last_capture jobMaxRetries id captureOne
  have hle : ¬ k < n := fun hlt => by
    rw [hbefore' k hlt] at hdefinitive
    exact absurd hdefinitive (by decide)
  have hge : ¬ n < k := fun hlt => by
    rcases hlast with h | h
    · rw [hbefore n hlt] at h
      exact absurd h (by decide)
    · omega
  obtain rfl : n = k := by omega
  exact hrun

/-- Without a definitive outcome the budget is used up. -/
theorem captureToResult_of_transient {jobMaxRetries : UInt64} {id : String}
    {captureOne : Nat → CaptureResult β}
    (h : ∀ j ≤ jobMaxRetries.toNat, isTransient (captureOne j) = true) :
    captureToResult jobMaxRetries id captureOne =
      ((outcomeOf (captureOne jobMaxRetries.toNat)).result id, jobMaxRetries.toNat + 1) := by
  obtain ⟨n, hn, -, hlast, hrun⟩ := exists_last_capture jobMaxRetries id captureOne
  rcases hlast with hdefinitive | rfl
  · rw [h n hn] at hdefinitive
    exact absurd hdefinitive (by decide)
  · exact hrun

/-- For every budget and every sequence of outcomes, the loop ends with the first outcome
    that is not transient, or with the last one of the budget, and reports that one. -/
theorem captureToResult_spec (jobMaxRetries : UInt64) (id : String)
    (captureOne : Nat → CaptureResult β) :
    ∃ n result, captureToResult jobMaxRetries id captureOne = (result, n + 1) ∧
      n ≤ jobMaxRetries.toNat ∧
      (∀ j < n, isTransient (captureOne j) = true) ∧
      (isTransient (captureOne n) = false ∨ n = jobMaxRetries.toNat) ∧
      (∀ value, captureOne n = .ok (.ok value) → result = ⟨id, 200, some value, none⟩) ∧
      (∀ e, captureOne n = .error e → result = ⟨id, e.statusU16, none, some e.message⟩) ∧
      result = (outcomeOf (captureOne n)).result id := by
  obtain ⟨n, hn, hbefore, hlast, hrun⟩ := exists_last_capture jobMaxRetries id captureOne
  refine ⟨n, (outcomeOf (captureOne n)).result id, hrun, hn, hbefore, hlast, ?_, ?_, rfl⟩
  · intro value hvalue
    rw [hvalue, result_ok]
  · intro e he
    rw [he, result_error]

end Queue
end BrowserHeadless
