/-
  BrowserHeadless.Capture.Waits

  The polling loops of src/browser/mod.rs: `wait_for_selector` and `wait_for_function`.

  Times and durations are in nanoseconds.  What the page answers to a poll depends on the time
  of the poll; a poll takes no time, and a sleep takes the time it says.  No caller's timeout
  comes near the end of the clock, so the deadline is a plain sum.
-/

import BrowserHeadless.Error
import BrowserHeadless.Lib.Json
import BrowserHeadless.Lib.Poll

namespace BrowserHeadless
namespace Capture

open Lib (Json Number F64 Backoff)

/-- `Duration::from_millis`. -/
def fromMillis (ms : Nat) : Nat := ms * 1000000

/-- `Duration::as_millis`. -/
def asMillis (ns : Nat) : Nat := ns / 1000000

/-- `INITIAL_INTERVAL` and `MAX_INTERVAL`; both functions declare the same two. -/
def waitBackoff : Backoff where
  initial := fromMillis 10
  cap := fromMillis 200
  initial_pos := by decide
  initial_le_cap := by decide

/-- What a wait returns, and when it polled the page. -/
structure Waited where
  result : Except Error Unit
  polls : List Nat

/-- The loop of both functions, from `start` on. -/
def waitFor (ready : Nat → Bool) (start timeout : Nat) (what : String) : Waited :=
  let polled := Backoff.poll ready (start + timeout) start waitBackoff.first
  { result :=
      if polled.ready then .ok ()
      else .error (.timeout (what ++ " (after " ++ toString (asMillis timeout) ++ "ms)"))
    polls := polled.polls }

section

variable {ε ε' α ρ : Type}

/-- `wait_for_selector`; `findElement` is the answer of the page. -/
def waitForSelector (findElement : Nat → Except ε α) (selector : String) (start timeout : Nat) :
    Waited :=
  waitFor (fun now => (findElement now).isOk) start timeout ("selector " ++ selector)

/-- `n.as_f64()`. -/
def asF64 : Number → F64
  | .int n => .ofInt n
  | .float x _ => x

/-- `x != 0.0`; a NaN differs from zero. -/
def nonZero (x : F64) : Bool :=
  match x.value with
  | .finite _ units => units ≠ 0
  | .nan | .inf _ => true

/-- `is_truthy`. -/
def isTruthy : Json → Bool
  | .null => false
  | .bool b => b
  | .num n => nonZero (asF64 n)
  | .str s => !s.isEmpty
  | .arr items => !items.isEmpty
  | .obj entries => !entries.isEmpty

/-- One poll of `wait_for_function`; an exception, or a result that is no JSON value, counts
    as falsy. -/
def functionReady (evaluate : Nat → Except ε ρ) (intoValue : ρ → Except ε' Json) (now : Nat) :
    Bool :=
  match evaluate now with
  | .error _ => false
  | .ok result =>
      match intoValue result with
      | .error _ => false
      | .ok value => isTruthy value

/-- `wait_for_function`; `evaluate` is the answer of the page to the expression. -/
def waitForFunction (evaluate : Nat → Except ε ρ) (intoValue : ρ → Except ε' Json)
    (start timeout : Nat) : Waited :=
  waitFor (functionReady evaluate intoValue) start timeout "function"

end

/-- What a wait promises, for polls that succeed at the times at which `ready` holds. -/
structure WaitSpec (ready : Nat → Bool) (start timeout : Nat) (what : String) (w : Waited) :
    Prop where
  /-- It polls at once. -/
  head : w.polls.head? = some start
  /-- `Ok` comes from the first poll that succeeds, and there is no poll after it. -/
  ok : w.result = .ok () → ∃ earlier last, w.polls = earlier ++ [last] ∧ ready last = true ∧
    ∀ t ∈ earlier, ready t = false
  /-- Any other result is `Timeout`, every poll failed, and the last one was taken at or after
      the deadline, by less than the longest sleep. -/
  timedOut : w.result ≠ .ok () →
    w.result = .error
      (.timeout (what ++ " (after " ++ toString (asMillis timeout) ++ "ms)")) ∧
    (∀ t ∈ w.polls, ready t = false) ∧
    ∃ last, w.polls.getLast? = some last ∧
      start + timeout ≤ last ∧ last < start + timeout + fromMillis 200
  /-- Polls are at least the shortest and at most the longest sleep apart. -/
  spaced : w.polls.IsChain fun s t => s + fromMillis 10 ≤ t ∧ t ≤ s + fromMillis 200
  /-- One poll for each 200 ms of the timeout, one for each of the five doublings, and one. -/
  count : w.polls.length ≤ (timeout + (fromMillis 200 - 1)) / fromMillis 200 + 6

theorem waitFor_spec (ready : Nat → Bool) (start timeout : Nat) (what : String) :
    WaitSpec ready start timeout what (waitFor ready start timeout what) := by
  have hready := Backoff.poll_ready ready (start + timeout) start waitBackoff.first
  have hearlier := Backoff.poll_earlier ready (start + timeout) start waitBackoff.first
  have hspaced := Backoff.polls_isChain ready (start + timeout) start waitBackoff.first
  refine ⟨Backoff.polls_head _ _ _ _, ?_, ?_, hspaced, ?_⟩
  · intro hok
    refine ⟨_, _, rfl, ?_, fun t ht => (hearlier t ht).1⟩
    rw [← hready]
    by_contra hnot
    simp only [waitFor, if_neg hnot] at hok
    cases hok
  · intro hne
    have hnot : (Backoff.poll ready (start + timeout) start waitBackoff.first).ready = false := by
      by_contra hnot
      simp only [waitFor, if_pos (Bool.eq_true_of_not_eq_false hnot)] at hne
      exact hne rfl
    refine ⟨?_, ?_, _, List.getLast?_concat, ?_, ?_⟩
    · simp only [waitFor, hnot]
      rfl
    · intro t ht
      rcases List.mem_append.mp ht with hmem | hmem
      · exact (hearlier t hmem).1
      · rw [List.mem_singleton.mp hmem, ← hready]
        exact hnot
    · exact Backoff.deadline_le_last _ _ _ _ hnot
    · exact Backoff.last_lt ready (start + timeout) start waitBackoff.first
        (Nat.lt_of_le_of_lt (Nat.le_add_right start timeout)
          (Nat.lt_add_of_pos_right (by decide)))
  · have hcount := Backoff.length_polls_le ready (start + timeout) start waitBackoff.first 5
      (by decide)
    rw [Nat.add_sub_cancel_left] at hcount
    exact hcount

/-- Both polling loops end, and keep their promises for whatever the page answers when. -/
theorem wait_polling {ε ε' α ρ : Type} (findElement : Nat → Except ε α) (selector : String)
    (evaluate : Nat → Except ε ρ) (intoValue : ρ → Except ε' Json) (start timeout : Nat) :
    WaitSpec (fun now => (findElement now).isOk) start timeout ("selector " ++ selector)
      (waitForSelector findElement selector start timeout) ∧
    WaitSpec (functionReady evaluate intoValue) start timeout "function"
      (waitForFunction evaluate intoValue start timeout) :=
  ⟨waitFor_spec _ start timeout _, waitFor_spec _ start timeout _⟩

end Capture
end BrowserHeadless
