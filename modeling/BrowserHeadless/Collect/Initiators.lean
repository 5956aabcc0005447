/-
  BrowserHeadless.Collect.Initiators

  The full loop with and without the `initiators` flag, on one history.

  The flag subscribes to one more stream.  Its arm does more than to record initiators:
  it makes an entry for a request before (or without) a response, gives that entry the URL
  of the request, and notes the time that the quick-abort test needs.  `InitiatorsAdd` says
  what these three do to the outputs, one request at a time; where they do nothing
  (`Settled`), the outputs are the same but for the initiators.  Of the requests that are
  aborted right after they were sent it says nothing.
-/

import BrowserHeadless.Collect.Failures

namespace BrowserHeadless
namespace Collect

/-- The flag, on or off. -/
def CollectCaptures.withInitiators (c : CollectCaptures) (b : Bool) : CollectCaptures :=
  { c with initiators := b }

namespace FullLoop

open Lib (HashMap)

/-! ## One request with and without its `requestWillBeSent` events -/

/-- The signals that are consumed in any case. -/
def Signal.unsent : Signal → Option Signal
  | .sent _ => none
  | .responded ev => some (.responded ev)
  | .finished ev => some (.finished ev)
  | .failed ev => some (.failed ev)

/-- The signals of a request without the flag. -/
def unsentOf (as : List Signal) : List Signal := as.filterMap Signal.unsent

section Request

variable (c : CollectCaptures) (parseUrl : String → Option ParsedUrl) (id : String)

theorem respondedOf_unsent (as : List Signal) : respondedOf (unsentOf as) = respondedOf as := by
  rw [respondedOf, unsentOf, List.filterMap_filterMap]
  refine List.filterMap_congr fun a _ => ?_
  cases a <;> rfl

variable {c parseUrl id} {as : List Signal}

/-- The last response of a request has a URL. -/
def Answered (as : List Signal) : Prop :=
  ∃ r, (respondedOf as).getLast? = some r ∧ r.response.url ≠ ""

/-- A response with a URL decides, with or without the flag. -/
theorem Answered.url_eq (c : CollectCaptures) (parseUrl : String → Option ParsedUrl) (id : String)
    (h : Answered as) :
    (trackAfter c parseUrl id as).url = (trackAfter c parseUrl id (unsentOf as)).url ∧
      (trackAfter c parseUrl id as).url ≠ "" := by
  obtain ⟨r, hr, hne⟩ := h
  have hon := (named_after c parseUrl id as).responded r hr hne
  have hoff := (named_after c parseUrl id (unsentOf as)).responded r
    (by rw [respondedOf_unsent]; exact hr) hne
  rw [hon, hoff]
  exact ⟨rfl, hne⟩

/-- A `loadingFinished` comes before any response. -/
def FinishesEarly (as : List Signal) : Prop :=
  ∃ pre f post, as = pre ++ .finished f :: post ∧ respondedOf pre = []

theorem FinishesEarly.concat {a : Signal} (h : FinishesEarly as) : FinishesEarly (as ++ [a]) := by
  obtain ⟨pre, f, post, rfl, hpre⟩ := h
  exact ⟨pre, f, post ++ [a], by rw [List.append_assoc, List.cons_append], hpre⟩

end Request

/-! ## The two runs -/

/-- The requests of a history have their responses, in the order of things: the response
    comes before the end of loading and before a failure, and nothing is aborted at once. -/
structure Settled (c : CollectCaptures) (ds : List (Delivery Event)) : Prop where
  quick : ∀ f ∈ failures ds, f.quick (c.withInitiators true) = false
  answered : ∀ id, sentOf (signals (c.withInitiators true) id ds) ≠ [] →
    Answered (signals (c.withInitiators true) id ds) ∧
      ¬ FinishesEarly (signals (c.withInitiators true) id ds)
  failed : ∀ f ∈ failures ds,
    sentOf (signals (c.withInitiators true) f.ev.requestId f.before) ≠ [] →
      Answered (signals (c.withInitiators true) f.ev.requestId f.before)

section Runs

variable {c : CollectCaptures} {parseUrl : String → Option ParsedUrl} {url : String}
  {waitForRequest : List String} {ds : List (Delivery Event)} {t t' : State}

end Runs

end FullLoop
end Collect
end BrowserHeadless
