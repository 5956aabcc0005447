/-
  BrowserHeadless.Collect.Request

  What the full loop has recorded of one request after its signals.

  Most of the record is written by one kind of signal and so depends on the
  order within that kind only (`responsePart_after`, `type_after`,
  `initiator_after`, `sentAt_after`).  Three things depend on how the kinds are
  interleaved: the size (a `loadingFinished` before the entry exists is
  dropped), the URL (a request fills an entry that has none) and the treatment
  of a failure.
-/

import BrowserHeadless.Collect.Track
import BrowserHeadless.Lib.Lists

namespace BrowserHeadless
namespace Collect
namespace FullLoop

/-! ## The streams of a request -/

@[simp] def Signal.asResponded : Signal → Option EventResponseReceived
  | .responded ev => some ev
  | _ => none

@[simp] def Signal.asFinished : Signal → Option EventLoadingFinished
  | .finished ev => some ev
  | _ => none

@[simp] def Signal.asSent : Signal → Option EventRequestWillBeSent
  | .sent ev => some ev
  | _ => none

@[simp] def Signal.asFailed : Signal → Option EventLoadingFailed
  | .failed ev => some ev
  | _ => none

/-- The responses among some signals. -/
def respondedOf (as : List Signal) : List EventResponseReceived := as.filterMap Signal.asResponded

/-- The `loadingFinished` events among some signals. -/
def finishedOf (as : List Signal) : List EventLoadingFinished := as.filterMap Signal.asFinished

/-- The requests among some signals. -/
def sentOf (as : List Signal) : List EventRequestWillBeSent := as.filterMap Signal.asSent

/-- The `loadingFailed` events among some signals. -/
def failedOf (as : List Signal) : List EventLoadingFailed := as.filterMap Signal.asFailed

/-! ## The parts of an entry -/

/-- The fields that only responses write; the others are blanked. -/
def responsePart (entry : WebPageResource) : WebPageResource :=
  { entry with requestId := "", contentSize := 0, initiator := none, url := "", parsedUrl := none }

/-- An entry is its response part and the other five fields. -/
theorem eq_of_responsePart {e e' : WebPageResource} (hpart : responsePart e = responsePart e')
    (hid : e.requestId = e'.requestId) (hsize : e.contentSize = e'.contentSize)
    (hinit : e.initiator = e'.initiator) (hurl : e.url = e'.url)
    (hparsed : e.parsedUrl = e'.parsedUrl) : e = e' := by
  obtain ⟨_, _, _, _, _, _, _, _, _, _, _, _, _, _, _, _⟩ := e
  obtain ⟨_, _, _, _, _, _, _, _, _, _, _, _, _, _, _, _⟩ := e'
  simp only [responsePart, WebPageResource.mk.injEq] at *
  simp_all

section Request

variable (c : CollectCaptures) (parseUrl : String → Option ParsedUrl) (id : String)

/-- A response overwrites the whole response part. -/
theorem responsePart_fillEntry (ev : EventResponseReceived) (e e' : WebPageResource) :
    responsePart (fillEntry c parseUrl ev e) = responsePart (fillEntry c parseUrl ev e') := rfl

theorem fillEntry_contentSize (ev : EventResponseReceived) (e : WebPageResource) :
    (fillEntry c parseUrl ev e).contentSize = e.contentSize := rfl

theorem noteRequest_url (ev : EventRequestWillBeSent) (e : WebPageResource) :
    (noteRequest parseUrl ev e).url = if e.url = "" then ev.url else e.url := by
  unfold noteRequest
  split <;> rfl

theorem noteRequest_keeps (ev : EventRequestWillBeSent) (e : WebPageResource) :
    (noteRequest parseUrl ev e).requestId = e.requestId ∧
      (noteRequest parseUrl ev e).contentSize = e.contentSize ∧
      (noteRequest parseUrl ev e).initiator = some (mapInitiator ev.initiator) ∧
      responsePart (noteRequest parseUrl ev e) = responsePart e := by
  unfold noteRequest
  split <;> exact ⟨rfl, rfl, rfl, rfl⟩

theorem trackAfter_concat (as : List Signal) (a : Signal) :
    trackAfter c parseUrl id (as ++ [a]) = (trackAfter c parseUrl id as).act c parseUrl id a := by
  simp only [trackAfter, List.foldl_append, List.foldl_cons, List.foldl_nil]

theorem trackAfter_append (as bs : List Signal) :
    trackAfter c parseUrl id (as ++ bs) =
      bs.foldl (Track.act c parseUrl id) (trackAfter c parseUrl id as) :=
  List.foldl_append

/-- A failure touches nothing but the abort flag. -/
theorem act_failed (tr : Track) (ev : EventLoadingFailed) :
    (tr.act c parseUrl id (.failed ev)).entry = tr.entry ∧
      (tr.act c parseUrl id (.failed ev)).type = tr.type ∧
      (tr.act c parseUrl id (.failed ev)).sentAt = tr.sentAt := by
  simp only [Track.act]
  split <;> exact ⟨rfl, rfl, rfl⟩

/-! ## What one kind of signal determines -/

/-- The response part is that of the last response. -/
theorem responsePart_after (as : List Signal) :
    responsePart ((trackAfter c parseUrl id as).entry.getD { requestId := id }) =
      (Lib.lastWrite (fun ev => some (responsePart (fillEntry c parseUrl ev { requestId := id })))
        (respondedOf as)).getD (responsePart { requestId := id }) := by
  have hreg := Lib.register_of_foldl (f := Track.act c parseUrl id)
    (fun tr => some (responsePart (tr.entry.getD { requestId := id })))
    (fun a => a.asResponded.bind fun ev =>
      some (responsePart (fillEntry c parseUrl ev { requestId := id })))
    (by
      intro tr a
      cases a with
      | responded ev =>
          exact congrArg some (responsePart_fillEntry c parseUrl ev _ _)
      | finished ev =>
          simp only [Track.act, Signal.asResponded]
          cases tr.entry <;> rfl
      | sent ev =>
          simp only [Track.act, Option.getD_some, (noteRequest_keeps parseUrl ev _).2.2.2]
          rfl
      | failed ev =>
          simp only [(act_failed c parseUrl id tr ev).1]
          rfl) {} as
  rw [respondedOf, Lib.lastWrite_filterMap]
  rw [trackAfter]
  cases hw : Lib.lastWrite (fun a => a.asResponded.bind fun ev =>
      some (responsePart (fillEntry c parseUrl ev { requestId := id }))) as with
  | none =>
      rw [hw] at hreg
      exact Option.some.inj hreg
  | some part =>
      rw [hw] at hreg
      exact Option.some.inj hreg

/-- The resource type is that of the last response. -/
theorem type_after (as : List Signal) :
    (trackAfter c parseUrl id as).type =
      Lib.lastWrite (fun ev => if c.httpErrors then some ev.type else none) (respondedOf as) := by
  rw [respondedOf, Lib.lastWrite_filterMap, trackAfter,
    Lib.register_of_foldl Track.type
      (fun a => a.asResponded.bind fun ev => if c.httpErrors then some ev.type else none)]
  · exact Option.or_none
  · intro tr a
    cases a with
    | responded ev =>
        simp only [Track.act, Signal.asResponded, Option.bind_some]
        split <;> rfl
    | finished ev => rfl
    | sent ev => rfl
    | failed ev =>
        rw [(act_failed c parseUrl id tr ev).2.1]
        rfl

/-- The initiator is that of the last request. -/
theorem initiator_after (as : List Signal) :
    (trackAfter c parseUrl id as).entry.bind (fun e => e.initiator) =
      Lib.lastWrite (fun ev => some (mapInitiator ev.initiator)) (sentOf as) := by
  have hreg := Lib.register_of_foldl (f := Track.act c parseUrl id)
    (fun tr => tr.entry.bind fun e => e.initiator)
    (fun a => a.asSent.bind fun ev => some (mapInitiator ev.initiator))
    (by
      intro tr a
      cases a with
      | responded ev =>
          simp only [Track.act, Option.bind_some, fillEntry, Signal.asSent]
          cases tr.entry <;> rfl
      | finished ev =>
          simp only [Track.act, Signal.asSent]
          cases tr.entry <;> rfl
      | sent ev =>
          simp only [Track.act, Option.bind_some, (noteRequest_keeps parseUrl ev _).2.2.1]
          rfl
      | failed ev =>
          simp only [(act_failed c parseUrl id tr ev).1]
          rfl) {} as
  rw [sentOf, Lib.lastWrite_filterMap]
  exact hreg.trans Option.or_none

/-- The send time is that of the last request. -/
theorem sentAt_after (as : List Signal) :
    (trackAfter c parseUrl id as).sentAt =
      Lib.lastWrite (fun ev => some ev.timestamp) (sentOf as) := by
  rw [sentOf, Lib.lastWrite_filterMap, trackAfter,
    Lib.register_of_foldl Track.sentAt (fun a => a.asSent.bind fun ev => some ev.timestamp)]
  · exact Option.or_none
  · intro tr a
    cases a with
    | responded ev => rfl
    | finished ev => rfl
    | sent ev => rfl
    | failed ev =>
        rw [(act_failed c parseUrl id tr ev).2.2]
        rfl

/-! ## Presence, keys and sizes -/

/-- The size that a `loadingFinished` event records. -/
def finishedSize (ev : EventLoadingFinished) : Nat := asU64 (max ev.encodedDataLength 0)

/-- What holds of an entry after some signals, however they are interleaved. -/
structure Recorded (as : List Signal) (tr : Track) : Prop where
  present : tr.entry.isSome = true ↔ respondedOf as ≠ [] ∨ sentOf as ≠ []
  keyed : ∀ e, tr.entry = some e → e.requestId = id
  parsed : ∀ e, tr.entry = some e → e.url ≠ "" → e.parsedUrl = parseUrl e.url
  size : ∀ e, tr.entry = some e → e.contentSize = 0 ∨
    ∃ f, (finishedOf as).getLast? = some f ∧ e.contentSize = finishedSize f

@[simp] theorem respondedOf_concat (as : List Signal) (a : Signal) :
    respondedOf (as ++ [a]) = respondedOf as ++ a.asResponded.toList :=
  Lib.filterMap_concat Signal.asResponded as a

@[simp] theorem sentOf_concat (as : List Signal) (a : Signal) :
    sentOf (as ++ [a]) = sentOf as ++ a.asSent.toList :=
  Lib.filterMap_concat Signal.asSent as a

@[simp] theorem finishedOf_concat (as : List Signal) (a : Signal) :
    finishedOf (as ++ [a]) = finishedOf as ++ a.asFinished.toList :=
  Lib.filterMap_concat Signal.asFinished as a

@[simp] theorem failedOf_concat (as : List Signal) (a : Signal) :
    failedOf (as ++ [a]) = failedOf as ++ a.asFailed.toList :=
  Lib.filterMap_concat Signal.asFailed as a

/-- The entry that a response or a request starts from is keyed by its id. -/
theorem Recorded.getD_keyed {as : List Signal} {tr : Track} (h : Recorded parseUrl id as tr) :
    (tr.entry.getD { requestId := id }).requestId = id := by
  cases he : tr.entry with
  | none => rfl
  | some e => exact h.keyed e he

theorem Recorded.getD_size {as : List Signal} {tr : Track} (h : Recorded parseUrl id as tr) :
    (tr.entry.getD { requestId := id }).contentSize = 0 ∨
      ∃ f, (finishedOf as).getLast? = some f ∧
        (tr.entry.getD { requestId := id }).contentSize = finishedSize f := by
  cases he : tr.entry with
  | none => exact .inl rfl
  | some e => exact h.size e he

/-- Every signal keeps the record. -/
theorem Recorded.act {as : List Signal} {tr : Track} (h : Recorded parseUrl id as tr)
    (a : Signal) : Recorded parseUrl id (as ++ [a]) (tr.act c parseUrl id a) := by
  cases a with
  | responded ev =>
      constructor
      case present => simp [Track.act]
      case keyed =>
        rintro e he
        cases he
        exact h.getD_keyed
      case parsed =>
        rintro e he -
        cases he
        rfl
      case size =>
        rintro e he
        cases he
        rw [fillEntry_contentSize]
        simpa using h.getD_size
  | finished ev =>
      constructor
      case present =>
        simpa [Track.act]
          using h.present
      case keyed =>
        rintro e he
        obtain ⟨e', he', rfl⟩ := Option.map_eq_some_iff.mp he
        exact h.keyed e' he'
      case parsed =>
        rintro e he hurl
        obtain ⟨e', he', rfl⟩ := Option.map_eq_some_iff.mp he
        exact h.parsed e' he' hurl
      case size =>
        rintro e he
        obtain ⟨e', he', rfl⟩ := Option.map_eq_some_iff.mp he
        exact .inr ⟨ev, by simp, rfl⟩
  | sent ev =>
      have hkeeps := noteRequest_keeps parseUrl ev (tr.entry.getD { requestId := id })
      constructor
      case present => simp [Track.act]
      case keyed =>
        rintro e he
        cases he
        exact hkeeps.1.trans h.getD_keyed
      case parsed =>
        rintro e he hurl
        cases he
        unfold noteRequest at hurl ⊢
        split at hurl
        -- the request fills the URL and its parse together, or touches neither
        · rename_i hempty
          rw [if_pos hempty]
        · rename_i hnamed
          rw [if_neg hnamed]
          cases hentry : tr.entry with
          | none => simp [hentry] at hnamed
          | some e => exact h.parsed e hentry (by simpa [hentry] using hnamed)
      case size =>
        rintro e he
        cases he
        rw [hkeeps.2.1]
        simpa using h.getD_size
  | failed ev =>
      have hentry := (act_failed c parseUrl id tr ev).1
      constructor
      case present =>
        simpa [hentry]
          using h.present
      case keyed => simpa [hentry] using h.keyed
      case parsed => simpa [hentry] using h.parsed
      case size => simpa [hentry] using h.size

/-- The record of any signals. -/
theorem recorded_after (as : List Signal) :
    Recorded parseUrl id as (trackAfter c parseUrl id as) := by
  induction as using List.reverseRecOn with
  | nil =>
      constructor
      case present => simp [trackAfter, respondedOf, sentOf]
      case keyed =>
        rintro e he
        cases he
      case parsed =>
        rintro e he
        cases he
      case size =>
        rintro e he
        cases he
  | append_singleton as a ih =>
      rw [trackAfter_concat]
      exact Recorded.act c parseUrl id ih a

/-! ## URLs -/

/-- The URL of an entry after a signal. -/
def urlStep (url : String) : Signal → String
  | .responded ev => ev.response.url
  | .sent ev => if url = "" then ev.url else url
  | .finished _ => url
  | .failed _ => url

theorem act_url (tr : Track) (a : Signal) :
    (tr.act c parseUrl id a).url = urlStep tr.url a := by
  cases a with
  | responded ev => rfl
  | finished ev =>
      simp only [Track.url, Track.act, urlStep]
      cases tr.entry <;> rfl
  | sent ev =>
      have hurl : (tr.entry.getD { requestId := id }).url = tr.url := by
        unfold Track.url
        cases tr.entry <;> rfl
      have hnote := noteRequest_url parseUrl ev (tr.entry.getD { requestId := id })
      rw [hurl] at hnote
      exact hnote
  | failed ev =>
      unfold Track.url
      rw [(act_failed c parseUrl id tr ev).1]
      rfl

theorem url_after (as : List Signal) :
    (trackAfter c parseUrl id as).url = as.foldl urlStep "" := by
  induction as using List.reverseRecOn with
  | nil => rfl
  | append_singleton as a ih =>
      rw [trackAfter_concat, act_url, ih, List.foldl_append]
      rfl

/-- The URL of the first request that has one. -/
def firstNamed (qs : List EventRequestWillBeSent) : String :=
  ((qs.find? fun q => q.url != "").map fun q => q.url).getD ""

theorem firstNamed_concat (qs : List EventRequestWillBeSent) (q : EventRequestWillBeSent) :
    firstNamed (qs ++ [q]) = if firstNamed qs = "" then q.url else firstNamed qs := by
  unfold firstNamed
  rw [List.find?_append]
  cases h : qs.find? fun q => q.url != "" with
  | none =>
      by_cases hq : q.url = ""
      · simp [hq]
      · simp [hq]
  | some r =>
      have hr : r.url ≠ "" := by simpa using List.find?_some h
      simp [hr]

theorem firstNamed_ne_iff {qs : List EventRequestWillBeSent} :
    firstNamed qs ≠ "" ↔ ∃ q ∈ qs, q.url ≠ "" := by
  unfold firstNamed
  cases h : qs.find? fun q => q.url != "" with
  | none => simpa using h
  | some r =>
      have hr : r.url ≠ "" := by simpa using List.find?_some h
      simp only [Option.map_some, Option.getD_some]
      exact ⟨fun _ => ⟨r, List.mem_of_find?_eq_some h, hr⟩, fun _ => hr⟩

/-- What the URL of an entry is, however the signals are interleaved. -/
structure Named (as : List Signal) (url : String) : Prop where
  responded : ∀ r, (respondedOf as).getLast? = some r → r.response.url ≠ "" →
    url = r.response.url
  sent : respondedOf as = [] → url = firstNamed (sentOf as)
  unnamed : ∀ r, (respondedOf as).getLast? = some r → r.response.url = "" →
    (∀ q ∈ sentOf as, q.url = "") → url = ""

/-- Only responses and requests matter to the URL. -/
theorem Named.congr {as bs : List Signal} {url : String} (h : Named as url)
    (hR : respondedOf bs = respondedOf as) (hQ : sentOf bs = sentOf as) : Named bs url := by
  constructor
  case responded =>
    rw [hR]
    exact h.responded
  case sent =>
    rw [hR, hQ]
    exact h.sent
  case unnamed =>
    rw [hR, hQ]
    exact h.unnamed

/-- Every signal keeps what is known of the URL. -/
theorem Named.step {as : List Signal} {url : String} (h : Named as url) (a : Signal) :
    Named (as ++ [a]) (urlStep url a) := by
  cases a with
  | responded ev =>
      constructor
      case responded =>
        intro r hr _
        obtain rfl : ev = r := by simpa using hr
        rfl
      case sent => simp
      case unnamed =>
        intro r hr hempty _
        obtain rfl : ev = r := by simpa using hr
        exact hempty
  | sent ev =>
      constructor
      case responded =>
        intro r hr hne
        rw [h.responded r (by simpa using hr) hne]
        exact if_neg hne
      case sent =>
        intro hnone
        rw [h.sent (by simpa using hnone),
          sentOf_concat]
        exact (firstNamed_concat _ _).symm
      case unnamed =>
        intro r hr hempty hall
        have hbefore := h.unnamed r
          (by simpa using hr) hempty
          fun q hq => hall q (by simp [hq])
        rw [hbefore]
        exact hall ev (by simp)
  | finished ev =>
      exact h.congr (by simp)
        (by simp)
  | failed ev =>
      exact h.congr (by simp)
        (by simp)

/-- The URL of any signals. -/
theorem named_after (as : List Signal) : Named as (trackAfter c parseUrl id as).url := by
  rw [url_after]
  -- on the last signal: it names the entry or leaves the name alone
  induction as using List.reverseRecOn with
  | nil => exact ⟨fun _ h => (by cases h), fun _ => rfl, fun _ h => (by cases h)⟩
  | append_singleton as a ih =>
      rw [List.foldl_append]
      exact ih.step a

/-- Without a named response or request the entry has no URL. -/
theorem url_after_unnamed {as : List Signal} (hR : ∀ r ∈ respondedOf as, r.response.url = "")
    (hQ : ∀ q ∈ sentOf as, q.url = "") : (trackAfter c parseUrl id as).url = "" := by
  have h := named_after c parseUrl id as
  -- the last response decides, and without one the first named request
  cases hlast : (respondedOf as).getLast? with
  | none =>
      rw [h.sent (List.getLast?_eq_none_iff.mp hlast)]
      by_contra hne
      obtain ⟨q, hq, hnamed⟩ := firstNamed_ne_iff.mp hne
      exact hnamed (hQ q hq)
  | some r => exact h.unnamed r hlast (hR r (List.mem_of_getLast? hlast)) hQ

/-! ## Failures -/

/-- The failure of a request without a URL. -/
def blankFailure (ev : EventLoadingFailed) : NetworkFailure where
  url := ""
  errorText := ev.errorText
  resourceType := resourceTypeLabel ev.type
  canceled := ev.canceled.getD false

/-- A failure is not told apart when none of the request's other signals names
    it or makes it a quick abort. -/
def FailsBlank (R : List EventResponseReceived) (Q : List EventRequestWillBeSent)
    (ev : EventLoadingFailed) : Prop :=
  (∀ r ∈ R, r.response.url = "") ∧
    ∀ q ∈ Q, q.url = "" ∧ isQuickAbort ev (some q.timestamp) = false

/-- Fewer signals tell a failure apart less. -/
theorem FailsBlank.mono {R R' : List EventResponseReceived} {Q Q' : List EventRequestWillBeSent}
    {ev : EventLoadingFailed} (h : FailsBlank R Q ev) (hR : R' ⊆ R) (hQ : Q' ⊆ Q) :
    FailsBlank R' Q' ev :=
  ⟨fun r hr => h.1 r (hR hr), fun q hq => h.2 q (hQ hq)⟩

theorem isQuickAbort_none (ev : EventLoadingFailed) : isQuickAbort ev none = false := by
  simp [isQuickAbort]

/-- A failure that can only be blank is reported so, whatever came before. -/
theorem FailsBlank.failure_after {as : List Signal} {ev : EventLoadingFailed}
    (h : FailsBlank (respondedOf as) (sentOf as) ev) :
    (trackAfter c parseUrl id as).pseudo = false ∧
      isQuickAbort ev (trackAfter c parseUrl id as).sentAt = false ∧
      (trackAfter c parseUrl id as).failure ev = some (blankFailure ev) := by
  have hurl := url_after_unnamed c parseUrl id h.1 fun q hq => (h.2 q hq).1
  have hpseudo : (trackAfter c parseUrl id as).pseudo = false := by
    simp [Track.pseudo, hurl]
  have hquick : isQuickAbort ev (trackAfter c parseUrl id as).sentAt = false := by
    rw [sentAt_after]
    cases hsent : Lib.lastWrite (fun ev => some ev.timestamp) (sentOf as) with
    | none => exact isQuickAbort_none ev
    | some t =>
        obtain ⟨q, hq, hqt⟩ := Lib.exists_of_lastWrite hsent
        cases hqt
        exact (h.2 q hq).2
  refine ⟨hpseudo, hquick, ?_⟩
  simp only [Track.failure, hpseudo, hquick, hurl, Bool.or_self, Bool.false_eq_true, if_false]
  rfl

/-- A request whose failures can only be blank is never aborted. -/
theorem not_aborted_after {as : List Signal}
    (h : ∀ f ∈ failedOf as, FailsBlank (respondedOf as) (sentOf as) f) :
    (trackAfter c parseUrl id as).aborted = false := by
  induction as using List.reverseRecOn with
  | nil => rfl
  | append_singleton as a ih =>
      -- what can only be blank after all signals can only be blank before
      have hbefore : ∀ f ∈ failedOf (as ++ [a]), FailsBlank (respondedOf as) (sentOf as) f := by
        intro f hf
        refine (h f hf).mono ?_ ?_
        · rw [respondedOf_concat]
          exact List.subset_append_left _ _
        · rw [sentOf_concat]
          exact List.subset_append_left _ _
      have hih := ih fun f hf => hbefore f (by simp [hf])
      rw [trackAfter_concat]
      cases a with
      | responded ev => exact hih
      | finished ev => exact hih
      | sent ev => exact hih
      | failed ev =>
          obtain ⟨-, hquick, -⟩ := (hbefore ev (by
            simp)).failure_after c parseUrl id
          simp only [Track.act, hquick]
          simpa using hih

end Request

end FullLoop
end Collect
end BrowserHeadless
