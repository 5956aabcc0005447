/-
  BrowserHeadless.Queue.Payload

  The JSON payload of a queued job: written by `QueueClient::enqueue`
  (src/queue.rs), read by `process_one` (src/worker.rs).

  Both sides flatten the `SummaryQuery` next to an `id`.  No field of the query is
  called `id`, so the worker finds the minted id and, for a query with finite
  floats, every parameter as it was submitted (`payload_roundtrip`).
-/

import BrowserHeadless.Capture.Preflight
import BrowserHeadless.Queue.Worker

namespace BrowserHeadless
namespace Queue

open Capture (SummaryQuery)
open Capture.SummaryQuery (HeaderOrder)
open Lib (Codec Field Json)

/-- `WorkerJob`, with its flattened query. -/
structure QueryJob extends WorkerJob where
  query : SummaryQuery

/-- The field of `WorkerJob` next to the query. -/
def jobFields : List (Field HeaderOrder WorkerJob) :=
  [.of "id" .optionString (·.id) fun job v => { job with id := v }]

/-- `Payload` as JSON: the id, then the fields of the query. -/
def payload (order : HeaderOrder) (id : String) (query : SummaryQuery) : Json :=
  .obj (("id", .str id) :: query.encode order)

/-- The request id of `enqueue`: the job id when the query has none. -/
def defaultRequestId (id : String) (requestId : Option String) : Option String :=
  if requestId.all String.isEmpty then some id else requestId

/-- The payload `enqueue` writes for a job with the minted `id`. -/
def enqueuePayload (order : HeaderOrder) (id : String) (query : SummaryQuery) : Json :=
  payload order id { query with requestId := defaultRequestId id query.requestId }

/-- `serde_json::from_str::<WorkerJob>`, from the parsed value on. -/
def QueryJob.decode (defaultTimeoutMs : UInt64) : Json → Option QueryJob
  | .obj entries =>
      (Lib.Record.decodeFlat jobFields ⟨none⟩ (SummaryQuery.decode defaultTimeoutMs) entries).map
        fun r => ⟨r.1, r.2⟩
  | _ => none

/-- The id and the query that `process_one` hands to `capture_to_result`. -/
def QueryJob.run (job : QueryJob) (entryId : String) : String × SummaryQuery :=
  (job.id.getD entryId, job.query)

/-- No field of a query is called `id`. -/
theorem id_notMem_summaryFields :
    "id" ∉ SummaryQuery.summaryFields.map (·.name) := by decide

theorem encode_keys (order : HeaderOrder) (q : SummaryQuery) :
    ∀ e ∈ q.encode order, e.1 ∉ jobFields.map (·.name) := by
  intro e he hkey
  obtain ⟨f, hf, rfl⟩ := List.mem_map.mp he
  have hid : f.name = "id" := by simpa [jobFields, Field.of] using hkey
  exact id_notMem_summaryFields (hid ▸ List.mem_map_of_mem hf)

theorem decode_payload (defaultTimeoutMs : UInt64) (order : HeaderOrder) (id : String)
    (q : SummaryQuery) (h : q.FiniteFloats) :
    QueryJob.decode defaultTimeoutMs (payload order id q) = some ⟨⟨some id⟩, q⟩ := by
  have hvalid : ∀ f ∈ jobFields, f.Valid ⟨some id⟩ := by
    simp [jobFields, Field.of]
  have hnodup : (jobFields.map (·.name)).Nodup := by decide
  have hflat := Lib.Record.decodeFlat_encode hnodup order ⟨none⟩ hvalid
    (SummaryQuery.decode defaultTimeoutMs) (encode_keys order q)
  have hentries : ("id", .str id) :: q.encode order
      = Lib.Record.encode jobFields order ⟨some id⟩ ++ q.encode order := rfl
  rw [payload, QueryJob.decode, hentries, hflat, SummaryQuery.decode_encode _ order q h]
  rfl

/-- The request id plays no part in which floats are finite. -/
theorem finiteFloats_requestId {q : SummaryQuery} (h : q.FiniteFloats) (r : Option String) :
    SummaryQuery.FiniteFloats { q with requestId := r } := by
  intro field hfield
  exact h field hfield

/-- `is_none_or(str::is_empty)`, spelled out. -/
theorem defaultRequestId_eq (id : String) (r : Option String) :
    defaultRequestId id r = if r = none ∨ r = some "" then some id else r := by
  cases r with
  | none => rfl
  | some s => simp [defaultRequestId]

/-- A worker whose decoder is serde's takes a queued entry under the id that
    `enqueue` minted, never under the entry id. -/
theorem jobId_enqueued {β : Type} {cfg : WorkerConfig β} {parse : String → Option Json}
    {defaultTimeoutMs : UInt64}
    (hdecode : ∀ text, cfg.decode text =
      ((parse text).bind (QueryJob.decode defaultTimeoutMs)).map (·.toWorkerJob))
    {r : Redis β} {e : Nat} {text : String} (hentry : r.payload e = some text)
    {order : HeaderOrder} {id : String} {q : SummaryQuery}
    (hparse : parse text = some (enqueuePayload order id q)) (hfinite : q.FiniteFloats) :
    cfg.jobId r e = some id := by
  have hjob := decode_payload defaultTimeoutMs order id _
    (finiteFloats_requestId hfinite (defaultRequestId id q.requestId))
  rw [WorkerConfig.jobId, hentry, Option.bind_some, hdecode, hparse, Option.bind_some,
    enqueuePayload, hjob]
  rfl

/-- The worker reads from the payload of a queued job its id and its query, with
    the id as request id if the query had none; it captures with the parameters a
    synchronous capture of the query has. -/
theorem payload_roundtrip (defaultTimeoutMs : UInt64) (order : HeaderOrder) (id : String)
    (q : SummaryQuery) (hfinite : q.FiniteFloats) :
    ∃ job, QueryJob.decode defaultTimeoutMs (enqueuePayload order id q) = some job ∧
      job.id = some id ∧
      job.query = { q with
        requestId :=
          if q.requestId = none ∨ q.requestId = some "" then some id else q.requestId } ∧
      ∀ (entryId : String) (cfg : Capture.CaptureConfig), (job.run entryId).1 = id ∧
        Capture.normalize cfg (job.run entryId).2
          = { Capture.normalize cfg q with requestId := job.query.requestId } := by
  refine ⟨_, decode_payload defaultTimeoutMs order id _ (finiteFloats_requestId hfinite _), rfl, ?_,
    ?_⟩
  · rw [defaultRequestId_eq]
  · intro entryId cfg
    exact ⟨rfl, Capture.normalize_requestId cfg q _⟩

/-- A query for a mobile page at double density. -/
def sampleQuery : SummaryQuery :=
  { SummaryQuery.defaults 30000 with
    url := "https://example.com"
    width := some 390
    deviceScaleFactor := some ⟨0x4000000000000000#64⟩
    requestId := some "" }

/-- A queued `sampleQuery` runs under its job id. -/
theorem payload_roundtrip_sample :
    ∃ job, QueryJob.decode 30000 (enqueuePayload .arbitrary "job-1" sampleQuery) = some job ∧
      job.id = some "job-1" ∧
      job.query = { sampleQuery with
        requestId :=
          if sampleQuery.requestId = none ∨ sampleQuery.requestId = some "" then some "job-1"
          else sampleQuery.requestId } ∧
      ∀ (entryId : String) (cfg : Capture.CaptureConfig), (job.run entryId).1 = "job-1" ∧
        Capture.normalize cfg (job.run entryId).2
          = { Capture.normalize cfg sampleQuery with requestId := job.query.requestId } :=
  payload_roundtrip 30000 .arbitrary "job-1" sampleQuery (by decide)

end Queue
end BrowserHeadless
