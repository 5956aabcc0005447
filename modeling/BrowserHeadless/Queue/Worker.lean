/-
  BrowserHeadless.Queue.Worker

  The worker side of the job queue (src/worker.rs): the read and reclaim loop
  of `run`, and `process_one` for each entry it was given.

  Every Redis command is one step, and its `Reply` says whether it took effect
  and whether the worker saw an error: a command can fail, and it can take
  effect with its reply lost.  Workers read, reclaim and die as the schedule
  says; any number of tasks may hold one entry.
-/

import BrowserHeadless.Lib.System
import BrowserHeadless.Queue.Redis

namespace BrowserHeadless
namespace Queue

variable {β : Type}

/-- How a Redis command ends for the client that sent it. -/
inductive Reply where
  | ok
  /-- An error, and the command was not executed. -/
  | failed
  /-- An error, but the command was executed. -/
  | lost
deriving DecidableEq, Repr

/-- Whether the command took effect. -/
def Reply.effect : Reply → Bool
  | ok | lost => true
  | failed => false

/-- `WorkerJob`, less the capture parameters. -/
structure WorkerJob where
  id : Option String
deriving DecidableEq, Repr

/-- The JSON value `process_one` writes: 200 and `data`, or an error status and
    `error`. -/
structure JobResult (β : Type) where
  id : String
  status : Nat
  data : Option β
  error : Option String
deriving DecidableEq

/-- What `capture_to_result` got from its last capture attempt; a captured
    value may fail to convert to JSON. -/
inductive CaptureOutcome (β : Type) where
  | ok (data : Except String β)
  | err (status : Nat) (message : String)

/-- `JobResult::ok`. -/
def JobResult.ok (id : String) : Except String β → JobResult β
  | .ok value => ⟨id, 200, some value, none⟩
  | .error e => ⟨id, 500, none, some ("serialize result: " ++ e)⟩

/-- `JobResult::err`. -/
def JobResult.err (id : String) (status : Nat) (error : String) : JobResult β :=
  ⟨id, status, none, some error⟩

/-- The result `capture_to_result` returns for a job id. -/
def CaptureOutcome.result (id : String) : CaptureOutcome β → JobResult β
  | ok data => JobResult.ok id data
  | err status message => JobResult.err id status message

@[simp] theorem CaptureOutcome.result_id (id : String) (o : CaptureOutcome β) :
    (o.result id).id = id := by
  rcases o with (_ | _) | _ <;> rfl

/-- The document written for a `JobResult`. -/
def JobResult.stored (r : JobResult β) : StoredJobResult β :=
  ⟨r.id, none, some r.status, r.data, r.error⟩

/-- The `running` marker of a job. -/
def runningMarker (id : String) : StoredJobResult β := ⟨id, some "running", none, none, none⟩

/-- The settings of the worker, and the libraries it calls: the texts of stream
    entry ids, the JSON decoder of `WorkerJob` and the JSON encoder of results. -/
structure WorkerConfig (β : Type) where
  resultPrefix : String
  deleteOnAck : Bool
  entryId : Nat → String
  decode : String → Option WorkerJob
  /-- `serde_json::to_string` of a result succeeds. -/
  serializes : JobResult β → Bool

/-- The key a job's result is stored under. -/
def WorkerConfig.resultKey (cfg : WorkerConfig β) (id : String) : String := cfg.resultPrefix ++ id

theorem WorkerConfig.resultKey_injective (cfg : WorkerConfig β) :
    Function.Injective cfg.resultKey := by
  intro a b h
  have hl := congrArg String.toList h
  simp only [resultKey, String.toList_append, List.append_cancel_left_eq] at hl
  exact String.toList_inj.mp hl

/-- The id of the job in an entry: the id of the payload, else the entry id;
    `none` when the payload is missing or does not decode. -/
def WorkerConfig.jobId (cfg : WorkerConfig β) (r : Redis β) (e : Nat) : Option String :=
  ((r.payload e).bind cfg.decode).map fun job => job.id.getD (cfg.entryId e)

/-- Where one `process_one` stands. -/
inductive TaskPc (β : Type) where
  /-- Spawned with its entry; parsing is next. -/
  | received
  /-- `SETEX` of the running marker is next. -/
  | marking (id : String)
  /-- In `capture_to_result`. -/
  | capturing (id : String)
  /-- `SETEX` of the result (and its `PUBLISH`) is next. -/
  | writing (result : JobResult β)
  /-- `XACK` is next. -/
  | acking
  /-- `XDEL` is next, in the same pipeline. -/
  | deleting
  | finished
  /-- Died with its worker, or panicked. -/
  | dead

/-- A task that has not ended. -/
def TaskPc.live : TaskPc β → Bool
  | finished | dead => false
  | _ => true

/-- A task past its result write, or past the decision to drop its entry. -/
def TaskPc.acknowledging : TaskPc β → Bool
  | acking | deleting => true
  | _ => false

/-- One spawned `process_one`. -/
structure Task (β : Type) where
  worker : Nat
  entry : Nat
  pc : TaskPc β

/-- Redis and the tasks of all workers. -/
structure State (β : Type) where
  redis : Redis β
  tasks : List (Task β)
  /-- The results whose `SETEX` took effect, in order; no step reads it. -/
  written : List (JobResult β)

namespace State

def init : State β := ⟨.empty, [], []⟩

/-- Move task `i`. -/
def setPc (s : State β) (i : Nat) (pc : TaskPc β) : State β :=
  { s with tasks := s.tasks.modify i fun t => { t with pc := pc } }

/-- `spawn_job` for each entry of a reply. -/
def spawn (s : State β) (worker : Nat) (ids : List Nat) : State β :=
  { s with tasks := s.tasks ++ ids.map fun e => ⟨worker, e, .received⟩ }

/-- A command on Redis with its reply. -/
def command (s : State β) (reply : Reply) (f : Redis β → Redis β) : State β :=
  if reply.effect then { s with redis := f s.redis } else s

end State

/-- What can happen next. -/
inductive Action (β : Type) where
  /-- A producer adds an entry. -/
  | xadd (payload : Option String)
  /-- Worker `w` reads up to `count` new entries. -/
  | read (w count : Nat) (reply : Reply)
  /-- Worker `w` reclaims the pending entries `ids`. -/
  | reclaim (w : Nat) (ids : List Nat) (reply : Reply)
  /-- The next step of task `i`, with the reply to its command if it sends
      one. -/
  | task (i : Nat) (reply : Reply)
  /-- The capture of task `i` ends. -/
  | captured (i : Nat) (outcome : CaptureOutcome β)
  /-- Task `i` panics. -/
  | panic (i : Nat)
  /-- Worker `w` dies with all its tasks (a crash, or the end of a drain that
      timed out). -/
  | crash (w : Nat)

variable (cfg : WorkerConfig β)

/-- The `SETEX` of a result, recorded in `written` when it took effect. -/
def writeResult (s : State β) (r : JobResult β) (reply : Reply) : State β :=
  let s' := s.command reply fun redis => redis.set (cfg.resultKey r.id) r.stored
  if reply.effect then { s' with written := s.written ++ [r] } else s'

/-- `process_one`, from one command to the next.  A failed marker is ignored,
    a failed result write leaves the entry pending, and `ack` only logs an
    error. -/
def processOne (s : State β) (i e : Nat) (reply : Reply) : TaskPc β → Option (State β)
  | .received =>
      match cfg.jobId s.redis e with
      -- a malformed job is acknowledged and dropped
      | none => some (s.setPc i .acking)
      | some id => some (s.setPc i (.marking id))
  | .marking id =>
      some ((s.command reply fun r => r.set (cfg.resultKey id) (runningMarker id)).setPc i
        (.capturing id))
  | .writing result =>
      some ((writeResult cfg s result reply).setPc i
        -- after a failed write the entry stays pending for a reclaim
        (if reply = .ok then .acking else .finished))
  | .acking =>
      some ((s.command reply fun r => r.xack e).setPc i
        (if cfg.deleteOnAck then .deleting else .finished))
  | .deleting => some ((s.command reply fun r => r.xdel e).setPc i .finished)
  | .capturing _ | .finished | .dead => none

/-- The end of `capture_to_result`. -/
def captured (s : State β) (i : Nat) (o : CaptureOutcome β) : TaskPc β → Option (State β)
  | .capturing id =>
      some (s.setPc i (if cfg.serializes (o.result id) then .writing (o.result id) else .acking))
  | _ => none

/-- A task ends with its worker. -/
def Task.kill (w : Nat) (t : Task β) : Task β :=
  if t.worker = w ∧ t.pc.live then { t with pc := .dead } else t

/-- `poll_new`, then `spawn_job` for each entry if the reply arrived. -/
def read (s : State β) (w count : Nat) (reply : Reply) : State β :=
  let s' := s.command reply fun r => (r.xreadgroup count).1
  if reply = .ok then s'.spawn w (s.redis.xreadgroup count).2 else s'

/-- `reclaim`, then `spawn_job` for each entry if the reply arrived. -/
def reclaim (s : State β) (w : Nat) (ids : List Nat) (reply : Reply) : State β :=
  let s' := s.command reply fun r => (r.xautoclaim ids).1
  if reply = .ok then s'.spawn w (s.redis.xautoclaim ids).2 else s'

/-- The guarded step function of the worker fleet. -/
def step (s : State β) : Action β → Option (State β)
  | .xadd payload => some { s with redis := s.redis.xadd payload }
  | .read w count reply => some (read s w count reply)
  | .reclaim w ids reply =>
      -- only pending entries can be claimed
      if ids.all fun e => s.redis.log[e]?.any fun x => x.pending then
        some (reclaim s w ids reply)
      else none
  | .task i reply => s.tasks[i]?.bind fun t => processOne cfg s i t.entry reply t.pc
  | .captured i o => s.tasks[i]?.bind fun t => captured cfg s i o t.pc
  | .panic i => s.tasks[i]?.bind fun t => if t.pc.live then some (s.setPc i .dead) else none
  | .crash w => some { s with tasks := s.tasks.map (Task.kill w) }

/-- The worker fleet as a transition system. -/
def system : Lib.System (State β) (Action β) := ⟨State.init, step cfg⟩

/-- The payload of a small job. -/
def samplePayload : String := "\x7b\"id\":\"job-1\",\"url\":\"https://example.com\"\x7d"

/-- The default settings, with a decoder that knows `samplePayload`. -/
def sampleConfig : WorkerConfig Unit where
  resultPrefix := "browser_headless:result:"
  deleteOnAck := true
  entryId := fun e => "1700000000000-" ++ toString e
  decode := fun p => if p = samplePayload then some ⟨some "job-1"⟩ else none
  serializes := fun _ => true

end Queue
end BrowserHeadless
