/-
  BrowserHeadless.Jobs.Store

  The in-process job store (src/jobs.rs): `JobStore::submit`, `run_job`,
  `purge_expired` with its sweeper, and the shutdown `drain`.

  The map is behind one lock, so its critical sections are single steps.  Each
  of them compares expiry times with a `now` that `submit` and `purge_expired`
  read before they wait for the lock.  Time is a clock that ticks by any
  amount between steps.
-/

import BrowserHeadless.Error
import BrowserHeadless.Lib.System
import Mathlib.Data.List.MinMax

namespace BrowserHeadless
namespace Jobs

variable {β : Type}

/-- `config::max_async_jobs` and `config::job_ttl`; both are clamped to at
    least one. -/
structure JobsConfig where
  maxAsyncJobs : Nat
  jobTtl : Nat
  maxAsyncJobs_pos : 0 < maxAsyncJobs
  jobTtl_pos : 0 < jobTtl

/-- `JobStatus`. -/
inductive JobStatus where
  | queued
  | running
  | done
  | error
deriving DecidableEq, Repr

/-- Queued or running: the statuses the admission cap counts. -/
def JobStatus.active : JobStatus → Bool
  | queued | running => true
  | done | error => false

/-- `JobRecord`. -/
structure JobRecord (β : Type) where
  status : JobStatus
  httpStatus : Option Nat
  data : Option β
  error : Option String
  created : Nat
  expires : Nat

/-- The job map; the order of the list is its iteration order. -/
abbrev JobMap (β : Type) := List (String × JobRecord β)

namespace JobMap

/-- `map.retain(|_, rec| rec.expires > now)`. -/
def retain (map : JobMap β) (now : Nat) : JobMap β := map.filter fun p => now < p.2.expires

/-- `map.insert`. -/
def insert (map : JobMap β) (id : String) (rec : JobRecord β) : JobMap β :=
  (id, rec) :: map.filter fun p => p.1 ≠ id

/-- `map.remove`. -/
def remove (map : JobMap β) (id : String) : JobMap β := map.filter fun p => p.1 ≠ id

/-- Update the record `map.get_mut(id)` finds. -/
def update (map : JobMap β) (id : String) (f : JobRecord β → JobRecord β) : JobMap β :=
  map.map fun p => if p.1 = id then (p.1, f p.2) else p

/-- How many records are queued or running. -/
def activeCount (map : JobMap β) : Nat := map.countP fun p => p.2.status.active

/-- The completed record created first. -/
def oldestCompleted (map : JobMap β) : Option (String × JobRecord β) :=
  (map.filter fun p => !p.2.status.active).argmin fun p => p.2.created

/-- The eviction loop of `submit`; every round removes a record, so the length
    of the map bounds the rounds. -/
def evict (max : Nat) : Nat → JobMap β → JobMap β
  | 0, map => map
  | fuel + 1, map =>
      if max ≤ map.length then
        -- only completed records are evicted: with none left the loop stops
        match map.oldestCompleted with
        | none => map
        | some oldest => evict max fuel (map.remove oldest.1)
      else map

end JobMap

/-- How the capture of a job ended; a captured value may fail to convert to
    JSON. -/
inductive JobOutcome (β : Type) where
  | ok (data : Except String β)
  | err (e : CaptureError)

/-- The record of a job whose capture ended at time `now`. -/
def JobRecord.complete (cfg : JobsConfig) (now : Nat) (rec : JobRecord β) :
    JobOutcome β → JobRecord β
  | .ok (.ok v) =>
      { rec with expires := now + cfg.jobTtl, status := .done, httpStatus := some 200, data := some v }
  | .ok (.error e) =>
      { rec with
        expires := now + cfg.jobTtl, status := .error, httpStatus := some 500
        error := some ("serialize: " ++ e) }
  | .err e =>
      { rec with
        expires := now + cfg.jobTtl, status := .error, httpStatus := some e.statusU16
        error := some e.message }

/-- Where one accepted job stands. -/
inductive JobPc (β : Type) where
  /-- Its record is in the map; `tokio::spawn` is next, and then `submit`
      returns `Ok`. -/
  | accepted
  /-- Spawned; `ActiveGuard::new` is next. -/
  | spawned
  /-- In `run_job`, about to set its record to `Running`. -/
  | started
  /-- In `capture_one_queued`. -/
  | capturing
  /-- About to write the outcome into its record. -/
  | finishing (outcome : JobOutcome β)
  /-- `run_job` is over; the `fetch_sub` of the guard's drop is next. -/
  | ending
  /-- The count reached zero; `notify_waiters` is next. -/
  | notifying
  | finished

/-- A job that is queued or running a capture. -/
def JobPc.live : JobPc β → Bool
  | accepted | spawned | started | capturing | finishing _ => true
  | ending | notifying | finished => false

/-- One accepted job. -/
structure Job (β : Type) where
  id : String
  pc : JobPc β

/-- Where one `submit` stands. -/
inductive SubmitPc where
  /-- Waiting for the write lock. -/
  | waiting
  | accepted
  | rejected (e : CaptureError)
  /-- Dropped while it waited. -/
  | cancelled
deriving DecidableEq

/-- One call of `submit`, with the id it minted and the time it read. -/
structure SubmitCall where
  id : String
  now : Nat
  pc : SubmitPc
deriving DecidableEq

/-- Where one `drain` stands. -/
inductive DrainPc where
  /-- The first load of `active` is next. -/
  | check
  /-- `idle.notified()` is next. -/
  | register
  /-- Registered; the second load is next. -/
  | recheck (woken : Bool)
  /-- Waiting for the notification or the deadline. -/
  | waiting (woken : Bool)
  | drained
  | timedOut
deriving DecidableEq

/-- The store with everything that runs on it. -/
structure State (β : Type) where
  clock : Nat
  map : JobMap β
  calls : List SubmitCall
  jobs : List (Job β)
  /-- The `now` of each `purge_expired`; `none` once it had the lock. -/
  purges : List (Option Nat)
  /-- The `active` counter. -/
  active : Nat
  drains : List DrainPc

namespace State

def init : State β := ⟨0, [], [], [], [], 0, []⟩

/-- Move job `i`. -/
def setPc (s : State β) (i : Nat) (pc : JobPc β) : State β :=
  { s with jobs := s.jobs.modify i fun job => { job with pc := pc } }

/-- Move call `c`. -/
def setCall (s : State β) (c : Nat) (pc : SubmitPc) : State β :=
  { s with calls := s.calls.modify c fun call => { call with pc := pc } }

end State

/-- What can happen next. -/
inductive Action (β : Type) where
  | tick (d : Nat)
  /-- `submit` is called: it mints `id` and reads the time. -/
  | submit (id : String)
  /-- Call `c` gets the write lock. -/
  | enter (c : Nat)
  /-- The future of call `c` is dropped while it waits. -/
  | cancel (c : Nat)
  /-- The next step of job `i`. -/
  | job (i : Nat)
  /-- The capture of job `i` ends; a panic in it is an outcome too. -/
  | captured (i : Nat) (outcome : JobOutcome β)
  /-- Job `i` panics outside its capture. -/
  | panic (i : Nat)
  /-- The sweeper calls `purge_expired`, which reads the time. -/
  | sweep
  /-- Purge `k` gets the write lock. -/
  | purge (k : Nat)
  /-- The map changes its iteration order. -/
  | rehash (i : Nat)
  /-- `drain` is called. -/
  | drain
  /-- The next step of drain `k`. -/
  | drainStep (k : Nat)
  /-- The deadline of drain `k` passes. -/
  | drainTimeout (k : Nat)

/-- The error of a `submit` over the cap. -/
def queueFull (active max : Nat) : CaptureError :=
  ⟨.serviceUnavailable, "async job queue full (" ++ toString active ++ "/" ++ toString max ++
    " in flight); retry later or raise BROWSER_HEADLESS_MAX_ASYNC_JOBS"⟩

/-- The record of a job just submitted. -/
def JobRecord.queued (cfg : JobsConfig) (now : Nat) : JobRecord β :=
  ⟨.queued, none, none, none, now, now + cfg.jobTtl⟩

/-- The critical section of `submit`: purge, check the cap, evict, insert. -/
def enter (cfg : JobsConfig) (s : State β) (c : Nat) (call : SubmitCall) : State β :=
  let map := s.map.retain call.now
  -- a rejected submit has purged the map all the same
  if cfg.maxAsyncJobs ≤ map.activeCount then
    State.setCall { s with map := map } c
      (.rejected (queueFull map.activeCount cfg.maxAsyncJobs))
  else
    -- the record and the job appear together, before the lock is released
    let room := map.evict cfg.maxAsyncJobs map.length
    State.setCall
      { s with
        map := room.insert call.id (.queued cfg call.now)
        jobs := s.jobs ++ [⟨call.id, .accepted⟩] } c .accepted

/-- `notify_waiters`: everyone who called `notified()` wakes up. -/
def DrainPc.wake : DrainPc → DrainPc
  | recheck _ => recheck true
  | waiting _ => waiting true
  | pc => pc

/-- The steps of a job between its awaits. -/
def jobStep (cfg : JobsConfig) (s : State β) (i : Nat) (id : String) :
    JobPc β → Option (State β)
  | .accepted => some (s.setPc i .spawned)
  | .spawned => some (State.setPc { s with active := s.active + 1 } i .started)
  | .started =>
      let map := s.map.update id fun rec => { rec with status := .running }
      some (State.setPc { s with map := map } i .capturing)
  | .capturing => none
  | .finishing outcome =>
      let map := s.map.update id fun rec => rec.complete cfg s.clock outcome
      some (State.setPc { s with map := map } i .ending)
  -- `fetch_sub` returns the old count: one means that the store is idle now
  | .ending =>
      some (State.setPc { s with active := s.active - 1 } i
        (if s.active = 1 then .notifying else .finished))
  | .notifying => some (State.setPc { s with drains := s.drains.map DrainPc.wake } i .finished)
  | .finished => none

/-- A panic outside the capture: the guard is dropped during unwind. -/
def jobPanic (s : State β) (i : Nat) : JobPc β → Option (State β)
  | .started | .finishing _ => some (s.setPc i .ending)
  | _ => none

/-- The steps of `drain` between its awaits. -/
def drainStep (active : Nat) : DrainPc → Option DrainPc
  | .check => some (if active = 0 then .drained else .register)
  | .register => some (.recheck false)
  | .recheck woken => some (if active = 0 then .drained else .waiting woken)
  | .waiting true => some .check
  | .waiting false | .drained | .timedOut => none

/-- The guarded step function of the store.  `Uuid::new_v4` never mints an id
    twice. -/
def step (cfg : JobsConfig) (s : State β) : Action β → Option (State β)
  | .tick d => some { s with clock := s.clock + d }
  | .submit id =>
      if s.calls.all fun call => call.id ≠ id then
        some { s with calls := s.calls ++ [⟨id, s.clock, .waiting⟩] }
      else none
  | .enter c =>
      s.calls[c]?.bind fun call => if call.pc = .waiting then some (enter cfg s c call) else none
  | .cancel c =>
      s.calls[c]?.bind fun call =>
        if call.pc = .waiting then some (s.setCall c .cancelled) else none
  | .job i => s.jobs[i]?.bind fun job => jobStep cfg s i job.id job.pc
  -- the outcome may be anything; the record is written in a step of its own
  | .captured i outcome =>
      s.jobs[i]?.bind fun job =>
        match job.pc with
        | .capturing => some (s.setPc i (.finishing outcome))
        | _ => none
  | .panic i => s.jobs[i]?.bind fun job => jobPanic s i job.pc
  | .sweep => some { s with purges := s.purges ++ [some s.clock] }
  | .purge k =>
      (s.purges[k]?.bind id).map fun now =>
        { s with map := s.map.retain now, purges := s.purges.set k none }
  | .rehash i =>
      s.map[i]?.map fun p => { s with map := p :: s.map.eraseIdx i }
  | .drain => some { s with drains := s.drains ++ [.check] }
  | .drainStep k =>
      (s.drains[k]?.bind (drainStep s.active)).map fun pc =>
        { s with drains := s.drains.set k pc }
  | .drainTimeout k =>
      s.drains[k]?.bind fun pc =>
        if pc = .waiting false then some { s with drains := s.drains.set k .timedOut } else none

/-- The store as a transition system. -/
def system (cfg : JobsConfig) : Lib.System (State β) (Action β) := ⟨State.init, step cfg⟩

/-- The jobs that are queued or running a capture. -/
def State.liveJobs (s : State β) : List (Job β) := s.jobs.filter fun job => job.pc.live

end Jobs
end BrowserHeadless
