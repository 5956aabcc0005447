/-
  BrowserHeadless.Queue.Connection

  The cached Redis connection of `QueueClient` (src/queue.rs): `conn`, `invalidate`, `fail`,
  and the calls of `enqueue` and `get` between their awaits.

  All calls share one cached connection behind a `tokio::sync::Mutex`.  A call whose command
  fails spawns a task that empties the cache.  The task neither waits for the call to return
  nor says which connection it is about, so two things can go wrong: a later call can get to
  the lock before the task and be handed the broken connection again, and the task can empty
  the cache after somebody has redialed.  Neither happens in a run that meets `InTurn`.

  What the commands do to Redis is the subject of `Queue.Producer`.
-/

import BrowserHeadless.Error
import BrowserHeadless.Lib.FairLock
import BrowserHeadless.Lib.Lists
import BrowserHeadless.Lib.System

namespace BrowserHeadless
namespace Queue
namespace Connection

open Lib (FairLock)

/-- A dialed connection; every dial gives a new one. -/
abbrev ConnId := Nat

/-- The method a call is of, with the job id it minted or asks for. -/
inductive Method where
  | enqueue (id : String)
  | get (id : String)
deriving DecidableEq, Repr

/-- The job id. -/
def Method.id : Method → String
  | enqueue id | get id => id

/-- The commands of the two methods whose failure is reported. -/
inductive Command where
  | setNx
  | xadd
  | get
deriving DecidableEq, Repr

/-- The command a method begins with. -/
def Method.first : Method → Command
  | enqueue _ => .setNx
  | get _ => .get

/-- What comes back from Redis: a value, nil, a value the caller cannot decode, or an error. -/
inductive Answer where
  | ok
  | nil
  | undecodable (text : String)
  | error (text : String)
deriving DecidableEq, Repr

/-- The error text of an answer. -/
def Answer.error? : Answer → Option String
  | error text => some text
  | ok | nil | undecodable _ => none

/-- Where one call stands. -/
inductive CallPc where
  /-- In `conn`: waits for the lock, or holds it and is about to look at the cache. -/
  | locking
  /-- Holds the lock over an empty cache; `backend.connect` is under way. -/
  | dialing
  /-- `command` is under way on `c`. -/
  | command (c : ConnId) (command : Command)
  /-- `XADD` came back with an error; `DEL` of the marker is under way. -/
  | cleanup (c : ConnId) (text : String)
  /-- `fail` has spawned its task. -/
  | failing (c : ConnId) (error : CaptureError)
  /-- Returned the error of a command that failed on `c`. -/
  | failed (c : ConnId) (error : CaptureError)
  /-- Returned anything else. -/
  | returned (result : Except CaptureError Unit)
  /-- The future was dropped. -/
  | cancelled

/-- One call of `enqueue` or `get`. -/
structure Call where
  method : Method
  pc : CallPc
  /-- What `conn` returned. -/
  took : Option ConnId

/-- Where a spawned `invalidate` stands. -/
inductive TaskPc where
  | spawned
  /-- Waits for the lock, or holds it and is about to empty the cache. -/
  | locking
  | done
deriving DecidableEq, Repr

/-- A spawned `invalidate`. -/
structure Invalidation where
  /-- The connection whose failure spawned it; the task itself does not know. -/
  about : ConnId
  pc : TaskPc
deriving DecidableEq, Repr

/-- Who uses the lock. -/
inductive Locker where
  | call (k : Nat)
  | invalidation (m : Nat)
deriving DecidableEq, Repr

/-- The client with its calls and tasks. -/
structure State where
  /-- What the mutex protects. -/
  cache : Option ConnId
  lock : FairLock Locker
  /-- The next connection to be dialed. -/
  nextConn : ConnId
  /-- The calls that have come to `conn`, in the order in which they did. -/
  calls : List Call
  invalidations : List Invalidation

/-- What can happen next. -/
inductive Action where
  /-- A new call comes to `conn`: the first poll of `lock`. -/
  | start (method : Method)
  /-- The next step of call `k`. -/
  | call (k : Nat) (answer : Answer)
  /-- The future of call `k` is dropped at its await. -/
  | cancel (k : Nat)
  /-- The next step of task `m`. -/
  | invalidate (m : Nat)
deriving DecidableEq, Repr

namespace State

/-- `QueueClient::connect` caches the connection it has tried. -/
def init : State where
  cache := some 0
  lock := .new
  nextConn := 1
  calls := []
  invalidations := []

/-- Move call `k`. -/
def setCall (s : State) (k : Nat) (call : Call) (pc : CallPc) : State :=
  { s with calls := s.calls.set k { call with pc := pc } }

/-- `conn` returns `c` and its guard is dropped; the first command follows. -/
def returnConn (s : State) (k : Nat) (call : Call) (c : ConnId) : State :=
  { s with
    lock := s.lock.leave (.call k)
    calls := s.calls.set k
      { call with pc := .command c call.method.first, took := some c } }

/-- `fail`: the invalidation is spawned. -/
def fail (s : State) (k : Nat) (call : Call) (c : ConnId) (what text : String) : State :=
  { s with
    invalidations := s.invalidations ++ [⟨c, .spawned⟩]
    calls := s.calls.set k
      { call with pc := .failing c ⟨.serviceUnavailable, what ++ ": " ++ text⟩ } }

end State

/-- `conn`, with the lock held. -/
def conn (s : State) (k : Nat) (call : Call) : State :=
  match s.cache with
  | some c => s.returnConn k call c
  | none => s.setCall k call .dialing

/-- `backend.connect` in `conn` comes back. -/
def connected (s : State) (k : Nat) (call : Call) (answer : Answer) : State :=
  match answer.error? with
  | none =>
      State.returnConn { s with cache := some s.nextConn, nextConn := s.nextConn + 1 } k call
        s.nextConn
  | some text =>
      State.setCall { s with lock := s.lock.leave (.call k) } k call
        (.returned (.error ⟨.serviceUnavailable, "redis connect failed: " ++ text⟩))

/-- A command of `enqueue` or `get` comes back. -/
def answered (s : State) (k : Nat) (call : Call) (c : ConnId) (answer : Answer) :
    Command → State
  | .setNx =>
      match answer with
      | .error text => s.fail k call c "redis marker write failed" text
      -- the key was taken
      | .nil =>
          s.setCall k call (.returned (.error
            ⟨.internal, "job id collision on `" ++ call.method.id ++ "`; not overwriting"⟩))
      | .ok | .undecodable _ => s.setCall k call (.command c .xadd)
  | .xadd =>
      match answer with
      | .error text => s.setCall k call (.cleanup c text)
      | .ok | .nil | .undecodable _ => s.setCall k call (.returned (.ok ()))
  | .get =>
      match answer with
      | .error text => s.fail k call c "redis GET failed" text
      | .undecodable text =>
          s.setCall k call (.returned (.error ⟨.internal, "job result decode: " ++ text⟩))
      | .ok | .nil => s.setCall k call (.returned (.ok ()))

/-- The next step of a call. -/
def callStep (s : State) (k : Nat) (call : Call) (answer : Answer) : CallPc → Option State
  | .locking => if s.lock.holder = some (.call k) then some (conn s k call) else none
  | .dialing => some (connected s k call answer)
  | .command c command => some (answered s k call c answer command)
  -- what `DEL` answers is ignored
  | .cleanup c text => some (s.fail k call c "redis enqueue failed" text)
  | .failing c error => some (s.setCall k call (.failed c error))
  | .failed _ _ | .returned _ | .cancelled => none

/-- A call is dropped at its await; what it has of the lock is dropped with it. -/
def cancelCall (s : State) (k : Nat) (call : Call) : CallPc → Option State
  | .locking | .dialing =>
      some (State.setCall { s with lock := s.lock.leave (.call k) } k call .cancelled)
  | .command _ _ | .cleanup _ _ => some (s.setCall k call .cancelled)
  | .failing _ _ | .failed _ _ | .returned _ | .cancelled => none

/-- The next step of a task: `*self.conn.lock().await = None`. -/
def invalidate (s : State) (m : Nat) (task : Invalidation) : TaskPc → Option State
  | .spawned =>
      some { s with
        lock := s.lock.enter (.invalidation m)
        invalidations := s.invalidations.set m { task with pc := .locking } }
  | .locking =>
      if s.lock.holder = some (.invalidation m) then
        some { s with
          cache := none
          lock := s.lock.leave (.invalidation m)
          invalidations := s.invalidations.set m { task with pc := .done } }
      else none
  | .done => none

/-- The guarded step function. -/
def step (s : State) : Action → Option State
  | .start method =>
      some { s with
        lock := s.lock.enter (.call s.calls.length)
        calls := s.calls ++ [⟨method, .locking, none⟩] }
  | .call k answer => s.calls[k]?.bind fun call => callStep s k call answer call.pc
  | .cancel k => s.calls[k]?.bind fun call => cancelCall s k call call.pc
  | .invalidate m => s.invalidations[m]?.bind fun task => invalidate s m task task.pc

/-- The client as a transition system. -/
def system : Lib.System State Action := ⟨State.init, step⟩

/-! ## What invalidation is for -/

/-- The connection of a call that has one. -/
def CallPc.conn : CallPc → Option ConnId
  | command c _ | cleanup c _ | failing c _ | failed c _ => some c
  | locking | dialing | returned _ | cancelled => none

/-- The connection of a call that has returned the error of a command on it. -/
def CallPc.failedOn : CallPc → Option ConnId
  | failed c _ => some c
  | _ => none

/-- `backend.connect` is under way. -/
def CallPc.dials : CallPc → Bool
  | dialing => true
  | _ => false

/-- At the lock, or holding it. -/
def CallPc.atLock : CallPc → Bool
  | locking | dialing => true
  | _ => false

/-- The connection an answer makes the call fail on, with an invalidation. -/
def CallPc.failsOn (answer : Answer) : CallPc → Option ConnId
  | command c .setNx | command c .get => answer.error?.map fun _ => c
  | cleanup c _ => some c
  | _ => none

/-- Once a call whose command failed on `c` has returned, no call that starts later is given
    `c`. -/
def NotAgain (as : List Action) : Prop :=
  ∀ (pre mid post : List Action) (s t : State) (failed call : Call) (k : Nat) (c : ConnId),
    as = pre ++ mid ++ post → system.exec State.init pre = some s →
    system.exec s mid = some t → failed ∈ s.calls → failed.pc.failedOn = some c →
    s.calls.length ≤ k → t.calls[k]? = some call → call.took ≠ some c

/-- An invalidation that empties the cache empties it of the connection it is about. -/
def OwnOnly (as : List Action) : Prop :=
  ∀ (pre post : List Action) (m : Nat) (s s' : State) (task : Invalidation) (c : ConnId),
    as = pre ++ .invalidate m :: post →
    system.exec State.init pre = some s → step s (.invalidate m) = some s' →
    s.invalidations[m]? = some task → s.cache = some c → s'.cache ≠ some c → c = task.about

/-! ## When it does it -/

def Locker.isInvalidation : Locker → Bool
  | call _ => false
  | invalidation _ => true

/-- A call that comes to `conn` while the connection of a returned failure is cached finds an
    invalidation at the lock. -/
def StartsBehind (s : State) : Action → Prop
  | .start _ => ∀ c ∈ s.cache, (∃ call ∈ s.calls, call.pc.failedOn = some c) →
      ∃ locker ∈ s.lock.line, locker.isInvalidation = true
  | .call _ _ | .cancel _ | .invalidate _ => True

/-- A new connection comes when no invalidation is still to run, and a call that spawns an
    invalidation fails on the last connection that was dialed. -/
def OneAtATime (s : State) : Action → Prop
  | .call k answer => ∀ call ∈ s.calls[k]?,
      (call.pc.dials = true → answer.error? = none → ∀ task ∈ s.invalidations, task.pc = .done) ∧
      (∀ c ∈ call.pc.failsOn answer, c + 1 = s.nextConn)
  | .start _ | .cancel _ | .invalidate _ => True

/-- Failures are dealt with in turn. -/
def InTurn (s : State) (a : Action) : Prop := StartsBehind s a ∧ OneAtATime s a

instance (s : State) (a : Action) : Decidable (StartsBehind s a) :=
  match a with
  | .start _ => inferInstanceAs (Decidable (∀ c ∈ s.cache,
      (∃ call ∈ s.calls, call.pc.failedOn = some c) →
        ∃ locker ∈ s.lock.line, locker.isInvalidation = true))
  | .call _ _ | .cancel _ | .invalidate _ => instDecidableTrue

instance (s : State) (a : Action) : Decidable (OneAtATime s a) :=
  match a with
  | .call k answer => inferInstanceAs (Decidable (∀ call ∈ s.calls[k]?,
      (call.pc.dials = true → answer.error? = none → ∀ task ∈ s.invalidations, task.pc = .done) ∧
      (∀ c ∈ call.pc.failsOn answer, c + 1 = s.nextConn)))
  | .start _ | .cancel _ | .invalidate _ => instDecidableTrue

instance (s : State) (a : Action) : Decidable (InTurn s a) :=
  inferInstanceAs (Decidable (StartsBehind s a ∧ OneAtATime s a))

/-! ## What a step does -/

/-- The ways in which a step can be taken. -/
inductive StepCase (s : State) : Action → State → Prop where
  | start {method : Method} :
      StepCase s (.start method) { s with
        lock := s.lock.enter (.call s.calls.length)
        calls := s.calls ++ [⟨method, .locking, none⟩] }
  /-- `conn` returns the cached connection. -/
  | take {k : Nat} {answer : Answer} {call : Call} {c : ConnId} (hk : s.calls[k]? = some call)
      (hpc : call.pc = .locking) (hlock : s.lock.holder = some (.call k))
      (hc : s.cache = some c) : StepCase s (.call k answer) (s.returnConn k call c)
  /-- `conn` returns a connection that it has dialed. -/
  | dialed {k : Nat} {answer : Answer} {call : Call} (hk : s.calls[k]? = some call)
      (hpc : call.pc = .dialing) (hans : answer.error? = none) :
      StepCase s (.call k answer) (State.returnConn
        { s with cache := some s.nextConn, nextConn := s.nextConn + 1 } k call s.nextConn)
  /-- A call leaves the lock without a connection. -/
  | leave {k : Nat} {a : Action} {call : Call} {pc : CallPc} (hk : s.calls[k]? = some call)
      (hat : call.pc.atLock = true) (hat' : pc.atLock = false) (hconn : pc.conn = none) :
      StepCase s a (State.setCall { s with lock := s.lock.leave (.call k) } k call pc)
  /-- A call goes on, without the lock or with it. -/
  | move {k : Nat} {a : Action} {call : Call} {pc : CallPc} (hk : s.calls[k]? = some call)
      (hat : pc.atLock = call.pc.atLock) (hfailed : call.pc.failedOn = none)
      (hconn : ∀ c, pc.conn = some c → call.pc.conn = some c) :
      StepCase s a (s.setCall k call pc)
  | fail {k : Nat} {answer : Answer} {call : Call} {c : ConnId} {what text : String}
      (hk : s.calls[k]? = some call) (hconn : call.pc.conn = some c)
      (hat : call.pc.atLock = false) (hfailed : call.pc.failedOn = none)
      (hfails : call.pc.failsOn answer = some c) :
      StepCase s (.call k answer) (s.fail k call c what text)
  | enter {m : Nat} {task : Invalidation} (hm : s.invalidations[m]? = some task)
      (hpc : task.pc = .spawned) :
      StepCase s (.invalidate m) { s with
        lock := s.lock.enter (.invalidation m)
        invalidations := s.invalidations.set m { task with pc := .locking } }
  | clear {m : Nat} {task : Invalidation} (hm : s.invalidations[m]? = some task)
      (hpc : task.pc = .locking) :
      StepCase s (.invalidate m) { s with
        cache := none
        lock := s.lock.leave (.invalidation m)
        invalidations := s.invalidations.set m { task with pc := .done } }

variable {s s' : State} {a : Action}

/-- The answer to a command. -/
theorem commandStep_cases {k : Nat} {answer : Answer} {call : Call} {c : ConnId}
    {command : Command} (hk : s.calls[k]? = some call) (hpc : call.pc = .command c command)
    (h : callStep s k call answer (.command c command) = some s') :
    StepCase s (.call k answer) s' := by
  cases h
  have hmove : ∀ pc : CallPc, pc.atLock = false → (∀ c', pc.conn = some c' → c' = c) →
      StepCase s (.call k answer) (s.setCall k call pc) := by
    intro pc hat hconn
    refine .move hk (by rw [hat, hpc]; rfl) (by rw [hpc]; rfl) ?_
    intro c' hc'
    rw [hpc, hconn c' hc']
    rfl
  have hfail : ∀ what text, (CallPc.command c command).failsOn answer = some c →
      StepCase s (.call k answer) (s.fail k call c what text) := by
    intro what text hfails
    exact .fail hk (by rw [hpc]; rfl) (by rw [hpc]; rfl) (by rw [hpc]; rfl) (by rw [hpc, hfails])
  cases command with
  | setNx =>
      cases answer with
      | error text => exact hfail _ _ rfl
      | nil => exact hmove _ rfl nofun
      | ok | undecodable text => exact hmove _ rfl fun _ hc' => (Option.some.inj hc').symm
  | xadd =>
      cases answer with
      | error text => exact hmove _ rfl fun _ hc' => (Option.some.inj hc').symm
      | ok | nil | undecodable text => exact hmove _ rfl nofun
  | get =>
      cases answer with
      | error text => exact hfail _ _ rfl
      | ok | nil | undecodable text => exact hmove _ rfl nofun

theorem callStep_cases {k : Nat} {answer : Answer} {call : Call} (hk : s.calls[k]? = some call)
    (h : callStep s k call answer call.pc = some s') : StepCase s (.call k answer) s' := by
  cases hpc : call.pc with
  | locking =>
      simp only [hpc, callStep] at h
      split at h
      next hlock =>
        cases h
        unfold conn
        cases hc : s.cache with
        | some c => exact .take hk hpc hlock hc
        | none => exact .move hk (by rw [hpc]; rfl) (by rw [hpc]; rfl) nofun
      next => cases h
  | dialing =>
      rw [hpc] at h
      cases h
      unfold connected
      cases hans : answer.error? with
      | none => exact .dialed hk hpc hans
      | some text => exact .leave hk (by rw [hpc]; rfl) rfl rfl
  | command c command =>
      rw [hpc] at h
      exact commandStep_cases hk hpc h
  | cleanup c text =>
      rw [hpc] at h
      cases h
      exact .fail hk (by rw [hpc]; rfl) (by rw [hpc]; rfl) (by rw [hpc]; rfl) (by rw [hpc]; rfl)
  | failing c error =>
      rw [hpc] at h
      cases h
      refine .move hk (by rw [hpc]; rfl) (by rw [hpc]; rfl) ?_
      rw [hpc]
      exact fun _ hc => hc
  | failed c error | returned r | cancelled =>
      rw [hpc] at h
      cases h

theorem cancelCall_cases {k : Nat} {call : Call} (hk : s.calls[k]? = some call)
    (h : cancelCall s k call call.pc = some s') : StepCase s (.cancel k) s' := by
  cases hpc : call.pc with
  | locking | dialing =>
      rw [hpc] at h
      cases h
      exact .leave hk (by rw [hpc]; rfl) rfl rfl
  | command c command | cleanup c text =>
      rw [hpc] at h
      cases h
      exact .move hk (by rw [hpc]; rfl) (by rw [hpc]; rfl) nofun
  | failing c error | failed c error | returned r | cancelled =>
      rw [hpc] at h
      cases h

theorem step_cases (h : step s a = some s') : StepCase s a s' := by
  cases a with
  | start method =>
      cases h
      exact .start
  | call k answer =>
      obtain ⟨call, hk, h⟩ := Option.bind_eq_some_iff.mp h
      exact callStep_cases hk h
  | cancel k =>
      obtain ⟨call, hk, h⟩ := Option.bind_eq_some_iff.mp h
      exact cancelCall_cases hk h
  | invalidate m =>
      obtain ⟨task, hm, h⟩ := Option.bind_eq_some_iff.mp h
      cases hpc : task.pc with
      | spawned =>
          rw [hpc] at h
          cases h
          exact .enter hm hpc
      | locking =>
          simp only [hpc, invalidate] at h
          split at h
          next =>
            cases h
            exact .clear hm hpc
          next => cases h
      | done =>
          rw [hpc] at h
          cases h

/-! ## What holds in every state -/

/-- The cached connection is the last one dialed, calls use connections that were dialed, and
    the line at the lock is made of those who are at it. -/
structure Sound (s : State) : Prop where
  cached : ∀ c, s.cache = some c → c + 1 = s.nextConn
  conns : ∀ (k : Nat) (call : Call) (c : ConnId), s.calls[k]? = some call →
    call.pc.conn = some c → c < s.nextConn
  inLine : ∀ (k : Nat) (call : Call), s.calls[k]? = some call → call.pc.atLock = true →
    .call k ∈ s.lock.line
  known : ∀ k, .call k ∈ s.lock.line → k < s.calls.length

theorem Sound.init : Sound State.init where
  cached := by
    intro c hc
    obtain rfl : 0 = c := Option.some.inj hc
    rfl
  conns := by
    intro k call c hk
    cases hk
  inLine := by
    intro k call hk
    cases hk
  known := by
    intro k hk
    cases hk

theorem Sound.cached_step (hs : Sound s) (h : step s a = some s') :
    ∀ c, s'.cache = some c → c + 1 = s'.nextConn := by
  cases step_cases h with
  | start | take _ _ _ _ | leave _ _ _ _ | move _ _ _ _ | fail _ _ _ _ _ | enter _ _ =>
      exact hs.cached
  | dialed _ _ _ =>
      intro c hc
      rw [← Option.some.inj hc]
      rfl
  | clear _ _ =>
      intro c hc
      cases hc

theorem Sound.conns_step (hs : Sound s) (h : step s a = some s') :
    ∀ (k : Nat) (call : Call) (c : ConnId), s'.calls[k]? = some call →
      call.pc.conn = some c → c < s'.nextConn := by
  intro j call' c' hj hconn'
  cases step_cases h with
  | start =>
      rcases Lib.getElem?_concat_eq_some hj with hj | ⟨-, rfl⟩
      · exact hs.conns j call' c' hj hconn'
      · cases hconn'
  | take _ _ _ hc =>
      rcases Lib.getElem?_set_eq_some hj with ⟨-, rfl⟩ | ⟨-, hj⟩
      · rw [← Option.some.inj hconn']
        exact Nat.lt_of_succ_le (Nat.le_of_eq (hs.cached _ hc))
      · exact hs.conns j call' c' hj hconn'
  | dialed _ _ _ =>
      rcases Lib.getElem?_set_eq_some hj with ⟨-, rfl⟩ | ⟨-, hj⟩
      · rw [← Option.some.inj hconn']
        exact Nat.lt_succ_self s.nextConn
      · exact Nat.lt_succ_of_lt (hs.conns j call' c' hj hconn')
  | leave _ _ _ hnone =>
      rcases Lib.getElem?_set_eq_some hj with ⟨-, rfl⟩ | ⟨-, hj⟩
      · cases hnone.symm.trans hconn'
      · exact hs.conns j call' c' hj hconn'
  | move hk _ _ hconn =>
      rcases Lib.getElem?_set_eq_some hj with ⟨-, rfl⟩ | ⟨-, hj⟩
      · exact hs.conns _ _ c' hk (hconn c' hconn')
      · exact hs.conns j call' c' hj hconn'
  | fail hk hconn _ _ _ =>
      rcases Lib.getElem?_set_eq_some hj with ⟨-, rfl⟩ | ⟨-, hj⟩
      · rw [← Option.some.inj hconn']
        exact hs.conns _ _ _ hk hconn
      · exact hs.conns j call' c' hj hconn'
  | enter _ _ | clear _ _ => exact hs.conns j call' c' hj hconn'

theorem Sound.inLine_step (hs : Sound s) (h : step s a = some s') :
    ∀ (k : Nat) (call : Call), s'.calls[k]? = some call → call.pc.atLock = true →
      .call k ∈ s'.lock.line := by
  intro j call' hj hat'
  -- another call stays in line when call `k` leaves
  have hleave : ∀ k, j ≠ k → s.calls[j]? = some call' → .call j ∈ (s.lock.leave (.call k)).line := by
    intro k hne hj
    exact FairLock.mem_leave.mpr ⟨hs.inLine j call' hj hat', fun heq => hne (Locker.call.inj heq)⟩
  cases step_cases h with
  | start =>
      refine FairLock.mem_enter.mpr ?_
      rcases Lib.getElem?_concat_eq_some hj with hj | ⟨rfl, rfl⟩
      · exact Or.inl (hs.inLine j call' hj hat')
      · exact Or.inr rfl
  | @take k _ _ _ _ _ _ _ | @dialed k _ _ _ _ _ =>
      rcases Lib.getElem?_set_eq_some hj with ⟨-, rfl⟩ | ⟨hne, hj⟩
      · cases hat'
      · exact hleave k hne hj
  | @leave k _ _ _ _ _ hat _ =>
      rcases Lib.getElem?_set_eq_some hj with ⟨-, rfl⟩ | ⟨hne, hj⟩
      · cases hat.symm.trans hat'
      · exact hleave k hne hj
  | move hk hat _ _ =>
      rcases Lib.getElem?_set_eq_some hj with ⟨rfl, rfl⟩ | ⟨-, hj⟩
      · exact hs.inLine _ _ hk (hat.symm.trans hat')
      · exact hs.inLine j call' hj hat'
  | fail hk _ hat _ _ =>
      rcases Lib.getElem?_set_eq_some hj with ⟨-, rfl⟩ | ⟨-, hj⟩
      · cases hat'
      · exact hs.inLine j call' hj hat'
  | enter _ _ => exact FairLock.mem_enter.mpr (Or.inl (hs.inLine j call' hj hat'))
  | clear _ _ => exact FairLock.mem_leave.mpr ⟨hs.inLine j call' hj hat', nofun⟩

theorem Sound.known_step (hs : Sound s) (h : step s a = some s') :
    ∀ k, .call k ∈ s'.lock.line → k < s'.calls.length := by
  intro j hj
  cases step_cases h with
  | start =>
      rw [List.length_append, List.length_singleton]
      rcases FairLock.mem_enter.mp hj with hj | hj
      · exact Nat.lt_succ_of_lt (hs.known j hj)
      · rw [Locker.call.inj hj]
        exact Nat.lt_succ_self s.calls.length
  | take _ _ _ _ | dialed _ _ _ | leave _ _ _ _ =>
      exact (List.length_set ..).symm ▸ hs.known j (FairLock.mem_leave.mp hj).1
  | move _ _ _ _ | fail _ _ _ _ _ => exact (List.length_set ..).symm ▸ hs.known j hj
  | enter _ _ =>
      rcases FairLock.mem_enter.mp hj with hj | hj
      · exact hs.known j hj
      · cases hj
  | clear _ _ => exact hs.known j (FairLock.mem_leave.mp hj).1

theorem Sound.step (hs : Sound s) (h : step s a = some s') : Sound s' :=
  ⟨hs.cached_step h, hs.conns_step h, hs.inLine_step h, hs.known_step h⟩

/-! ## No call is given the connection of a returned failure -/

theorem CallPc.failedOn_of_atLock {pc : CallPc} (h : pc.atLock = true) : pc.failedOn = none := by
  cases pc with
  | locking | dialing => rfl
  | _ => cases h

/-- A call that has failed stays as it is. -/
theorem failed_step {failed : Call} {c : ConnId} (h : step s a = some s') (hmem : failed ∈ s.calls)
    (hc : failed.pc.failedOn = some c) : failed ∈ s'.calls := by
  -- a step replaces a call that has not failed
  have hset : ∀ (k : Nat) (call call' : Call), s.calls[k]? = some call →
      call.pc.failedOn = none → failed ∈ s.calls.set k call' := by
    intro k call call' hk hnone
    obtain ⟨j, hj⟩ := List.mem_iff_getElem?.mp hmem
    have hne : k ≠ j := by
      rintro rfl
      obtain rfl : call = failed := Option.some.inj (hk.symm.trans hj)
      cases hnone.symm.trans hc
    rw [← List.getElem?_set_ne hne] at hj
    exact List.mem_of_getElem? hj
  cases step_cases h with
  | start => exact List.mem_append_left _ hmem
  | take hk hpc _ _ | dialed hk hpc _ => exact hset _ _ _ hk (by rw [hpc]; rfl)
  | leave hk hat _ _ => exact hset _ _ _ hk (CallPc.failedOn_of_atLock hat)
  | move hk _ hnone _ | fail hk _ _ hnone _ => exact hset _ _ _ hk hnone
  | enter _ _ | clear _ _ => exact hmem

/-- A failure on `c` has been returned, and the calls from `n` on started later: none has taken
    `c`, and while `c` is still cached, each that is at the lock has an invalidation ahead. -/
structure Retired (c : ConnId) (n : Nat) (s : State) : Prop where
  old : c < s.nextConn
  failed : ∃ call ∈ s.calls, call.pc.failedOn = some c
  took : ∀ (k : Nat) (call : Call), n ≤ k → s.calls[k]? = some call → call.took ≠ some c
  behind : ∀ (k : Nat) (call : Call), n ≤ k → s.calls[k]? = some call → call.pc.atLock = true →
    s.cache = some c → ∃ m, .invalidation m ∈ s.lock.ahead (.call k)

variable {c : ConnId} {n : Nat}

/-- Whoever holds the lock finds another connection cached than one that is retired. -/
theorem Retired.ne_of_holder {k : Nat} {call : Call} {c' : ConnId} (hr : Retired c n s) (hn : n ≤ k)
    (hk : s.calls[k]? = some call) (hpc : call.pc = .locking)
    (hlock : s.lock.holder = some (.call k)) (hc : s.cache = some c') : c' ≠ c := by
  rintro rfl
  obtain ⟨m, hm⟩ := hr.behind k call hn hk (by rw [hpc]; rfl) hc
  rw [FairLock.ahead_holder hlock] at hm
  cases hm

theorem Retired.took_step (hr : Retired c n s) (h : step s a = some s') :
    ∀ (k : Nat) (call : Call), n ≤ k → s'.calls[k]? = some call → call.took ≠ some c := by
  intro j call' hn hj
  cases step_cases h with
  | start =>
      rcases Lib.getElem?_concat_eq_some hj with hj | ⟨-, rfl⟩
      · exact hr.took j call' hn hj
      · nofun
  | take hk hpc hlock hc =>
      rcases Lib.getElem?_set_eq_some hj with ⟨rfl, rfl⟩ | ⟨-, hj⟩
      · intro htook
        exact hr.ne_of_holder hn hk hpc hlock hc (Option.some.inj htook)
      · exact hr.took j call' hn hj
  | dialed _ _ _ =>
      rcases Lib.getElem?_set_eq_some hj with ⟨rfl, rfl⟩ | ⟨-, hj⟩
      · intro htook
        exact Nat.ne_of_gt hr.old (Option.some.inj htook)
      · exact hr.took j call' hn hj
  | leave hk _ _ _ | move hk _ _ _ | fail hk _ _ _ _ =>
      rcases Lib.getElem?_set_eq_some hj with ⟨rfl, rfl⟩ | ⟨-, hj⟩
      · have htook := hr.took _ _ hn hk
        exact htook
      · exact hr.took j call' hn hj
  | enter _ _ | clear _ _ => exact hr.took j call' hn hj

theorem Retired.behind_step (hs : Sound s) (hr : Retired c n s) (hG : StartsBehind s a)
    (h : step s a = some s') :
    ∀ (k : Nat) (call : Call), n ≤ k → s'.calls[k]? = some call → call.pc.atLock = true →
      s'.cache = some c → ∃ m, .invalidation m ∈ s'.lock.ahead (.call k) := by
  intro j call' hn hj hat' hcache
  -- what is ahead of `j` stays there when another call leaves
  have hleave : ∀ k, j ≠ k → s.calls[j]? = some call' → s.cache = some c →
      ∃ m, .invalidation m ∈ (s.lock.leave (.call k)).ahead (.call j) := by
    intro k hne hj hcache
    obtain ⟨m, hm⟩ := hr.behind j call' hn hj hat' hcache
    exact ⟨m, FairLock.mem_ahead_leave hm nofun fun heq => hne (Locker.call.inj heq).symm⟩
  cases step_cases h with
  | start =>
      rcases Lib.getElem?_concat_eq_some hj with hj | ⟨rfl, rfl⟩
      · rw [FairLock.ahead_enter (hs.inLine j call' hj hat')]
        exact hr.behind j call' hn hj hat' hcache
      · -- the new call comes in behind the invalidation that the guard promises
        have hnew : Locker.call s.calls.length ∉ s.lock.line := fun hmem =>
          Nat.lt_irrefl _ (hs.known _ hmem)
        rw [FairLock.ahead_enter_self hnew]
        obtain ⟨locker, hmem, hinv⟩ := hG c hcache hr.failed
        cases locker with
        | call k => cases hinv
        | invalidation m => exact ⟨m, hmem⟩
  | @take k _ _ _ _ _ _ _ =>
      rcases Lib.getElem?_set_eq_some hj with ⟨-, rfl⟩ | ⟨hne, hj⟩
      · cases hat'
      · exact hleave k hne hj hcache
  | dialed _ _ _ => exact absurd (Option.some.inj hcache) (Nat.ne_of_gt hr.old)
  | @leave k _ _ _ _ _ hat _ =>
      rcases Lib.getElem?_set_eq_some hj with ⟨-, rfl⟩ | ⟨hne, hj⟩
      · cases hat.symm.trans hat'
      · exact hleave k hne hj hcache
  | move hk hat _ _ =>
      rcases Lib.getElem?_set_eq_some hj with ⟨rfl, rfl⟩ | ⟨-, hj⟩
      · exact hr.behind _ _ hn hk (hat.symm.trans hat') hcache
      · exact hr.behind j call' hn hj hat' hcache
  | fail hk _ hat _ _ =>
      rcases Lib.getElem?_set_eq_some hj with ⟨-, rfl⟩ | ⟨-, hj⟩
      · cases hat'
      · exact hr.behind j call' hn hj hat' hcache
  | enter _ _ =>
      rw [FairLock.ahead_enter (hs.inLine j call' hj hat')]
      exact hr.behind j call' hn hj hat' hcache
  | clear _ _ => cases hcache

theorem nextConn_step (h : step s a = some s') : s.nextConn ≤ s'.nextConn := by
  cases step_cases h with
  | dialed _ _ _ => exact Nat.le_succ s.nextConn
  | _ => exact Nat.le_refl s.nextConn

theorem Retired.step (hs : Sound s) (hr : Retired c n s) (hG : StartsBehind s a)
    (h : step s a = some s') : Retired c n s' where
  old := Nat.lt_of_lt_of_le hr.old (nextConn_step h)
  failed := by
    obtain ⟨call, hmem, hc⟩ := hr.failed
    exact ⟨call, failed_step h hmem hc, hc⟩
  took := hr.took_step h
  behind := hr.behind_step hs hG h

/-- When a failure has just been returned, no call has started later. -/
theorem Retired.start {failed : Call} (hs : Sound s) (hmem : failed ∈ s.calls)
    (hc : failed.pc.failedOn = some c) : Retired c s.calls.length s where
  old := by
    obtain ⟨j, hj⟩ := List.mem_iff_getElem?.mp hmem
    refine hs.conns j failed c hj ?_
    cases hpc : failed.pc with
    | failed c' error =>
        rw [hpc] at hc
        exact hc
    | _ =>
        rw [hpc] at hc
        cases hc
  failed := ⟨failed, hmem, hc⟩
  took := by
    intro k call hn hk
    exact absurd (List.getElem?_eq_some_iff.mp hk).1 (Nat.not_lt_of_le hn)
  behind := by
    intro k call hn hk
    exact absurd (List.getElem?_eq_some_iff.mp hk).1 (Nat.not_lt_of_le hn)

theorem sound_of_exec {as : List Action} (h : system.exec State.init as = some s) : Sound s :=
  Lib.System.exec_invariant (M := system) Sound (fun _ _ _ hs h => hs.step h) Sound.init h

/-- Where every call starts behind the invalidations of returned failures, none is given the
    connection of one. -/
theorem notAgain_of_guarded {as : List Action}
    (hG : system.Guarded StartsBehind State.init as) : NotAgain as := by
  rintro pre mid post s t failed call k c rfl hpre hmid hmem hc hn hk
  have hs := sound_of_exec hpre
  have hmidG : system.Guarded StartsBehind s mid := hG.initial.suffix hpre
  have hal := Lib.System.along_of_invariant (fun u => Sound u ∧ Retired c s.calls.length u)
    StartsBehind (fun u b u' hu hb h => ⟨hu.1.step h, hu.2.step hu.1 hb h⟩)
    ⟨hs, Retired.start hs hmem hc⟩ hmidG
  exact (hal.last hmid).2.took k call hn hk

/-! ## No invalidation empties the cache of a later connection -/

/-- Every invalidation that is still to run is about the last connection dialed. -/
def AboutLast (s : State) : Prop :=
  ∀ task ∈ s.invalidations, task.pc ≠ .done → task.about + 1 = s.nextConn

theorem AboutLast.set {m : Nat} {task : Invalidation} {pc : TaskPc} (hs : AboutLast s)
    (hm : s.invalidations[m]? = some task) (hpc : task.pc ≠ .done) :
    ∀ u ∈ s.invalidations.set m { task with pc := pc }, u.pc ≠ .done → u.about + 1 = s.nextConn := by
  intro u hu hne
  rcases List.mem_or_eq_of_mem_set hu with hmem | rfl
  · exact hs u hmem hne
  · exact hs task (List.mem_of_getElem? hm) hpc

theorem AboutLast.step (hs : AboutLast s) (hG : OneAtATime s a) (h : step s a = some s') :
    AboutLast s' := by
  cases step_cases h with
  | start | take _ _ _ _ | leave _ _ _ _ | move _ _ _ _ => exact hs
  | dialed hk hpc hans =>
      -- nothing is still to run
      intro task hmem hne
      exact absurd ((hG _ hk).1 (by rw [hpc]; rfl) hans task hmem) hne
  | fail hk _ _ _ hfails =>
      intro task hmem hne
      rcases List.mem_append.mp hmem with hmem | hmem
      · exact hs task hmem hne
      · rw [List.mem_singleton.mp hmem]
        exact (hG _ hk).2 _ hfails
  | enter hm hpc | clear hm hpc => exact hs.set hm (by rw [hpc]; decide)

/-- Where failures are dealt with one at a time, an invalidation empties the cache of its own
    connection only. -/
theorem ownOnly_of_guarded {as : List Action}
    (hG : system.Guarded OneAtATime State.init as) : OwnOnly as := by
  rintro pre post m s s' task c rfl hpre hstep hm hc hcleared
  have hs := sound_of_exec hpre
  have hinit : AboutLast State.init := by
    intro u hu
    cases hu
  have hlast : AboutLast s :=
    (Lib.System.along_of_invariant AboutLast OneAtATime (fun u b u' hu hb h => hu.step hb h)
      hinit hG.initial).last hpre
  have hpc : task.pc ≠ .done := by
    intro hdone
    obtain ⟨u, hu, h⟩ := Option.bind_eq_some_iff.mp hstep
    obtain rfl : task = u := Option.some.inj (hm.symm.trans hu)
    rw [hdone] at h
    cases h
  have habout := hlast task (List.mem_of_getElem? hm) hpc
  exact Nat.succ.inj ((hs.cached c hc).trans habout.symm)

/-- In every run in which failures are dealt with in turn, invalidation does what it is for. -/
theorem invalidation_inTurn (as : List Action) (hG : system.Guarded InTurn State.init as) :
    NotAgain as ∧ OwnOnly as :=
  ⟨notAgain_of_guarded (hG.mono fun _ _ h => h.1), ownOnly_of_guarded (hG.mono fun _ _ h => h.2)⟩

/-- A `get` fails, its invalidation runs, and the next `get` redials. -/
def failThenRedial : List Action :=
  [.start (.get "a"), .call 0 .ok, .call 0 (.error "broken pipe"), .call 0 .ok,
    .invalidate 0, .invalidate 0, .start (.get "b"), .call 1 .ok, .call 1 .ok, .call 1 .nil]

theorem invalidation_inTurn_failThenRedial :
    system.Guarded InTurn State.init failThenRedial ∧
      NotAgain failThenRedial ∧ OwnOnly failThenRedial :=
  ⟨by decide, invalidation_inTurn failThenRedial (by decide)⟩

/-- A `get` fails and returns; the next one gets to the lock before the invalidation. -/
def calledBeforeTask : List Action :=
  [.start (.get "a"), .call 0 .ok, .call 0 (.error "broken pipe"), .call 0 .ok,
    .start (.get "b"), .call 1 .ok]

/-- Two calls fail on one connection; between their invalidations a third one redials. -/
def redialedBetween : List Action :=
  [.start (.get "a"), .call 0 .ok, .start (.get "b"), .call 1 .ok,
    .call 0 (.error "broken pipe"), .call 1 (.error "broken pipe"), .invalidate 0, .invalidate 0,
    .start (.get "c"), .call 2 .ok, .call 2 .ok, .invalidate 1,
    .invalidate 1]

/-- After `calledBeforeTask` the second call has the connection the first one failed on; at the
    end of `redialedBetween` the second invalidation drops the new connection. -/
theorem invalidation_outOfTurn :
    (¬ ∀ as : List Action, (system.exec State.init as).isSome = true → NotAgain as) ∧
    ¬ ∀ as : List Action, (system.exec State.init as).isSome = true → OwnOnly as := by
  constructor
  · intro hclaim
    exact hclaim calledBeforeTask (by decide) (calledBeforeTask.take 4) (calledBeforeTask.drop 4)
      [] _ _ _ _ 1 0 rfl rfl rfl (List.mem_of_getElem? (i := 0) rfl) rfl (by decide) rfl rfl
  · intro hclaim
    have hown := hclaim redialedBetween (by decide) (redialedBetween.take 12) [] 1 _ _ _ 1
      rfl rfl rfl rfl rfl (by decide)
    cases hown

end Connection
end Queue
end BrowserHeadless
