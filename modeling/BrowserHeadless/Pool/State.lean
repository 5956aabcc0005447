/-
  BrowserHeadless.Pool.State

  The state of the browser pool (src/pool.rs): `PoolConfig`, the routing state
  of one `Instance`, and where each task of the pool currently stands.

  The pool is shared by `pool_size` supervisor tasks (`manage_instance`), any
  number of `checkout` calls with the `Checkout`s they return, and the detached
  teardown tasks that clone a `Checkout`'s browser handle.  Each of them is
  modelled by a program counter; every atomic access, semaphore operation and
  lock section of the source is one move of a program counter.

  What is left out: the texts of log lines, the user agent string (read together
  with the browser handle, never tested) and the respawn / recycle counters.
  Time enters only through the age and drain deadlines, which the scheduler may
  let pass at any moment.
-/

import BrowserHeadless.Lib.Notify
import BrowserHeadless.Lib.Semaphore

namespace BrowserHeadless
namespace Pool

open Lib (Notify Semaphore)

/-- At most one instance may be unavailable (draining / respawning) at a time. -/
def maxUnavailable : Nat := 1

/-- How many times `checkout` re-picks when its chosen instance races into a
    non-active state. -/
def checkoutPickRetries : Nat := 4

/-- Pool sizing and recycle policy.  `from_env` clamps both sizes to at least
    one. -/
structure PoolConfig where
  poolSize : Nat
  pagesPerInstance : Nat
  /-- Recycle after this many requests; `0` disables the count trigger. -/
  recycleAfterRequests : Nat
  /-- Recycle at this age in seconds; `none` disables the age trigger. -/
  recycleAfter : Option Nat
  poolSize_pos : 0 < poolSize
  pagesPerInstance_pos : 0 < pagesPerInstance

/-- Routing state of one instance. -/
inductive Status where
  | active
  | draining
  | down
deriving DecidableEq, Repr

/-- The discriminant the atomic holds. -/
def Status.toU8 : Status → Nat
  | active => 0
  | draining => 1
  | down => 2

/-- `Status::from_u8`: any other value reads as `Down`. -/
def Status.fromU8 : Nat → Status
  | 0 => active
  | 1 => draining
  | _ => down

@[simp] theorem Status.fromU8_toU8 (s : Status) : Status.fromU8 s.toU8 = s := by
  cases s <;> rfl

/-- Why an instance is replaced. -/
inductive RecycleReason where
  | crash
  | age
  | count
deriving DecidableEq, Repr

/-- The status `manage_instance` stores for a reason. -/
def RecycleReason.status : RecycleReason → Status
  | crash => .down
  | age | count => .draining

@[simp] theorem RecycleReason.status_ne_active (r : RecycleReason) : r.status ≠ .active := by
  cases r <;> decide

/-- One chromium process together with its profile directory; every launch
    gets a new one. -/
abbrev BrowserId := Nat

/-- Where one `manage_instance` task stands in its loop. -/
inductive ManagerPc where
  /-- Inside `wait_for_trigger`, at the `select!`. -/
  | waitForTrigger
  /-- `notified()` completed; the load of `served` is next. -/
  | checkServed
  /-- A reason came back; `set_status(Down | Draining)` is next. -/
  | storeStatus (reason : RecycleReason)
  /-- Between the swap of `set_status` and its gauge update. -/
  | updateGauge (reason : RecycleReason) (old new : Status)
  /-- The first poll of `recycle_token.acquire()` is next. -/
  | acquireToken (reason : RecycleReason)
  /-- Parked on the recycle token. -/
  | queuedForToken (reason : RecycleReason)
  /-- Token held; in `drain`, about to load `in_flight`. -/
  | drain (reason : RecycleReason)
  /-- In `relaunch`, waiting for the new chromium; `drained` says that `drain`
      saw `in_flight` at zero. -/
  | relaunch (reason : RecycleReason) (drained : Bool)
  /-- The new browser is swapped in; `drop(old_browser)` is next. -/
  | dropOldBrowser (reason : RecycleReason) (old : BrowserId)
  /-- `drop(old_dir)` is next. -/
  | dropOldDir (reason : RecycleReason) (old : BrowserId)
  /-- `served.store(0)` is next. -/
  | resetServed (reason : RecycleReason)
  /-- `set_status(Active)` is next. -/
  | storeActive (reason : RecycleReason)
  /-- The end of the loop body: `_token` is dropped next. -/
  | releaseToken (reason : RecycleReason)
deriving DecidableEq, Repr

/-- Where one `checkout` call stands, from its first status load to the end of
    the drop of the `Checkout` it returned. -/
inductive CallPc where
  /-- Scanning the instances, about to load the status of instance `idx`;
      `best` is the active instance with the most permits so far. -/
  | scanStatus (tries idx : Nat) (best : Option (Nat × Nat))
  /-- Instance `idx` was active; its `available_permits` is read next. -/
  | scanPermits (tries idx : Nat) (best : Option (Nat × Nat))
  /-- The first poll of `acquire_owned()` on the chosen instance is next. -/
  | acquire (tries inst : Nat)
  /-- Parked on the chosen instance's semaphore. -/
  | parked (tries inst : Nat)
  /-- A released permit was handed over; the call has not resumed yet. -/
  | granted (tries inst : Nat)
  /-- Holds a permit; the second status load is next. -/
  | checkStatus (tries inst : Nat)
  /-- The instance left service: `drop(permit)` is next. -/
  | giveBack (tries inst : Nat)
  /-- Status still active; `in_flight.fetch_add(1)` is next. -/
  | addInFlight (inst : Nat)
  /-- Counted; `inner.read().await` is next. -/
  | readInner (inst : Nat)
  /-- Returned `Ok`: a live `Checkout` holding `browser`. -/
  | live (inst : Nat) (browser : BrowserId)
  /-- `Checkout::drop` begins: `in_flight.fetch_sub(1)` is next. -/
  | subInFlight (inst : Nat) (browser : BrowserId)
  /-- `served.fetch_add(1)` is next. -/
  | addServed (inst : Nat) (browser : BrowserId)
  /-- The threshold was crossed: `notify_one()` is next. -/
  | notifyRecycle (inst : Nat) (browser : BrowserId)
  /-- The fields drop in order, the browser handle first. -/
  | dropBrowser (inst : Nat) (browser : BrowserId)
  /-- The permit is released last. -/
  | dropPermit (inst : Nat)
  /-- The `Checkout` is gone. -/
  | dropped
  /-- Returned `Err(())`. -/
  | unavailable
  /-- The future was dropped before it returned. -/
  | cancelled
deriving DecidableEq, Repr

/-- One instance of the pool. -/
structure Instance where
  /-- `inner.browser`, with the profile directory that goes with it. -/
  browser : BrowserId
  /-- Page permits of this instance. -/
  permits : Semaphore Nat
  inFlight : Nat
  served : Nat
  status : Status
  /-- `recycle_notify`, with the future of this instance's manager. -/
  recycleNotify : Notify
  /-- The oneshot of the current browser has fired. -/
  disconnected : Bool
  manager : ManagerPc
deriving DecidableEq

/-- The pool with everything that runs on it. -/
structure State where
  instances : List Instance
  /-- `recycle_token`; its waiters are manager indices. -/
  recycleToken : Semaphore Nat
  /-- The `checkout` calls made so far, by call number. -/
  calls : List CallPc
  /-- Detached teardown tasks, each with the handle it still holds. -/
  teardowns : List (Option BrowserId)
  /-- The `active_instances` gauge. -/
  activeGauge : Int
  /-- The next chromium process to be launched. -/
  nextBrowser : BrowserId
  /-- `BrowserPool::launch` has returned. -/
  ready : Bool
deriving DecidableEq

/-- A freshly launched instance. -/
def Instance.fresh (cfg : PoolConfig) (browser : BrowserId) : Instance where
  browser := browser
  permits := .new cfg.pagesPerInstance
  inFlight := 0
  served := 0
  status := .active
  recycleNotify := .new
  disconnected := false
  manager := .waitForTrigger

/-- Before the first `browser::launch()` of `BrowserPool::launch`. -/
def State.init : State where
  instances := []
  recycleToken := .new maxUnavailable
  calls := []
  teardowns := []
  activeGauge := 0
  nextBrowser := 0
  ready := false

namespace State

/-- Update instance `i`. -/
def modifyInstance (s : State) (i : Nat) (f : Instance → Instance) : State :=
  { s with instances := s.instances.modify i f }

/-- Move the manager of instance `i`. -/
def setManager (s : State) (i : Nat) (pc : ManagerPc) : State :=
  s.modifyInstance i fun inst => { inst with manager := pc }

/-- Move call `c`. -/
def setCall (s : State) (c : Nat) (pc : CallPc) : State :=
  { s with calls := s.calls.set c pc }

@[simp] theorem modifyInstance_instances (s : State) (i : Nat) (f : Instance → Instance) :
    (s.modifyInstance i f).instances = s.instances.modify i f := rfl

@[simp] theorem modifyInstance_ready (s : State) (i : Nat) (f : Instance → Instance) :
    (s.modifyInstance i f).ready = s.ready := rfl

@[simp] theorem setManager_instances (s : State) (i : Nat) (pc : ManagerPc) :
    (s.setManager i pc).instances
      = s.instances.modify i fun inst => { inst with manager := pc } := rfl

end State
end Pool
end BrowserHeadless
