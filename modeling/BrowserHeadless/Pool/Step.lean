/-
  BrowserHeadless.Pool.Step

  The moves of the browser pool (src/pool.rs): `BrowserPool::launch`,
  `BrowserPool::checkout`, `Checkout::drop`, `manage_instance` with
  `wait_for_trigger`, `drain` and `relaunch`.

  `step cfg` is the guarded step function of the whole pool.  An `Action` names
  the task that moves and what the outside world answers; the move itself is
  then determined.
-/

import BrowserHeadless.Lib.System
import BrowserHeadless.Pool.State
import Mathlib.Algebra.Group.Nat.Defs

namespace BrowserHeadless
namespace Pool

/-- What can happen next in the pool. -/
inductive Action where
  /-- `launch`: the next `browser::launch()` succeeds, its manager is spawned. -/
  | launchInstance
  /-- `launch` sets the gauges and returns. -/
  | launchReturn
  /-- The chromium process of instance `i` goes away. -/
  | disconnect (i : Nat)
  /-- The `select!` of instance `i` resolves with this branch. -/
  | trigger (i : Nat) (reason : RecycleReason)
  /-- The next atomic step of manager `i`. -/
  | manage (i : Nat)
  /-- The drain deadline of instance `i` has passed. -/
  | drainTimeout (i : Nat)
  /-- `browser::launch()` fails in `relaunch`; it will be retried. -/
  | relaunchFailed (i : Nat)
  /-- A new `checkout` call. -/
  | checkout
  /-- The next atomic step of call `c` or of the drop of its `Checkout`. -/
  | call (c : Nat)
  /-- The future of call `c` is dropped at the await it is parked on. -/
  | cancel (c : Nat)
  /-- The holder of the `Checkout` of call `c` lets go of it. -/
  | dropCheckout (c : Nat)
  /-- `capture` clones the browser handle into a detached teardown task. -/
  | spawnTeardown (c : Nat)
  /-- Teardown task `k` ends and drops its handle. -/
  | finishTeardown (k : Nat)
deriving DecidableEq, Repr

/-- `fetch_sub(1)` on an `AtomicUsize`: wraps below zero. -/
def fetchSub (n : Nat) : Nat := if n = 0 then 2 ^ 64 - 1 else n - 1

/-- The gauge change of `set_status`. -/
def gaugeDelta (old new : Status) : Int :=
  if old = .active ∧ new ≠ .active then -1
  else if old ≠ .active ∧ new = .active then 1
  else 0

/-- Whether a served count has crossed the count threshold. -/
def PoolConfig.countReached (cfg : PoolConfig) (served : Nat) : Bool :=
  0 < cfg.recycleAfterRequests && cfg.recycleAfterRequests ≤ served

/-- Where a manager goes with the token in hand: a crash skips the drain. -/
def ManagerPc.afterToken : RecycleReason → ManagerPc
  | .crash => .relaunch .crash false
  | .age => .drain .age
  | .count => .drain .count

/-- A manager parked on the recycle token is handed it. -/
def ManagerPc.resume : ManagerPc → ManagerPc
  | queuedForToken r => afterToken r
  | pc => pc

/-- `max_by_key`: a later instance wins a tie. -/
def maxByKey (best : Option (Nat × Nat)) (idx key : Nat) : Option (Nat × Nat) :=
  match best with
  | none => some (idx, key)
  | some (i, k) => if key < k then some (i, k) else some (idx, key)

namespace State

/-- A parked call is handed the permit it waits for. -/
def grant (s : State) (c : Nat) : State :=
  match s.calls[c]? with
  | some (.parked t i) => s.setCall c (.granted t i)
  | _ => s

/-- Release one page permit of instance `i`. -/
def releasePermit (s : State) (i : Nat) : State :=
  match s.instances[i]? with
  | none => s
  | some inst =>
      let s' := s.modifyInstance i fun x => { x with permits := inst.permits.release.2 }
      match inst.permits.release.1 with
      | none => s'
      | some c => s'.grant c

/-- Drop the recycle token; the longest waiting manager gets it. -/
def releaseRecycleToken (s : State) : State :=
  let s' := { s with recycleToken := s.recycleToken.release.2 }
  match s.recycleToken.release.1 with
  | none => s'
  | some j => s'.modifyInstance j fun x => { x with manager := x.manager.resume }

end State

open State

/-- `BrowserPool::launch`, one instance at a time. -/
def launchInstance (cfg : PoolConfig) (s : State) : Option State :=
  if ¬ s.ready ∧ s.instances.length < cfg.poolSize then
    some { s with
      instances := s.instances ++ [Instance.fresh cfg s.nextBrowser]
      nextBrowser := s.nextBrowser + 1 }
  else none

/-- The end of `BrowserPool::launch`: the gauges are set and the pool is
    returned. -/
def launchReturn (cfg : PoolConfig) (s : State) : Option State :=
  if ¬ s.ready ∧ s.instances.length = cfg.poolSize then
    some { s with activeGauge := cfg.poolSize, ready := true }
  else none

/-- `wait_for_trigger`: the `select!` resolves.  The count branch takes a
    notification and re-checks `served` in its own step; the other branches drop
    the `notified()` future. -/
def waitForTrigger (cfg : PoolConfig) (s : State) (i : Nat) (inst : Instance) :
    RecycleReason → Option State
  | .crash =>
      if inst.disconnected then
        some (s.modifyInstance i fun x =>
          { x with recycleNotify := x.recycleNotify.drop, manager := .storeStatus .crash })
      else none
  | .age =>
      if cfg.recycleAfter.isSome then
        some (s.modifyInstance i fun x =>
          { x with recycleNotify := x.recycleNotify.drop, manager := .storeStatus .age })
      else none
  | .count =>
      if inst.recycleNotify.poll.1 then
        some (s.modifyInstance i fun x =>
          { x with recycleNotify := x.recycleNotify.poll.2, manager := .checkServed })
      else none

/-- One atomic step of `manage_instance` on instance `i`, which stands at the
    given place. -/
def manageInstance (cfg : PoolConfig) (s : State) (i : Nat) (inst : Instance) :
    ManagerPc → Option State
  -- a poll of the `select!` that finds nothing registers the `notified()` future
  | .waitForTrigger =>
      if inst.recycleNotify.poll.1 then none
      else some (s.modifyInstance i fun x => { x with recycleNotify := x.recycleNotify.poll.2 })
  -- a stale notification (already recycled) goes back to waiting
  | .checkServed =>
      some (s.setManager i
        (if cfg.countReached inst.served then .storeStatus .count else .waitForTrigger))
  | .storeStatus r =>
      some (s.modifyInstance i fun x =>
        { x with status := r.status, manager := .updateGauge r inst.status r.status })
  | .updateGauge r old new =>
      some { s.setManager i (if new = .active then .releaseToken r else .acquireToken r) with
        activeGauge := s.activeGauge + gaugeDelta old new }
  | .acquireToken r =>
      some { s.setManager i
          (if (s.recycleToken.acquire i).1 then .afterToken r else .queuedForToken r) with
        recycleToken := (s.recycleToken.acquire i).2 }
  | .queuedForToken _ => none
  -- requests in flight: `drain` sleeps and polls again
  | .drain r => if inst.inFlight = 0 then some (s.setManager i (.relaunch r true)) else some s
  -- the swap under the write lock; the new process comes with a new disconnect receiver
  | .relaunch r _ =>
      some { s.modifyInstance i (fun x =>
          { x with
            browser := s.nextBrowser
            disconnected := false
            manager := .dropOldBrowser r inst.browser }) with
        nextBrowser := s.nextBrowser + 1 }
  | .dropOldBrowser r old => some (s.setManager i (.dropOldDir r old))
  | .dropOldDir r _ => some (s.setManager i (.resetServed r))
  | .resetServed r =>
      some (s.modifyInstance i fun x => { x with served := 0, manager := .storeActive r })
  | .storeActive r =>
      some (s.modifyInstance i fun x =>
        { x with status := .active, manager := .updateGauge r inst.status .active })
  | .releaseToken _ => some (s.releaseRecycleToken.setManager i .waitForTrigger)

/-- `drain` gives up at its deadline and the recycle goes on. -/
def drainTimeout (s : State) (i : Nat) (inst : Instance) : ManagerPc → Option State
  | .drain r => if 0 < inst.inFlight then some (s.setManager i (.relaunch r false)) else none
  | _ => none

/-- A failed `browser::launch()` in `relaunch` only backs off. -/
def relaunchFailed (s : State) : ManagerPc → Option State
  | .relaunch _ _ => some s
  | _ => none

/-- One atomic step of `checkout` number `c`, or of `Checkout::drop` and the
    field drops that follow it. -/
def checkout (cfg : PoolConfig) (s : State) (c : Nat) : CallPc → Option State
  | .scanStatus t idx best =>
      -- the scan is over when there is no instance `idx`
      match s.instances[idx]?, best with
      | none, none => some (s.setCall c .unavailable)
      | none, some (i, _) => some (s.setCall c (.acquire t i))
      | some inst, _ =>
          some (s.setCall c
            (if inst.status = .active then .scanPermits t idx best
             else .scanStatus t (idx + 1) best))
  | .scanPermits t idx best =>
      s.instances[idx]?.map fun inst =>
        s.setCall c (.scanStatus t (idx + 1) (maxByKey best idx inst.permits.availablePermits))
  | .acquire t i =>
      s.instances[i]?.map fun inst =>
        (s.modifyInstance i fun x => { x with permits := (inst.permits.acquire c).2 }).setCall c
          (if (inst.permits.acquire c).1 then .checkStatus t i else .parked t i)
  | .parked _ _ => none
  | .granted t i => some (s.setCall c (.checkStatus t i))
  | .checkStatus t i =>
      s.instances[i]?.map fun inst =>
        s.setCall c (if inst.status = .active then .addInFlight i else .giveBack t i)
  -- the next turn of the retry loop, or `Err(())` after the last one
  | .giveBack t i =>
      some ((s.releasePermit i).setCall c
        (if t + 1 < checkoutPickRetries then .scanStatus (t + 1) 0 none else .unavailable))
  | .addInFlight i =>
      some ((s.modifyInstance i fun x => { x with inFlight := x.inFlight + 1 }).setCall c
        (.readInner i))
  | .readInner i => s.instances[i]?.map fun inst => s.setCall c (.live i inst.browser)
  | .live _ _ => none
  | .subInFlight i b =>
      some ((s.modifyInstance i fun x => { x with inFlight := fetchSub x.inFlight }).setCall c
        (.addServed i b))
  -- `fetch_add` returns the old count, the threshold is tested on the new one
  | .addServed i b =>
      s.instances[i]?.map fun inst =>
        (s.modifyInstance i fun x => { x with served := x.served + 1 }).setCall c
          (if cfg.countReached (inst.served + 1) then .notifyRecycle i b else .dropBrowser i b)
  | .notifyRecycle i b =>
      some ((s.modifyInstance i fun x => { x with recycleNotify := x.recycleNotify.notifyOne }).setCall c
        (.dropBrowser i b))
  | .dropBrowser i _ => some (s.setCall c (.dropPermit i))
  | .dropPermit i => some ((s.releasePermit i).setCall c .dropped)
  | .dropped | .unavailable | .cancelled => none

/-- A `checkout` future is dropped at one of its await points.  What it had
    acquired is released by the drop of its locals; `in_flight` is no local. -/
def cancelCheckout (s : State) (c : Nat) : CallPc → Option State
  | .parked _ i =>
      some ((s.modifyInstance i fun x => { x with permits := x.permits.cancel c }).setCall c
        .cancelled)
  -- at `readInner` the count of `in_flight` stays behind
  | .granted _ i | .readInner i => some ((s.releasePermit i).setCall c .cancelled)
  | _ => none

/-- The holder lets go of a live `Checkout`: its drop begins. -/
def dropCheckout (s : State) (c : Nat) : CallPc → Option State
  | .live i b => some (s.setCall c (.subInFlight i b))
  | _ => none

/-- `capture` spawns its teardown task with a clone of the browser handle. -/
def spawnTeardown (s : State) : CallPc → Option State
  | .live _ b => some { s with teardowns := s.teardowns ++ [some b] }
  | _ => none

/-- The guarded step function of the pool. -/
def step (cfg : PoolConfig) (s : State) : Action → Option State
  | .launchInstance => launchInstance cfg s
  | .launchReturn => launchReturn cfg s
  | .disconnect i =>
      s.instances[i]?.map fun _ => s.modifyInstance i fun x => { x with disconnected := true }
  | .trigger i reason =>
      s.instances[i]?.bind fun inst =>
        if inst.manager = .waitForTrigger then waitForTrigger cfg s i inst reason else none
  | .manage i => s.instances[i]?.bind fun inst => manageInstance cfg s i inst inst.manager
  | .drainTimeout i => s.instances[i]?.bind fun inst => drainTimeout s i inst inst.manager
  | .relaunchFailed i => s.instances[i]?.bind fun inst => relaunchFailed s inst.manager
  | .checkout =>
      if s.ready then some { s with calls := s.calls ++ [.scanStatus 0 0 none] } else none
  | .call c => s.calls[c]?.bind (checkout cfg s c)
  | .cancel c => s.calls[c]?.bind (cancelCheckout s c)
  | .dropCheckout c => s.calls[c]?.bind (dropCheckout s c)
  | .spawnTeardown c => s.calls[c]?.bind (spawnTeardown s)
  | .finishTeardown k =>
      s.teardowns[k]?.bind fun handle =>
        handle.map fun _ => { s with teardowns := s.teardowns.set k none }

/-- The ways in which a step of the pool can be taken. -/
inductive StepCase (cfg : PoolConfig) (s : State) : Action → State → Prop where
  | launchInstance (hready : s.ready = false) (hroom : s.instances.length < cfg.poolSize) :
      StepCase cfg s .launchInstance { s with
        instances := s.instances ++ [Instance.fresh cfg s.nextBrowser]
        nextBrowser := s.nextBrowser + 1 }
  | launchReturn (hlen : s.instances.length = cfg.poolSize) :
      StepCase cfg s .launchReturn { s with activeGauge := cfg.poolSize, ready := true }
  | disconnect {i : Nat} :
      StepCase cfg s (.disconnect i) (s.modifyInstance i fun x => { x with disconnected := true })
  | trigger {i : Nat} {inst : Instance} {r : RecycleReason} {s' : State}
      (hi : s.instances[i]? = some inst) (hpc : inst.manager = .waitForTrigger)
      (h : waitForTrigger cfg s i inst r = some s') : StepCase cfg s (.trigger i r) s'
  | manage {i : Nat} {inst : Instance} {s' : State} (hi : s.instances[i]? = some inst)
      (h : manageInstance cfg s i inst inst.manager = some s') : StepCase cfg s (.manage i) s'
  | drainTimeout {i : Nat} {inst : Instance} {r : RecycleReason}
      (hi : s.instances[i]? = some inst) (hpc : inst.manager = .drain r)
      (hbusy : 0 < inst.inFlight) :
      StepCase cfg s (.drainTimeout i) (s.setManager i (.relaunch r false))
  | relaunchFailed {i : Nat} : StepCase cfg s (.relaunchFailed i) s
  | checkout (hready : s.ready = true) :
      StepCase cfg s .checkout { s with calls := s.calls ++ [.scanStatus 0 0 none] }
  | call {c : Nat} {pc : CallPc} {s' : State} (hc : s.calls[c]? = some pc)
      (h : Pool.checkout cfg s c pc = some s') : StepCase cfg s (.call c) s'
  | cancel {c : Nat} {pc : CallPc} {s' : State} (hc : s.calls[c]? = some pc)
      (h : cancelCheckout s c pc = some s') : StepCase cfg s (.cancel c) s'
  | dropCheckout {c i : Nat} {b : BrowserId} (hc : s.calls[c]? = some (.live i b)) :
      StepCase cfg s (.dropCheckout c) (s.setCall c (.subInFlight i b))
  | spawnTeardown {c i : Nat} {b : BrowserId} (hc : s.calls[c]? = some (.live i b)) :
      StepCase cfg s (.spawnTeardown c) { s with teardowns := s.teardowns ++ [some b] }
  | finishTeardown {k : Nat} :
      StepCase cfg s (.finishTeardown k) { s with teardowns := s.teardowns.set k none }

theorem step_cases {cfg : PoolConfig} {s s' : State} {a : Action} (h : step cfg s a = some s') :
    StepCase cfg s a s' := by
  cases a with
  | launchInstance =>
      simp only [step, Pool.launchInstance] at h
      split at h
      next hcond =>
        cases h
        exact .launchInstance (by simpa using hcond.1) hcond.2
      next => cases h
  | launchReturn =>
      simp only [step, Pool.launchReturn] at h
      split at h
      next hcond =>
        cases h
        exact .launchReturn hcond.2
      next => cases h
  | disconnect i =>
      obtain ⟨inst, -, rfl⟩ := Option.map_eq_some_iff.mp h
      exact .disconnect
  | trigger i r =>
      obtain ⟨inst, hi, h⟩ := Option.bind_eq_some_iff.mp h
      split at h
      next hpc => exact .trigger hi hpc h
      next => cases h
  | manage i =>
      obtain ⟨inst, hi, h⟩ := Option.bind_eq_some_iff.mp h
      exact .manage hi h
  | drainTimeout i =>
      obtain ⟨inst, hi, h⟩ := Option.bind_eq_some_iff.mp h
      cases hpc : inst.manager with
      | drain r =>
          simp only [hpc, Pool.drainTimeout] at h
          split at h
          next hbusy =>
            cases h
            exact .drainTimeout hi hpc hbusy
          next => cases h
      | _ =>
          rw [hpc] at h
          cases h
  | relaunchFailed i =>
      obtain ⟨inst, -, h⟩ := Option.bind_eq_some_iff.mp h
      cases hpc : inst.manager with
      | relaunch r d =>
          rw [hpc] at h
          cases h
          exact .relaunchFailed
      | _ =>
          rw [hpc] at h
          cases h
  | checkout =>
      simp only [step] at h
      split at h
      next hready =>
        cases h
        exact .checkout hready
      next => cases h
  | call c =>
      obtain ⟨pc, hc, h⟩ := Option.bind_eq_some_iff.mp h
      exact .call hc h
  | cancel c =>
      obtain ⟨pc, hc, h⟩ := Option.bind_eq_some_iff.mp h
      exact .cancel hc h
  | dropCheckout c =>
      obtain ⟨pc, hc, h⟩ := Option.bind_eq_some_iff.mp h
      cases pc <;> cases h
      exact .dropCheckout hc
  | spawnTeardown c =>
      obtain ⟨pc, hc, h⟩ := Option.bind_eq_some_iff.mp h
      cases pc <;> cases h
      exact .spawnTeardown hc
  | finishTeardown k =>
      obtain ⟨handle, -, h⟩ := Option.bind_eq_some_iff.mp h
      obtain ⟨b, -, rfl⟩ := Option.map_eq_some_iff.mp h
      exact .finishTeardown

/-- The pool as a transition system. -/
def system (cfg : PoolConfig) : Lib.System State Action where
  init := State.init
  step := step cfg

end Pool
end BrowserHeadless
