/-
  BrowserHeadless.Pool.Instances

  What a step of the pool does to one instance.

  Every task of the pool writes to instances: `checkout` calls and `Checkout`
  drops to the counters and the permits, the manager of an instance to the rest.
  `InstanceStep` lists the writes, each with the task that makes it and where it
  stands, and `step_instance` is the one place where the step function is taken
  apart for them.
-/

import BrowserHeadless.Pool.Step

namespace BrowserHeadless
namespace Pool

open Lib (Notify Semaphore)

/-- A manager releases the recycle token in this step, and it goes to manager `j`. -/
def HandsToken (s : State) (a : Action) (j : Nat) : Prop :=
  s.recycleToken.release.1 = some j ∧ ∃ (k : Nat) (y : Instance) (r : RecycleReason),
    a = .manage k ∧ s.instances[k]? = some y ∧ y.manager = .releaseToken r

/-- How a step from `s` to `s'` changes the instance `x` at position `j`. -/
inductive InstanceStep (cfg : PoolConfig) (s s' : State) (a : Action) (j : Nat) (x : Instance) :
    Instance → Prop where
  | same : InstanceStep cfg s s' a j x x
  /-- A page permit is taken, released or waited for. -/
  | permits {p : Semaphore Nat} : InstanceStep cfg s s' a j x { x with permits := p }
  | disconnect : InstanceStep cfg s s' a j x { x with disconnected := true }
  -- the counters, written by calls
  | addInFlight {c : Nat} (ha : a = .call c) (hc : s.calls[c]? = some (.addInFlight j)) :
      InstanceStep cfg s s' a j x { x with inFlight := x.inFlight + 1 }
  | subInFlight {c : Nat} {b : BrowserId} (ha : a = .call c)
      (hc : s.calls[c]? = some (.subInFlight j b)) :
      InstanceStep cfg s s' a j x { x with inFlight := fetchSub x.inFlight }
  | addServed {c : Nat} {b : BrowserId} (ha : a = .call c)
      (hc : s.calls[c]? = some (.addServed j b))
      (hc' : s'.calls[c]? = some
        (if cfg.countReached (x.served + 1) then .notifyRecycle j b else .dropBrowser j b)) :
      InstanceStep cfg s s' a j x { x with served := x.served + 1 }
  | notifyRecycle {c : Nat} {b : BrowserId} (ha : a = .call c)
      (hc : s.calls[c]? = some (.notifyRecycle j b)) :
      InstanceStep cfg s s' a j x { x with recycleNotify := x.recycleNotify.notifyOne }
  -- `wait_for_trigger`
  | register (ha : a = .manage j) (hpc : x.manager = .waitForTrigger)
      (hn : x.recycleNotify.pending = false) :
      InstanceStep cfg s s' a j x { x with recycleNotify := x.recycleNotify.poll.2 }
  | trigger {r : RecycleReason} (ha : a = .trigger j r) (hpc : x.manager = .waitForTrigger)
      (hr : r ≠ .count) :
      InstanceStep cfg s s' a j x
        { x with recycleNotify := x.recycleNotify.drop, manager := .storeStatus r }
  | notified (ha : a = .trigger j .count) (hpc : x.manager = .waitForTrigger)
      (hn : x.recycleNotify.pending = true) :
      InstanceStep cfg s s' a j x
        { x with recycleNotify := x.recycleNotify.poll.2, manager := .checkServed }
  | checkServed (ha : a = .manage j) (hpc : x.manager = .checkServed) :
      InstanceStep cfg s s' a j x
        { x with manager := if cfg.countReached x.served then .storeStatus .count
                            else .waitForTrigger }
  -- the recycle itself
  | storeStatus {r : RecycleReason} (ha : a = .manage j) (hpc : x.manager = .storeStatus r) :
      InstanceStep cfg s s' a j x
        { x with status := r.status, manager := .updateGauge r x.status r.status }
  | updateGauge {r : RecycleReason} {old new : Status} (ha : a = .manage j)
      (hpc : x.manager = .updateGauge r old new) :
      InstanceStep cfg s s' a j x
        { x with manager := if new = .active then .releaseToken r else .acquireToken r }
  | acquireToken {r : RecycleReason} {m : ManagerPc} (ha : a = .manage j)
      (hpc : x.manager = .acquireToken r)
      (hm : (m = .afterToken r ∧ (s.recycleToken.acquire j).1 = true) ∨ m = .queuedForToken r) :
      InstanceStep cfg s s' a j x { x with manager := m }
  /-- Another manager's token is handed over. -/
  | resume {r : RecycleReason} (hpc : x.manager = .queuedForToken r)
      (hhand : HandsToken s a j) :
      InstanceStep cfg s s' a j x { x with manager := .afterToken r }
  | drained {r : RecycleReason} (ha : a = .manage j) (hpc : x.manager = .drain r)
      (hzero : x.inFlight = 0) : InstanceStep cfg s s' a j x { x with manager := .relaunch r true }
  | drainTimeout {r : RecycleReason} (ha : a = .drainTimeout j) (hpc : x.manager = .drain r) :
      InstanceStep cfg s s' a j x { x with manager := .relaunch r false }
  | swap {r : RecycleReason} {d : Bool} (ha : a = .manage j) (hpc : x.manager = .relaunch r d)
      (hnext : s'.nextBrowser = s.nextBrowser + 1) :
      InstanceStep cfg s s' a j x
        { x with
          browser := s.nextBrowser
          disconnected := false
          manager := .dropOldBrowser r x.browser }
  | dropOldBrowser {r : RecycleReason} {old : BrowserId} (ha : a = .manage j)
      (hpc : x.manager = .dropOldBrowser r old) :
      InstanceStep cfg s s' a j x { x with manager := .dropOldDir r old }
  | dropOldDir {r : RecycleReason} {old : BrowserId} (ha : a = .manage j)
      (hpc : x.manager = .dropOldDir r old) :
      InstanceStep cfg s s' a j x { x with manager := .resetServed r }
  | resetServed {r : RecycleReason} (ha : a = .manage j) (hpc : x.manager = .resetServed r) :
      InstanceStep cfg s s' a j x { x with served := 0, manager := .storeActive r }
  | storeActive {r : RecycleReason} (ha : a = .manage j) (hpc : x.manager = .storeActive r) :
      InstanceStep cfg s s' a j x
        { x with status := .active, manager := .updateGauge r x.status .active }
  | releaseToken {r : RecycleReason} (ha : a = .manage j) (hpc : x.manager = .releaseToken r) :
      InstanceStep cfg s s' a j x { x with manager := .waitForTrigger }

/-- Instance `j` after the step comes from the one before by an `InstanceStep`. -/
def FromInstance (cfg : PoolConfig) (s s' : State) (a : Action) (j : Nat) (x' : Instance) : Prop :=
  ∃ x, s.instances[j]? = some x ∧ InstanceStep cfg s s' a j x x'

variable {cfg : PoolConfig} {s s' : State} {a : Action} {i j : Nat} {x' : Instance}

/-- An update of instance `i` whose effect there is an `InstanceStep` is one
    everywhere. -/
theorem FromInstance.modify {f : Instance → Instance}
    (hs' : s'.instances = s.instances.modify i f)
    (hstep : ∀ x, s.instances[i]? = some x → InstanceStep cfg s s' a i x (f x))
    (hj : s'.instances[j]? = some x') : FromInstance cfg s s' a j x' := by
  rw [hs', List.getElem?_modify] at hj
  obtain ⟨x, hx, hfx⟩ := Option.map_eq_some_iff.mp hj
  refine ⟨x, hx, ?_⟩
  by_cases hij : i = j
  · subst hij
    rw [if_pos rfl] at hfx
    exact hfx ▸ hstep x hx
  · rw [if_neg hij] at hfx
    exact hfx ▸ .same

/-- An update at a position where the instance is known. -/
theorem FromInstance.modify_at {inst : Instance} {f : Instance → Instance}
    (hi : s.instances[i]? = some inst) (hs' : s'.instances = s.instances.modify i f)
    (hstep : InstanceStep cfg s s' a i inst (f inst))
    (hj : s'.instances[j]? = some x') : FromInstance cfg s s' a j x' := by
  refine .modify hs' ?_ hj
  intro x hx
  obtain rfl := Option.some.inj (hi.symm.trans hx)
  exact hstep

/-- A step that leaves the instances alone. -/
theorem FromInstance.of_eq (hs' : s'.instances = s.instances)
    (hj : s'.instances[j]? = some x') : FromInstance cfg s s' a j x' :=
  ⟨x', hs' ▸ hj, .same⟩

@[simp] theorem State.grant_instances (s : State) (c : Nat) :
    (s.grant c).instances = s.instances := by
  unfold grant
  split <;> rfl

/-- Releasing a page permit changes the permits of its instance. -/
theorem State.releasePermit_instances (s : State) (i : Nat) :
    (s.releasePermit i).instances = s.instances.modify i fun x =>
      { x with permits := x.permits.release.2 } := by
  unfold releasePermit
  cases hi : s.instances[i]? with
  | none => exact (List.modify_eq_self (List.getElem?_eq_none_iff.mp hi)).symm
  | some inst =>
      -- the instance that is modified is the one that was looked up
      have hmod : (s.instances.modify i fun x => { x with permits := inst.permits.release.2 })
          = s.instances.modify i fun x => { x with permits := x.permits.release.2 } := by
        apply List.ext_getElem?
        intro k
        rw [List.getElem?_modify, List.getElem?_modify]
        by_cases hik : i = k
        · subst hik
          rw [hi]
          rfl
        · simp only [if_neg hik]
      dsimp only
      cases inst.permits.release.1 with
      | none => exact hmod
      | some c => rw [grant_instances, modifyInstance_instances, hmod]

/-- Releasing the recycle token moves at most one parked manager on. -/
theorem State.releaseRecycleToken_instance (s s' : State) (cfg : PoolConfig) {k : Nat}
    {y : Instance} {r : RecycleReason} (hk : s.instances[k]? = some y)
    (hpc : y.manager = .releaseToken r) (j : Nat)
    (hj : s.releaseRecycleToken.instances[j]? = some x') :
    FromInstance cfg s s' (.manage k) j x' := by
  unfold releaseRecycleToken at hj
  cases hw : s.recycleToken.release.1 with
  | none =>
      rw [hw] at hj
      exact ⟨x', hj, .same⟩
  | some w =>
      rw [hw] at hj
      simp only [modifyInstance_instances, List.getElem?_modify] at hj
      obtain ⟨x, hx, hfx⟩ := Option.map_eq_some_iff.mp hj
      refine ⟨x, hx, ?_⟩
      by_cases hwj : w = j
      · rw [if_pos hwj] at hfx
        subst hfx
        cases hm : x.manager with
        | queuedForToken _ => exact .resume hm ⟨hw.trans (congrArg some hwj), k, y, r, rfl, hk, hpc⟩
        | _ =>
            -- a manager that is not parked stays where it is
            simp only [ManagerPc.resume]
            rw [← hm]
            exact .same
      · rw [if_neg hwj] at hfx
        exact hfx ▸ .same

/-- The release of the recycle token moves managers and nothing else. -/
theorem State.releaseRecycleToken_manager {s : State} {x : Instance}
    (hj : s.instances[j]? = some x) (hj' : s.releaseRecycleToken.instances[j]? = some x') :
    ∃ m, x' = { x with manager := m } := by
  unfold releaseRecycleToken at hj'
  cases hw : s.recycleToken.release.1 with
  | none =>
      rw [hw] at hj'
      exact ⟨x.manager, Option.some.inj (hj'.symm.trans hj)⟩
  | some k =>
      rw [hw] at hj'
      simp only [modifyInstance_instances, List.getElem?_modify, hj] at hj'
      by_cases hkj : k = j
      · simp only [if_pos hkj] at hj'
        exact ⟨x.manager.resume, (Option.some.inj hj').symm⟩
      · simp only [if_neg hkj] at hj'
        exact ⟨x.manager, (Option.some.inj hj').symm⟩

/-! ## The instances under the steps of the pool -/

theorem checkout_instance {c : Nat} {pc : CallPc} (hc : s.calls[c]? = some pc)
    (h : checkout cfg s c pc = some s') (hj : s'.instances[j]? = some x') :
    FromInstance cfg s s' (.call c) j x' := by
  cases pc with
  | scanStatus t idx best =>
      simp only [checkout] at h
      split at h <;>
      · cases h
        exact .of_eq rfl hj
  | scanPermits t idx best | checkStatus t i | readInner i =>
      obtain ⟨inst, -, rfl⟩ := Option.map_eq_some_iff.mp h
      exact .of_eq rfl hj
  | granted t i | dropBrowser i b =>
      cases h
      exact .of_eq rfl hj
  | acquire t i =>
      obtain ⟨inst, hi, rfl⟩ := Option.map_eq_some_iff.mp h
      exact .modify_at hi rfl .permits hj
  | giveBack t i | dropPermit i =>
      cases h
      exact .modify (s.releasePermit_instances i) (fun _ _ => .permits) hj
  | addInFlight i =>
      cases h
      exact .modify rfl (fun _ _ => .addInFlight rfl hc) hj
  | subInFlight i b =>
      cases h
      exact .modify rfl (fun _ _ => .subInFlight rfl hc) hj
  | addServed i b =>
      obtain ⟨inst, hi, rfl⟩ := Option.map_eq_some_iff.mp h
      refine .modify_at hi rfl (.addServed rfl hc ?_) hj
      exact List.getElem?_set_self (List.getElem?_eq_some_iff.mp hc).1
  | notifyRecycle i b =>
      cases h
      exact .modify rfl (fun _ _ => .notifyRecycle rfl hc) hj
  | parked t i | live i b | dropped | unavailable | cancelled => cases h

theorem cancelCheckout_instance {c : Nat} {pc : CallPc} (h : cancelCheckout s c pc = some s')
    (hj : s'.instances[j]? = some x') : FromInstance cfg s s' (.cancel c) j x' := by
  cases pc with
  | parked t i =>
      cases h
      exact .modify rfl (fun _ _ => .permits) hj
  | granted t i | readInner i =>
      cases h
      exact .modify (s.releasePermit_instances i) (fun _ _ => .permits) hj
  | _ => cases h

theorem waitForTrigger_instance {inst : Instance} {r : RecycleReason}
    (hi : s.instances[i]? = some inst) (hpc : inst.manager = .waitForTrigger)
    (h : waitForTrigger cfg s i inst r = some s') (hj : s'.instances[j]? = some x') :
    FromInstance cfg s s' (.trigger i r) j x' := by
  cases r with
  | crash | age =>
      simp only [waitForTrigger] at h
      split at h <;> cases h
      exact .modify_at hi rfl (.trigger rfl hpc (by decide)) hj
  | count =>
      simp only [waitForTrigger, Notify.poll_fst] at h
      split at h
      next hn =>
        cases h
        exact .modify_at hi rfl (.notified rfl hpc hn) hj
      next => cases h

/-- A manager that releases the token goes back to wait; the token may go to another. -/
theorem releaseToken_instance {inst : Instance} {r : RecycleReason} (hi : s.instances[i]? = some inst)
    (hpc : inst.manager = .releaseToken r)
    (hj : (s.releaseRecycleToken.setManager i .waitForTrigger).instances[j]? = some x') :
    FromInstance cfg s (s.releaseRecycleToken.setManager i .waitForTrigger) (.manage i) j x' := by
  rw [State.setManager_instances, List.getElem?_modify] at hj
  obtain ⟨x₁, hx₁, hfx⟩ := Option.map_eq_some_iff.mp hj
  obtain ⟨x, hx, hstep⟩ := s.releaseRecycleToken_instance
    (s.releaseRecycleToken.setManager i .waitForTrigger) cfg hi hpc j hx₁
  refine ⟨x, hx, ?_⟩
  by_cases hij : i = j
  · -- the token cannot come back to the manager that releases it
    subst hij
    obtain rfl := Option.some.inj (hi.symm.trans hx)
    rw [if_pos rfl] at hfx
    subst hfx
    obtain ⟨m, rfl⟩ : ∃ m, x₁ = { inst with manager := m } := s.releaseRecycleToken_manager hi hx₁
    exact .releaseToken rfl hpc
  · rw [if_neg hij] at hfx
    exact hfx ▸ hstep

theorem manageInstance_instance {inst : Instance} (hi : s.instances[i]? = some inst)
    (h : manageInstance cfg s i inst inst.manager = some s') (hj : s'.instances[j]? = some x') :
    FromInstance cfg s s' (.manage i) j x' := by
  cases hpc : inst.manager with
  | queuedForToken r =>
      rw [hpc] at h
      cases h
  | waitForTrigger =>
      simp only [hpc, manageInstance, Notify.poll_fst] at h
      split at h
      next => cases h
      next hn =>
        cases h
        exact .modify_at hi rfl (.register rfl hpc (by simpa using hn)) hj
  | checkServed =>
      rw [hpc] at h
      cases h
      exact .modify_at hi rfl (.checkServed rfl hpc) hj
  | storeStatus r =>
      rw [hpc] at h
      cases h
      exact .modify_at hi rfl (.storeStatus rfl hpc) hj
  | updateGauge r old new =>
      rw [hpc] at h
      cases h
      exact .modify_at hi rfl (.updateGauge rfl hpc) hj
  | acquireToken r =>
      rw [hpc] at h
      cases h
      refine .modify_at hi rfl (.acquireToken rfl hpc ?_) hj
      split
      next htoken => exact Or.inl ⟨rfl, htoken⟩
      next => exact Or.inr rfl
  | drain r =>
      simp only [hpc, manageInstance] at h
      split at h
      next hzero =>
        cases h
        exact .modify_at hi rfl (.drained rfl hpc hzero) hj
      next =>
        cases h
        exact .of_eq rfl hj
  | relaunch r d =>
      rw [hpc] at h
      cases h
      exact .modify_at hi rfl (.swap rfl hpc rfl) hj
  | dropOldBrowser r old =>
      rw [hpc] at h
      cases h
      exact .modify_at hi rfl (.dropOldBrowser rfl hpc) hj
  | dropOldDir r old =>
      rw [hpc] at h
      cases h
      exact .modify_at hi rfl (.dropOldDir rfl hpc) hj
  | resetServed r =>
      rw [hpc] at h
      cases h
      exact .modify_at hi rfl (.resetServed rfl hpc) hj
  | storeActive r =>
      rw [hpc] at h
      cases h
      exact .modify_at hi rfl (.storeActive rfl hpc) hj
  | releaseToken r =>
      rw [hpc] at h
      cases h
      exact releaseToken_instance hi hpc hj

/-- What a step of the pool does to instance `j`: an `InstanceStep`, or the launch
    of a fresh instance. -/
theorem step_instance (h : step cfg s a = some s') (hj : s'.instances[j]? = some x') :
    FromInstance cfg s s' a j x' ∨
    (a = .launchInstance ∧ j = s.instances.length ∧ x' = Instance.fresh cfg s.nextBrowser ∧
      s'.nextBrowser = s.nextBrowser + 1 ∧ s'.calls = s.calls ∧ s.ready = false) := by
  cases step_cases h with
  | launchInstance hready _ =>
      rw [List.getElem?_append] at hj
      split at hj
      · exact Or.inl ⟨x', hj, .same⟩
      · rw [List.getElem?_singleton] at hj
        split at hj
        next hzero =>
          cases hj
          exact Or.inr ⟨rfl, by omega, rfl, rfl, rfl, hready⟩
        next => cases hj
  | launchReturn _ | relaunchFailed | checkout _ | dropCheckout _ | spawnTeardown _
  | finishTeardown => exact Or.inl (.of_eq rfl hj)
  | disconnect => exact Or.inl (.modify rfl (fun _ _ => .disconnect) hj)
  | trigger hi hpc h => exact Or.inl (waitForTrigger_instance hi hpc h hj)
  | manage hi h => exact Or.inl (manageInstance_instance hi h hj)
  | drainTimeout hi hpc _ => exact Or.inl (.modify_at hi rfl (.drainTimeout rfl hpc) hj)
  | call hc h => exact Or.inl (checkout_instance hc h hj)
  | cancel _ h => exact Or.inl (cancelCheckout_instance h hj)

end Pool
end BrowserHeadless
