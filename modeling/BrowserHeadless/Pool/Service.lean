/-
  BrowserHeadless.Pool.Service

  What a step of the pool does to the service side of an instance: its status
  and the position of its manager.

  Checkout calls, `Checkout` drops and teardown tasks leave every view alone; a
  manager moves its own view by one of the three ways of `ViewStep`.  The
  invariants about statuses only look at those (`step_view`).
-/

import BrowserHeadless.Pool.Instances

namespace BrowserHeadless
namespace Pool

/-- The manager has stored a non-active status and has not stored `Active`
    again. -/
def ManagerPc.outOfService : ManagerPc → Bool
  | waitForTrigger | checkServed | storeStatus _ | releaseToken _ => false
  | updateGauge _ _ new => decide (new ≠ .active)
  | acquireToken _ | queuedForToken _ | drain _ | relaunch _ _ | dropOldBrowser _ _
  | dropOldDir _ _ | resetServed _ | storeActive _ => true

/-- The service side of an instance. -/
def Instance.view (inst : Instance) : Status × ManagerPc := (inst.status, inst.manager)

/-- The service side of instance `j`. -/
def State.view (s : State) (j : Nat) : Option (Status × ManagerPc) :=
  s.instances[j]?.map Instance.view

/-- How one step can change the view of instance `j`. -/
inductive ViewStep (a : Action) (j : Nat) : Status × ManagerPc → Status × ManagerPc → Prop where
  /-- The status stays, and so does whether the instance is in service. -/
  | move {st : Status} {pc pc' : ManagerPc} (h : pc'.outOfService = pc.outOfService) :
      ViewStep a j (st, pc) (st, pc')
  /-- The manager of `j` stores `Draining` or `Down`. -/
  | leave {st : Status} {r : RecycleReason} (h : a = .manage j) :
      ViewStep a j (st, .storeStatus r) (r.status, .updateGauge r st r.status)
  /-- The manager of `j` stores `Active`. -/
  | enter {st : Status} {r : RecycleReason} :
      ViewStep a j (st, .storeActive r) (.active, .updateGauge r st .active)

/-- Any manager that goes on to the replacement is out of service. -/
theorem ManagerPc.outOfService_afterToken (r : RecycleReason) :
    (ManagerPc.afterToken r).outOfService = true := by
  cases r <;> rfl

namespace State

theorem view_modifyInstance_ne (s : State) {i j : Nat} (h : i ≠ j) (f : Instance → Instance) :
    (s.modifyInstance i f).view j = s.view j := by
  simp only [view, modifyInstance_instances, List.getElem?_modify_ne _ _ h]

theorem view_modifyInstance_self {s : State} {i : Nat} {inst : Instance}
    (h : s.instances[i]? = some inst) (f : Instance → Instance) :
    (s.modifyInstance i f).view i = some (f inst).view := by
  rw [view, modifyInstance_instances, List.getElem?_modify_eq, h]
  rfl

end State

/-- A step that changes an instance moves its view. -/
theorem InstanceStep.view {cfg : PoolConfig} {s s' : State} {a : Action} {j : Nat}
    {x x' : Instance} (h : InstanceStep cfg s s' a j x x') : ViewStep a j x.view x'.view := by
  cases h with
  -- counters, permits and notifications are not in view
  | same | permits | disconnect | addInFlight _ _ | subInFlight _ _ | addServed _ _ _
  | notifyRecycle _ _ | register _ _ _ => exact .move rfl
  | trigger _ hpc _ | notified _ hpc _ | drained _ hpc _ | drainTimeout _ hpc | swap _ hpc _
  | dropOldBrowser _ hpc | dropOldDir _ hpc | resetServed _ hpc | releaseToken _ hpc =>
      exact .move (by rw [hpc]; rfl)
  | checkServed _ hpc => exact .move (by rw [hpc]; split <;> rfl)
  | storeStatus ha hpc =>
      simp only [Instance.view, hpc]
      exact .leave ha
  | storeActive _ hpc =>
      simp only [Instance.view, hpc]
      exact .enter
  | @updateGauge r old new _ hpc =>
      refine .move ?_
      by_cases hnew : new = .active <;> simp [hpc, hnew, ManagerPc.outOfService]
  -- with or without the token the instance stays out of service
  | @acquireToken r m _ hpc hm =>
      refine .move ?_
      rw [hpc]
      rcases hm with ⟨rfl, -⟩ | rfl
      · exact ManagerPc.outOfService_afterToken r
      · rfl
  | @resume r hpc _ =>
      refine .move ?_
      rw [hpc]
      exact ManagerPc.outOfService_afterToken r

/-- What one step of the pool does to the view of instance `j`: a `ViewStep`,
    or the launch of a fresh instance. -/
theorem step_view {cfg : PoolConfig} {s s' : State} {a : Action} (h : step cfg s a = some s')
    {j : Nat} {v' : Status × ManagerPc} (hv' : s'.view j = some v') :
    (∃ v, s.view j = some v ∧ ViewStep a j v v') ∨ v' = (.active, .waitForTrigger) := by
  obtain ⟨x', hj, rfl⟩ := Option.map_eq_some_iff.mp hv'
  rcases step_instance h hj with ⟨x, hx, hstep⟩ | ⟨-, -, rfl, -⟩
  · exact Or.inl ⟨x.view, by rw [State.view, hx]; rfl, hstep.view⟩
  · exact Or.inr rfl

open State

/-! ## The shape of the pool -/

namespace State

/-- How many instances there are, and whether the pool has been handed out. -/
def shape (s : State) : Nat × Bool := (s.instances.length, s.ready)

@[simp] theorem shape_modifyInstance (s : State) (i : Nat) (f : Instance → Instance) :
    (s.modifyInstance i f).shape = s.shape := by
  simp [shape]

@[simp] theorem shape_setCall (s : State) (c : Nat) (pc : CallPc) :
    (s.setCall c pc).shape = s.shape := rfl

@[simp] theorem shape_grant (s : State) (c : Nat) : (s.grant c).shape = s.shape := by
  unfold grant
  split <;> rfl

@[simp] theorem shape_releasePermit (s : State) (i : Nat) :
    (s.releasePermit i).shape = s.shape := by
  unfold releasePermit
  cases s.instances[i]? with
  | none => rfl
  | some inst =>
      dsimp only
      cases inst.permits.release.1 with
      | none => exact shape_modifyInstance s i _
      | some c => rw [shape_grant, shape_modifyInstance]

@[simp] theorem shape_releaseRecycleToken (s : State) :
    s.releaseRecycleToken.shape = s.shape := by
  unfold releaseRecycleToken
  cases s.recycleToken.release.1 with
  | none => rfl
  | some j =>
      dsimp only
      rw [shape_modifyInstance]
      rfl

end State

theorem checkout_shape {cfg : PoolConfig} {s s' : State} {c : Nat} {pc : CallPc}
    (h : checkout cfg s c pc = some s') : s'.shape = s.shape := by
  cases pc with
  | scanStatus t idx best =>
      simp only [checkout] at h
      split at h <;>
      · cases h
        rfl
  | scanPermits t idx best | checkStatus t i | readInner i | acquire t i | addServed i b =>
      obtain ⟨inst, -, rfl⟩ := Option.map_eq_some_iff.mp h
      simp
  | giveBack t i | dropPermit i | addInFlight i | subInFlight i b | notifyRecycle i b
  | granted t i | dropBrowser i b =>
      cases h
      simp
  | parked t i | live i b | dropped | unavailable | cancelled => cases h

theorem manageInstance_shape {cfg : PoolConfig} {s s' : State} {i : Nat} {inst : Instance}
    {pc : ManagerPc} (h : manageInstance cfg s i inst pc = some s') : s'.shape = s.shape := by
  cases pc with
  | queuedForToken r => cases h
  | waitForTrigger =>
      simp only [manageInstance] at h
      split at h <;> cases h
      exact shape_modifyInstance s i _
  | drain r =>
      simp only [manageInstance] at h
      split at h <;>
      · cases h
        simp [setManager]
  | updateGauge r old new =>
      cases h
      exact shape_modifyInstance s i _
  | acquireToken r =>
      cases h
      exact shape_modifyInstance s i _
  | relaunch r d =>
      cases h
      exact shape_modifyInstance s i _
  | _ =>
      cases h
      simp [setManager]

/-- The pool only grows inside `launch`, and `launch` only returns it at its
    full size. -/
theorem step_shape {cfg : PoolConfig} {s s' : State} {a : Action} (h : step cfg s a = some s') :
    s'.shape = s.shape ∨
    (s.ready = false ∧ s.instances.length < cfg.poolSize
      ∧ s'.shape = (s.instances.length + 1, false)) ∨
    (s.instances.length = cfg.poolSize ∧ s'.shape = (cfg.poolSize, true)) := by
  cases step_cases h with
  | launchInstance hready hroom => exact Or.inr (Or.inl ⟨hready, hroom, by simp [shape, hready]⟩)
  | launchReturn hlen => exact Or.inr (Or.inr ⟨hlen, by simp [shape, hlen]⟩)
  | disconnect | drainTimeout _ _ _ => exact Or.inl (shape_modifyInstance s _ _)
  | @trigger i inst r s' _ _ h =>
      left
      cases r <;>
      · simp only [waitForTrigger] at h
        split at h <;> cases h
        exact shape_modifyInstance s i _
  | manage _ h => exact Or.inl (manageInstance_shape h)
  | call _ h => exact Or.inl (checkout_shape h)
  | @cancel c pc s' _ h =>
      left
      cases pc <;> cases h <;> simp
  | relaunchFailed | checkout _ | dropCheckout _ | spawnTeardown _ | finishTeardown =>
      exact Or.inl rfl

/-- No instance goes away. -/
theorem step_length {cfg : PoolConfig} {s s' : State} {a : Action} (h : step cfg s a = some s') :
    s.instances.length ≤ s'.instances.length := by
  rcases step_shape h with hsh | ⟨-, -, hsh⟩ | ⟨hfull, hsh⟩
  all_goals have hl : s'.instances.length = _ := congrArg Prod.fst hsh
  · exact Nat.le_of_eq hl.symm
  · exact hl ▸ Nat.le_succ s.instances.length
  · exact Nat.le_of_eq (hfull.trans hl.symm)

/-- An instance goes on by an `InstanceStep`. -/
theorem step_instance_next {cfg : PoolConfig} {s s' : State} {a : Action} {i : Nat} {x : Instance}
    (h : step cfg s a = some s') (hi : s.instances[i]? = some x) :
    ∃ x', s'.instances[i]? = some x' ∧ InstanceStep cfg s s' a i x x' := by
  have hlt : i < s.instances.length := (List.getElem?_eq_some_iff.mp hi).1
  have hx' := List.getElem?_eq_getElem (Nat.lt_of_lt_of_le hlt (step_length h))
  refine ⟨_, hx', ?_⟩
  rcases step_instance h hx' with ⟨y, hy, hstep⟩ | ⟨-, hlen, -⟩
  · obtain rfl : x = y := Option.some.inj (hi.symm.trans hy)
    exact hstep
  · omega

end Pool
end BrowserHeadless
