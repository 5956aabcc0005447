/-
  BrowserHeadless.Pool.Gauge

  The `active_instances` gauge of src/pool.rs.  `set_status` tells it the change of one
  instance, right after the swap; `BrowserPool::launch` sets it to `pool_size` at its end.

  The changes add up: the gauge and what it has been told (`State.told`) drift apart in no
  step after `launch` (`step_drift`).  The absolute set forgets what it was told before.  So
  the gauge is exact after `launch` if and only if no instance was away for it when `launch`
  set it (`gauge_exact_iff`).
-/

import BrowserHeadless.Pool.Recycle

namespace BrowserHeadless
namespace Pool

open State

/-! ## What the gauge has been told -/

/-- The change that is still to come from a `set_status` after its swap. -/
def ManagerPc.due : ManagerPc → Int
  | updateGauge _ old new => gaugeDelta old new
  | _ => 0

/-- A `set_status` stands between its swap and its gauge update. -/
def ManagerPc.updating : ManagerPc → Bool
  | updateGauge _ _ _ => true
  | _ => false

/-- The gauge has been told that the instance left service, and not yet that it is back. -/
def ManagerPc.awayForGauge : ManagerPc → Bool
  | waitForTrigger | checkServed | storeStatus _ | releaseToken _ => false
  | updateGauge _ _ new => decide (new = .active)
  | acquireToken _ | queuedForToken _ | drain _ | relaunch _ _ | dropOldBrowser _ _
  | dropOldDir _ _ | resetServed _ | storeActive _ => true

/-- One if the status is `Active`. -/
def Status.activeCount (st : Status) : Int := if st = .active then 1 else 0

/-- What the gauge has been told of an instance. -/
def Instance.told (x : Instance) : Int := x.status.activeCount - x.manager.due

/-- What the gauge has been told of all instances. -/
def State.told (s : State) : Int := (s.instances.map Instance.told).sum

/-- The instances whose status is `Active`. -/
def State.activeInstances (s : State) : Nat :=
  s.instances.countP fun inst => inst.status = .active

/-- No `set_status` call is between its swap and its gauge update. -/
def Settled (s : State) : Prop := ∀ inst ∈ s.instances, inst.manager.updating = false

instance (s : State) : Decidable (Settled s) :=
  inferInstanceAs (Decidable (∀ inst ∈ s.instances, inst.manager.updating = false))

/-- When `launch` sets the gauge, no instance is away for it. -/
def SetsWhileAllBack (s : State) (a : Action) : Prop :=
  a = .launchReturn → ∀ inst ∈ s.instances, inst.manager.awayForGauge = false

theorem gaugeDelta_eq (old new : Status) :
    gaugeDelta old new = new.activeCount - old.activeCount := by
  cases old <;> cases new <;> rfl

theorem ManagerPc.due_of_not_updating {pc : ManagerPc} (h : pc.updating = false) : pc.due = 0 := by
  cases pc with
  | updateGauge r old new => cases h
  | _ => rfl

@[simp] theorem ManagerPc.updating_afterToken (r : RecycleReason) :
    (ManagerPc.afterToken r).updating = false := by
  cases r <;> rfl

@[simp] theorem ManagerPc.awayForGauge_afterToken (r : RecycleReason) :
    (ManagerPc.afterToken r).awayForGauge = true := by
  cases r <;> rfl

/-- Once nothing is due, the gauge has been told the statuses. -/
theorem told_of_settled {s : State} (h : Settled s) : s.told = s.activeInstances := by
  have hlist : ∀ l : List Instance, (∀ inst ∈ l, inst.manager.updating = false) →
      (l.map Instance.told).sum = l.countP fun inst => inst.status = .active := by
    intro l hl
    induction l with
    | nil => rfl
    | cons inst l ih =>
        rw [List.forall_mem_cons] at hl
        rw [List.map_cons, List.sum_cons, ih hl.2, List.countP_cons, Instance.told,
          ManagerPc.due_of_not_updating hl.1, Status.activeCount]
        by_cases hactive : inst.status = .active
        · simp [hactive, Int.add_comm]
        · simp [hactive]
  exact hlist s.instances h

/-! ## What the gauge has been told, step by step -/

section Step

variable {cfg : PoolConfig} {s s' : State} {a : Action} {j : Nat} {x x' : Instance}

/-- A manager that moves on with nothing due leaves what the gauge has been told. -/
theorem Instance.told_move {pc pc' : ManagerPc} (hpc : x.manager = pc) (hm : x'.manager = pc')
    (hst : x'.status = x.status) (h : pc.updating = false) (h' : pc'.updating = false) :
    x'.told = x.told := by
  rw [Instance.told, Instance.told, hst, hm, hpc, ManagerPc.due_of_not_updating h,
    ManagerPc.due_of_not_updating h']

/-- The swap of `set_status`: the new status and the change that is now due cancel out. -/
theorem Instance.told_store {r : RecycleReason} {st : Status} (h : x.manager.updating = false)
    (hm : x'.manager = .updateGauge r x.status st) (hst : x'.status = st) : x'.told = x.told := by
  rw [Instance.told, Instance.told, ManagerPc.due_of_not_updating h, hm, hst]
  show st.activeCount - gaugeDelta x.status st = _
  rw [gaugeDelta_eq]
  omega

/-- Only a gauge update changes what the gauge has been told of an instance. -/
theorem InstanceStep.told (h : InstanceStep cfg s s' a j x x')
    (hnot : a = .manage j → x.manager.updating = false) : x'.told = x.told := by
  cases h with
  | same | permits | disconnect | addInFlight _ _ | subInFlight _ _ | addServed _ _ _
  | notifyRecycle _ _ | register _ _ _ => rfl
  | trigger _ hpc _ | notified _ hpc _ | drained _ hpc _ | drainTimeout _ hpc | swap _ hpc _
  | dropOldBrowser _ hpc | dropOldDir _ hpc | resetServed _ hpc | releaseToken _ hpc =>
      exact Instance.told_move hpc rfl rfl rfl rfl
  | checkServed _ hpc =>
      refine Instance.told_move hpc rfl rfl rfl ?_
      split <;> rfl
  | storeStatus _ hpc | storeActive _ hpc =>
      exact Instance.told_store (by rw [hpc]; rfl) rfl rfl
  | updateGauge ha hpc =>
      have hupdating := hnot ha
      rw [hpc] at hupdating
      cases hupdating
  | @acquireToken r m _ hpc hm =>
      refine Instance.told_move hpc rfl rfl rfl ?_
      rcases hm with ⟨rfl, -⟩ | rfl
      · exact ManagerPc.updating_afterToken r
      · rfl
  | @resume r hpc _ => exact Instance.told_move hpc rfl rfl rfl (ManagerPc.updating_afterToken r)

/-- What is known of an instance in every state: it has been told as one exactly while it is
    not away for the gauge, and an update under way is to the status it has. -/
structure Tracked (x : Instance) : Prop where
  told : x.told = if x.manager.awayForGauge then 0 else 1
  status : ∀ r old new, x.manager = .updateGauge r old new → x.status = new

/-- A manager that moves on with nothing due, and stays away or back, stays tracked. -/
theorem Tracked.move {pc pc' : ManagerPc} (hx : Tracked x) (hpc : x.manager = pc)
    (hm : x'.manager = pc') (hst : x'.status = x.status) (h : pc.updating = false)
    (h' : pc'.updating = false) (haway : pc'.awayForGauge = pc.awayForGauge) : Tracked x' where
  told := by
    rw [Instance.told_move hpc hm hst h h', hx.told, hm, haway, hpc]
  status := by
    intro r old new hup
    rw [← hm, hup] at h'
    cases h'

/-- The swap of `set_status`.  The instance is away for the gauge from the update on, or was
    before it. -/
theorem Tracked.store {r : RecycleReason} {st : Status} (hx : Tracked x)
    (h : x.manager.updating = false) (hm : x'.manager = .updateGauge r x.status st)
    (hst : x'.status = st)
    (haway : (ManagerPc.updateGauge r x.status st).awayForGauge = x.manager.awayForGauge) :
    Tracked x' where
  told := by
    rw [Instance.told_store h hm hst, hx.told, hm, haway]
  status := by
    intro r' old new hup
    obtain ⟨-, -, rfl⟩ := ManagerPc.updateGauge.inj (hm.symm.trans hup)
    exact hst

/-- The update tells the gauge the status itself. -/
theorem Tracked.update {r : RecycleReason} {old new : Status} (hx : Tracked x)
    (hpc : x.manager = .updateGauge r old new)
    (hm : x'.manager = if new = .active then .releaseToken r else .acquireToken r)
    (hst : x'.status = x.status) : Tracked x' := by
  have hnew : x'.status = new := hst.trans (hx.status r old new hpc)
  have htold : x'.told = x'.status.activeCount - x'.manager.due := rfl
  split at hm
  next hactive =>
      refine ⟨?_, ?_⟩
      · rw [htold, hm, hnew, hactive]
        rfl
      · intro r' old' new' hup
        cases hm.symm.trans hup
  next hactive =>
      refine ⟨?_, ?_⟩
      · rw [htold, hm, hnew, Status.activeCount, if_neg hactive]
        rfl
      · intro r' old' new' hup
        cases hm.symm.trans hup

theorem InstanceStep.tracked (h : InstanceStep cfg s s' a j x x') (hx : Tracked x) :
    Tracked x' := by
  cases h with
  | same | permits | disconnect | addInFlight _ _ | subInFlight _ _ | addServed _ _ _
  | notifyRecycle _ _ | register _ _ _ => exact ⟨hx.told, hx.status⟩
  | trigger _ hpc _ | notified _ hpc _ | drained _ hpc _ | drainTimeout _ hpc | swap _ hpc _
  | dropOldBrowser _ hpc | dropOldDir _ hpc | resetServed _ hpc | releaseToken _ hpc =>
      exact hx.move hpc rfl rfl rfl rfl rfl
  | checkServed _ hpc =>
      refine hx.move hpc rfl rfl rfl ?_ ?_ <;>
      · split <;> rfl
  | @storeStatus r _ hpc =>
      -- the old status was `Active`, and the decrement is still due
      apply hx.store (by rw [hpc]; rfl) rfl rfl
      rw [hpc]
      exact decide_eq_false r.status_ne_active
  | storeActive _ hpc =>
      apply hx.store (by rw [hpc]; rfl) rfl rfl
      rw [hpc]
      rfl
  | updateGauge _ hpc => exact hx.update hpc rfl rfl
  | @acquireToken r m _ hpc hm =>
      rcases hm with ⟨rfl, -⟩ | rfl
      · exact hx.move hpc rfl rfl rfl (ManagerPc.updating_afterToken r)
          (ManagerPc.awayForGauge_afterToken r)
      · exact hx.move hpc rfl rfl rfl rfl rfl
  | @resume r hpc _ =>
      exact hx.move hpc rfl rfl rfl (ManagerPc.updating_afterToken r)
        (ManagerPc.awayForGauge_afterToken r)

theorem Tracked.fresh (cfg : PoolConfig) (b : BrowserId) : Tracked (Instance.fresh cfg b) where
  told := rfl
  status := by
    intro r old new hup
    cases hup

/-- In every state each instance is tracked. -/
def AllTracked (s : State) : Prop := ∀ inst ∈ s.instances, Tracked inst

theorem AllTracked.init : AllTracked State.init := List.forall_mem_nil _

theorem AllTracked.step (hs : AllTracked s) (h : step cfg s a = some s') : AllTracked s' := by
  intro x' hmem
  obtain ⟨j, hj⟩ := List.mem_iff_getElem?.mp hmem
  rcases step_instance h hj with ⟨x, hx, hstep⟩ | ⟨-, -, rfl, -⟩
  · exact hstep.tracked (hs x (List.mem_of_getElem? hx))
  · exact Tracked.fresh cfg s.nextBrowser

/-- The gauge has been told of every instance exactly if none is away for it. -/
theorem AllTracked.told_eq_length_iff (hs : AllTracked s) :
    s.told = s.instances.length ↔ ∀ inst ∈ s.instances, inst.manager.awayForGauge = false := by
  have hlist : ∀ l : List Instance, (∀ inst ∈ l, Tracked inst) →
      (l.map Instance.told).sum + l.countP (fun inst => inst.manager.awayForGauge) = l.length := by
    intro l hl
    induction l with
    | nil => rfl
    | cons inst l ih =>
        rw [List.forall_mem_cons] at hl
        have ih := ih hl.2
        rw [List.map_cons, List.sum_cons, List.countP_cons, List.length_cons, hl.1.told]
        cases inst.manager.awayForGauge
        · simp
          omega
        · simp
          omega
  have hsum : s.told + _ = _ := hlist s.instances hs
  have hzero : (∀ inst ∈ s.instances, inst.manager.awayForGauge = false) ↔
      s.instances.countP (fun inst => inst.manager.awayForGauge) = 0 := by
    rw [List.countP_eq_zero]
    simp
  rw [hzero]
  omega

/-! ## Gauge and told, side by side -/

namespace State

theorem activeGauge_grant (s : State) (c : Nat) : (s.grant c).activeGauge = s.activeGauge := by
  unfold grant
  split <;> rfl

theorem activeGauge_releasePermit (s : State) (i : Nat) :
    (s.releasePermit i).activeGauge = s.activeGauge := by
  unfold releasePermit
  cases s.instances[i]? with
  | none => rfl
  | some inst =>
      dsimp only
      cases inst.permits.release.1 with
      | none => rfl
      | some c => exact activeGauge_grant _ c

theorem activeGauge_releaseRecycleToken (s : State) :
    s.releaseRecycleToken.activeGauge = s.activeGauge := by
  unfold releaseRecycleToken
  cases s.recycleToken.release.1 with
  | none => rfl
  | some j => rfl

end State

theorem checkout_gauge {c : Nat} {pc : CallPc} (h : checkout cfg s c pc = some s') :
    s'.activeGauge = s.activeGauge := by
  cases pc with
  | scanStatus t idx best =>
      simp only [checkout] at h
      split at h <;>
      · cases h
        rfl
  | scanPermits t idx best | checkStatus t i | readInner i | acquire t i | addServed i b =>
      obtain ⟨inst, -, rfl⟩ := Option.map_eq_some_iff.mp h
      rfl
  | giveBack t i | dropPermit i =>
      cases h
      exact activeGauge_releasePermit s i
  | addInFlight i | subInFlight i b | notifyRecycle i b | granted t i | dropBrowser i b =>
      cases h
      rfl
  | parked t i | live i b | dropped | unavailable | cancelled => cases h

/-- A manager that is not at a gauge update leaves the gauge alone. -/
theorem manageInstance_gauge {i : Nat} {inst : Instance} {pc : ManagerPc}
    (hnot : pc.updating = false) (h : manageInstance cfg s i inst pc = some s') :
    s'.activeGauge = s.activeGauge := by
  cases pc with
  | queuedForToken r => cases h
  | updateGauge r old new => cases hnot
  | waitForTrigger =>
      simp only [manageInstance] at h
      split at h <;> cases h
      rfl
  | drain r =>
      simp only [manageInstance] at h
      split at h <;>
      · cases h
        rfl
  | releaseToken r =>
      cases h
      exact activeGauge_releaseRecycleToken s
  | _ =>
      cases h
      rfl

/-- A step that is no gauge update leaves what the gauge has been told, once the pool is
    handed out. -/
theorem step_told (h : step cfg s a = some s') (hready : s.ready = true)
    (hnot : ∀ i inst, a = .manage i → s.instances[i]? = some inst →
      inst.manager.updating = false) : s'.told = s.told := by
  have hlen : s'.instances.length = s.instances.length := by
    rcases step_shape h with hsh | ⟨hfalse, -, -⟩ | ⟨hfull, hsh⟩
    · exact congrArg Prod.fst hsh
    · exact absurd hready (by simp [hfalse])
    · exact (congrArg Prod.fst hsh).trans hfull.symm
  have hmap : s'.instances.map Instance.told = s.instances.map Instance.told := by
    apply List.ext_getElem?
    intro i
    rw [List.getElem?_map, List.getElem?_map]
    cases hi : s.instances[i]? with
    | none =>
        rw [List.getElem?_eq_none_iff, ← hlen, ← List.getElem?_eq_none_iff] at hi
        rw [hi]
    | some x =>
        obtain ⟨x', hi', hstep⟩ := step_instance_next h hi
        rw [hi', Option.map_some, Option.map_some, hstep.told fun ha => hnot i x ha hi]
  exact congrArg List.sum hmap

/-- The gauge before and after a step that is neither the end of `launch` nor a gauge
    update. -/
theorem step_gauge (h : step cfg s a = some s') (hlaunch : a ≠ .launchReturn)
    (hnot : ∀ i inst, a = .manage i → s.instances[i]? = some inst →
      inst.manager.updating = false) : s'.activeGauge = s.activeGauge := by
  cases step_cases h with
  | launchInstance _ _ | disconnect | drainTimeout _ _ _ | relaunchFailed | checkout _
  | dropCheckout _ | spawnTeardown _ | finishTeardown => rfl
  | launchReturn _ => exact absurd rfl hlaunch
  | @trigger i inst r s' _ _ h =>
      cases r <;>
      · simp only [waitForTrigger] at h
        split at h <;> cases h
        rfl
  | @manage i inst s' hi h => exact manageInstance_gauge (hnot i inst rfl hi) h
  | call _ h => exact checkout_gauge h
  | @cancel c pc s' _ h =>
      cases pc <;> cases h
      · rfl
      · exact activeGauge_releasePermit s _
      · exact activeGauge_releasePermit s _

/-- A gauge update tells the gauge what was due. -/
theorem Instance.told_updateGauge {r : RecycleReason} {old new : Status}
    (hpc : x.manager = .updateGauge r old new)
    (hm : x'.manager = if new = .active then .releaseToken r else .acquireToken r)
    (hst : x'.status = x.status) : x'.told - x.told = gaugeDelta old new := by
  have hnext : x'.manager.updating = false := by
    rw [hm]
    split <;> rfl
  rw [Instance.told, Instance.told, ManagerPc.due_of_not_updating hnext, hst, hpc]
  show _ - 0 - (_ - gaugeDelta old new) = _
  omega

/-- The gauge and what it has been told drift apart in no step after `launch`. -/
theorem step_drift (h : step cfg s a = some s') (hready : s.ready = true) :
    s'.activeGauge - s'.told = s.activeGauge - s.told := by
  by_cases hup : ∃ i inst r old new, a = .manage i ∧ s.instances[i]? = some inst ∧
      inst.manager = .updateGauge r old new
  · obtain ⟨i, inst, r, old, new, rfl, hi, hpc⟩ := hup
    obtain ⟨inst', hi', h⟩ := Option.bind_eq_some_iff.mp h
    obtain rfl : inst = inst' := Option.some.inj (hi.symm.trans hi')
    rw [hpc] at h
    cases h
    -- the gauge and the told of instance `i` grow by the same change
    have hmove : Instance.told
        { inst with manager := if new = .active then .releaseToken r else .acquireToken r }
          - inst.told = gaugeDelta old new := Instance.told_updateGauge hpc rfl rfl
    have hsum := Lib.sum_map_modify hi Instance.told fun x =>
      { x with manager := if new = .active then .releaseToken r else .acquireToken r }
    rw [hmove] at hsum
    show s.activeGauge + gaugeDelta old new - (List.map Instance.told _).sum = _
    rw [setManager_instances, hsum, State.told]
    omega
  · have hnot : ∀ i inst, a = .manage i → s.instances[i]? = some inst →
        inst.manager.updating = false := by
      intro i inst ha hi
      cases hpc : inst.manager with
      | updateGauge r old new => exact absurd ⟨i, inst, r, old, new, ha, hi, hpc⟩ hup
      | _ => rfl
    have hlaunch : a ≠ .launchReturn := by
      rintro rfl
      simp [step, launchReturn, hready] at h
    rw [step_told h hready hnot, step_gauge h hlaunch hnot]

/-- Only the end of `launch` hands the pool out. -/
theorem step_ready_of_ne (h : step cfg s a = some s') (hlaunch : a ≠ .launchReturn) :
    s'.ready = s.ready := by
  cases step_cases h with
  | launchInstance _ _ | disconnect | drainTimeout _ _ _ | relaunchFailed | checkout _
  | dropCheckout _ | spawnTeardown _ | finishTeardown => rfl
  | launchReturn _ => exact absurd rfl hlaunch
  | @trigger i inst r s' _ _ h =>
      cases r <;>
      · simp only [waitForTrigger] at h
        split at h <;> cases h
        rfl
  | manage _ h => exact congrArg Prod.snd (manageInstance_shape h)
  | call _ h => exact congrArg Prod.snd (checkout_shape h)
  | @cancel c pc s' _ h =>
      cases pc <;> cases h
      · rfl
      · exact congrArg Prod.snd (shape_releasePermit s _)
      · exact congrArg Prod.snd (shape_releasePermit s _)

end Step

/-! ## Runs -/

/-- Once the pool is handed out, the gauge is what it has been told. -/
def GaugeTold (s : State) : Prop := s.ready = true → s.activeGauge = s.told

/-- The end of `launch` sets the gauge to what it has been told exactly if no instance is away
    for it. -/
theorem gaugeTold_launchReturn {cfg : PoolConfig} {s s' : State} (hs : AllTracked s)
    (h : step cfg s .launchReturn = some s') :
    GaugeTold s' ↔ SetsWhileAllBack s .launchReturn := by
  cases step_cases h with
  | launchReturn hlen =>
      have htold := hs.told_eq_length_iff
      rw [hlen] at htold
      constructor
      · intro hG _
        exact htold.mp (hG rfl).symm
      · intro hback _
        exact (htold.mpr (hback rfl)).symm

/-- A step after `launch` keeps the gauge at what it has been told, in both directions. -/
theorem gaugeTold_step {cfg : PoolConfig} {s s' : State} {a : Action}
    (h : step cfg s a = some s') (hready : s.ready = true) : GaugeTold s' ↔ GaugeTold s := by
  have hdrift := step_drift h hready
  have hready' : s'.ready = true := by
    by_cases ha : a = .launchReturn
    · subst ha
      simp [step, launchReturn, hready] at h
    · exact (step_ready_of_ne h ha).trans hready
  constructor
  · intro hG _
    have heq := hG hready'
    omega
  · intro hG _
    have heq := hG hready
    omega

/-- A step before the end of `launch` has nothing to keep. -/
theorem gaugeTold_of_ne {cfg : PoolConfig} {s s' : State} {a : Action}
    (h : step cfg s a = some s') (hnot : s.ready = false) (ha : a ≠ .launchReturn) :
    GaugeTold s' := by
  intro hready
  rw [step_ready_of_ne h ha, hnot] at hready
  cases hready

/-- Along a run the gauge stays at what it has been told if and only if no instance is away
    for it when `launch` sets it. -/
theorem gaugeTold_iff {cfg : PoolConfig} {as : List Action} {s : State}
    (hrun : (system cfg).exec State.init as = some s) :
    (system cfg).Along GaugeTold State.init as ↔
      (system cfg).Guarded SetsWhileAllBack State.init as := by
  refine Lib.System.along_iff_guarded AllTracked (fun _ => True)
    (fun s a s' hs h => hs.step h) ?_ ?_ AllTracked.init (fun h => by cases h) hrun
    (.trivial _ _)
  · intro s a s' hs _ hP hG h
    cases hready : s.ready with
    | true => exact (gaugeTold_step h hready).mpr hP
    | false =>
        by_cases ha : a = .launchReturn
        · subst ha
          exact (gaugeTold_launchReturn hs h).mpr hG
        · exact gaugeTold_of_ne h hready ha
  · intro s a s' hs _ h hP ha
    subst ha
    exact (gaugeTold_launchReturn hs h).mp hP rfl

/-- A run that ends with the gauge at what it has been told had it there all along. -/
theorem gaugeTold_along {cfg : PoolConfig} {as : List Action} {s : State}
    (hrun : (system cfg).exec State.init as = some s) (hlast : GaugeTold s) :
    (system cfg).Along GaugeTold State.init as := by
  refine Lib.System.along_of_last GaugeTold ?_ hrun hlast
  intro s a s' h hP hready
  exact (gaugeTold_step h hready).mp hP hready

/-- After `launch`, in a state in which no `set_status` call is between its swap and its gauge
    update, the gauge is the number of active instances if and only if no instance was away
    for it when `launch` set it. -/
theorem gauge_exact_iff (cfg : PoolConfig) (as : List Action) (s : State)
    (hrun : (system cfg).exec State.init as = some s) (hready : s.ready = true)
    (hsettled : Settled s) :
    s.activeGauge = s.activeInstances ↔
      (system cfg).Guarded SetsWhileAllBack State.init as := by
  rw [← told_of_settled hsettled, ← gaugeTold_iff hrun]
  constructor
  · intro hexact
    exact gaugeTold_along hrun fun _ => hexact
  · intro hal
    exact hal.last hrun hready

/-- Instance 0 is recycled after `launch`, and instance 1 has just left service. -/
def agedAfterLaunch : List Action := oneAfterTheOther ++ [.manage 1]

theorem gauge_exact_iff_agedAfterLaunch :
    ∃ s, (system twoByAge).exec State.init agedAfterLaunch = some s ∧
      s.ready = true ∧ Settled s ∧
      (s.activeGauge = s.activeInstances ↔
        (system twoByAge).Guarded SetsWhileAllBack State.init agedAfterLaunch) := by
  have hrun : (system twoByAge).exec State.init agedAfterLaunch
      = some (((system twoByAge).exec State.init agedAfterLaunch).get (by decide)) :=
    (Option.some_get _).symm
  exact ⟨_, hrun, by decide, by decide,
    gauge_exact_iff twoByAge agedAfterLaunch _ hrun (by decide) (by decide)⟩

/-- Instance 0 reaches its age, leaves service and is taken off the gauge while instance 1 is
    still being launched; then `launch` sets the gauge. -/
def agedDuringLaunch : List Action :=
  [.launchInstance, .trigger 0 .age, .manage 0, .manage 0, .launchInstance, .launchReturn]

/-- After `agedDuringLaunch` the gauge is 2 and one instance is active. -/
theorem gauge_exact_agedDuringLaunch :
    ¬ ∀ (cfg : PoolConfig) (as : List Action) (s : State),
        (system cfg).exec State.init as = some s → s.ready = true → Settled s →
        s.activeGauge = s.activeInstances := by
  intro hclaim
  have hrun : (system twoByAge).exec State.init agedDuringLaunch
      = some (((system twoByAge).exec State.init agedDuringLaunch).get (by decide)) :=
    (Option.some_get _).symm
  have hexact := hclaim twoByAge agedDuringLaunch _ hrun (by decide) (by decide)
  revert hexact
  decide

end Pool
end BrowserHeadless
