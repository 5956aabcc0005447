/-
  BrowserHeadless.Pool.Recycle

  Zero-downtime recycling.  src/pool.rs promises that at most `MAX_UNAVAILABLE`
  instance is out of service at a time, "so with `pool_size >= 2` callers never
  observe a recycle".

  `manage_instance` stores `Draining` before it takes the recycle token, so the
  token bounds how many instances are replaced at once, not how many have left
  service.  The promise holds along exactly those runs in which no trigger
  takes effect while another instance is still on its way back
  (`recycle_noDowntime_iff`).
-/

import BrowserHeadless.Lib.Lists
import BrowserHeadless.Pool.Service

namespace BrowserHeadless
namespace Pool

/-- How many instances have a status other than `Active`. -/
def State.unavailable (s : State) : Nat :=
  s.instances.countP fun inst => inst.status ≠ .active

/-- The promise of the pool: at most one instance unavailable, and once the
    pool is handed out a caller that looks at all statuses finds an active one. -/
def NoDowntime (s : State) : Prop :=
  s.unavailable ≤ maxUnavailable ∧
  (s.ready = true → ∃ inst ∈ s.instances, inst.status = .active)

/-- A manager stores `Draining` or `Down` only while every other manager is
    waiting for its trigger or back in service. -/
def TriggersAlone (s : State) (a : Action) : Prop :=
  ∀ i inst r, a = .manage i → s.instances[i]? = some inst → inst.manager = .storeStatus r →
    ∀ j other, j ≠ i → s.instances[j]? = some other → other.manager.outOfService = false

/-- What holds in every state of every run: statuses follow the managers, and
    the pool is handed out at its full size. -/
structure Coupled (cfg : PoolConfig) (s : State) : Prop where
  /-- An instance is non-active exactly while its manager is between its two
      status stores. -/
  status : ∀ j v, s.view j = some v → (v.1 ≠ .active ↔ v.2.outOfService = true)
  size_le : s.instances.length ≤ cfg.poolSize
  full : s.ready = true → s.instances.length = cfg.poolSize

theorem Coupled.init (cfg : PoolConfig) : Coupled cfg State.init where
  status := by
    intro j v hv
    simp [State.view, State.init] at hv
  size_le := Nat.zero_le _
  full := by
    intro h
    cases h

/-- A `ViewStep` keeps status and manager together. -/
theorem ViewStep.coupled {a : Action} {j : Nat} {v v' : Status × ManagerPc}
    (h : ViewStep a j v v') (hv : v.1 ≠ .active ↔ v.2.outOfService = true) :
    v'.1 ≠ .active ↔ v'.2.outOfService = true := by
  cases h with
  | move hpc => rwa [hpc]
  | leave => simp [ManagerPc.outOfService]
  | enter => simp [ManagerPc.outOfService]

theorem Coupled.step {cfg : PoolConfig} {s s' : State} {a : Action}
    (hs : Coupled cfg s) (h : step cfg s a = some s') : Coupled cfg s' where
  status := by
    intro j v' hv'
    -- a moved view keeps the coupling, a fresh instance is active and waits
    rcases step_view h hv' with ⟨v, hv, hstep⟩ | rfl
    · exact hstep.coupled (hs.status j v hv)
    · simp [ManagerPc.outOfService]
  size_le := by
    have hle := hs.size_le
    rcases step_shape h with hsh | ⟨-, hlt, hsh⟩ | ⟨hlen, hsh⟩ <;>
    · have h1 := congrArg Prod.fst hsh
      simp only [State.shape] at h1
      omega
  full := by
    intro hready
    rcases step_shape h with hsh | ⟨-, hlt, hsh⟩ | ⟨hlen, hsh⟩
    · have h1 := congrArg Prod.fst hsh
      have h2 := congrArg Prod.snd hsh
      simp only [State.shape] at h1 h2
      rw [h1]
      exact hs.full (h2 ▸ hready)
    · have h2 := congrArg Prod.snd hsh
      simp [State.shape, hready] at h2
    · exact congrArg Prod.fst hsh

/-- At most one unavailable instance, by position. -/
theorem State.unavailable_le_one_iff {s : State} :
    s.unavailable ≤ maxUnavailable ↔
      ∀ i j v w, s.view i = some v → s.view j = some w →
        v.1 ≠ .active → w.1 ≠ .active → i = j := by
  rw [State.unavailable, maxUnavailable, Lib.countP_le_one_iff]
  simp only [State.view, Option.map_eq_some_iff, decide_eq_true_eq]
  constructor
  · rintro h i j _ _ ⟨x, hx, rfl⟩ ⟨y, hy, rfl⟩ hnx hny
    exact h i j x y hx hy hnx hny
  · intro h i j x y hx hy hnx hny
    exact h i j _ _ ⟨x, hx, rfl⟩ ⟨y, hy, rfl⟩ hnx hny

/-- With two instances and at most one unavailable, one is active. -/
theorem exists_active {cfg : PoolConfig} {s : State} (h2 : 2 ≤ cfg.poolSize)
    (hs : Coupled cfg s) (hone : s.unavailable ≤ maxUnavailable) (hready : s.ready = true) :
    ∃ inst ∈ s.instances, inst.status = .active := by
  by_contra hnone
  -- otherwise all `pool_size` instances would be unavailable
  have hall : s.unavailable = s.instances.length := by
    rw [State.unavailable, List.countP_eq_length]
    intro inst hmem
    simpa using fun hact => hnone ⟨inst, hmem, hact⟩
  have hlen := hs.full hready
  simp only [maxUnavailable] at hone
  omega

/-- An instance that is non-active after a step was so before, unless the step
    is its own manager storing the status. -/
theorem nonactive_before {cfg : PoolConfig} {s s' : State} {a : Action}
    (h : step cfg s a = some s') {j : Nat} {v' : Status × ManagerPc}
    (hv' : s'.view j = some v') (hne : v'.1 ≠ .active) :
    (∃ v, s.view j = some v ∧ v.1 ≠ .active) ∨
    (a = .manage j ∧ ∃ st r, s.view j = some (st, .storeStatus r)) := by
  rcases step_view h hv' with ⟨v, hv, hstep⟩ | rfl
  · cases hstep with
    | move _ => exact Or.inl ⟨_, hv, hne⟩
    | leave ha => exact Or.inr ⟨ha, _, _, hv⟩
    | enter => exact absurd rfl hne
  · exact absurd rfl hne

/-- When the manager of `i` triggers alone, no other instance is non-active. -/
theorem TriggersAlone.active_of_ne {cfg : PoolConfig} {s : State} {i j : Nat}
    (hG : TriggersAlone s (.manage i)) (hs : Coupled cfg s)
    {st : Status} {r : RecycleReason} (hi : s.view i = some (st, .storeStatus r))
    {w : Status × ManagerPc} (hj : s.view j = some w) (hne : w.1 ≠ .active) : j = i := by
  by_contra hji
  obtain ⟨inst, hinst, hview⟩ := Option.map_eq_some_iff.mp hi
  obtain ⟨other, hother, rfl⟩ := Option.map_eq_some_iff.mp hj
  have hin := hG i inst r rfl hinst (congrArg Prod.snd hview) j other hji hother
  have hout := (hs.status j _ hj).mp hne
  simp only [Instance.view] at hout
  simp [hin] at hout

/-- A step whose trigger takes effect alone keeps the promise. -/
theorem noDowntime_step {cfg : PoolConfig} {s s' : State} {a : Action} (h2 : 2 ≤ cfg.poolSize)
    (hs : Coupled cfg s) (hP : NoDowntime s) (hG : TriggersAlone s a)
    (h : step cfg s a = some s') : NoDowntime s' := by
  have hone : s'.unavailable ≤ maxUnavailable := by
    rw [State.unavailable_le_one_iff]
    intro i j v' w' hi hj hnv hnw
    -- two non-active instances after the step: each was so before or has just
    -- been stored by its own manager
    rcases nonactive_before h hi hnv with ⟨v, hv, hv1⟩ | ⟨ha, st, r, hv⟩
    · rcases nonactive_before h hj hnw with ⟨w, hw, hw1⟩ | ⟨ha, st, r, hw⟩
      · exact State.unavailable_le_one_iff.mp hP.1 i j v w hv hw hv1 hw1
      · subst ha
        exact hG.active_of_ne hs hw hv hv1
    · subst ha
      rcases nonactive_before h hj hnw with ⟨w, hw, hw1⟩ | ⟨ha, -⟩
      · exact (hG.active_of_ne hs hv hw hw1).symm
      · exact Action.manage.inj ha
  exact ⟨hone, exists_active h2 (hs.step h) hone⟩

/-- A step that stores a non-active status next to an instance out of service
    breaks the promise. -/
theorem triggersAlone_of_noDowntime {cfg : PoolConfig} {s s' : State} {a : Action}
    (hs : Coupled cfg s) (h : step cfg s a = some s') (hP : NoDowntime s') :
    TriggersAlone s a := by
  rintro i inst r rfl hi hpc j other hji hj
  by_contra hout
  obtain ⟨inst', hi', h⟩ := Option.bind_eq_some_iff.mp h
  obtain rfl : inst = inst' := Option.some.inj (hi.symm.trans hi')
  rw [hpc] at h
  cases h
  -- after the step both `i` and `j` are non-active, so they are one instance
  have hvi := State.view_modifyInstance_self (s := s) hi fun x =>
    { x with status := r.status, manager := .updateGauge r inst.status r.status }
  have hvj : s.view j = some other.view := by simp [State.view, hj]
  have hne : other.view.1 ≠ .active := (hs.status j _ hvj).mpr (by simpa [Instance.view] using hout)
  rw [← State.view_modifyInstance_ne s (Ne.symm hji)] at hvj
  exact hji (State.unavailable_le_one_iff.mp hP.1 j i _ _ hvj hvi hne r.status_ne_active)

/-- Along a run of a pool of two or more instances the promise holds in every
    state if and only if every trigger takes effect alone. -/
theorem recycle_noDowntime_iff (cfg : PoolConfig) (h2 : 2 ≤ cfg.poolSize) (as : List Action)
    (hrun : ((system cfg).exec State.init as).isSome = true) :
    (system cfg).Along NoDowntime State.init as ↔
      (system cfg).Guarded TriggersAlone State.init as := by
  obtain ⟨t, ht⟩ := Option.isSome_iff_exists.mp hrun
  -- the exact guard rule, with the coupling as the invariant of all runs
  refine Lib.System.along_iff_guarded (Coupled cfg) (fun _ => True)
    (fun s a s' hs h => hs.step h)
    (fun s a s' hs _ hP hG h => noDowntime_step h2 hs hP hG h)
    (fun s a s' hs _ h hP => triggersAlone_of_noDowntime hs h hP)
    (Coupled.init cfg) ?_ ht (.trivial _ _)
  refine ⟨?_, ?_⟩
  · decide
  · intro h
    cases h

/-- Two instances, one page each, recycled by age only. -/
def twoByAge : PoolConfig where
  poolSize := 2
  pagesPerInstance := 1
  recycleAfterRequests := 0
  recycleAfter := some 1
  poolSize_pos := Nat.two_pos
  pagesPerInstance_pos := Nat.one_pos

/-- Instance 0 is recycled and comes back before instance 1 triggers. -/
def oneAfterTheOther : List Action :=
  [.launchInstance, .launchInstance, .launchReturn, .trigger 0 .age] ++
    List.replicate 11 (.manage 0) ++ [.trigger 1 .age, .manage 1]

/-- The rolling recycle of `oneAfterTheOther` is a run the equivalence is
    about. -/
theorem recycle_noDowntime_iff_rolling :
    2 ≤ twoByAge.poolSize ∧
    ((system twoByAge).exec State.init oneAfterTheOther).isSome = true ∧
    ((system twoByAge).Along NoDowntime State.init oneAfterTheOther ↔
      (system twoByAge).Guarded TriggersAlone State.init oneAfterTheOther) :=
  ⟨by decide, by decide, recycle_noDowntime_iff twoByAge (by decide) oneAfterTheOther (by decide)⟩

/-- Both instances reach their age, and both managers store `Draining` before
    either takes the recycle token. -/
def bothAtOnce : List Action :=
  [.launchInstance, .launchInstance, .launchReturn, .trigger 0 .age, .trigger 1 .age,
    .manage 0, .manage 1]

/-- The promise fails without any browser ever disconnecting: after
    `bothAtOnce` no instance is active, and the next `checkout` call returns
    `Err(())`. -/
theorem recycle_noDowntime_overlap :
    ¬ ∀ cfg : PoolConfig, 2 ≤ cfg.poolSize → ∀ as : List Action,
        (∀ i, Action.disconnect i ∉ as) →
        ((system cfg).exec State.init as).isSome = true →
        (system cfg).Along NoDowntime State.init as := by
  intro hclaim
  have hal := hclaim twoByAge (by decide) bothAtOnce (by simp [bothAtOnce]) (by decide)
  have hrun : (system twoByAge).exec State.init bothAtOnce
      = some (((system twoByAge).exec State.init bothAtOnce).get (by decide)) :=
    (Option.some_get _).symm
  have hlast := (hal.last hrun).1
  revert hlast
  decide

end Pool
end BrowserHeadless
