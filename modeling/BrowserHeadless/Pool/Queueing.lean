/-
  BrowserHeadless.Pool.Queueing

  When a `checkout` call has to wait.

  README.md: "Requests beyond `POOL_SIZE × MAX_PAGES` queue", and src/pool.rs says
  of the wait that it has the "same queueing behaviour as the original single
  semaphore".  A call chooses its instance before it waits, and waits there: it
  may join a queue while another instance has a free permit, and a permit that
  becomes free elsewhere does not reach it.  These are the only two ways in which a
  call waits next to a free permit (`checkout_workConserving_iff`).
-/

import BrowserHeadless.Pool.Permits
import BrowserHeadless.Pool.Recycle

namespace BrowserHeadless
namespace Pool

open Lib (Semaphore)

/-- Every instance is in service. -/
def AllActive (s : State) : Prop :=
  ∀ (i : Nat) (inst : Instance), s.instances[i]? = some inst → inst.status = .active

/-- How many captures have a page permit. -/
def State.capturesInProgress (s : State) : Nat := s.calls.countP fun pc => pc.permit.isSome

/-- A call waits only while the whole pool is busy. -/
structure WorkConserving (cfg : PoolConfig) (s : State) : Prop where
  noneFree : ∀ (c t i : Nat), s.calls[c]? = some (.parked t i) → ∀ (j : Nat) (inst : Instance),
    s.instances[j]? = some inst → inst.status = .active → inst.permits.availablePermits = 0
  allInUse : ∀ (c t i : Nat), s.calls[c]? = some (.parked t i) →
    s.capturesInProgress = cfg.poolSize * cfg.pagesPerInstance

/-- A call joins a queue only when no instance has a free permit, and a permit that
    nobody waits for on its instance comes back only when nobody waits on any
    other. -/
structure QueuesWhenFull (s : State) (a : Action) : Prop where
  joins : ∀ (c t i : Nat) (sem : Semaphore Nat), a = .call c →
    s.calls[c]? = some (.acquire t i) → s.pages i = some sem → sem.permits = 0 →
    ∀ j semj, s.pages j = some semj → semj.permits = 0
  frees : ∀ (i : Nat) (sem : Semaphore Nat), s.releases a = some i → s.pages i = some sem →
    sem.waiters = [] → ∀ (c t j : Nat), s.calls[c]? ≠ some (.parked t j)

/-! ## A permit is free nowhere while a call is parked -/

/-- While a call is parked, no semaphore has a free permit. -/
def Saturated (s : State) : Prop :=
  ∀ (c t i : Nat), s.calls[c]? = some (.parked t i) → ∀ j sem, s.pages j = some sem → sem.permits = 0

/-- A call that is parked after another has moved was parked before. -/
theorem parked_of_set {calls : List CallPc} {c d t i : Nat} {pc' : CallPc}
    (hw' : pc'.waitsOn = none) (hd : (calls.set c pc')[d]? = some (.parked t i)) :
    calls[d]? = some (.parked t i) := by
  by_cases hcd : c = d
  · subst hcd
    have hlt : c < (calls.set c pc').length := (List.getElem?_eq_some_iff.mp hd).1
    rw [List.getElem?_set_self (by rwa [List.length_set] at hlt)] at hd
    cases hd
    cases hw'
  · rwa [List.getElem?_set_ne hcd] at hd

/-- What all semaphores show, one of them shows after it was changed. -/
theorem permits_update {pages : Nat → Option (Semaphore Nat)} {i : Nat} {sem' : Semaphore Nat}
    (h : ∀ j sem, pages j = some sem → sem.permits = 0) (hn : sem'.permits = 0) (j : Nat)
    (sem : Semaphore Nat) (hj : Function.update pages i (some sem') j = some sem) :
    sem.permits = 0 := by
  by_cases hji : j = i
  · rw [hji, Function.update_self] at hj
    cases hj
    exact hn
  · rw [Function.update_of_ne hji] at hj
    exact h j sem hj

/-- A permit that comes back is the one of the call that moves. -/
theorem step_releases {cfg : PoolConfig} {s s' : State} {a : Action} {i : Nat}
    (h : step cfg s a = some s') (hrel : s.releases a = some i) :
    ∃ (c : Nat) (pc pc' : CallPc), s.calls[c]? = some pc ∧ pc.permit = some i ∧
      pc.waitsOn = none ∧ pc'.waitsOn = none ∧ s'.pages = (s.releasePermit i).pages ∧
      s'.calls = (s.releasePermit i).calls.set c pc' := by
  cases a with
  | call c =>
      cases hc : s.calls[c]? with
      | none => simp [State.releases, hc] at hrel
      | some pc =>
          have h : checkout cfg s c pc = some s' := by simpa [step, hc] using h
          simp only [State.releases, hc] at hrel
          cases pc with
          | giveBack t j =>
              cases hrel
              cases h
              refine ⟨c, _, _, hc, rfl, rfl, ?_, rfl, rfl⟩
              split <;> rfl
          | dropPermit j =>
              cases hrel
              cases h
              exact ⟨c, _, _, hc, rfl, rfl, rfl, rfl, rfl⟩
          | _ => cases hrel
  | cancel c =>
      cases hc : s.calls[c]? with
      | none => simp [State.releases, hc] at hrel
      | some pc =>
          have h : cancelCheckout s c pc = some s' := by simpa [step, hc] using h
          simp only [State.releases, hc] at hrel
          cases pc with
          | granted t j | readInner j =>
              cases hrel
              cases h
              exact ⟨c, _, _, hc, rfl, rfl, rfl, rfl, rfl⟩
          | _ => cases hrel
  | _ => cases hrel

theorem saturated_step {cfg : PoolConfig} {s s' : State} {a : Action} (hs : Paged cfg s)
    (hP : Saturated s) (hG : QueuesWhenFull s a) (h : step cfg s a = some s') :
    Saturated s' := by
  intro d t i hd
  cases step_pages h with
  | quiet hpages hcalls =>
      rw [hcalls] at hd
      rw [hpages]
      exact hP d t i hd
  | launch hready _ hcalls =>
      rw [hcalls, hs.early hready] at hd
      simp at hd
  | new hpages hcalls =>
      rw [hcalls, List.getElem?_append] at hd
      rw [hpages]
      split at hd
      · exact hP d t i hd
      · rw [List.getElem?_singleton] at hd
        split at hd <;> cases hd
  | move hc hcalls hpages _ _ hw' =>
      rw [hcalls] at hd
      rw [hpages]
      exact hP d t i (parked_of_set hw' hd)
  -- nobody takes a free permit while a call is parked
  | take hc hi hfree _ hcalls =>
      rw [hcalls] at hd
      have hzero := hP d t i (parked_of_set rfl hd) _ _ hi
      omega
  | park ha hc hi hfull hpages _ =>
      rw [hpages]
      exact permits_update (hG.joins _ _ _ _ ha hc hi hfull) (Lib.Semaphore.acquire_of_zero hfull _).2.1
  | @release c k pc pc' hrel hc hcalls hpages hp _ hw' =>
      obtain ⟨sem, hi⟩ := hs.kept.placed c k pc hc (Or.inl hp)
      rw [hcalls] at hd
      have hd := parked_of_set hw' hd
      cases hq : sem.waiters with
      | nil =>
          rw [(State.releasePermit_free hi hq).2] at hd
          exact absurd hd (hG.frees k sem hrel hi hq d t i)
      -- the permit goes to a parked call, so none becomes free
      | cons m ms =>
          obtain ⟨t', hm⟩ := hs.kept.parked k sem hi m (by rw [hq]; exact List.mem_cons_self)
          have hzero := hP m t' k hm
          rw [hpages, (State.releasePermit_wake hi hq hm).1]
          refine permits_update hzero ?_
          rw [(Lib.Semaphore.release_of_cons hq).2.1]
          exact hzero k sem hi
  | @leave c t' k hc hpages hcalls =>
      obtain ⟨sem, hi⟩ := hs.kept.placed c k _ hc (Or.inr rfl)
      have hzero := hP c t' k hc
      rw [hpages sem hi]
      exact permits_update hzero (hzero k sem hi)

/-- A call that joins a queue next to a free permit is parked next to it. -/
theorem joins_of_saturated {cfg : PoolConfig} {s s' : State} {c t i : Nat} {sem : Semaphore Nat}
    (h : step cfg s (.call c) = some s') (hP : Saturated s')
    (hc : s.calls[c]? = some (.acquire t i)) (hi : s.pages i = some sem)
    (hfull : sem.permits = 0) (j : Nat) (semj : Semaphore Nat) (hj : s.pages j = some semj) :
    semj.permits = 0 := by
  obtain ⟨inst, hinst, rfl⟩ := Option.map_eq_some_iff.mp hi
  obtain ⟨hparked, -, -⟩ := Lib.Semaphore.acquire_of_zero hfull c
  have hcalls : s'.calls = s.calls.set c (.parked t i) ∧
      s'.pages = Function.update s.pages i (some (inst.permits.acquire c).2) := by
    simp only [step, hc, Option.bind_some, checkout, hinst, Option.map_some, hparked] at h
    cases h
    exact ⟨rfl, pages_eq_update hinst rfl rfl⟩
  have hd : s'.calls[c]? = some (.parked t i) := by
    rw [hcalls.1, List.getElem?_set_self (List.getElem?_eq_some_iff.mp hc).1]
  by_cases hji : j = i
  · subst hji
    obtain rfl := Option.some.inj (hj.symm.trans hi)
    exact hfull
  · exact hP c t i hd j semj (by rw [hcalls.2, Function.update_of_ne hji, hj])

/-- A permit that becomes free while a call is parked elsewhere is free next to
    it. -/
theorem frees_of_saturated {cfg : PoolConfig} {s s' : State} {a : Action} {i : Nat}
    {sem : Semaphore Nat} (h : step cfg s a = some s') (hP : Saturated s')
    (hrel : s.releases a = some i) (hi : s.pages i = some sem) (hq : sem.waiters = [])
    (d t j : Nat) : s.calls[d]? ≠ some (.parked t j) := by
  intro hd
  obtain ⟨c, pc, pc', hc, hp, hw, -, hpages, hcalls⟩ := step_releases h hrel
  obtain ⟨hfree, hsame⟩ := State.releasePermit_free hi hq
  have hdc : c ≠ d := by
    rintro rfl
    obtain rfl := Option.some.inj (hc.symm.trans hd)
    cases hw
  have hd' : s'.calls[d]? = some (.parked t j) := by
    rw [hcalls, hsame, List.getElem?_set_ne hdc, hd]
  have hzero := hP d t j hd' i sem.release.2 (by rw [hpages, hfree, Function.update_self])
  rw [(Lib.Semaphore.release_of_nil hq).2.1] at hzero
  omega

/-! ## The whole pool is busy -/

/-- With no free permit anywhere, every page of the pool is in use. -/
theorem capturesInProgress_eq {cfg : PoolConfig} {s : State} (hs : Paged cfg s)
    (hsize : s.instances.length = cfg.poolSize)
    (hzero : ∀ j sem, s.pages j = some sem → sem.permits = 0) :
    s.capturesInProgress = cfg.poolSize * cfg.pagesPerInstance := by
  have hcount : s.capturesInProgress = (s.calls.map CallPc.permit).countP Option.isSome := by
    rw [List.countP_map]
    rfl
  have hbelow : ∀ i, some i ∈ s.calls.map CallPc.permit → i < cfg.poolSize := by
    intro i hi
    obtain ⟨pc, hpc, hp⟩ := List.mem_map.mp hi
    obtain ⟨c, hc⟩ := List.mem_iff_getElem?.mp hpc
    obtain ⟨sem, hsem⟩ := hs.kept.placed c i pc hc (Or.inl hp)
    obtain ⟨inst, hinst, -⟩ := Option.map_eq_some_iff.mp hsem
    rw [← hsize]
    exact (List.getElem?_eq_some_iff.mp hinst).1
  rw [hcount, Lib.countP_isSome_eq_sum hbelow]
  have hheld : ∀ i ∈ Finset.range cfg.poolSize,
      (s.calls.map CallPc.permit).count (some i) = cfg.pagesPerInstance := by
    intro i hi
    rw [Finset.mem_range, ← hsize] at hi
    have hsem : s.pages i = some s.instances[i].permits := by
      rw [State.pages, List.getElem?_eq_getElem hi]
      rfl
    have hkept := hs.kept.conserved i _ hsem
    rw [hzero i _ hsem, Nat.zero_add] at hkept
    exact hkept
  rw [Finset.sum_const_nat hheld, Finset.card_range]

/-- Permits and size of the pool in every state of every run. -/
structure Sized (cfg : PoolConfig) (s : State) : Prop where
  paged : Paged cfg s
  coupled : Coupled cfg s

theorem Sized.step {cfg : PoolConfig} {s s' : State} {a : Action} (hs : Sized cfg s)
    (h : step cfg s a = some s') : Sized cfg s' := ⟨hs.paged.step h, hs.coupled.step h⟩

/-- Only its manager takes an instance out of service. -/
theorem allActive_step {cfg : PoolConfig} {s s' : State} {a : Action} (hs : AllActive s)
    (ha : ∀ i, a ≠ .manage i) (h : step cfg s a = some s') : AllActive s' := by
  intro i inst hi
  by_contra hne
  have hview : s'.view i = some inst.view := by rw [State.view, hi]; rfl
  rcases nonactive_before h hview hne with ⟨v, hv, hv1⟩ | ⟨hmanage, -⟩
  · obtain ⟨before, hbefore, rfl⟩ := Option.map_eq_some_iff.mp hv
    exact hv1 (hs i before hbefore)
  · exact ha i hmanage

/-- With every instance in service, calls wait only when the pool is busy if no
    semaphore has a free permit while one is parked. -/
theorem workConserving_iff {cfg : PoolConfig} {s : State} (hs : Sized cfg s)
    (hactive : AllActive s) : WorkConserving cfg s ↔ Saturated s := by
  constructor
  · intro h c t i hc j sem hj
    obtain ⟨inst, hinst, rfl⟩ := Option.map_eq_some_iff.mp hj
    exact h.noneFree c t i hc j inst hinst (hactive j inst hinst)
  · intro h
    constructor
    · intro c t i hc j inst hinst _
      exact h c t i hc j inst.permits (by rw [State.pages, hinst]; rfl)
    · intro c t i hc
      refine capturesInProgress_eq hs.paged (hs.coupled.full ?_) (h c t i hc)
      -- a call is parked, so the pool has been handed out
      by_contra hready
      rw [hs.paged.early (Bool.eq_false_iff.mpr hready)] at hc
      simp at hc

/-- Along a run in which every instance stays in service, a call waits only when
    all pages of the pool are in use, in every state, if and only if calls queue
    where nothing is free and permits come back where they are wanted. -/
theorem checkout_workConserving_iff (cfg : PoolConfig) (as : List Action)
    (hrun : ((system cfg).exec State.init as).isSome = true)
    (hactive : (system cfg).Along AllActive State.init as) :
    (system cfg).Along (WorkConserving cfg) State.init as ↔
      (system cfg).Guarded QueuesWhenFull State.init as := by
  obtain ⟨t, ht⟩ := Option.isSome_iff_exists.mp hrun
  have hsized : (system cfg).Along (Sized cfg) State.init as :=
    Lib.System.along_of_invariant (Sized cfg) (fun _ _ => True)
      (fun s a s' hs _ h => hs.step h) ⟨.init cfg, .init cfg⟩ (.trivial _ _)
  have hboth : (system cfg).Along (fun s => Sized cfg s ∧ AllActive s) State.init as :=
    hsized.combine (fun s hs ha => ⟨hs, ha⟩) hactive
  have hsame : (system cfg).Along (WorkConserving cfg) State.init as ↔
      (system cfg).Along Saturated State.init as := by
    constructor
    · exact fun h => h.combine (fun s hw hb => (workConserving_iff hb.1 hb.2).mp hw) hboth
    · exact fun h => h.combine (fun s hw hb => (workConserving_iff hb.1 hb.2).mpr hw) hboth
  rw [hsame]
  refine Lib.System.along_iff_guarded (Paged cfg) (fun _ => True)
    (fun s a s' hs h => hs.step h)
    (fun s a s' hs _ hP hG h => saturated_step hs hP hG h) ?_
    (.init cfg) ?_ ht (.trivial _ _)
  · intro s a s' _ _ h hP
    constructor
    · rintro c t i sem rfl hc hi hfull
      exact joins_of_saturated h hP hc hi hfull
    · exact fun i sem hrel hi hq => frees_of_saturated h hP hrel hi hq
  · intro c t i hc
    simp [State.init] at hc

/-- Two instances of one page each that stay in service. -/
def twoPages : PoolConfig where
  poolSize := 2
  pagesPerInstance := 1
  recycleAfterRequests := 0
  recycleAfter := none
  poolSize_pos := Nat.two_pos
  pagesPerInstance_pos := Nat.one_pos

/-- A call scans both instances and takes a permit, or parks. -/
def untilAcquired (c : Nat) : List Action := .checkout :: List.replicate 6 (.call c)

/-- A call goes on to its return, and its `Checkout` is dropped. -/
def returnAndDrop (c : Nat) : List Action :=
  [.call c, .call c, .call c, .dropCheckout c] ++ List.replicate 4 (.call c)

/-- Three calls, one after the other: two have a page each, the third waits for
    the page of the first and gets it. -/
def thirdWaits : List Action :=
  [.launchInstance, .launchInstance, .launchReturn] ++ untilAcquired 0 ++ untilAcquired 1 ++
    untilAcquired 2 ++ returnAndDrop 0

/-- Without a step of a manager every instance stays in service. -/
theorem along_allActive {cfg : PoolConfig} {as : List Action}
    (h : ∀ a ∈ as, ∀ i, a ≠ .manage i) : (system cfg).Along AllActive State.init as := by
  refine Lib.System.along_of_invariant AllActive (fun _ a => ∀ i, a ≠ .manage i)
    (fun s a s' hs ha hstep => allActive_step hs ha hstep) ?_ (.of_forall fun a ha _ => h a ha)
  intro i inst hi
  simp [State.init] at hi

/-- The third call of `thirdWaits` waits for a busy pool. -/
theorem checkout_workConserving_iff_third :
    ((system twoPages).exec State.init thirdWaits).isSome = true ∧
    (system twoPages).Along AllActive State.init thirdWaits ∧
    ((system twoPages).Along (WorkConserving twoPages) State.init thirdWaits ↔
      (system twoPages).Guarded QueuesWhenFull State.init thirdWaits) := by
  have hactive : (system twoPages).Along AllActive State.init thirdWaits :=
    along_allActive (by simp [thirdWaits, untilAcquired, returnAndDrop])
  exact ⟨by decide, hactive, checkout_workConserving_iff twoPages thirdWaits (by decide) hactive⟩

/-- The third call waits on the instance of the first, and the page of the second
    comes back. -/
def waitsElsewhere : List Action :=
  [.launchInstance, .launchInstance, .launchReturn] ++ untilAcquired 0 ++ untilAcquired 1 ++
    untilAcquired 2 ++ returnAndDrop 1

/-- After `waitsElsewhere` a call is parked next to a free permit. -/
theorem checkout_waits_next_to_free :
    ¬ ∀ (cfg : PoolConfig) (as : List Action),
        ((system cfg).exec State.init as).isSome = true →
        (system cfg).Along AllActive State.init as →
        (system cfg).Along (WorkConserving cfg) State.init as := by
  intro hclaim
  have hactive : (system twoPages).Along AllActive State.init waitsElsewhere :=
    along_allActive (by simp [waitsElsewhere, untilAcquired, returnAndDrop])
  have hal := hclaim twoPages waitsElsewhere (by decide) hactive
  have hrun : (system twoPages).exec State.init waitsElsewhere
      = some (((system twoPages).exec State.init waitsElsewhere).get (by decide)) :=
    (Option.some_get _).symm
  have hlast := (hal.last hrun).noneFree 2 0 1 (by decide) 0 _
    (List.getElem?_eq_getElem (by decide)) (by decide)
  revert hlast
  decide

end Pool
end BrowserHeadless
