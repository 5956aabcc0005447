/-
  BrowserHeadless.Pool.Drain

  A voluntary recycle that waited for the captures in flight.

  src/pool.rs: `relaunch` replaces the browser with the comment that "after drain
  there are no other holders".  `checkout` looks at the status once more after it
  got its permit, and only then adds to `in_flight`: a call that has passed that
  check is not seen by `drain` yet.  If it goes on while the new chromium starts,
  it reads the browser that is about to be replaced.  This is the only way
  (`drain_sound_iff`).
-/

import BrowserHeadless.Pool.Handles
import BrowserHeadless.Pool.InFlight

namespace BrowserHeadless
namespace Pool

/-- Along the run `as`, whenever a recycle replaces a browser after `drain` saw
    `in_flight` at zero, no live `Checkout` holds that browser then or later. -/
def DrainSound (cfg : PoolConfig) (as : List Action) : Prop :=
  ∀ (pre post : List Action) (i : Nat) (s s' : State) (inst : Instance) (r : RecycleReason),
    as = pre ++ .manage i :: post → (system cfg).exec State.init pre = some s →
    s.instances[i]? = some inst → inst.manager = .relaunch r true →
    step cfg s (.manage i) = some s' →
    ¬ s.leases inst.browser ∧ (system cfg).Along (fun t => ¬ t.leases inst.browser) s' post

/-- While a drained instance waits for its new browser nobody has the old one. -/
def DrainedEmpty (s : State) : Prop :=
  ∀ (i : Nat) (inst : Instance) (r : RecycleReason), s.instances[i]? = some inst →
    inst.manager = .relaunch r true → ¬ s.leases inst.browser

/-- No call reads the browser of an instance that has been drained and waits for
    its new browser. -/
def NoReadAfterDrain (s : State) (a : Action) : Prop :=
  ∀ (c i : Nat) (inst : Instance) (r : RecycleReason), a = .call c →
    s.calls[c]? = some (.readInner i) → s.instances[i]? = some inst →
    inst.manager ≠ .relaunch r true

/-! ## The drained instance -/

/-- A manager that waits for a new browser after a drain has just seen `in_flight`
    at zero, or stood there before. -/
theorem step_drained {cfg : PoolConfig} {s s' : State} {a : Action} (h : step cfg s a = some s')
    {j : Nat} {st' : Stock} (hj : s'.stock j = some st') {r : RecycleReason}
    (hpc : st'.manager = .relaunch r true) :
    ∃ st, s.stock j = some st ∧ st.browser = st'.browser ∧
      (st.manager = .relaunch r true ∨ (a = .manage j ∧ st.inFlight = 0)) := by
  rcases step_stock h hj with ⟨st, hst, hstep⟩ | ⟨-, -, rfl, -, -, -⟩
  · refine ⟨st, hst, ?_⟩
    cases hstep with
    | same | count _ _ | uncount _ _ => exact ⟨rfl, Or.inl hpc⟩
    | manager _ hnot =>
        simp only at hpc
        rw [hpc] at hnot
        cases hnot
    | drained ha => exact ⟨rfl, Or.inr ⟨ha, rfl⟩⟩
    | swap _ _ | dropBrowser _ => cases hpc
  · cases hpc

/-- With `in_flight` at zero no live `Checkout` holds the browser. -/
theorem not_leases_of_inFlight_zero {s : State} (hn : Named s) (hc : Counted s) {i : Nat}
    {st : Stock} (hst : s.stock i = some st) (hzero : st.inFlight = 0) :
    ¬ s.leases st.browser := by
  rintro ⟨c, k, pc, hpc, hb⟩
  obtain rfl : k = i := hn.home c k i pc st.browser st hpc hb hst rfl
  have hpos := State.countedBy_pos hpc (CallPc.counted_of_lease hb)
  have hle := hc.covered k st hst
  omega

/-! ## Along a run -/

/-- Names and counters in every state of every run. -/
structure Kept (s : State) : Prop where
  named : Named s
  counted : Counted s

theorem Kept.step {cfg : PoolConfig} {s s' : State} {a : Action} (hs : Kept s)
    (h : step cfg s a = some s') : Kept s' := ⟨hs.named.step h, hs.counted.step h⟩

theorem drainedEmpty_step {cfg : PoolConfig} {s s' : State} {a : Action} (hs : Kept s)
    (hP : DrainedEmpty s) (hG : NoReadAfterDrain s a) (h : step cfg s a = some s') :
    DrainedEmpty s' := by
  intro i inst' r hi' hpc'
  have hst' : s'.stock i = some inst'.stock := by rw [State.stock, hi']; rfl
  obtain ⟨st, hst, hbrowser, hbefore⟩ := step_drained h hst' hpc'
  obtain ⟨inst, hi, rfl⟩ := Option.map_eq_some_iff.mp hst
  -- nobody had the browser before the step
  have hnone : ¬ s.leases inst.browser := by
    rcases hbefore with hpc | ⟨-, hzero⟩
    · exact hP i inst r hi hpc
    · exact not_leases_of_inFlight_zero hs.named hs.counted hst hzero
  have hsame : inst'.browser = inst.browser := hbrowser.symm
  rw [hsame]
  rintro ⟨c, k, pc', hc', hb⟩
  rcases step_lease h hc' hb with ⟨pc, hc, hold⟩ | ⟨rfl, hc, other, hk, heq⟩
  · exact hnone ⟨c, k, pc, hc, hold⟩
  -- a call has read it now: the manager was at the swap already
  · have hother : s.stock k = some other.stock := by rw [State.stock, hk]; rfl
    obtain rfl : k = i := hs.named.distinct k i other.stock inst.stock hother hst heq
    rcases hbefore with hpc | ⟨hmanage, -⟩
    · exact hG c k inst r rfl hc hi hpc
    · cases hmanage

/-- A read after the drain leaves a `Checkout` with the browser. -/
theorem noReadAfterDrain_of_drainedEmpty {cfg : PoolConfig} {s s' : State} {a : Action}
    (h : step cfg s a = some s') (hP : DrainedEmpty s') : NoReadAfterDrain s a := by
  rintro c i inst r rfl hc hi hpc
  rw [step, hc] at h
  have h' : (s.instances[i]?.map fun x => s.setCall c (.live i x.browser)) = some s' := h
  rw [hi] at h'
  obtain rfl := Option.some.inj h'
  refine hP i inst r hi hpc ⟨c, i, .live i inst.browser, ?_, rfl⟩
  rw [State.setCall_calls, List.getElem?_set_self (List.getElem?_eq_some_iff.mp hc).1]

/-- A drained instance whose browser nobody has is recycled soundly. -/
theorem drainSound_of_drainedEmpty {cfg : PoolConfig} {as : List Action}
    (h : (system cfg).Along DrainedEmpty State.init as) : DrainSound cfg as := by
  rintro pre post i s s' inst r rfl hpre hi hpc hstep
  have hnone := (h.suffix hpre).head i inst r hi hpc
  have hnamed : Named s := Lib.System.exec_invariant (M := system cfg) Named
    (fun s a s' hs h => hs.step h) .init hpre
  refine ⟨hnone, ?_⟩
  have hst : s.stock i = some inst.stock := by rw [State.stock, hi]; rfl
  -- the swap retires the browser, and a retired browser is not leased again
  have hretired : Retired s' inst.browser :=
    hnamed.retired_of_swap hstep hst (step_swap hi hpc hstep) rfl
  have hgone : ¬ s'.leases inst.browser := by
    rintro ⟨c, k, pc', hc', hb⟩
    rcases step_lease hstep hc' hb with ⟨pc, hc, hold⟩ | ⟨hcall, -⟩
    · exact hnone ⟨c, k, pc, hc, hold⟩
    · cases hcall
  have hal := Lib.System.along_of_invariant (M := system cfg)
    (fun t => Retired t inst.browser ∧ ¬ t.leases inst.browser) (fun _ _ => True)
    (fun t a t' ht _ h => ⟨ht.1.step h, not_leases_step ht.1 ht.2 h⟩)
    ⟨hretired, hgone⟩ (.trivial s' post)
  exact hal.mono fun t ht => ht.2

/-- A voluntary recycle after a drain is sound along every run in which no call
    reads the browser of a drained instance before the swap, and a run in which a
    call does leaves a `Checkout` with a browser about to be replaced. -/
theorem drain_sound_iff (cfg : PoolConfig) (as : List Action)
    (hrun : ((system cfg).exec State.init as).isSome = true) :
    ((system cfg).Guarded NoReadAfterDrain State.init as → DrainSound cfg as) ∧
    ((system cfg).Along DrainedEmpty State.init as ↔
      (system cfg).Guarded NoReadAfterDrain State.init as) := by
  obtain ⟨t, ht⟩ := Option.isSome_iff_exists.mp hrun
  have hiff : (system cfg).Along DrainedEmpty State.init as ↔
      (system cfg).Guarded NoReadAfterDrain State.init as := by
    refine Lib.System.along_iff_guarded Kept (fun _ => True)
      (fun s a s' hs h => hs.step h)
      (fun s a s' hs _ hP hG h => drainedEmpty_step hs hP hG h)
      (fun s a s' _ _ h hP => noReadAfterDrain_of_drainedEmpty h hP)
      ⟨.init, .init⟩ ?_ ht (.trivial _ _)
    intro i inst r hi
    simp [State.init] at hi
  exact ⟨fun hG => drainSound_of_drainedEmpty (hiff.mpr hG), hiff⟩

/-- One instance of one page, recycled by age only. -/
def oneByAge : PoolConfig where
  poolSize := 1
  pagesPerInstance := 1
  recycleAfterRequests := 0
  recycleAfter := some 1
  poolSize_pos := Nat.one_pos
  pagesPerInstance_pos := Nat.one_pos

/-- A call scans the pool, takes a permit and has found the instance active. -/
def untilChecked (c : Nat) : List Action := .checkout :: List.replicate 5 (.call c)

/-- The age triggers; the manager waits for the captures in flight. -/
def ageUntilDrain : List Action := .trigger 0 .age :: List.replicate 3 (.manage 0)

/-- A call returns before the age triggers, its `Checkout` goes, the drain
    succeeds and the browser is replaced. -/
def recycleAfterDrop : List Action :=
  [.launchInstance, .launchReturn] ++ untilChecked 0 ++ [.call 0, .call 0] ++ ageUntilDrain ++
    [.dropCheckout 0, .call 0, .manage 0, .manage 0]

/-- The recycle of `recycleAfterDrop` waits for the `Checkout`. -/
theorem drain_sound_iff_afterDrop :
    ((system oneByAge).exec State.init recycleAfterDrop).isSome = true ∧
    ((system oneByAge).Guarded NoReadAfterDrain State.init recycleAfterDrop →
      DrainSound oneByAge recycleAfterDrop) ∧
    ((system oneByAge).Along DrainedEmpty State.init recycleAfterDrop ↔
      (system oneByAge).Guarded NoReadAfterDrain State.init recycleAfterDrop) :=
  ⟨by decide, drain_sound_iff oneByAge recycleAfterDrop (by decide)⟩

/-- The call has passed the second look at the status when the age triggers.
    `drain` sees `in_flight` at zero; the call goes on while the new chromium
    starts. -/
def checkedBeforeDrain : List Action :=
  [.launchInstance, .launchReturn] ++ untilChecked 0 ++ ageUntilDrain ++
    [.manage 0, .call 0, .call 0]

/-- After `checkedBeforeDrain` the browser of instance 0 is replaced under a live
    `Checkout`. -/
theorem drain_unsound :
    ¬ ∀ (cfg : PoolConfig) (as : List Action),
        ((system cfg).exec State.init as).isSome = true → DrainSound cfg as := by
  intro hclaim
  have hrun : (system oneByAge).exec State.init checkedBeforeDrain
      = some (((system oneByAge).exec State.init checkedBeforeDrain).get (by decide)) :=
    (Option.some_get _).symm
  have hsound := hclaim oneByAge (checkedBeforeDrain ++ [.manage 0]) (by decide)
    checkedBeforeDrain [] 0 _ _ _ .age rfl hrun (List.getElem?_eq_getElem (by decide)) (by decide)
    (Option.some_get (by decide)).symm
  exact hsound.1 ⟨0, 0, .live 0 0, by decide, by decide⟩

end Pool
end BrowserHeadless
