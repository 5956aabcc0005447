/-
  BrowserHeadless.Pool.InFlight

  The `in_flight` counter of an instance.

  src/capture.rs holds a `Checkout` for the whole capture so that "the instance's
  in-flight / served counters stay accurate".  `checkout` adds to `in_flight`
  before it awaits the lock of `inner`, and the `Checkout` that takes the count
  off again exists only after that await.  A call dropped there (the admission
  timeout drops it wherever it is) leaves its count behind, and the counter is
  exact along exactly those runs in which no call is dropped there
  (`inFlight_exact_iff`).
-/

import BrowserHeadless.Lib.Lists
import BrowserHeadless.Pool.Custody

namespace BrowserHeadless
namespace Pool

/-- How many live `Checkout`s instance `i` has. -/
def State.liveCheckouts (s : State) (i : Nat) : Nat :=
  s.calls.countP fun pc => pc.lease.map Prod.fst = some i

/-- How many `checkout` calls are between their `fetch_add` on instance `i` and
    their return. -/
def State.countingCalls (s : State) (i : Nat) : Nat := s.calls.countP fun pc => pc = .readInner i

/-- The counters are right. -/
structure InFlightExact (s : State) : Prop where
  exact : ∀ i inst, s.instances[i]? = some inst →
    inst.inFlight = s.liveCheckouts i + s.countingCalls i
  /-- The `fetch_sub` of a drop finds a count to take off. -/
  noUnderflow : ∀ (c i : Nat) (b : BrowserId) (inst : Instance),
    s.calls[c]? = some (.subInFlight i b) → s.instances[i]? = some inst → 0 < inst.inFlight
  /-- Zero when no call and no `Checkout` is counted. -/
  idle : ∀ i inst, s.instances[i]? = some inst → (∀ pc ∈ s.calls, pc.counted ≠ some i) →
    inst.inFlight = 0

/-- No call is dropped between its `fetch_add` and its return. -/
def NotCancelledCounting (s : State) (a : Action) : Prop :=
  ∀ c i, a = .cancel c → s.calls[c]? ≠ some (.readInner i)

/-- How many calls instance `i` counts. -/
def State.countedBy (s : State) (i : Nat) : Nat := (s.calls.map CallPc.counted).count (some i)

/-- Every counter is the number of calls it counts. -/
def Tallied (s : State) : Prop := ∀ i st, s.stock i = some st → st.inFlight = s.countedBy i

/-- No counter is below the number of calls it counts. -/
def Covered (s : State) : Prop := ∀ i st, s.stock i = some st → s.countedBy i ≤ st.inFlight

theorem State.countedBy_eq (s : State) (i : Nat) :
    s.countedBy i = s.liveCheckouts i + s.countingCalls i := by
  unfold countedBy liveCheckouts countingCalls
  induction s.calls with
  | nil => rfl
  | cons pc calls ih =>
      rw [List.map_cons, List.count_cons, ih, List.countP_cons, List.countP_cons]
      cases pc <;> simp [CallPc.counted, CallPc.lease] <;> omega

/-- A counted call makes the count positive. -/
theorem State.countedBy_pos {s : State} {c i : Nat} {pc : CallPc} (hc : s.calls[c]? = some pc)
    (hi : pc.counted = some i) : 0 < s.countedBy i := by
  rw [countedBy, List.count_pos_iff, ← hi]
  exact List.mem_map_of_mem (List.mem_of_getElem? hc)

/-- The claim about the counters in terms of the calls they count. -/
theorem inFlightExact_iff {s : State} : InFlightExact s ↔ Tallied s := by
  constructor
  · intro h i st hst
    obtain ⟨inst, hi, rfl⟩ := Option.map_eq_some_iff.mp hst
    rw [s.countedBy_eq]
    exact h.exact i inst hi
  · intro h
    have hexact : ∀ i inst, s.instances[i]? = some inst → inst.inFlight = s.countedBy i :=
      fun i inst hi => h i inst.stock (by rw [State.stock, hi]; rfl)
    constructor
    · intro i inst hi
      rw [hexact i inst hi, s.countedBy_eq]
    · intro c i b inst hc hi
      rw [hexact i inst hi]
      exact State.countedBy_pos hc rfl
    · intro i inst hi hnone
      rw [hexact i inst hi, State.countedBy, List.count_eq_zero]
      intro hmem
      obtain ⟨pc, hpc, hcount⟩ := List.mem_map.mp hmem
      exact hnone pc hpc hcount

/-! ## Counters and calls under the steps of the pool -/

/-- The `fetch_add` of a call. -/
theorem step_addInFlight {cfg : PoolConfig} {s s' : State} {c i : Nat}
    (hc : s.calls[c]? = some (.addInFlight i)) (h : step cfg s (.call c) = some s') :
    s' = (s.modifyInstance i fun x => { x with inFlight := x.inFlight + 1 }).setCall c
      (.readInner i) := by
  rw [step, hc] at h
  exact (Option.some.inj h).symm

/-- The `fetch_sub` of a drop. -/
theorem step_subInFlight {cfg : PoolConfig} {s s' : State} {c i : Nat} {b : BrowserId}
    (hc : s.calls[c]? = some (.subInFlight i b)) (h : step cfg s (.call c) = some s') :
    s' = (s.modifyInstance i fun x => { x with inFlight := fetchSub x.inFlight }).setCall c
      (.addServed i b) := by
  rw [step, hc] at h
  exact (Option.some.inj h).symm

/-- The stock of an instance that a step of a call changes by `f`. -/
theorem stock_modify_setCall {s : State} {c i : Nat} {pc : CallPc} {f : Instance → Instance}
    {st st' : Stock} (hst : s.stock i = some st)
    (hst' : ((s.modifyInstance i f).setCall c pc).stock i = some st') :
    ∃ inst : Instance, st = inst.stock ∧ st' = (f inst).stock := by
  obtain ⟨inst, hi, rfl⟩ := Option.map_eq_some_iff.mp hst
  rw [State.stock_setCall, State.stock, State.modifyInstance_instances,
    List.getElem?_modify_eq, hi] at hst'
  exact ⟨inst, rfl, (Option.some.inj hst').symm⟩

/-- The counter after the `fetch_add` of a call. -/
theorem inFlight_addInFlight {cfg : PoolConfig} {s s' : State} {c i : Nat}
    (hc : s.calls[c]? = some (.addInFlight i)) (h : step cfg s (.call c) = some s')
    {st st' : Stock} (hst : s.stock i = some st) (hst' : s'.stock i = some st') :
    st'.inFlight = st.inFlight + 1 := by
  obtain rfl := step_addInFlight hc h
  obtain ⟨inst, rfl, rfl⟩ := stock_modify_setCall hst hst'
  rfl

/-- The counter after the `fetch_sub` of a drop. -/
theorem inFlight_subInFlight {cfg : PoolConfig} {s s' : State} {c i : Nat} {b : BrowserId}
    (hc : s.calls[c]? = some (.subInFlight i b)) (h : step cfg s (.call c) = some s')
    {st st' : Stock} (hst : s.stock i = some st) (hst' : s'.stock i = some st') :
    st'.inFlight = fetchSub st.inFlight := by
  obtain rfl := step_subInFlight hc h
  obtain ⟨inst, rfl, rfl⟩ := stock_modify_setCall hst hst'
  rfl

/-- Even the `fetch_sub` that wraps changes the counter. -/
theorem fetchSub_ne (n : Nat) : fetchSub n ≠ n := by
  rw [fetchSub]
  split <;> omega

/-- A call that moves changes the count of `j` by what it is counted by before
    and after. -/
theorem countedBy_map_set {s s' : State} {c : Nat} {pc pc' : CallPc}
    (hc : s.calls[c]? = some pc)
    (heq : s'.calls.map CallPc.counted = (s.calls.map CallPc.counted).set c pc'.counted)
    (j : Nat) :
    s'.countedBy j + (if pc.counted = some j then 1 else 0) =
      s.countedBy j + (if pc'.counted = some j then 1 else 0) := by
  have hmap : (s.calls.map CallPc.counted)[c]? = some pc.counted := by
    rw [List.getElem?_map, hc]
    rfl
  rw [State.countedBy, heq]
  exact Lib.count_set_add hmap pc'.counted (some j)

theorem countedBy_setCall {s : State} {c : Nat} {pc : CallPc} (hc : s.calls[c]? = some pc)
    (pc' : CallPc) (j : Nat) :
    (s.setCall c pc').countedBy j + (if pc.counted = some j then 1 else 0) =
      s.countedBy j + (if pc'.counted = some j then 1 else 0) :=
  countedBy_map_set hc (by rw [State.setCall_calls, List.map_set]) j

/-- A call that is counted keeps its place, whoever a released permit wakes. -/
theorem getElem?_releasePermit {s : State} {c i j : Nat} {pc : CallPc}
    (hc : s.calls[c]? = some pc) (hi : pc.counted = some i) :
    (s.releasePermit j).calls[c]? = some pc := by
  rcases s.releasePermit_calls j with h | ⟨k, t, l, hk, h⟩
  · rw [h, hc]
  · have hkc : k ≠ c := by
      rintro rfl
      obtain rfl := Option.some.inj (hk.symm.trans hc)
      cases hi
    rw [h, List.getElem?_set_ne hkc, hc]

/-- A released permit wakes a call that is not counted. -/
theorem countedBy_releasePermit (s : State) (i j : Nat) :
    (s.releasePermit i).countedBy j = s.countedBy j := by
  rcases s.releasePermit_calls i with h | ⟨k, t, l, hk, h⟩
  · rw [State.countedBy, h, State.countedBy]
  · have hset := countedBy_setCall hk (.granted t l) j
    simp only [CallPc.counted, reduceCtorEq, if_false, Nat.add_zero] at hset
    rw [State.countedBy, h]
    exact hset

/-- A counted call that is dropped is not counted any more. -/
theorem countedBy_cancel {s : State} {c i : Nat} (hc : s.calls[c]? = some (.readInner i)) :
    ((s.releasePermit i).setCall c .cancelled).countedBy i + 1 = s.countedBy i := by
  have hset := countedBy_setCall (getElem?_releasePermit (j := i) hc rfl) .cancelled i
  simpa [CallPc.counted, countedBy_releasePermit] using hset

/-- How the counter of an instance and the number of calls it counts change. -/
inductive TallyStep (s : State) (a : Action) (j : Nat) : Nat × Nat → Nat × Nat → Prop where
  | same {n k : Nat} : TallyStep s a j (n, k) (n, k)
  | count {n k : Nat} : TallyStep s a j (n, k) (n + 1, k + 1)
  | uncount {n k : Nat} : TallyStep s a j (n, k + 1) (fetchSub n, k)
  /-- A counted call is dropped and its count stays. -/
  | leak {n k c : Nat} (ha : a = .cancel c) (hc : s.calls[c]? = some (.readInner j)) :
      TallyStep s a j (n, k + 1) (n, k)

/-- A step that leaves the counter of `j` alone leaves its calls alone, or drops
    one that is counted. -/
theorem tallyStep_of_inFlight_eq {cfg : PoolConfig} {s s' : State} {a : Action}
    (h : step cfg s a = some s') {j : Nat} {st st' : Stock} (hst : s.stock j = some st)
    (hst' : s'.stock j = some st') (hsame : st'.inFlight = st.inFlight) :
    TallyStep s a j (st.inFlight, s.countedBy j) (st'.inFlight, s'.countedBy j) := by
  rw [hsame]
  have keep : s'.countedBy j = s.countedBy j →
      TallyStep s a j (st.inFlight, s.countedBy j) (st.inFlight, s'.countedBy j) := by
    intro heq
    rw [heq]
    exact .same
  rcases (step_calls h).map CallPc.counted (fun _ _ => rfl) with
    heq | heq | ⟨c, pc, pc', hc, hm, heq⟩
  · exact keep (by rw [State.countedBy, heq, State.countedBy])
  · refine keep ?_
    rw [State.countedBy, heq, List.count_append, State.countedBy]
    rfl
  · have hk := countedBy_map_set hc heq j
    have keepCounted : pc.counted = pc'.counted →
        TallyStep s a j (st.inFlight, s.countedBy j) (st.inFlight, s'.countedBy j) := by
      intro hcount
      rw [hcount] at hk
      exact keep (by omega)
    cases hm with
    | idle _ hidle hidle' _ => exact keepCounted (hidle.1.trans hidle'.1.symm)
    | carry _ hnone hnone' _ _ => exact keepCounted (hnone.trans hnone'.symm)
    | read _ _ | letGo _ | dropHandle _ => exact keepCounted rfl
    -- the accesses to `in_flight` are to another instance
    | @count i ha =>
        subst ha
        have hij : i ≠ j := by
          rintro rfl
          have hadd := inFlight_addInFlight hc h hst hst'
          omega
        exact keep (by simpa [CallPc.counted, hij] using hk)
    | @uncount i b ha =>
        subst ha
        have hij : i ≠ j := by
          rintro rfl
          have hsub := inFlight_subInFlight hc h hst hst'
          exact fetchSub_ne _ (hsub.symm.trans hsame)
        exact keep (by simpa [CallPc.counted, hij] using hk)
    | cancel ha hhandle =>
        by_cases hcount : pc.counted = some j
        -- a counted call without a handle is between its count and its read
        · cases pc with
          | readInner i =>
              obtain rfl : i = j := Option.some.inj hcount
              have hk' : s.countedBy i = s'.countedBy i + 1 := by
                simpa [CallPc.counted] using hk.symm
              rw [hk']
              exact .leak ha hc
          | live i b | subInFlight i b => cases hhandle
          | _ => cases hcount
        · rw [if_neg hcount, if_neg (by simp [CallPc.counted])] at hk
          exact keep hk

/-- What a step does to a counter and the calls it counts; a fresh instance
    counts none. -/
theorem step_tally {cfg : PoolConfig} {s s' : State} {a : Action} (hs : NoEarlyCalls s)
    (h : step cfg s a = some s') {j : Nat} {st' : Stock} (hst' : s'.stock j = some st') :
    (∃ st, s.stock j = some st ∧
      TallyStep s a j (st.inFlight, s.countedBy j) (st'.inFlight, s'.countedBy j)) ∨
    (st'.inFlight = 0 ∧ s'.countedBy j = 0) := by
  rcases step_stock h hst' with ⟨st, hst, hstep⟩ | ⟨-, -, rfl, -, hcalls, hready⟩
  · refine Or.inl ⟨st, hst, ?_⟩
    cases hstep with
    | same | manager _ _ | drained _ | swap _ _ | dropBrowser _ =>
        exact tallyStep_of_inFlight_eq h hst hst' rfl
    | @count b n c m ha hc =>
        subst ha
        obtain rfl := step_addInFlight hc h
        have hk := countedBy_setCall (s := s.modifyInstance j fun x =>
          { x with inFlight := x.inFlight + 1 }) hc (.readInner j) j
        simp only [CallPc.counted, if_true, reduceCtorEq, if_false, Nat.add_zero] at hk
        rw [hk]
        exact .count
    | @uncount b b' n c m ha hc =>
        subst ha
        obtain rfl := step_subInFlight hc h
        have hk := countedBy_setCall (s := s.modifyInstance j fun x =>
          { x with inFlight := fetchSub x.inFlight }) hc (.addServed j b') j
        simp only [CallPc.counted, if_true, reduceCtorEq, if_false, Nat.add_zero] at hk
        have hk' : s.countedBy j = _ + 1 := hk.symm
        rw [hk']
        exact .uncount
  · refine Or.inr ⟨rfl, ?_⟩
    rw [State.countedBy, hcalls, hs hready]
    rfl

/-! ## The counters along a run -/

/-- What holds of the counters in every state of every run. -/
structure Counted (s : State) : Prop where
  early : NoEarlyCalls s
  entered : EnteredExist s
  covered : Covered s

theorem Counted.init : Counted State.init where
  early := .init
  entered := .init
  covered := by
    intro i st hst
    simp [State.stock, State.init] at hst

theorem Counted.step {cfg : PoolConfig} {s s' : State} {a : Action} (hs : Counted s)
    (h : step cfg s a = some s') : Counted s' where
  early := hs.early.step h
  entered := hs.entered.step h
  covered := by
    intro j st' hst'
    rcases step_tally hs.early h hst' with ⟨st, hst, hstep⟩ | ⟨-, hnone⟩
    · have hle := hs.covered j st hst
      generalize st.inFlight = n, s.countedBy j = k, st'.inFlight = n', s'.countedBy j = k' at *
      cases hstep with
      | same => exact hle
      | count => omega
      -- a counted drop finds its own count, so `fetch_sub` does not wrap
      | uncount =>
          simp only [fetchSub]
          split <;> omega
      | leak _ _ => omega
    · omega

/-- A step that drops no counted call keeps the counters right. -/
theorem tallied_step {cfg : PoolConfig} {s s' : State} {a : Action} (hs : Counted s)
    (hP : Tallied s) (hG : NotCancelledCounting s a) (h : step cfg s a = some s') :
    Tallied s' := by
  intro j st' hst'
  rcases step_tally hs.early h hst' with ⟨st, hst, hstep⟩ | ⟨hzero, hnone⟩
  · have heq := hP j st hst
    generalize st.inFlight = n, s.countedBy j = k, st'.inFlight = n', s'.countedBy j = k' at *
    cases hstep with
    | same => exact heq
    | count => omega
    | uncount =>
        simp only [fetchSub]
        split <;> omega
    | leak ha hc => exact absurd hc (hG _ _ ha)
  · rw [hzero, hnone]

/-- A counted call that is dropped leaves a counter above the calls it counts. -/
theorem notCancelledCounting_of_tallied {cfg : PoolConfig} {s s' : State} {a : Action}
    (hs : Counted s) (h : step cfg s a = some s') (hP : Tallied s') :
    NotCancelledCounting s a := by
  rintro c i rfl hc
  rw [step, hc] at h
  obtain rfl := Option.some.inj h
  -- the instance is there, and its counter covered the call that is dropped
  obtain ⟨inst, hi⟩ : ∃ inst, s.instances[i]? = some inst :=
    ⟨_, List.getElem?_eq_getElem (hs.entered c i _ hc rfl)⟩
  have hst : s.stock i = some inst.stock := by rw [State.stock, hi]; rfl
  have hbefore : s.countedBy i ≤ inst.inFlight := hs.covered i _ hst
  have hafter : inst.inFlight = ((s.releasePermit i).setCall c .cancelled).countedBy i :=
    hP i inst.stock (by rw [State.stock_setCall, State.stock_releasePermit, hst])
  have hdrop := countedBy_cancel hc
  omega

/-- Along a run of the pool every counter is exact in every state if and only if
    no call is dropped between its `fetch_add` and its return. -/
theorem inFlight_exact_iff (cfg : PoolConfig) (as : List Action)
    (hrun : ((system cfg).exec State.init as).isSome = true) :
    (system cfg).Along InFlightExact State.init as ↔
      (system cfg).Guarded NotCancelledCounting State.init as := by
  obtain ⟨t, ht⟩ := Option.isSome_iff_exists.mp hrun
  have hTallied : InFlightExact = Tallied := funext fun s => propext inFlightExact_iff
  rw [hTallied]
  refine Lib.System.along_iff_guarded Counted (fun _ => True)
    (fun s a s' hs h => hs.step h)
    (fun s a s' hs _ hP hG h => tallied_step hs hP hG h)
    (fun s a s' hs _ h hP => notCancelledCounting_of_tallied hs h hP)
    Counted.init ?_ ht (.trivial _ _)
  intro i st hst
  simp [State.stock, State.init] at hst

/-- One instance with two pages that is never recycled. -/
def onePool : PoolConfig where
  poolSize := 1
  pagesPerInstance := 2
  recycleAfterRequests := 0
  recycleAfter := none
  poolSize_pos := Nat.one_pos
  pagesPerInstance_pos := Nat.two_pos

/-- A call scans the pool, takes a permit and is counted. -/
def untilCounted (c : Nat) : List Action := .checkout :: List.replicate 6 (.call c)

/-- A call returns and its `Checkout` is dropped. -/
def checkoutAndDrop : List Action :=
  [.launchInstance, .launchReturn] ++ untilCounted 0 ++
    [.call 0, .dropCheckout 0, .call 0, .call 0, .call 0, .call 0]

/-- The counter of `checkoutAndDrop` goes up and down with its `Checkout`. -/
theorem inFlight_exact_iff_dropped :
    ((system onePool).exec State.init checkoutAndDrop).isSome = true ∧
    ((system onePool).Along InFlightExact State.init checkoutAndDrop ↔
      (system onePool).Guarded NotCancelledCounting State.init checkoutAndDrop) :=
  ⟨by decide, inFlight_exact_iff onePool checkoutAndDrop (by decide)⟩

/-- The browser crashes under a counted call, and the admission timeout strikes
    while the call waits for the lock of `inner` that the swap holds. -/
def cancelledCounting : List Action :=
  [.launchInstance, .launchReturn] ++ untilCounted 0 ++
    [.disconnect 0, .trigger 0 .crash, .manage 0, .manage 0, .manage 0, .cancel 0, .manage 0]

/-- After `cancelledCounting` no call and no `Checkout` is left, and `in_flight`
    is one. -/
theorem inFlight_leaks :
    ¬ ∀ (cfg : PoolConfig) (as : List Action),
        ((system cfg).exec State.init as).isSome = true →
        (system cfg).Along InFlightExact State.init as := by
  intro hclaim
  have hal := hclaim onePool cancelledCounting (by decide)
  have hrun : (system onePool).exec State.init cancelledCounting
      = some (((system onePool).exec State.init cancelledCounting).get (by decide)) :=
    (Option.some_get _).symm
  have hexact := (hal.last hrun).exact 0 _ (List.getElem?_eq_getElem (by decide))
  revert hexact
  decide

end Pool
end BrowserHeadless
