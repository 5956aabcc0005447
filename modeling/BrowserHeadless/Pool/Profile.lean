/-
  BrowserHeadless.Pool.Profile

  A profile directory and the browser that uses it.

  src/pool.rs keeps the `UserDataDir` next to the `Arc<Browser>` so that the
  directory is removed after the browser: `relaunch` drops "the last `Arc<Browser>`
  ref" first and the directory next.  The drop is the last one only if nobody
  else has a handle.  After a crash, after a drain timeout, or with a detached
  teardown task around, somebody may (`profile_outlives_iff`).
-/

import BrowserHeadless.Pool.Drain

namespace BrowserHeadless
namespace Pool

/-- When an old profile directory is dropped, nobody holds its browser. -/
def ProfileOutlives (s : State) (a : Action) : Prop :=
  ∀ (i : Nat) (inst : Instance) (r : RecycleReason) (old : BrowserId), a = .manage i →
    s.instances[i]? = some inst → inst.manager = .dropOldDir r old → ¬ s.holds old

/-! ## Who is left behind -/

/-- The manager of a crashed instance gets the recycle token; it goes on without a drain. -/
def ReplacesCrashed (s : State) (a : Action) (i : Nat) (inst : Instance) : Prop :=
  (a = .manage i ∧ inst.manager = .acquireToken .crash ∧ (s.recycleToken.acquire i).1 = true) ∨
  (inst.manager = .queuedForToken .crash ∧ HandsToken s a i)

/-- A teardown task has a handle to browser `b`, or a `Checkout` in the middle of its drop,
    which `in_flight` does not count any more. -/
def State.lingers (s : State) (b : BrowserId) : Prop :=
  some b ∈ s.teardowns ∨
    ∃ (c : Nat) (pc : CallPc), s.calls[c]? = some pc ∧ pc.handle = some b ∧ pc.lease = none

/-- None of the ways in which a handle to a browser outlives the start of its replacement. -/
structure HandedBack (s : State) (a : Action) : Prop where
  /-- A crash, which nobody waits after. -/
  crash : ∀ (i : Nat) (inst : Instance), s.instances[i]? = some inst →
    ReplacesCrashed s a i inst → ¬ s.holds inst.browser
  /-- The drain deadline. -/
  deadline : ∀ (i : Nat) (inst : Instance), a = .drainTimeout i → s.instances[i]? = some inst →
    ¬ s.holds inst.browser
  /-- A drain that sees `in_flight` at zero, which does not count everybody. -/
  drained : ∀ (i : Nat) (inst : Instance) (r : RecycleReason), a = .manage i →
    s.instances[i]? = some inst → inst.manager = .drain r → inst.inFlight = 0 →
    ¬ s.lingers inst.browser
  /-- A call that has passed its checks before and reads the browser only now. -/
  late : ∀ (c i : Nat) (inst : Instance) (r : RecycleReason) (d : Bool), a = .call c →
    s.calls[c]? = some (.readInner i) → s.instances[i]? = some inst →
    inst.manager ≠ .relaunch r d

/-! ## The browser that is replaced -/

/-- The browser that `relaunch` is about to replace, or has replaced and not let go of. -/
def Instance.leaving (x : Instance) : Option BrowserId :=
  match x.manager with
  | .relaunch _ _ => some x.browser
  | .dropOldBrowser _ old | .dropOldDir _ old => some old
  | _ => none

/-- Nobody holds a browser that is being replaced. -/
def LeavingFree (s : State) : Prop :=
  ∀ (i : Nat) (inst : Instance) (b : BrowserId), s.instances[i]? = some inst →
    inst.leaving = some b → ¬ s.holds b

/-- How `relaunch` of instance `i` begins. -/
inductive StartsRelaunch (s : State) (a : Action) (i : Nat) (x : Instance) : Prop where
  | crash (h : ReplacesCrashed s a i x)
  | deadline (ha : a = .drainTimeout i)
  | drained {r : RecycleReason} (ha : a = .manage i) (hpc : x.manager = .drain r)
      (hzero : x.inFlight = 0)

theorem Instance.leaving_of_manager {x x' : Instance} (hbrowser : x'.browser = x.browser)
    (hmanager : x'.manager = x.manager) : x'.leaving = x.leaving := by
  rw [leaving, leaving, hbrowser, hmanager]

/-- With the token in hand, only a crash leads to `relaunch` at once. -/
theorem Instance.leaving_afterToken {x : Instance} {r : RecycleReason} {b : BrowserId}
    (h : ({ x with manager := .afterToken r } : Instance).leaving = some b) :
    r = .crash ∧ x.browser = b := by
  cases r with
  | crash => exact ⟨rfl, Option.some.inj h⟩
  | age | count => cases h

/-- A browser that is being replaced was being replaced before, or `relaunch` begins. -/
theorem step_leaving {cfg : PoolConfig} {s s' : State} {a : Action} (h : step cfg s a = some s')
    {i : Nat} {x' : Instance} (hi' : s'.instances[i]? = some x') {b : BrowserId}
    (hb : x'.leaving = some b) :
    ∃ x, s.instances[i]? = some x ∧
      (x.leaving = some b ∨ (x.browser = b ∧ StartsRelaunch s a i x)) := by
  rcases step_instance h hi' with ⟨x, hx, hstep⟩ | ⟨-, -, rfl, -⟩
  · refine ⟨x, hx, ?_⟩
    cases hstep with
    | same | permits | disconnect | addInFlight _ _ | subInFlight _ _ | addServed _ _ _
    | notifyRecycle _ _ | register _ _ _ =>
        exact Or.inl ((Instance.leaving_of_manager rfl rfl).symm.trans hb)
    | trigger _ _ _ | notified _ _ _ | storeStatus _ _ | dropOldDir _ _ | resetServed _ _
    | storeActive _ _ | releaseToken _ _ => cases hb
    | checkServed _ _ =>
        rw [Instance.leaving] at hb
        dsimp only at hb
        by_cases hcount : cfg.countReached x.served = true
        · rw [if_pos hcount] at hb
          cases hb
        · rw [if_neg hcount] at hb
          cases hb
    | @updateGauge r _ new _ _ =>
        rw [Instance.leaving] at hb
        dsimp only at hb
        by_cases hnew : new = .active
        · rw [if_pos hnew] at hb
          cases hb
        · rw [if_neg hnew] at hb
          cases hb
    | @acquireToken r m ha hpc hm =>
        rcases hm with ⟨rfl, htoken⟩ | rfl
        · obtain ⟨rfl, rfl⟩ := Instance.leaving_afterToken hb
          exact Or.inr ⟨rfl, .crash (Or.inl ⟨ha, hpc, htoken⟩)⟩
        · cases hb
    | resume hpc hhand =>
        obtain ⟨rfl, rfl⟩ := Instance.leaving_afterToken hb
        exact Or.inr ⟨rfl, .crash (Or.inr ⟨hpc, hhand⟩)⟩
    | drained ha hpc hzero => exact Or.inr ⟨Option.some.inj hb, .drained ha hpc hzero⟩
    | drainTimeout ha _ => exact Or.inr ⟨Option.some.inj hb, .deadline ha⟩
    -- `relaunch` goes on
    | swap _ hpc _ | dropOldBrowser _ hpc =>
        refine Or.inl ?_
        rw [Instance.leaving, hpc]
        exact hb
  · cases hb

/-- A call that reads a browser which is being replaced is late. -/
theorem not_read_leaving {s : State} {a : Action} (hs : Named s) (hG : HandedBack s a)
    {i : Nat} {x : Instance} {b : BrowserId} (hi : s.instances[i]? = some x)
    (hb : x.leaving = some b) {c j : Nat} {inst : Instance} (ha : a = .call c)
    (hc : s.calls[c]? = some (.readInner j)) (hj : s.instances[j]? = some inst) :
    inst.browser ≠ b := by
  intro heq
  have hsi : s.stock i = some x.stock := by rw [State.stock, hi]; rfl
  have hsj : s.stock j = some inst.stock := by rw [State.stock, hj]; rfl
  -- before the swap the browser is still on its instance, later it is on none
  cases hpc : x.manager with
  | relaunch r d =>
      rw [Instance.leaving, hpc] at hb
      have hsame : inst.stock.browser = x.stock.browser := heq.trans (Option.some.inj hb).symm
      obtain rfl : j = i := hs.distinct j i inst.stock x.stock hsj hsi hsame
      obtain rfl : x = inst := Option.some.inj (hi.symm.trans hj)
      exact hG.late c j x r d ha hc hi hpc
  | dropOldBrowser r old | dropOldDir r old =>
      rw [Instance.leaving, hpc] at hb
      obtain rfl := Option.some.inj hb
      exact (hs.outgoing i x.stock old hsi (congrArg ManagerPc.outgoing hpc)).gone j inst.stock
        hsj heq
  | _ =>
      rw [Instance.leaving, hpc] at hb
      cases hb

/-- Whoever holds a browser when `in_flight` is zero lingers. -/
theorem lingers_of_holds {s : State} (hs : Kept s) {i : Nat} {x : Instance}
    (hi : s.instances[i]? = some x) (hzero : x.inFlight = 0) (h : s.holds x.browser) :
    s.lingers x.browser := by
  have hst : s.stock i = some x.stock := by rw [State.stock, hi]; rfl
  have hnone := not_leases_of_inFlight_zero hs.named hs.counted hst hzero
  rcases h with ⟨c, pc, hc, hb⟩ | htask
  · refine Or.inr ⟨c, pc, hc, hb, ?_⟩
    cases pc with
    | live k b | subInFlight k b =>
        obtain rfl := Option.some.inj hb
        exact absurd ⟨c, k, _, hc, rfl⟩ hnone
    | _ => rfl
  · exact Or.inl htask

/-- Where every handle is handed back, nobody is left when `relaunch` begins. -/
theorem not_holds_of_starts {s : State} {a : Action} (hs : Kept s) (hG : HandedBack s a) {i : Nat}
    {x : Instance} (hi : s.instances[i]? = some x) (h : StartsRelaunch s a i x) :
    ¬ s.holds x.browser := by
  cases h with
  | crash h => exact hG.crash i x hi h
  | deadline ha => exact hG.deadline i x ha hi
  | drained ha hpc hzero =>
      exact fun hheld => hG.drained i x _ ha hi hpc hzero (lingers_of_holds hs hi hzero hheld)

/-- The step with which `relaunch` begins is not one of a call. -/
theorem StartsRelaunch.not_call {s : State} {a : Action} {i : Nat} {x : Instance}
    (h : StartsRelaunch s a i x) (c : Nat) : a ≠ .call c := by
  rintro rfl
  cases h with
  | crash h =>
      rcases h with ⟨ha, -⟩ | ⟨-, -, k, y, r, ha, -⟩ <;> cases ha
  | deadline ha => cases ha
  | drained ha _ _ => cases ha

theorem leavingFree_step {cfg : PoolConfig} {s s' : State} {a : Action} (hs : Kept s)
    (hP : LeavingFree s) (hG : HandedBack s a) (h : step cfg s a = some s') :
    LeavingFree s' := by
  intro i x' b hi' hb hheld
  obtain ⟨x, hi, hbefore⟩ := step_leaving h hi' hb
  rcases step_holds h hheld with hold | ⟨c, j, inst, ha, hc, hj, heq⟩
  · rcases hbefore with hleaving | ⟨rfl, hstart⟩
    · exact hP i x b hi hleaving hold
    · exact not_holds_of_starts hs hG hi hstart hold
  · rcases hbefore with hleaving | ⟨-, hstart⟩
    · exact not_read_leaving hs.named hG hi hleaving ha hc hj heq
    · exact hstart.not_call c ha

/-! ## Where a handle is not handed back -/

/-- A manager has nothing to do with the handles of others. -/
theorem holds_manage {cfg : PoolConfig} {s s' : State} {i : Nat}
    (h : step cfg s (.manage i) = some s') (b : BrowserId) : s'.holds b ↔ s.holds b := by
  obtain ⟨inst, -, h⟩ := Option.bind_eq_some_iff.mp h
  have htasks : s'.teardowns = s.teardowns := by
    rcases manageInstance_ledger h with hl | hl <;> exact congrArg Prod.fst hl
  rw [State.holds, State.holds, manageInstance_calls h, htasks]

theorem holds_congr {s s' : State} (hcalls : s'.calls = s.calls)
    (htasks : s'.teardowns = s.teardowns) (b : BrowserId) : s'.holds b ↔ s.holds b := by
  rw [State.holds, State.holds, hcalls, htasks]

/-- The manager of a crashed instance that gets the token goes to `relaunch`. -/
theorem relaunch_of_replacesCrashed {cfg : PoolConfig} {s s' : State} {a : Action} {i : Nat}
    {inst : Instance} (hi : s.instances[i]? = some inst) (hcrash : ReplacesCrashed s a i inst)
    (h : step cfg s a = some s') :
    s'.instances[i]? = some { inst with manager := .relaunch .crash false } ∧
      ∀ b, s'.holds b ↔ s.holds b := by
  rcases hcrash with ⟨rfl, hpc, htoken⟩ | ⟨hpc, hgrant, k, y, r, rfl, hk, hrelease⟩
  · refine ⟨?_, holds_manage h⟩
    rw [step_manage hi, hpc] at h
    obtain rfl := Option.some.inj h
    rw [htoken]
    rw [if_pos rfl, State.setManager_instances, List.getElem?_modify_eq, hi]
    rfl
  · refine ⟨?_, holds_manage h⟩
    rw [step_manage hk, hrelease] at h
    obtain rfl := Option.some.inj h
    have hne : k ≠ i := by
      rintro rfl
      obtain rfl := Option.some.inj (hi.symm.trans hk)
      rw [hpc] at hrelease
      cases hrelease
    rw [State.setManager_instances, List.getElem?_modify_ne _ _ hne]
    simp only [State.releaseRecycleToken, hgrant, State.modifyInstance_instances]
    rw [List.getElem?_modify_eq, hi]
    exact congrArg (fun m => some { inst with manager := ManagerPc.resume m }) hpc

/-- A step that hands no handle back leaves somebody with the browser that `relaunch` replaces
    next. -/
theorem exists_held_of_not_handedBack {cfg : PoolConfig} {s s' : State} {a : Action}
    (h : step cfg s a = some s') (hG : ¬ HandedBack s a) :
    ∃ (i : Nat) (x : Instance) (r : RecycleReason) (d : Bool), s'.instances[i]? = some x ∧
      x.manager = .relaunch r d ∧ s'.holds x.browser := by
  by_contra hnone
  refine hG ⟨?_, ?_, ?_, ?_⟩
  · intro i inst hi hcrash hheld
    -- a crash goes to `relaunch` with the token
    obtain ⟨hi', hholds⟩ := relaunch_of_replacesCrashed hi hcrash h
    exact hnone ⟨i, _, .crash, false, hi', rfl, (hholds _).mpr hheld⟩
  · rintro i inst rfl hi hheld
    -- so does a drain that has run out of time
    cases step_cases h with
    | @drainTimeout _ inst' r hi' hpc _ =>
        obtain rfl := Option.some.inj (hi.symm.trans hi')
        refine hnone ⟨i, { inst with manager := .relaunch r false }, r, false, ?_, rfl, ?_⟩
        · rw [State.setManager_instances, List.getElem?_modify_eq, hi]
          rfl
        · exact (holds_congr rfl rfl _).mpr hheld
  · rintro i inst r rfl hi hpc hzero hlingers
    -- and one that sees `in_flight` at zero
    have hheld : s.holds inst.browser := by
      rcases hlingers with htask | ⟨c, pc, hc, hb, -⟩
      · exact Or.inr htask
      · exact Or.inl ⟨c, pc, hc, hb⟩
    have hholds := (holds_manage h inst.browser).mpr hheld
    rw [step_manage hi, hpc, manageInstance, if_pos hzero] at h
    obtain rfl := Option.some.inj h
    refine hnone ⟨i, { inst with manager := .relaunch r true }, r, true, ?_, rfl, hholds⟩
    rw [State.setManager_instances, List.getElem?_modify_eq, hi]
    rfl
  · rintro c i inst r d rfl hc hi hpc
    -- the manager is there, and the call reads what it replaces
    rw [step, hc] at h
    have h' : (s.instances[i]?.map fun x => s.setCall c (.live i x.browser)) = some s' := h
    rw [hi] at h'
    obtain rfl := Option.some.inj h'
    refine hnone ⟨i, inst, r, d, hi, hpc, Or.inl ⟨c, .live i inst.browser, ?_, rfl⟩⟩
    rw [State.setCall_calls, List.getElem?_set_self (List.getElem?_eq_some_iff.mp hc).1]

/-- The rest of `relaunch`, up to and with the drop of the directory, when nobody else moves. -/
def untilDirDropped (i : Nat) : List Action := List.replicate 3 (.manage i)

/-- A browser that is held when `relaunch` has its successor loses its directory first. -/
theorem not_outlives_of_held (cfg : PoolConfig) {s : State} {i : Nat} {x : Instance}
    {r : RecycleReason} {d : Bool} (hi : s.instances[i]? = some x)
    (hpc : x.manager = .relaunch r d) (hheld : s.holds x.browser) :
    ((system cfg).exec s (untilDirDropped i)).isSome = true ∧
      ¬ (system cfg).Guarded ProfileOutlives s (untilDirDropped i) := by
  -- the swap, the handle of the manager, and the directory
  obtain ⟨s₁, hs₁, hi₁⟩ : ∃ s₁, step cfg s (.manage i) = some s₁ ∧ s₁.instances[i]? = some
      { x with
        browser := s.nextBrowser
        disconnected := false
        manager := .dropOldBrowser r x.browser } := by
    refine ⟨_, (step_manage hi).trans (by rw [hpc]; rfl), ?_⟩
    rw [State.modifyInstance_instances, List.getElem?_modify_eq, hi]
    rfl
  obtain ⟨s₂, hs₂, hi₂⟩ : ∃ s₂, step cfg s₁ (.manage i) = some s₂ ∧ s₂.instances[i]? = some
      { x with
        browser := s.nextBrowser
        disconnected := false
        manager := .dropOldDir r x.browser } := by
    refine ⟨_, (step_manage hi₁).trans rfl, ?_⟩
    rw [State.setManager_instances, List.getElem?_modify_eq, hi₁]
    rfl
  have hs₃ : step cfg s₂ (.manage i) = some (s₂.setManager i (.resetServed r)) :=
    (step_manage hi₂).trans rfl
  constructor
  · exact Option.isSome_iff_exists.mpr ⟨_, ((system cfg).exec_cons_eq_some).mpr ⟨s₁, hs₁,
      ((system cfg).exec_cons_eq_some).mpr ⟨s₂, hs₂,
        ((system cfg).exec_cons_eq_some).mpr ⟨_, hs₃, rfl⟩⟩⟩⟩
  · intro hguard
    have hlast := ((hguard.2 s₁ hs₁).2 s₂ hs₂).1
    exact hlast i _ r x.browser rfl hi₂ rfl
      ((holds_manage hs₂ _).mpr ((holds_manage hs₁ _).mpr hheld))

/-- The directory of a browser outlives it along every run in which all handles are handed back
    in time: before the manager of a crashed instance gets the token, before the drain deadline,
    and with the drain otherwise, and no call reads the browser later.  A step at which one is
    not can be followed by the drop of the directory while somebody holds the browser. -/
theorem profile_outlives_iff (cfg : PoolConfig) (as : List Action)
    (hrun : ((system cfg).exec State.init as).isSome = true) :
    ((system cfg).Guarded HandedBack State.init as →
      (system cfg).Guarded ProfileOutlives State.init as) ∧
    (¬ (system cfg).Guarded HandedBack State.init as →
      ∃ (pre : List Action) (a : Action) (post : List Action) (i : Nat), as = pre ++ a :: post ∧
        ((system cfg).exec State.init (pre ++ a :: untilDirDropped i)).isSome = true ∧
        ¬ (system cfg).Guarded ProfileOutlives State.init (pre ++ a :: untilDirDropped i)) := by
  obtain ⟨t, ht⟩ := Option.isSome_iff_exists.mp hrun
  constructor
  · intro hG
    have hal : (system cfg).Along (fun s => Kept s ∧ LeavingFree s) State.init as := by
      refine Lib.System.along_of_invariant _ HandedBack ?_ ⟨⟨.init, .init⟩, ?_⟩ hG
      · exact fun s a s' hs hG h => ⟨hs.1.step h, leavingFree_step hs.1 hs.2 hG h⟩
      · intro i inst b hi
        simp [State.init] at hi
    refine hal.guarded fun s a hs i inst r old _ hi hpc => hs.2 i inst old hi ?_
    rw [Instance.leaving, hpc]
  · intro hbad
    obtain ⟨pre, a, post, s, rfl, hpre, hG⟩ := Lib.System.exists_of_not_guarded ht hbad
    obtain ⟨s', hstep, -⟩ : ∃ s', step cfg s a = some s' ∧ (system cfg).exec s' post = some t := by
      rw [Lib.System.exec_append, hpre] at ht
      exact ((system cfg).exec_cons_eq_some).mp ht
    -- from that step on nobody moves but the manager
    obtain ⟨i, x, r, d, hi, hpc, hheld⟩ := exists_held_of_not_handedBack hstep hG
    obtain ⟨hsome, hnot⟩ := not_outlives_of_held cfg hi hpc hheld
    obtain ⟨u, hu⟩ := Option.isSome_iff_exists.mp hsome
    refine ⟨pre, a, post, i, rfl, ?_, fun hguard => hnot ?_⟩
    · refine Option.isSome_iff_exists.mpr ⟨u, (system cfg).exec_trans hpre ?_⟩
      exact ((system cfg).exec_cons_eq_some).mpr ⟨s', hstep, hu⟩
    · exact (hguard.suffix hpre).2 s' hstep

/-- One instance of one page that is replaced only when it crashes. -/
def oneByCrash : PoolConfig where
  poolSize := 1
  pagesPerInstance := 1
  recycleAfterRequests := 0
  recycleAfter := none
  poolSize_pos := Nat.one_pos
  pagesPerInstance_pos := Nat.one_pos

/-- A capture has its `Checkout`, and its teardown task the clone of the handle. -/
def withTeardown : List Action :=
  [.launchInstance, .launchReturn, .checkout] ++ List.replicate 7 (.call 0) ++ [.spawnTeardown 0]

/-- The browser goes away; the manager takes the token, launches and swaps. -/
def crashUntilSwap : List Action :=
  [.disconnect 0, .trigger 0 .crash] ++ List.replicate 4 (.manage 0)

/-- The `Checkout` and the teardown task are gone when the manager drops its
    handle. -/
def tornDownBeforeSwap : List Action :=
  withTeardown ++ [.dropCheckout 0, .call 0, .call 0, .call 0, .finishTeardown 0] ++
    crashUntilSwap ++ [.manage 0, .manage 0]

/-- In `tornDownBeforeSwap` everybody has let go when the manager gets the token. -/
theorem profile_outlives_iff_tornDown :
    ((system oneByCrash).exec State.init tornDownBeforeSwap).isSome = true ∧
    ((system oneByCrash).Guarded HandedBack State.init tornDownBeforeSwap →
      (system oneByCrash).Guarded ProfileOutlives State.init tornDownBeforeSwap) ∧
    (¬ (system oneByCrash).Guarded HandedBack State.init tornDownBeforeSwap →
      ∃ (pre : List Action) (a : Action) (post : List Action) (i : Nat),
        tornDownBeforeSwap = pre ++ a :: post ∧
        ((system oneByCrash).exec State.init (pre ++ a :: untilDirDropped i)).isSome = true ∧
        ¬ (system oneByCrash).Guarded ProfileOutlives State.init
          (pre ++ a :: untilDirDropped i)) :=
  ⟨by decide, profile_outlives_iff oneByCrash tornDownBeforeSwap (by decide)⟩

/-- The browser crashes under a capture; the manager drops its handle and then the
    directory while the `Checkout` and the teardown task have theirs. -/
def crashUnderCapture : List Action := withTeardown ++ crashUntilSwap ++ [.manage 0]

/-- `crashUnderCapture` ends where the directory is dropped next. -/
theorem profile_dropped_first :
    ¬ ∀ (cfg : PoolConfig) (as : List Action),
        ((system cfg).exec State.init as).isSome = true →
        (system cfg).Guarded ProfileOutlives State.init as := by
  intro hclaim
  have hrun : (system oneByCrash).exec State.init crashUnderCapture
      = some (((system oneByCrash).exec State.init crashUnderCapture).get (by decide)) :=
    (Option.some_get _).symm
  have hguard := hclaim oneByCrash (crashUnderCapture ++ [.manage 0]) (by decide)
  have hlast := (hguard.suffix hrun).1
  exact hlast 0 _ .crash 0 rfl (List.getElem?_eq_getElem (by decide)) (by decide)
    (Or.inr (by decide))

end Pool
end BrowserHeadless
