/-
  BrowserHeadless.Pool.Wakeup

  The count trigger is not lost.

  `Checkout::drop` adds to `served` and notifies the manager of its instance if
  the threshold is crossed; the manager waits for the notification and re-checks
  `served`.  Notifications do not add up, a poll may take one for an earlier
  crossing, and the reset of `served` comes at any time in between.

  While the manager waits for its trigger and `served` has reached the threshold,
  a notification is pending or a drop is about to send one (`NoLostWakeup`).  If
  every drop goes on and the manager is polled, it does not wait there for ever.
-/

import BrowserHeadless.Lib.Runs
import BrowserHeadless.Pool.Custody

namespace BrowserHeadless
namespace Pool

/-- `Checkout::drop` of call `c` is between its `fetch_add` on the `served` of
    instance `i` and its `notify_one`. -/
def State.notifying (s : State) (c i : Nat) : Prop :=
  ∃ b : BrowserId, s.calls[c]? = some (.notifyRecycle i b)

/-- The manager of instance `i` waits for its trigger although `served` has reached
    the threshold. -/
def Overdue (cfg : PoolConfig) (i : Nat) (s : State) : Prop :=
  ∃ x, s.instances[i]? = some x ∧ x.manager = .waitForTrigger ∧ cfg.countReached x.served = true

/-- A notification is stored for the manager of instance `i` or delivered to it. -/
def Notified (i : Nat) (s : State) : Prop :=
  ∃ x, s.instances[i]? = some x ∧ x.recycleNotify.pending = true

/-- The manager of instance `i` is not waiting for its trigger. -/
def Awake (i : Nat) (s : State) : Prop :=
  ∃ x, s.instances[i]? = some x ∧ x.manager ≠ .waitForTrigger

/-- No overdue manager is without its notification. -/
def NoLostWakeup (cfg : PoolConfig) (s : State) : Prop :=
  ∀ i, Overdue cfg i s → Notified i s ∨ ∃ c, s.notifying c i

/-- The manager has reset `served` and has not taken a notification since. -/
def ManagerPc.awaiting : ManagerPc → Bool
  | storeActive _ | releaseToken _ | waitForTrigger => true
  | updateGauge _ _ new => decide (new = .active)
  | checkServed | storeStatus _ | acquireToken _ | queuedForToken _ | drain _ | relaunch _ _
  | dropOldBrowser _ _ | dropOldDir _ _ | resetServed _ => false

/-- The invariant behind `NoLostWakeup`, which also holds on the way back to the
    wait. -/
def WakeupDue (cfg : PoolConfig) (s : State) : Prop :=
  ∀ i x, s.instances[i]? = some x → x.manager.awaiting = true →
    cfg.countReached x.served = true → x.recycleNotify.pending = true ∨ ∃ c, s.notifying c i

@[simp] theorem PoolConfig.countReached_zero (cfg : PoolConfig) : cfg.countReached 0 = false := by
  rw [countReached, Bool.and_eq_false_iff, decide_eq_false_iff_not, decide_eq_false_iff_not]
  omega

/-- The threshold stays crossed while `served` grows. -/
theorem PoolConfig.countReached_mono {cfg : PoolConfig} {m n : Nat} (hmn : m ≤ n)
    (h : cfg.countReached m = true) : cfg.countReached n = true := by
  rw [countReached, Bool.and_eq_true, decide_eq_true_eq, decide_eq_true_eq] at *
  exact ⟨h.1, Nat.le_trans h.2 hmn⟩

theorem ManagerPc.awaiting_afterToken (r : RecycleReason) :
    (ManagerPc.afterToken r).awaiting = false := by
  cases r <;> rfl

/-- The move of a drop that is about to notify is the `notify_one`. -/
theorem step_notify {cfg : PoolConfig} {s s' : State} {c i : Nat} {x : Instance}
    (hc : s.notifying c i) (hi : s.instances[i]? = some x) (h : step cfg s (.call c) = some s') :
    s'.instances[i]? = some { x with recycleNotify := x.recycleNotify.notifyOne } := by
  obtain ⟨b, hc⟩ := hc
  rw [step, hc] at h
  cases h
  change (s.instances.modify i _)[i]? = _
  rw [List.getElem?_modify_eq, hi]
  rfl

/-- A drop that is about to notify stays there unless it is its turn. -/
theorem step_notifying {cfg : PoolConfig} {s s' : State} {a : Action} {c i : Nat}
    (h : step cfg s a = some s') (hc : s.notifying c i) : s'.notifying c i ∨ a = .call c := by
  obtain ⟨b, hc⟩ := hc
  rcases (step_calls h).stays hc (fun _ _ hp => by cases hp) with hsame | ⟨pc', hm⟩
  · exact Or.inl ⟨b, hsame⟩
  · right
    cases hm with
    | idle ha _ _ _ | carry ha _ _ _ _ => exact ha
    | cancel _ hnone => cases hnone

/-- A due wake-up stays due if the step takes no notification. -/
theorem wakeup_stays {cfg : PoolConfig} {s s' : State} {a : Action} {i : Nat} {x x' : Instance}
    (h : step cfg s a = some s') (hi : s.instances[i]? = some x)
    (hi' : s'.instances[i]? = some x')
    (hkeep : x.recycleNotify.pending = true → x'.recycleNotify.pending = true)
    (hdue : x.recycleNotify.pending = true ∨ ∃ c, s.notifying c i) :
    x'.recycleNotify.pending = true ∨ ∃ c, s'.notifying c i := by
  rcases hdue with hpend | ⟨c, hc⟩
  · exact Or.inl (hkeep hpend)
  · rcases step_notifying h hc with hstay | rfl
    · exact Or.inr ⟨c, hstay⟩
    -- the drop has notified
    · left
      obtain rfl := Option.some.inj (hi'.symm.trans (step_notify hc hi h))
      exact Lib.Notify.pending_notifyOne _

theorem WakeupDue.init (cfg : PoolConfig) : WakeupDue cfg State.init := by
  intro i x hi
  simp [State.init] at hi

theorem WakeupDue.step {cfg : PoolConfig} {s s' : State} {a : Action} (hs : WakeupDue cfg s)
    (h : step cfg s a = some s') : WakeupDue cfg s' := by
  intro i x' hi' hawait hreach
  rcases step_instance h hi' with ⟨x, hi, hstep⟩ | ⟨-, -, rfl, -⟩
  · have hstays := wakeup_stays h hi hi'
    cases hstep with
    | same | permits | disconnect | addInFlight _ _ | subInFlight _ _ =>
        exact hstays id (hs i _ hi hawait hreach)
    -- a `fetch_add` that crosses the threshold goes on to `notify_one`
    | @addServed c b _ _ hc' =>
        rw [if_pos hreach] at hc'
        exact Or.inr ⟨c, b, hc'⟩
    | notifyRecycle _ _ => exact Or.inl (Lib.Notify.pending_notifyOne _)
    -- a poll that finds nothing takes nothing
    | register _ _ hn =>
        have hdue := hs i x hi hawait hreach
        refine hstays ?_ hdue
        intro hpend
        rw [hn] at hpend
        cases hpend
    -- the threshold was not reached when the manager looked
    | checkServed _ _ =>
        by_cases hold : cfg.countReached x.served = true
        · simp [hold, ManagerPc.awaiting] at hawait
        · exact absurd hreach hold
    | @updateGauge r old new _ hpc =>
        by_cases hnew : new = .active
        · refine hstays id (hs i x hi ?_ hreach)
          simp [hpc, hnew, ManagerPc.awaiting]
        · simp [hnew, ManagerPc.awaiting] at hawait
    | resetServed _ _ =>
        rw [PoolConfig.countReached_zero] at hreach
        cases hreach
    | storeActive _ hpc | releaseToken _ hpc =>
        refine hstays id (hs i x hi ?_ hreach)
        rw [hpc]
        rfl
    | @acquireToken r m _ _ hm =>
        rcases hm with ⟨rfl, -⟩ | rfl
        · rw [ManagerPc.awaiting_afterToken] at hawait
          cases hawait
        · cases hawait
    | @resume r _ _ =>
        rw [ManagerPc.awaiting_afterToken] at hawait
        cases hawait
    | storeStatus _ _ => simp [ManagerPc.awaiting] at hawait
    | trigger _ _ _ | notified _ _ _ | drained _ _ _ | drainTimeout _ _ | swap _ _ _
    | dropOldBrowser _ _ | dropOldDir _ _ => cases hawait
  · rw [Instance.fresh, PoolConfig.countReached_zero] at hreach
    cases hreach

/-- An overdue manager awaits its notification. -/
theorem WakeupDue.noLostWakeup {cfg : PoolConfig} {s : State} (hs : WakeupDue cfg s) :
    NoLostWakeup cfg s := by
  rintro i ⟨x, hi, hpc, hreach⟩
  rcases hs i x hi (by rw [hpc]; rfl) hreach with hpend | hc
  · exact Or.inl ⟨x, hi, hpend⟩
  · exact Or.inr hc

theorem noLostWakeup_of_reachable {cfg : PoolConfig} {s : State} (h : (system cfg).Reachable s) :
    NoLostWakeup cfg s :=
  (Lib.System.reachable_invariant (WakeupDue cfg) (WakeupDue.init cfg)
    (fun _ _ _ hs h => hs.step h) h).noLostWakeup

/-! ## The manager wakes up -/

/-- A manager that waits for its trigger leaves only by a trigger.  Until then
    `served` does not fall and no notification is taken. -/
theorem InstanceStep.waiting {cfg : PoolConfig} {s s' : State} {a : Action} {i : Nat}
    {x x' : Instance} (h : InstanceStep cfg s s' a i x x') (hpc : x.manager = .waitForTrigger) :
    x'.manager ≠ .waitForTrigger ∨
    (x'.manager = .waitForTrigger ∧ x.served ≤ x'.served ∧
      (x.recycleNotify.pending = true → x'.recycleNotify.pending = true)) := by
  cases h with
  | same | permits | disconnect | addInFlight _ _ | subInFlight _ _ =>
      exact Or.inr ⟨hpc, Nat.le_refl _, id⟩
  | addServed _ _ _ => exact Or.inr ⟨hpc, Nat.le_succ _, id⟩
  | notifyRecycle _ _ =>
      exact Or.inr ⟨hpc, Nat.le_refl _, fun _ => Lib.Notify.pending_notifyOne _⟩
  | register _ _ hn =>
      refine Or.inr ⟨hpc, Nat.le_refl _, fun hpend => ?_⟩
      rw [hn] at hpend
      cases hpend
  | trigger _ _ _ | notified _ _ _ => exact Or.inl (by simp)
  | checkServed _ hpc' | storeStatus _ hpc' | updateGauge _ hpc' | acquireToken _ hpc' _
  | resume hpc' _ | drained _ hpc' _ | drainTimeout _ hpc' | swap _ hpc' _ | dropOldBrowser _ hpc'
  | dropOldDir _ hpc' | resetServed _ hpc' | storeActive _ hpc' | releaseToken _ hpc' =>
      rw [hpc] at hpc'
      cases hpc'

/-- An overdue manager stays overdue, with what it was notified of, or wakes up. -/
theorem Overdue.step {cfg : PoolConfig} {s s' : State} {a : Action} {i : Nat}
    (hs : Overdue cfg i s) (h : step cfg s a = some s') :
    (Overdue cfg i s' ∧ (Notified i s → Notified i s')) ∨ Awake i s' := by
  obtain ⟨x, hi, hpc, hreach⟩ := hs
  obtain ⟨x', hi', hstep⟩ := step_instance_next h hi
  rcases hstep.waiting hpc with hawake | ⟨hpc', hle, hkeep⟩
  · exact Or.inr ⟨x', hi', hawake⟩
  · left
    refine ⟨⟨x', hi', hpc', PoolConfig.countReached_mono hle hreach⟩, ?_⟩
    rintro ⟨y, hy, hpend⟩
    obtain rfl := Option.some.inj (hi.symm.trans hy)
    exact ⟨x', hi', hkeep hpend⟩

/-- The `select!` of a notified manager can take its count branch. -/
theorem step_trigger_count {cfg : PoolConfig} {s : State} {i : Nat} (hs : Overdue cfg i s)
    (hn : Notified i s) : ∃ s', step cfg s (.trigger i .count) = some s' ∧ Awake i s' := by
  obtain ⟨x, hi, hpc, -⟩ := hs
  obtain ⟨y, hy, hpend⟩ := hn
  obtain rfl := Option.some.inj (hi.symm.trans hy)
  have h : step cfg s (.trigger i .count) = some (s.modifyInstance i fun x =>
      { x with recycleNotify := x.recycleNotify.poll.2, manager := .checkServed }) := by
    simp [step, hi, hpc, waitForTrigger, hpend]
  refine ⟨_, h, { x with recycleNotify := x.recycleNotify.poll.2, manager := .checkServed },
    ?_, by simp⟩
  rw [State.modifyInstance_instances, List.getElem?_modify_eq, hi]
  rfl

/-- A drop that is about to notify can do so. -/
theorem step_call_notify {cfg : PoolConfig} {s : State} {c i : Nat} (hs : Overdue cfg i s)
    (hc : s.notifying c i) :
    ∃ s', step cfg s (.call c) = some s' ∧ Overdue cfg i s' ∧ Notified i s' := by
  obtain ⟨x, hi, hpc, hreach⟩ := hs
  obtain ⟨s', h⟩ : ∃ s', step cfg s (.call c) = some s' := by
    obtain ⟨b, hc⟩ := hc
    rw [step, hc]
    exact ⟨_, rfl⟩
  have hi' := step_notify hc hi h
  exact ⟨s', h, ⟨_, hi', hpc, hreach⟩, ⟨_, hi', Lib.Notify.pending_notifyOne _⟩⟩

/-- In every reachable state an overdue manager is notified or about to be.  In a run
    that lets every drop go on and polls the manager, an overdue manager wakes up. -/
theorem countRecycle_notLost (cfg : PoolConfig) :
    (∀ s, (system cfg).Reachable s → NoLostWakeup cfg s) ∧
    ∀ (ρ : (system cfg).Run) (i : Nat), (∀ c, ρ.WeaklyFair (.call c)) →
      ρ.WeaklyFair (.trigger i .count) → ρ.LeadsTo (Overdue cfg i) (Awake i) := by
  refine ⟨fun s => noLostWakeup_of_reachable, ?_⟩
  intro ρ i hcalls htrigger
  -- a notified manager is polled
  have hnotified : ρ.LeadsTo (fun s => Overdue cfg i s ∧ Notified i s) (Awake i) := by
    refine Lib.System.Run.leadsTo_of_fair htrigger ?_ (fun s hs => step_trigger_count hs.1 hs.2)
    rintro s a s' ⟨hs, hn⟩ h
    exact (hs.step h).imp_left fun hnext => ⟨hnext.1, hnext.2 hn⟩
  -- a drop that is about to notify does so, unless the manager is awake before
  have hnotifying : ∀ c, ρ.LeadsTo (fun s => Overdue cfg i s ∧ s.notifying c i)
      (fun s => (Overdue cfg i s ∧ Notified i s) ∨ Awake i s) := by
    intro c
    refine Lib.System.Run.leadsTo_of_fair (hcalls c) ?_ fun s hs => ?_
    · rintro s a s' ⟨hs, hc⟩ h
      rcases hs.step h with ⟨hnext, -⟩ | hawake
      · rcases step_notifying h hc with hstay | rfl
        · exact Or.inl ⟨hnext, hstay⟩
        · obtain ⟨u, hu, hdone⟩ := step_call_notify hs hc
          obtain rfl := Option.some.inj (hu.symm.trans h)
          exact Or.inr (Or.inl hdone)
      · exact Or.inr (Or.inr hawake)
    · obtain ⟨s', h, hdone⟩ := step_call_notify hs.1 hs.2
      exact ⟨s', h, Or.inl hdone⟩
  intro n hn
  rcases noLostWakeup_of_reachable (ρ.reachable n) i hn with hnot | ⟨c, hc⟩
  · exact hnotified n ⟨hn, hnot⟩
  · exact ((hnotifying c).trans (hnotified.or .refl)) n ⟨hn, hc⟩

/-- One instance with two pages that is recycled after every request. -/
def oneByCount : PoolConfig where
  poolSize := 1
  pagesPerInstance := 2
  recycleAfterRequests := 1
  recycleAfter := none
  poolSize_pos := Nat.one_pos
  pagesPerInstance_pos := Nat.two_pos

/-- A `Checkout` is made and dropped up to its `notify_one`. -/
def untilNotify : List Action :=
  [.launchInstance, .launchReturn, .checkout] ++ List.replicate 7 (.call 0) ++
    [.dropCheckout 0, .call 0, .call 0]

/-- The drop goes on, and the manager is polled until `wait_for_trigger` returns. -/
def untilCount : List Action :=
  untilNotify ++ [.call 0, .call 0, .call 0, .trigger 0 .count, .manage 0, .disconnect 0]

/-- The state after a schedule that runs. -/
def stateAfter (cfg : PoolConfig) (as : List Action)
    (h : ((system cfg).exec State.init as).isSome = true) : State :=
  ((system cfg).exec State.init as).get h

/-- In the state between `fetch_add` and `notify_one` the manager is overdue, and the
    run that goes on from there wakes it up. -/
theorem countRecycle_notLost_once :
    (Overdue oneByCount 0 (stateAfter oneByCount untilNotify (by decide)) ∧
      NoLostWakeup oneByCount (stateAfter oneByCount untilNotify (by decide))) ∧
    ∃ ρ : (system oneByCount).Run, ρ.LeadsTo (Overdue oneByCount 0) (Awake 0) := by
  have hrun : (system oneByCount).exec State.init untilNotify
      = some (stateAfter oneByCount untilNotify (by decide)) := (Option.some_get _).symm
  refine ⟨⟨⟨_, List.getElem?_eq_getElem (by decide), by decide, by decide⟩,
    (countRecycle_notLost oneByCount).1 _ ⟨untilNotify, hrun⟩⟩, ?_⟩
  -- after the run the browser only disconnects, again and again
  refine ⟨.lasso untilCount (.disconnect 0) (t := stateAfter oneByCount untilCount (by decide))
    (Option.some_get _).symm (by decide), ?_⟩
  refine (countRecycle_notLost oneByCount).2 _ 0 (fun c => ?_) ?_
  · refine Lib.System.Run.weaklyFair_lasso ?_
    cases c with
    | zero => decide
    | succ c => rfl
  · exact Lib.System.Run.weaklyFair_lasso (by decide)

end Pool
end BrowserHeadless
