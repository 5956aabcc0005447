/-
  BrowserHeadless.Pool.Served

  What the `served` counter of an instance counts.

  src/pool.rs calls it "requests served since the last (re)spawn" and recycles an
  instance when it reaches `recycle_after_requests`.  The drop of a `Checkout` adds
  to the counter of its instance, whichever browser the `Checkout` was made on, and
  a `Checkout` may outlive its browser: a crash and a drain timeout replace the
  browser under it.  Its drop then counts for the new browser.

  The counter is covered by drops of the current browser's `Checkout`s along exactly
  those runs without such a late drop (`countRecycle_earned`), and only then is a
  count recycle known to be earned.
-/

import BrowserHeadless.Lib.Runs
import BrowserHeadless.Pool.Wakeup

namespace BrowserHeadless
namespace Pool

/-- How many `Checkout`s of each browser have been dropped so far. -/
abbrev Drops := BrowserId → Nat

/-- The drop of a `Checkout` is recorded at its `fetch_add` on `served`. -/
def recordDrop (s : State) (a : Action) (drops : Drops) : Drops :=
  match a with
  | .call c =>
      match s.calls[c]? with
      | some (.addServed _ b) => fun b' => if b' = b then drops b' + 1 else drops b'
      | _ => drops
  | _ => drops

/-- The pool with the record of its drops. -/
def recorded (cfg : PoolConfig) : Lib.System (State × Drops) Action :=
  (system cfg).withHistory (fun _ => 0) recordDrop

/-- Whenever `wait_for_trigger` is about to return `Count`, that many `Checkout`s of the
    current browser have been dropped. -/
def CountEarned (cfg : PoolConfig) (p : State × Drops) : Prop :=
  ∀ (i : Nat) (x : Instance), p.1.instances[i]? = some x → x.manager = .checkServed →
    cfg.countReached x.served = true → cfg.recycleAfterRequests ≤ p.2 x.browser

/-- The manager is between its reset of `served` and its next recycle. -/
def ManagerPc.counting (pc : ManagerPc) : Bool := pc.awaiting || pc = .checkServed

/-- `served` counts nothing but requests of the current browser. -/
def ServedOwn (p : State × Drops) : Prop :=
  ∀ (i : Nat) (x : Instance), p.1.instances[i]? = some x → x.manager.counting = true →
    x.served ≤ p.2 x.browser

/-- No `Checkout` of an earlier browser counts for the current one, beyond the drops of
    the current browser's own `Checkout`s that the reset has wiped out. -/
def DropsCountOwn (p : State × Drops) (a : Action) : Prop :=
  ∀ (c i : Nat) (b : BrowserId) (x : Instance), a = .call c →
    p.1.calls[c]? = some (.addServed i b) → p.1.instances[i]? = some x →
    x.manager.counting = true → x.browser = b ∨ x.served < p.2 x.browser

/-! ## The record -/

theorem recordDrop_addServed {s : State} {c i : Nat} {b : BrowserId} (drops : Drops)
    (hc : s.calls[c]? = some (.addServed i b)) (b' : BrowserId) :
    recordDrop s (.call c) drops b' = if b' = b then drops b' + 1 else drops b' := by
  rw [recordDrop, hc]

/-- The record only grows. -/
theorem le_recordDrop (s : State) (a : Action) (drops : Drops) (b : BrowserId) :
    drops b ≤ recordDrop s a drops b := by
  cases a with
  | call c =>
      cases hc : s.calls[c]? with
      | none => simp only [recordDrop, hc, Nat.le_refl]
      | some pc =>
          cases pc with
          | addServed i b' =>
              rw [recordDrop_addServed drops hc]
              split
              · exact Nat.le_succ _
              · exact Nat.le_refl _
          | _ => simp only [recordDrop, hc, Nat.le_refl]
  | _ => exact Nat.le_refl _

theorem ManagerPc.counting_afterToken (r : RecycleReason) :
    (ManagerPc.afterToken r).counting = false := by
  cases r <;> rfl

/-! ## The counter under the steps of the pool -/

/-- What a step does to `served` while the manager counts: it stays, with the browser, or a
    drop adds to it, or it was reset. -/
theorem InstanceStep.counting {cfg : PoolConfig} {s s' : State} {a : Action} {i : Nat}
    {x x' : Instance} (h : InstanceStep cfg s s' a i x x') (hcount : x'.manager.counting = true) :
    x'.served = 0 ∨
    (x.manager.counting = true ∧ x'.browser = x.browser ∧
      (x'.served = x.served ∨
        (x'.served = x.served + 1 ∧
          ∃ c b, a = .call c ∧ s.calls[c]? = some (.addServed i b)))) := by
  cases h with
  | same | permits | disconnect | addInFlight _ _ | subInFlight _ _ | notifyRecycle _ _
  | register _ _ _ => exact Or.inr ⟨hcount, rfl, Or.inl rfl⟩
  | @addServed c b ha hc _ => exact Or.inr ⟨hcount, rfl, Or.inr ⟨rfl, c, b, ha, hc⟩⟩
  | resetServed _ _ => exact Or.inl rfl
  | notified _ hpc _ | checkServed _ hpc | storeActive _ hpc | releaseToken _ hpc =>
      refine Or.inr ⟨?_, rfl, Or.inl rfl⟩
      rw [hpc]
      rfl
  | @updateGauge r old new _ hpc =>
      by_cases hnew : new = .active
      · refine Or.inr ⟨?_, rfl, Or.inl rfl⟩
        simp [hpc, hnew, ManagerPc.counting, ManagerPc.awaiting]
      · simp [hnew, ManagerPc.counting, ManagerPc.awaiting] at hcount
  -- the other moves of a manager lead out of the wait or stay out of it
  | @acquireToken r m _ _ hm =>
      rcases hm with ⟨rfl, -⟩ | rfl
      · rw [ManagerPc.counting_afterToken] at hcount
        cases hcount
      · simp [ManagerPc.counting, ManagerPc.awaiting] at hcount
  | @resume r _ _ =>
      rw [ManagerPc.counting_afterToken] at hcount
      cases hcount
  | trigger _ _ _ | storeStatus _ _ | drained _ _ _ | drainTimeout _ _ | swap _ _ _
  | dropOldBrowser _ _ | dropOldDir _ _ => simp [ManagerPc.counting, ManagerPc.awaiting] at hcount

/-- A step in which no late drop counts keeps the counter covered. -/
theorem servedOwn_step {cfg : PoolConfig} {p p' : State × Drops} {a : Action} (hp : ServedOwn p)
    (hG : DropsCountOwn p a) (h : (recorded cfg).step p a = some p') : ServedOwn p' := by
  obtain ⟨hstep, hrec⟩ := Lib.System.withHistory_step_eq_some.mp h
  intro i x' hi' hcount
  rw [hrec]
  rcases step_instance hstep hi' with ⟨x, hi, hx⟩ | ⟨-, -, rfl, -⟩
  · rcases hx.counting hcount with hzero | ⟨hbefore, hb, hsame | ⟨hadd, c, b, rfl, hc⟩⟩
    · exact hzero ▸ Nat.zero_le _
    · rw [hsame, hb]
      exact Nat.le_trans (hp i x hi hbefore) (le_recordDrop _ _ _ _)
    -- the drop is recorded for the current browser, or there is room for it
    · rw [hadd, hb, recordDrop_addServed _ hc]
      have hle := hp i x hi hbefore
      rcases hG c i b x rfl hc hi hbefore with hown | hroom
      · rw [if_pos hown]
        exact Nat.succ_le_succ hle
      · split
        · exact Nat.succ_le_succ hle
        · exact hroom
  · exact Nat.zero_le _

/-- After a late drop that had no room the counter is above the record. -/
theorem dropsCountOwn_of_servedOwn {cfg : PoolConfig} {p p' : State × Drops} {a : Action}
    (h : (recorded cfg).step p a = some p') (hp' : ServedOwn p') : DropsCountOwn p a := by
  obtain ⟨hstep, hrec⟩ := Lib.System.withHistory_step_eq_some.mp h
  rintro c i b x rfl hc hi hcount
  by_contra hlate
  obtain ⟨hother, hfull⟩ := not_or.mp hlate
  -- the step adds one to `served` and nothing to the record
  have hi' : p'.1.instances[i]? = some { x with served := x.served + 1 } := by
    change step cfg p.1 (.call c) = some p'.1 at hstep
    rw [step, hc] at hstep
    obtain ⟨y, -, hy⟩ := Option.map_eq_some_iff.mp hstep
    rw [← hy]
    change (p.1.instances.modify i _)[i]? = _
    rw [List.getElem?_modify_eq, hi]
    rfl
  have hle : x.served + 1 ≤ p'.2 x.browser := hp' i _ hi' hcount
  rw [hrec, recordDrop_addServed _ hc, if_neg hother] at hle
  omega

/-- A covered counter makes every count recycle earned. -/
theorem ServedOwn.countEarned {cfg : PoolConfig} {p : State × Drops} (hp : ServedOwn p) :
    CountEarned cfg p := by
  intro i x hi hpc hreach
  rw [PoolConfig.countReached, Bool.and_eq_true, decide_eq_true_eq, decide_eq_true_eq] at hreach
  refine Nat.le_trans hreach.2 (hp i x hi ?_)
  rw [hpc]
  rfl

/-- Along a run of the pool in which no late drop counts, every count recycle is earned;
    and the counter is covered in every state if and only if no late drop counts. -/
theorem countRecycle_earned (cfg : PoolConfig) (as : List Action)
    (hrun : ((system cfg).exec State.init as).isSome = true) :
    ((recorded cfg).Guarded DropsCountOwn (recorded cfg).init as →
      (recorded cfg).Along (CountEarned cfg) (recorded cfg).init as) ∧
    ((recorded cfg).Along ServedOwn (recorded cfg).init as ↔
      (recorded cfg).Guarded DropsCountOwn (recorded cfg).init as) := by
  -- the record is no part of the run
  have hsome : ((recorded cfg).exec (recorded cfg).init as).isSome = true := by
    rw [← Option.isSome_map, recorded, Lib.System.exec_withHistory]
    exact hrun
  obtain ⟨t, ht⟩ := Option.isSome_iff_exists.mp hsome
  have hinit : ServedOwn (recorded cfg).init := by
    intro i x hi
    simp [recorded, Lib.System.withHistory, system, State.init] at hi
  have hiff := Lib.System.along_iff_guarded (M := recorded cfg) (fun _ => True) (fun _ => True)
    (fun _ _ _ _ _ => True.intro) (fun p a p' _ _ hp hG h => servedOwn_step hp hG h)
    (fun p a p' _ _ h hp' => dropsCountOwn_of_servedOwn h hp') True.intro hinit ht (.trivial _ _)
  refine ⟨fun hG => ?_, hiff⟩
  exact (hiff.mpr hG).mono fun p hp => hp.countEarned

/-- A request is served and the instance recycled for it. -/
theorem countRecycle_earned_once :
    ((system oneByCount).exec State.init untilCount).isSome = true ∧
    (((recorded oneByCount).Guarded DropsCountOwn (recorded oneByCount).init untilCount →
        (recorded oneByCount).Along (CountEarned oneByCount) (recorded oneByCount).init
          untilCount) ∧
      ((recorded oneByCount).Along ServedOwn (recorded oneByCount).init untilCount ↔
        (recorded oneByCount).Guarded DropsCountOwn (recorded oneByCount).init untilCount)) :=
  ⟨by decide, countRecycle_earned oneByCount untilCount (by decide)⟩

/-- The browser crashes under a live `Checkout`, which is dropped once the new browser is
    in service. -/
def lateDrop : List Action :=
  [.launchInstance, .launchReturn, .checkout] ++ List.replicate 7 (.call 0) ++
    [.disconnect 0, .trigger 0 .crash] ++ List.replicate 10 (.manage 0) ++
    [.dropCheckout 0, .call 0, .call 0, .call 0, .trigger 0 .count]

/-- After `lateDrop` the new browser is recycled by count and has served nothing. -/
theorem countRecycle_lateDrop :
    ¬ ∀ (cfg : PoolConfig) (as : List Action),
        ((system cfg).exec State.init as).isSome = true →
        (recorded cfg).Along (CountEarned cfg) (recorded cfg).init as := by
  intro hclaim
  have hal := hclaim oneByCount lateDrop (by decide)
  have hrun : (recorded oneByCount).exec (recorded oneByCount).init lateDrop
      = some (((recorded oneByCount).exec (recorded oneByCount).init lateDrop).get (by decide)) :=
    (Option.some_get _).symm
  have hearned := hal.last hrun 0 _ (List.getElem?_eq_getElem (by decide)) (by decide) (by decide)
  revert hearned
  decide

end Pool
end BrowserHeadless
