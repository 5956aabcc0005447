/-
  BrowserHeadless.Pool.Handles

  The names of the browsers and the handles to them.

  Every launch names a new browser (`Named`), a browser that has been swapped out
  comes back to no instance (`Retired`), and nobody who does not hold a retired
  browser gets a handle to it (`not_holds_step`).
-/

import BrowserHeadless.Pool.Custody

namespace BrowserHeadless
namespace Pool

/-- A live `Checkout` holds browser `b`. -/
def State.leases (s : State) (b : BrowserId) : Prop :=
  ∃ (c i : Nat) (pc : CallPc), s.calls[c]? = some pc ∧ pc.lease = some (i, b)

/-- Somebody besides the pool holds a handle to browser `b`: a `Checkout`, as long
    as its fields are not dropped, or a teardown task. -/
def State.holds (s : State) (b : BrowserId) : Prop :=
  (∃ (c : Nat) (pc : CallPc), s.calls[c]? = some pc ∧ pc.handle = some b) ∨ some b ∈ s.teardowns

/-- A live `Checkout` has a handle. -/
theorem CallPc.handle_of_lease {pc : CallPc} {i : Nat} {b : BrowserId}
    (h : pc.lease = some (i, b)) : pc.handle = some b := by
  cases pc <;> cases h <;> rfl

/-! ## Where browsers and handles come from -/

/-- An instance keeps its browser, or gets the next one. -/
theorem step_browser {cfg : PoolConfig} {s s' : State} {a : Action} (h : step cfg s a = some s')
    {j : Nat} {st' : Stock} (hj : s'.stock j = some st') :
    (∃ st, s.stock j = some st ∧ st'.browser = st.browser) ∨
    (st'.browser = s.nextBrowser ∧ s'.nextBrowser = s.nextBrowser + 1 ∧
      (a = .manage j ∨ (a = .launchInstance ∧ j = s.instances.length))) := by
  rcases step_stock h hj with ⟨st, hst, hstep⟩ | ⟨ha, hlen, rfl, hnext, -, -⟩
  · cases hstep with
    | same | count _ _ | uncount _ _ | manager _ _ | drained _ | dropBrowser _ =>
        exact Or.inl ⟨_, hst, rfl⟩
    | swap ha hnext => exact Or.inr ⟨rfl, hnext, Or.inl ha⟩
  · exact Or.inr ⟨rfl, hnext, Or.inr ⟨ha, hlen⟩⟩

/-- A manager holds an outgoing browser since it swapped that out. -/
theorem step_outgoing {cfg : PoolConfig} {s s' : State} {a : Action} (h : step cfg s a = some s')
    {j : Nat} {st' : Stock} (hj : s'.stock j = some st') {old : BrowserId}
    (hold : st'.manager.outgoing = some old) :
    ∃ st, s.stock j = some st ∧ (st.manager.outgoing = some old ∨
      (a = .manage j ∧ st.browser = old ∧ st'.browser = s.nextBrowser)) := by
  rcases step_stock h hj with ⟨st, hst, hstep⟩ | ⟨-, -, rfl, -, -, -⟩
  · refine ⟨st, hst, ?_⟩
    cases hstep with
    | same | count _ _ | uncount _ _ | dropBrowser _ => exact Or.inl hold
    | manager hnone _ =>
        rw [hnone] at hold
        cases hold
    | drained _ => cases hold
    | swap ha _ => exact Or.inr ⟨ha, Option.some.inj hold, rfl⟩
  · cases hold

/-- A handle is inherited, or read off an instance. -/
theorem step_holds {cfg : PoolConfig} {s s' : State} {a : Action} (h : step cfg s a = some s')
    {b : BrowserId} (hb : s'.holds b) :
    s.holds b ∨ ∃ (c j : Nat) (inst : Instance), a = .call c ∧
      s.calls[c]? = some (.readInner j) ∧ s.instances[j]? = some inst ∧ inst.browser = b := by
  rcases hb with ⟨c, pc', hc', hb⟩ | htask
  · rcases step_handle h hc' hb with ⟨pc, hc, hb⟩ | ⟨j, inst, ha, hc, hj, hb⟩
    · exact Or.inl (Or.inl ⟨c, pc, hc, hb⟩)
    · exact Or.inr ⟨c, j, inst, ha, hc, hj, hb⟩
  · rcases step_teardowns h htask with hold | ⟨c, i, hc⟩
    · exact Or.inl (Or.inr hold)
    · exact Or.inl (Or.inl ⟨c, _, hc, rfl⟩)

/-! ## Retired browsers -/

/-- No instance has browser `b`, and none will be given it. -/
structure Retired (s : State) (b : BrowserId) : Prop where
  named : b < s.nextBrowser
  gone : ∀ j st, s.stock j = some st → st.browser ≠ b

theorem Retired.step {cfg : PoolConfig} {s s' : State} {a : Action} {b : BrowserId}
    (hs : Retired s b) (h : step cfg s a = some s') : Retired s' b where
  named := Nat.lt_of_lt_of_le hs.named (step_nextBrowser h)
  gone := by
    intro j st' hj
    rcases step_browser h hj with ⟨st, hst, heq⟩ | ⟨heq, -, -⟩
    · rw [heq]
      exact hs.gone j st hst
    · rw [heq]
      exact Nat.ne_of_gt hs.named

/-- Nobody gets a handle to a retired browser. -/
theorem not_holds_step {cfg : PoolConfig} {s s' : State} {a : Action} {b : BrowserId}
    (hs : Retired s b) (hnone : ¬ s.holds b) (h : step cfg s a = some s') : ¬ s'.holds b := by
  intro hb
  rcases step_holds h hb with hold | ⟨c, j, inst, -, -, hj, heq⟩
  · exact hnone hold
  · exact hs.gone j inst.stock (by rw [State.stock, hj]; rfl) heq

/-- No live `Checkout` gets a retired browser. -/
theorem not_leases_step {cfg : PoolConfig} {s s' : State} {a : Action} {b : BrowserId}
    (hs : Retired s b) (hnone : ¬ s.leases b) (h : step cfg s a = some s') : ¬ s'.leases b := by
  rintro ⟨c, i, pc', hc', hb⟩
  rcases step_lease h hc' hb with ⟨pc, hc, hold⟩ | ⟨-, -, inst, hi, heq⟩
  · exact hnone ⟨c, i, pc, hc, hold⟩
  · exact hs.gone i inst.stock (by rw [State.stock, hi]; rfl) heq

/-- What a step of a manager does is what `manageInstance` says. -/
theorem step_manage {cfg : PoolConfig} {s : State} {i : Nat} {inst : Instance}
    (hi : s.instances[i]? = some inst) :
    step cfg s (.manage i) = manageInstance cfg s i inst inst.manager := by
  rw [step, hi]
  rfl

/-- The swap of `relaunch` puts the next browser on the instance. -/
theorem step_swap {cfg : PoolConfig} {s s' : State} {i : Nat} {inst : Instance}
    {r : RecycleReason} {d : Bool} (hi : s.instances[i]? = some inst)
    (hpc : inst.manager = .relaunch r d) (h : step cfg s (.manage i) = some s') :
    s'.stock i = some ⟨s.nextBrowser, inst.inFlight, .dropOldBrowser r inst.browser⟩ := by
  rw [step_manage hi, hpc] at h
  cases h
  rw [State.stock, State.modifyInstance_instances, List.getElem?_modify_eq, hi]
  rfl

/-! ## Names along a run -/

/-- The names of the browsers in every state of every run. -/
structure Named (s : State) : Prop where
  below : ∀ i st, s.stock i = some st → st.browser < s.nextBrowser
  distinct : ∀ i j st st', s.stock i = some st → s.stock j = some st' →
    st.browser = st'.browser → i = j
  outgoing : ∀ i st old, s.stock i = some st → st.manager.outgoing = some old → Retired s old
  held : ∀ b, s.holds b → b < s.nextBrowser
  /-- The browser of a live `Checkout` is on no other instance. -/
  home : ∀ (c i j : Nat) (pc : CallPc) (b : BrowserId) (st : Stock), s.calls[c]? = some pc →
    pc.lease = some (i, b) → s.stock j = some st → st.browser = b → i = j

theorem Named.init : Named State.init := by
  have hstock : ∀ (i : Nat) (st : Stock), State.init.stock i ≠ some st := by
    intro i st hst
    simp [State.stock, State.init] at hst
  constructor
  · exact fun i st hst => absurd hst (hstock i st)
  · exact fun i j st st' hst => absurd hst (hstock i st)
  · exact fun i st old hst => absurd hst (hstock i st)
  · rintro b (⟨c, pc, hc, -⟩ | htask)
    · simp [State.init] at hc
    · simp [State.init] at htask
  · exact fun c i j pc b st _ _ hst => absurd hst (hstock j st)

/-- Instances with one name after a step are one instance. -/
theorem Named.distinct_step {cfg : PoolConfig} {s s' : State} {a : Action} (hs : Named s)
    (h : step cfg s a = some s') {i j : Nat} {st st' : Stock} (hi : s'.stock i = some st)
    (hj : s'.stock j = some st') (heq : st.browser = st'.browser) : i = j := by
  rcases step_browser h hi with ⟨u, hu, hst⟩ | ⟨hst, -, hwhere⟩
  · rcases step_browser h hj with ⟨v, hv, hst'⟩ | ⟨hst', -, -⟩
    · exact hs.distinct i j u v hu hv (by rw [← hst, heq, hst'])
    -- an old name is below the new one
    · have hlt := hs.below i u hu
      rw [← hst, heq, hst'] at hlt
      exact absurd hlt (Nat.lt_irrefl _)
  · rcases step_browser h hj with ⟨v, hv, hst'⟩ | ⟨hst', -, hwhere'⟩
    · have hlt := hs.below j v hv
      rw [← hst', ← heq, hst] at hlt
      exact absurd hlt (Nat.lt_irrefl _)
    · rcases hwhere with rfl | ⟨rfl, rfl⟩
      · rcases hwhere' with hj | ⟨hj, -⟩
        · exact Action.manage.inj hj
        · cases hj
      · rcases hwhere' with hj | ⟨-, hj⟩
        · cases hj
        · exact hj.symm

/-- A browser that has just been swapped out is retired. -/
theorem Named.retired_of_swap {cfg : PoolConfig} {s s' : State} {j : Nat} (hs : Named s)
    (h : step cfg s (.manage j) = some s') {st st' : Stock} (hst : s.stock j = some st)
    (hst' : s'.stock j = some st') (hnew : st'.browser = s.nextBrowser) :
    Retired s' st.browser where
  named := Nat.lt_of_lt_of_le (hs.below j st hst) (step_nextBrowser h)
  gone := by
    intro k u hu heq
    rcases step_browser h hu with ⟨v, hv, huv⟩ | ⟨huv, -, -⟩
    -- the old name is on `j` alone, which has got the new one
    · obtain rfl : k = j := hs.distinct k j v st hv hst (by rw [← huv, heq])
      obtain rfl := Option.some.inj (hu.symm.trans hst')
      have hlt := hs.below k st hst
      rw [← heq, hnew] at hlt
      exact Nat.lt_irrefl _ hlt
    · have hlt := hs.below j st hst
      rw [← heq, huv] at hlt
      exact Nat.lt_irrefl _ hlt

theorem Named.step {cfg : PoolConfig} {s s' : State} {a : Action} (hs : Named s)
    (h : step cfg s a = some s') : Named s' where
  below := by
    intro i st' hi
    rcases step_browser h hi with ⟨st, hst, heq⟩ | ⟨heq, hnext, -⟩
    · rw [heq]
      exact Nat.lt_of_lt_of_le (hs.below i st hst) (step_nextBrowser h)
    · rw [heq, hnext]
      exact Nat.lt_succ_self _
  distinct := fun i j st st' hi hj heq => hs.distinct_step h hi hj heq
  outgoing := by
    intro i st' old hi hold
    obtain ⟨st, hst, hbefore | ⟨rfl, rfl, hnew⟩⟩ := step_outgoing h hi hold
    · exact (hs.outgoing i st old hst hbefore).step h
    · exact hs.retired_of_swap h hst hi hnew
  held := by
    intro b hb
    refine Nat.lt_of_lt_of_le ?_ (step_nextBrowser h)
    rcases step_holds h hb with hold | ⟨c, j, inst, -, -, hj, rfl⟩
    · exact hs.held b hold
    · exact hs.below j inst.stock (by rw [State.stock, hj]; rfl)
  home := by
    intro c i j pc' b st' hc' hb hj heq
    rcases step_lease h hc' hb with ⟨pc, hc, hold⟩ | ⟨rfl, -, inst, hi, rfl⟩
    · rcases step_browser h hj with ⟨st, hst, hsame⟩ | ⟨hnew, -, -⟩
      · exact hs.home c i j pc b st hc hold hst (by rw [← hsame, heq])
      -- the new name is held by nobody
      · have hlt := hs.held b (Or.inl ⟨c, pc, hc, CallPc.handle_of_lease hold⟩)
        rw [← heq, hnew] at hlt
        exact absurd hlt (Nat.lt_irrefl _)
    · have hst : s.stock i = some inst.stock := by rw [State.stock, hi]; rfl
      rcases step_browser h hj with ⟨st, hst', hsame⟩ | ⟨-, -, hmanage | ⟨hlaunch, -⟩⟩
      · exact hs.distinct i j inst.stock st hst hst' (by rw [← hsame, heq]; rfl)
      · cases hmanage
      · cases hlaunch

end Pool
end BrowserHeadless
