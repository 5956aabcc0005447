/-
  BrowserHeadless.Pool.Custody

  Which instance counts a `checkout` call, and who holds which browser.

  `in_flight` counts a call from its `fetch_add` to the `fetch_sub` in the drop of
  its `Checkout`.  The call holds a browser handle from its read of `inner` to the
  drop of the field, and a teardown task holds the clone it was spawned with.

  `step_calls`, `step_stock` and `step_teardowns` say once what a step of the
  pool does to these.  The invariants about counters, leases and profile
  directories only look at them.
-/

import BrowserHeadless.Pool.Service

namespace BrowserHeadless
namespace Pool

/-! ## What a call holds -/

/-- The instance whose `in_flight` counts the call. -/
def CallPc.counted : CallPc → Option Nat
  | readInner i | live i _ | subInFlight i _ => some i
  | _ => none

/-- The browser handle the call holds. -/
def CallPc.handle : CallPc → Option BrowserId
  | live _ b | subInFlight _ b | addServed _ b | notifyRecycle _ b | dropBrowser _ b => some b
  | _ => none

/-- A live `Checkout`: its instance and its browser.  It is live until its drop
    has taken it off `in_flight`. -/
def CallPc.lease : CallPc → Option (Nat × BrowserId)
  | live i b | subInFlight i b => some (i, b)
  | _ => none

/-- The instance a call has chosen for good. -/
def CallPc.entered : CallPc → Option Nat
  | addInFlight i | readInner i | live i _ | subInFlight i _ => some i
  | _ => none

/-- A live `Checkout` is counted by its instance. -/
theorem CallPc.counted_of_lease {pc : CallPc} {i : Nat} {b : BrowserId}
    (h : pc.lease = some (i, b)) : pc.counted = some i := by
  cases pc <;> cases h <;> rfl

/-- A call that neither is counted nor holds a browser. -/
def CallPc.idle (pc : CallPc) : Prop := pc.counted = none ∧ pc.handle = none

/-- How the call that an action is about moves. -/
inductive CallMove (s : State) (a : Action) (c : Nat) : CallPc → CallPc → Prop where
  /-- Before the `fetch_add` of `in_flight`, or after the drop of the handle. -/
  | idle {pc pc' : CallPc} (ha : a = .call c) (h : pc.idle) (h' : pc'.idle)
      (henter : ∀ i, pc'.entered = some i → i < s.instances.length) : CallMove s a c pc pc'
  | count {i : Nat} (ha : a = .call c) : CallMove s a c (.addInFlight i) (.readInner i)
  | read {i : Nat} {inst : Instance} (ha : a = .call c) (hi : s.instances[i]? = some inst) :
      CallMove s a c (.readInner i) (.live i inst.browser)
  | letGo {i : Nat} {b : BrowserId} (ha : a = .dropCheckout c) :
      CallMove s a c (.live i b) (.subInFlight i b)
  | uncount {i : Nat} {b : BrowserId} (ha : a = .call c) :
      CallMove s a c (.subInFlight i b) (.addServed i b)
  /-- The drop of the `Checkout` goes on, the handle still in it. -/
  | carry {pc pc' : CallPc} {b : BrowserId} (ha : a = .call c) (h : pc.counted = none)
      (h' : pc'.counted = none) (hb : pc.handle = some b) (hb' : pc'.handle = some b) :
      CallMove s a c pc pc'
  | dropHandle {i : Nat} {b : BrowserId} (ha : a = .call c) :
      CallMove s a c (.dropBrowser i b) (.dropPermit i)
  | cancel {pc : CallPc} (ha : a = .cancel c) (h : pc.handle = none) :
      CallMove s a c pc .cancelled

/-- A call moves before it has chosen its instance, or after its drop. -/
theorem CallMove.rest {s : State} {a : Action} {c : Nat} {pc pc' : CallPc} (ha : a = .call c)
    (h : pc.idle) (h' : pc'.idle) (hnone : pc'.entered = none) : CallMove s a c pc pc' := by
  refine .idle ha h h' ?_
  intro i hi
  rw [hnone] at hi
  cases hi

/-- What one step does to the list of calls. -/
inductive CallsStep (s : State) (a : Action) : List CallPc → Prop where
  | same : CallsStep s a s.calls
  | new (hready : s.ready = true) : CallsStep s a (s.calls ++ [.scanStatus 0 0 none])
  | move {c : Nat} {pc pc' : CallPc} (hc : s.calls[c]? = some pc) (hm : CallMove s a c pc pc') :
      CallsStep s a (s.calls.set c pc')
  /-- The call releases a permit, which goes to the parked call `k`. -/
  | wake {c k t i : Nat} {pc pc' : CallPc} (hc : s.calls[c]? = some pc)
      (hm : CallMove s a c pc pc') (hk : s.calls[k]? = some (.parked t i)) :
      CallsStep s a ((s.calls.set k (.granted t i)).set c pc')

/-! ## What an instance owns -/

/-- The browser a manager has swapped out and not yet released altogether. -/
def ManagerPc.outgoing : ManagerPc → Option BrowserId
  | dropOldBrowser _ old | dropOldDir _ old => some old
  | _ => none

/-- `drain` saw `in_flight` at zero, and the replacement is not swapped in yet. -/
def ManagerPc.drained : ManagerPc → Bool
  | relaunch _ drained => drained
  | _ => false

/-- The browser of an instance, its `in_flight` and its manager. -/
structure Stock where
  browser : BrowserId
  inFlight : Nat
  manager : ManagerPc

def Instance.stock (x : Instance) : Stock := ⟨x.browser, x.inFlight, x.manager⟩

/-- The stock of instance `i`. -/
def State.stock (s : State) (i : Nat) : Option Stock := s.instances[i]?.map Instance.stock

/-- What one step from `s` to `s'` does to the stock of instance `i`. -/
inductive StockStep (s s' : State) (a : Action) (i : Nat) : Stock → Stock → Prop where
  | same {st : Stock} : StockStep s s' a i st st
  | count {b : BrowserId} {n c : Nat} {m : ManagerPc} (ha : a = .call c)
      (hc : s.calls[c]? = some (.addInFlight i)) : StockStep s s' a i ⟨b, n, m⟩ ⟨b, n + 1, m⟩
  | uncount {b b' : BrowserId} {n c : Nat} {m : ManagerPc} (ha : a = .call c)
      (hc : s.calls[c]? = some (.subInFlight i b')) :
      StockStep s s' a i ⟨b, n, m⟩ ⟨b, fetchSub n, m⟩
  /-- The manager moves, but not into one of the places below. -/
  | manager {b : BrowserId} {n : Nat} {m m' : ManagerPc} (ho : m'.outgoing = none)
      (hd : m'.drained = false) : StockStep s s' a i ⟨b, n, m⟩ ⟨b, n, m'⟩
  /-- `drain` sees `in_flight` at zero. -/
  | drained {b : BrowserId} {r : RecycleReason} (ha : a = .manage i) :
      StockStep s s' a i ⟨b, 0, .drain r⟩ ⟨b, 0, .relaunch r true⟩
  /-- `relaunch` swaps the new browser in. -/
  | swap {b : BrowserId} {n : Nat} {r : RecycleReason} {d : Bool} (ha : a = .manage i)
      (hnext : s'.nextBrowser = s.nextBrowser + 1) :
      StockStep s s' a i ⟨b, n, .relaunch r d⟩ ⟨s.nextBrowser, n, .dropOldBrowser r b⟩
  /-- `relaunch` drops its handle to the old browser. -/
  | dropBrowser {b old : BrowserId} {n : Nat} {r : RecycleReason} (ha : a = .manage i) :
      StockStep s s' a i ⟨b, n, .dropOldBrowser r old⟩ ⟨b, n, .dropOldDir r old⟩

/-! ## The calls under the steps of the pool -/

namespace State

@[simp] theorem setManager_calls (s : State) (i : Nat) (pc : ManagerPc) :
    (s.setManager i pc).calls = s.calls := rfl

@[simp] theorem setCall_calls (s : State) (c : Nat) (pc : CallPc) :
    (s.setCall c pc).calls = s.calls.set c pc := rfl

@[simp] theorem releaseRecycleToken_calls (s : State) : s.releaseRecycleToken.calls = s.calls := by
  unfold releaseRecycleToken
  cases s.recycleToken.release.1 <;> rfl

theorem grant_calls (s : State) (k : Nat) :
    (s.grant k).calls = s.calls ∨
    ∃ t i, s.calls[k]? = some (.parked t i) ∧ (s.grant k).calls = s.calls.set k (.granted t i) := by
  unfold grant
  split
  next t i hk => exact Or.inr ⟨t, i, hk, rfl⟩
  next => exact Or.inl rfl

/-- A released permit wakes at most one parked call. -/
theorem releasePermit_calls (s : State) (i : Nat) :
    (s.releasePermit i).calls = s.calls ∨
    ∃ k t j, s.calls[k]? = some (.parked t j) ∧
      (s.releasePermit i).calls = s.calls.set k (.granted t j) := by
  unfold releasePermit
  cases s.instances[i]? with
  | none => exact Or.inl rfl
  | some inst =>
      dsimp only
      cases inst.permits.release.1 with
      | none => exact Or.inl rfl
      | some k =>
          rcases grant_calls (s.modifyInstance i
            fun x => { x with permits := inst.permits.release.2 }) k with h | ⟨t, j, hk, h⟩
          · exact Or.inl h
          · exact Or.inr ⟨k, t, j, hk, h⟩

end State

/-- A call that moves and releases a permit on the way. -/
theorem CallsStep.release {s : State} {a : Action} {c i : Nat} {pc pc' : CallPc}
    (hc : s.calls[c]? = some pc) (hm : CallMove s a c pc pc') :
    CallsStep s a ((s.releasePermit i).calls.set c pc') := by
  rcases s.releasePermit_calls i with h | ⟨k, t, j, hk, h⟩
  · rw [h]
    exact .move hc hm
  · rw [h]
    exact .wake hc hm hk

theorem checkout_calls {cfg : PoolConfig} {s s' : State} {c : Nat} {pc : CallPc}
    (hc : s.calls[c]? = some pc) (h : checkout cfg s c pc = some s') :
    CallsStep s (.call c) s'.calls := by
  cases pc with
  | scanStatus t idx best =>
      simp only [checkout] at h
      split at h <;> cases h
      · exact .move hc (.rest rfl ⟨rfl, rfl⟩ ⟨rfl, rfl⟩ rfl)
      · exact .move hc (.rest rfl ⟨rfl, rfl⟩ ⟨rfl, rfl⟩ rfl)
      · split
        · exact .move hc (.rest rfl ⟨rfl, rfl⟩ ⟨rfl, rfl⟩ rfl)
        · exact .move hc (.rest rfl ⟨rfl, rfl⟩ ⟨rfl, rfl⟩ rfl)
  | scanPermits t idx best =>
      obtain ⟨inst, -, rfl⟩ := Option.map_eq_some_iff.mp h
      exact .move hc (.rest rfl ⟨rfl, rfl⟩ ⟨rfl, rfl⟩ rfl)
  | acquire t i =>
      obtain ⟨inst, -, rfl⟩ := Option.map_eq_some_iff.mp h
      split
      · exact .move hc (.rest rfl ⟨rfl, rfl⟩ ⟨rfl, rfl⟩ rfl)
      · exact .move hc (.rest rfl ⟨rfl, rfl⟩ ⟨rfl, rfl⟩ rfl)
  | granted t i =>
      cases h
      exact .move hc (.rest rfl ⟨rfl, rfl⟩ ⟨rfl, rfl⟩ rfl)
  | checkStatus t i =>
      obtain ⟨inst, hi, rfl⟩ := Option.map_eq_some_iff.mp h
      split
      · refine .move hc (.idle rfl ⟨rfl, rfl⟩ ⟨rfl, rfl⟩ ?_)
        rintro j ⟨⟩
        exact (List.getElem?_eq_some_iff.mp hi).1
      · exact .move hc (.rest rfl ⟨rfl, rfl⟩ ⟨rfl, rfl⟩ rfl)
  -- the permit goes back, possibly to a parked call
  | giveBack t i =>
      cases h
      split
      · exact .release hc (.rest rfl ⟨rfl, rfl⟩ ⟨rfl, rfl⟩ rfl)
      · exact .release hc (.rest rfl ⟨rfl, rfl⟩ ⟨rfl, rfl⟩ rfl)
  | dropPermit i =>
      cases h
      exact .release hc (.rest rfl ⟨rfl, rfl⟩ ⟨rfl, rfl⟩ rfl)
  | addInFlight i =>
      cases h
      exact .move hc (.count rfl)
  | readInner i =>
      obtain ⟨inst, hi, rfl⟩ := Option.map_eq_some_iff.mp h
      exact .move hc (.read rfl hi)
  | subInFlight i b =>
      cases h
      exact .move hc (.uncount rfl)
  | addServed i b =>
      obtain ⟨inst, -, rfl⟩ := Option.map_eq_some_iff.mp h
      refine .move hc (.carry rfl rfl ?_ rfl ?_) <;> split <;> rfl
  | notifyRecycle i b =>
      cases h
      exact .move hc (.carry rfl rfl rfl rfl rfl)
  | dropBrowser i b =>
      cases h
      exact .move hc (.dropHandle rfl)
  | parked t i | live i b | dropped | unavailable | cancelled => cases h

theorem cancelCheckout_calls {s s' : State} {c : Nat} {pc : CallPc}
    (hc : s.calls[c]? = some pc) (h : cancelCheckout s c pc = some s') :
    CallsStep s (.cancel c) s'.calls := by
  cases pc with
  | parked t i =>
      cases h
      exact .move hc (.cancel rfl rfl)
  | granted t i | readInner i =>
      cases h
      exact .release hc (.cancel rfl rfl)
  | _ => cases h

theorem manageInstance_calls {cfg : PoolConfig} {s s' : State} {i : Nat} {inst : Instance}
    {pc : ManagerPc} (h : manageInstance cfg s i inst pc = some s') : s'.calls = s.calls := by
  cases pc with
  | queuedForToken r => cases h
  | waitForTrigger | drain r =>
      simp only [manageInstance] at h
      split at h <;> cases h <;> rfl
  | releaseToken r =>
      cases h
      rw [State.setManager_calls, State.releaseRecycleToken_calls]
  | _ =>
      cases h
      rfl

/-- What a step of the pool does to the calls. -/
theorem step_calls {cfg : PoolConfig} {s s' : State} {a : Action} (h : step cfg s a = some s') :
    CallsStep s a s'.calls := by
  cases step_cases h with
  -- the managers leave the calls alone
  | launchInstance _ _ | launchReturn _ | disconnect | drainTimeout _ _ _ | relaunchFailed => exact .same
  | @trigger i inst r s' _ _ h =>
      cases r <;> simp only [waitForTrigger] at h <;> split at h <;> cases h <;> exact .same
  | manage _ h =>
      rw [manageInstance_calls h]
      exact .same
  | checkout hready => exact .new hready
  | call hc h => exact checkout_calls hc h
  | cancel hc h => exact cancelCheckout_calls hc h
  | dropCheckout hc => exact .move hc (.letGo rfl)
  | spawnTeardown _ | finishTeardown => exact .same

/-- A view of the calls that does not tell a parked from a granted call. -/
theorem CallsStep.map {γ : Type*} {s : State} {a : Action} {calls' : List CallPc}
    (h : CallsStep s a calls') (f : CallPc → γ)
    (hf : ∀ t i, f (.parked t i) = f (.granted t i)) :
    calls'.map f = s.calls.map f ∨
    calls'.map f = s.calls.map f ++ [f (.scanStatus 0 0 none)] ∨
    ∃ c pc pc', s.calls[c]? = some pc ∧ CallMove s a c pc pc' ∧
      calls'.map f = (s.calls.map f).set c (f pc') := by
  cases h with
  | same => exact Or.inl rfl
  | new _ => exact Or.inr (Or.inl (by rw [List.map_append]; rfl))
  | move hc hm => exact Or.inr (Or.inr ⟨_, _, _, hc, hm, List.map_set⟩)
  | @wake c k t i pc pc' hc hm hk =>
      refine Or.inr (Or.inr ⟨c, pc, pc', hc, hm, ?_⟩)
      -- the woken call looks as before
      have hk' : (s.calls.map f)[k]? = some (f (.granted t i)) := by
        rw [List.getElem?_map, hk, Option.map_some, hf]
      have hsame : (s.calls.map f).set k (f (.granted t i)) = s.calls.map f := by
        obtain ⟨hlt, hget⟩ := List.getElem?_eq_some_iff.mp hk'
        rw [← hget, List.set_getElem_self]
      rw [List.map_set, List.map_set, hsame]

/-- Nobody calls `checkout` before `launch` has returned the pool. -/
def NoEarlyCalls (s : State) : Prop := s.ready = false → s.calls = []

theorem NoEarlyCalls.init : NoEarlyCalls State.init := fun _ => rfl

theorem NoEarlyCalls.step {cfg : PoolConfig} {s s' : State} {a : Action} (hs : NoEarlyCalls s)
    (h : step cfg s a = some s') : NoEarlyCalls s' := by
  intro hready'
  have hready : s.ready = false := by
    rcases step_shape h with hsh | ⟨hready, -, -⟩ | ⟨-, hsh⟩
    · have hsame : s'.ready = s.ready := congrArg Prod.snd hsh
      rw [← hsame, hready']
    · exact hready
    · have htrue : s'.ready = true := congrArg Prod.snd hsh
      rw [hready'] at htrue
      cases htrue
  have hnone := hs hready
  generalize hcalls : s'.calls = calls' at *
  have hstep := step_calls h
  rw [hcalls] at hstep
  cases hstep with
  | same => exact hnone
  | new h => simp [hready] at h
  | move hc _ | wake hc _ _ => simp [hnone] at hc

/-- A call that has chosen its instance for good uses one that exists. -/
def EnteredExist (s : State) : Prop :=
  ∀ (c i : Nat) (pc : CallPc), s.calls[c]? = some pc → pc.entered = some i → i < s.instances.length

/-- What a call shows after a step it showed before, unless it moved itself. -/
theorem CallsStep.origin {γ : Type*} {s : State} {a : Action} {calls' : List CallPc}
    (h : CallsStep s a calls') (f : CallPc → Option γ)
    (hf : ∀ t i, f (.parked t i) = f (.granted t i)) (hnew : f (.scanStatus 0 0 none) = none)
    {c : Nat} {pc' : CallPc} (hc' : calls'[c]? = some pc') {x : γ} (hx : f pc' = some x) :
    (∃ pc, s.calls[c]? = some pc ∧ f pc = some x) ∨
    ∃ pc, s.calls[c]? = some pc ∧ CallMove s a c pc pc' := by
  cases h with
  | same => exact Or.inl ⟨pc', hc', hx⟩
  | new _ =>
      rw [List.getElem?_append] at hc'
      split at hc'
      · exact Or.inl ⟨pc', hc', hx⟩
      -- a new call shows nothing
      · rw [List.getElem?_singleton] at hc'
        split at hc' <;> cases hc'
        rw [hnew] at hx
        cases hx
  | @move d pc pc'' hd hm =>
      by_cases hdc : d = c
      · subst hdc
        rw [List.getElem?_set_self (List.getElem?_eq_some_iff.mp hd).1] at hc'
        cases hc'
        exact Or.inr ⟨pc, hd, hm⟩
      · rw [List.getElem?_set_ne hdc] at hc'
        exact Or.inl ⟨pc', hc', hx⟩
  | @wake d k t i pc pc'' hd hm hk =>
      by_cases hdc : d = c
      · subst hdc
        rw [List.getElem?_set_self
          (by rw [List.length_set]; exact (List.getElem?_eq_some_iff.mp hd).1)] at hc'
        cases hc'
        exact Or.inr ⟨pc, hd, hm⟩
      · rw [List.getElem?_set_ne hdc] at hc'
        by_cases hkc : k = c
        · subst hkc
          rw [List.getElem?_set_self (List.getElem?_eq_some_iff.mp hk).1] at hc'
          cases hc'
          exact Or.inl ⟨_, hk, by rw [hf, hx]⟩
        · rw [List.getElem?_set_ne hkc] at hc'
          exact Or.inl ⟨pc', hc', hx⟩

/-- A call that waits for no permit stays where it is unless it moves itself. -/
theorem CallsStep.stays {s : State} {a : Action} {calls' : List CallPc} (h : CallsStep s a calls')
    {c : Nat} {pc : CallPc} (hc : s.calls[c]? = some pc) (hp : ∀ t i, pc ≠ .parked t i) :
    calls'[c]? = some pc ∨ ∃ pc', CallMove s a c pc pc' := by
  have hlt : c < s.calls.length := (List.getElem?_eq_some_iff.mp hc).1
  cases h with
  | same => exact Or.inl hc
  | new _ => exact Or.inl (by rw [List.getElem?_append_left hlt, hc])
  | @move d pd pd' hd hm =>
      by_cases hdc : d = c
      · subst hdc
        obtain rfl := Option.some.inj (hc.symm.trans hd)
        exact Or.inr ⟨pd', hm⟩
      · exact Or.inl (by rw [List.getElem?_set_ne hdc, hc])
  | @wake d k t i pd pd' hd hm hk =>
      by_cases hdc : d = c
      · subst hdc
        obtain rfl := Option.some.inj (hc.symm.trans hd)
        exact Or.inr ⟨pd', hm⟩
      -- the call that is woken is parked
      · have hkc : k ≠ c := by
          rintro rfl
          exact hp t i (Option.some.inj (hc.symm.trans hk))
        exact Or.inl (by rw [List.getElem?_set_ne hdc, List.getElem?_set_ne hkc, hc])

/-- A browser is leased by the call that reads it off its instance. -/
theorem step_lease {cfg : PoolConfig} {s s' : State} {a : Action} (h : step cfg s a = some s')
    {c i : Nat} {b : BrowserId} {pc' : CallPc} (hc' : s'.calls[c]? = some pc')
    (hb : pc'.lease = some (i, b)) :
    (∃ pc, s.calls[c]? = some pc ∧ pc.lease = some (i, b)) ∨
    (a = .call c ∧ s.calls[c]? = some (.readInner i) ∧
      ∃ inst, s.instances[i]? = some inst ∧ inst.browser = b) := by
  rcases (step_calls h).origin CallPc.lease (fun _ _ => rfl) rfl hc' hb with hold | ⟨pc, hc, hm⟩
  · exact Or.inl hold
  · cases hm with
    | idle _ _ hidle _ =>
        have hcount := CallPc.counted_of_lease hb
        rw [hidle.1] at hcount
        cases hcount
    | read ha hi =>
        cases hb
        exact Or.inr ⟨ha, hc, _, hi, rfl⟩
    | letGo _ =>
        cases hb
        exact Or.inl ⟨_, hc, rfl⟩
    | carry _ _ hcount =>
        rw [CallPc.counted_of_lease hb] at hcount
        cases hcount
    | count _ | uncount _ | dropHandle _ | cancel _ _ => cases hb

/-- A call gets a handle by reading it off its instance. -/
theorem step_handle {cfg : PoolConfig} {s s' : State} {a : Action} (h : step cfg s a = some s')
    {c : Nat} {b : BrowserId} {pc' : CallPc} (hc' : s'.calls[c]? = some pc')
    (hb : pc'.handle = some b) :
    (∃ pc, s.calls[c]? = some pc ∧ pc.handle = some b) ∨
    ∃ (i : Nat) (inst : Instance), a = .call c ∧ s.calls[c]? = some (.readInner i) ∧
      s.instances[i]? = some inst ∧ inst.browser = b := by
  rcases (step_calls h).origin CallPc.handle (fun _ _ => rfl) rfl hc' hb with hold | ⟨pc, hc, hm⟩
  · exact Or.inl hold
  · cases hm with
    | idle _ _ hidle _ =>
        rw [hidle.2] at hb
        cases hb
    | read ha hi =>
        cases hb
        exact Or.inr ⟨_, _, ha, hc, hi, rfl⟩
    | letGo _ | uncount _ =>
        cases hb
        exact Or.inl ⟨_, hc, rfl⟩
    | carry _ _ _ hbefore hafter =>
        obtain rfl := Option.some.inj (hafter.symm.trans hb)
        exact Or.inl ⟨pc, hc, hbefore⟩
    | count _ | dropHandle _ | cancel _ _ => cases hb

theorem EnteredExist.init : EnteredExist State.init := by
  intro c i pc hc
  simp [State.init] at hc

theorem EnteredExist.step {cfg : PoolConfig} {s s' : State} {a : Action} (hs : EnteredExist s)
    (h : step cfg s a = some s') : EnteredExist s' := by
  intro c i pc' hc' hi
  refine Nat.lt_of_lt_of_le ?_ (step_length h)
  rcases (step_calls h).origin CallPc.entered (fun _ _ => rfl) rfl hc' hi with
    ⟨pc, hc, hold⟩ | ⟨pc, hc, hm⟩
  · exact hs c i pc hc hold
  · cases hm with
    | idle _ _ _ henter => exact henter i hi
    | count _ | read _ _ | letGo _ =>
        cases hi
        exact hs c i _ hc rfl
    | carry _ _ hcount _ hafter =>
        cases pc' with
        | addInFlight _ | readInner _ => cases hafter
        | live _ _ | subInFlight _ _ => cases hcount
        | _ => cases hi
    | uncount _ | dropHandle _ | cancel _ _ => cases hi

/-! ## The stock under the steps of the pool -/

@[simp] theorem State.stock_setCall (s : State) (c : Nat) (pc : CallPc) (j : Nat) :
    (s.setCall c pc).stock j = s.stock j := rfl

@[simp] theorem State.stock_releasePermit (s : State) (i j : Nat) :
    (s.releasePermit i).stock j = s.stock j := by
  rw [stock, releasePermit_instances, List.getElem?_modify, stock]
  cases s.instances[j]? with
  | none => rfl
  | some x => by_cases hij : i = j <;> simp [hij, Instance.stock]

/-- A manager that goes on with the recycle token has nothing outgoing. -/
theorem ManagerPc.outgoing_afterToken (r : RecycleReason) :
    (ManagerPc.afterToken r).outgoing = none ∧ (ManagerPc.afterToken r).drained = false := by
  cases r <;> exact ⟨rfl, rfl⟩

/-- A step that changes an instance changes its stock. -/
theorem InstanceStep.stock {cfg : PoolConfig} {s s' : State} {a : Action} {j : Nat}
    {x x' : Instance} (h : InstanceStep cfg s s' a j x x') :
    StockStep s s' a j x.stock x'.stock := by
  cases h with
  | same | permits | disconnect | addServed _ _ _ | notifyRecycle _ _ | register _ _ _ =>
      exact .same
  -- the two accesses to `in_flight`
  | addInFlight ha hc => exact .count ha hc
  | subInFlight ha hc => exact .uncount ha hc
  | trigger _ _ _ | notified _ _ _ | storeStatus _ _ | drainTimeout _ _ | dropOldDir _ _
  | resetServed _ _ | storeActive _ _ | releaseToken _ _ => exact .manager rfl rfl
  | checkServed _ _ | updateGauge _ _ =>
      refine .manager ?_ ?_
      all_goals
        dsimp only
        split <;> rfl
  | @acquireToken r m _ _ hm =>
      obtain ⟨ho, hd⟩ := ManagerPc.outgoing_afterToken r
      rcases hm with ⟨rfl, -⟩ | rfl
      · exact .manager ho hd
      · exact .manager rfl rfl
  | @resume r _ _ =>
      obtain ⟨ho, hd⟩ := ManagerPc.outgoing_afterToken r
      exact .manager ho hd
  | drained ha hpc hzero =>
      simp only [Instance.stock, hpc, hzero]
      exact .drained ha
  | swap ha hpc hnext =>
      simp only [Instance.stock, hpc]
      exact .swap ha hnext
  | dropOldBrowser ha hpc =>
      simp only [Instance.stock, hpc]
      exact .dropBrowser ha

/-- What a step of the pool does to the stock of instance `j`: a `StockStep`, or
    the launch of a fresh instance. -/
theorem step_stock {cfg : PoolConfig} {s s' : State} {a : Action} (h : step cfg s a = some s')
    {j : Nat} {st' : Stock} (hj : s'.stock j = some st') :
    (∃ st, s.stock j = some st ∧ StockStep s s' a j st st') ∨
    (a = .launchInstance ∧ j = s.instances.length ∧ st' = ⟨s.nextBrowser, 0, .waitForTrigger⟩ ∧
      s'.nextBrowser = s.nextBrowser + 1 ∧ s'.calls = s.calls ∧ s.ready = false) := by
  obtain ⟨x', hx', rfl⟩ := Option.map_eq_some_iff.mp hj
  rcases step_instance h hx' with ⟨x, hx, hstep⟩ | ⟨ha, hlen, rfl, hrest⟩
  · exact Or.inl ⟨x.stock, by rw [State.stock, hx]; rfl, hstep.stock⟩
  · exact Or.inr ⟨ha, hlen, rfl, hrest⟩

/-! ## Teardown tasks and browser names -/

namespace State

/-- The teardown tasks, and the name of the next browser. -/
def ledger (s : State) : List (Option BrowserId) × BrowserId := (s.teardowns, s.nextBrowser)

@[simp] theorem ledger_modifyInstance (s : State) (i : Nat) (f : Instance → Instance) :
    (s.modifyInstance i f).ledger = s.ledger := rfl

@[simp] theorem ledger_setCall (s : State) (c : Nat) (pc : CallPc) :
    (s.setCall c pc).ledger = s.ledger := rfl

@[simp] theorem ledger_grant (s : State) (k : Nat) : (s.grant k).ledger = s.ledger := by
  unfold grant
  split <;> rfl

@[simp] theorem ledger_releasePermit (s : State) (i : Nat) :
    (s.releasePermit i).ledger = s.ledger := by
  unfold releasePermit
  cases s.instances[i]? with
  | none => rfl
  | some inst =>
      dsimp only
      cases inst.permits.release.1 with
      | none => rfl
      | some k => rw [ledger_grant, ledger_modifyInstance]

@[simp] theorem ledger_releaseRecycleToken (s : State) :
    s.releaseRecycleToken.ledger = s.ledger := by
  unfold releaseRecycleToken
  cases s.recycleToken.release.1 <;> rfl

end State

theorem checkout_ledger {cfg : PoolConfig} {s s' : State} {c : Nat} {pc : CallPc}
    (h : checkout cfg s c pc = some s') : s'.ledger = s.ledger := by
  cases pc with
  | scanStatus t idx best =>
      simp only [checkout] at h
      split at h <;>
      · cases h
        rfl
  | scanPermits t idx best | checkStatus t i | readInner i | acquire t i | addServed i b =>
      obtain ⟨inst, -, rfl⟩ := Option.map_eq_some_iff.mp h
      rfl
  | giveBack t i | dropPermit i =>
      cases h
      rw [State.ledger_setCall, State.ledger_releasePermit]
  | addInFlight i | subInFlight i b | notifyRecycle i b | granted t i | dropBrowser i b =>
      cases h
      rfl
  | parked t i | live i b | dropped | unavailable | cancelled => cases h

/-- A manager spawns no teardown task, and only the swap names a new browser. -/
theorem manageInstance_ledger {cfg : PoolConfig} {s s' : State} {i : Nat} {inst : Instance}
    {pc : ManagerPc} (h : manageInstance cfg s i inst pc = some s') :
    s'.ledger = s.ledger ∨ s'.ledger = (s.teardowns, s.nextBrowser + 1) := by
  cases pc with
  | queuedForToken r => cases h
  | waitForTrigger | drain r =>
      simp only [manageInstance] at h
      split at h <;> cases h <;> exact Or.inl rfl
  | relaunch r d =>
      cases h
      exact Or.inr rfl
  | releaseToken r =>
      cases h
      exact Or.inl (State.ledger_releaseRecycleToken s)
  | _ =>
      cases h
      exact Or.inl rfl

/-- What a step does to the teardown tasks and to the browser names. -/
theorem step_ledger {cfg : PoolConfig} {s s' : State} {a : Action} (h : step cfg s a = some s') :
    s'.ledger = s.ledger ∨ s'.ledger = (s.teardowns, s.nextBrowser + 1) ∨
    (∃ (c i : Nat) (b : BrowserId), s.calls[c]? = some (.live i b) ∧
      s'.ledger = (s.teardowns ++ [some b], s.nextBrowser)) ∨
    ∃ k, s'.ledger = (s.teardowns.set k none, s.nextBrowser) := by
  cases step_cases h with
  | launchInstance _ _ => exact Or.inr (Or.inl rfl)
  | @trigger i inst r s' _ _ h =>
      cases r <;> simp only [waitForTrigger] at h <;> split at h <;> cases h <;> exact Or.inl rfl
  | manage _ h => exact (manageInstance_ledger h).imp_right Or.inl
  | call _ h => exact Or.inl (checkout_ledger h)
  | @cancel c pc s' _ h =>
      left
      cases pc <;> cases h <;> simp
  | spawnTeardown hc => exact Or.inr (Or.inr (Or.inl ⟨_, _, _, hc, rfl⟩))
  | finishTeardown => exact Or.inr (Or.inr (Or.inr ⟨_, rfl⟩))
  | launchReturn _ | disconnect | drainTimeout _ _ _ | relaunchFailed | checkout _
  | dropCheckout _ => exact Or.inl rfl

/-- Browser names are not used again. -/
theorem step_nextBrowser {cfg : PoolConfig} {s s' : State} {a : Action}
    (h : step cfg s a = some s') : s.nextBrowser ≤ s'.nextBrowser := by
  rcases step_ledger h with hl | hl | ⟨c, i, b, -, hl⟩ | ⟨k, hl⟩
  all_goals have hnext : s'.nextBrowser = _ := congrArg Prod.snd hl
  · exact Nat.le_of_eq hnext.symm
  · exact hnext ▸ Nat.le_succ s.nextBrowser
  · exact Nat.le_of_eq hnext.symm
  · exact Nat.le_of_eq hnext.symm

/-- A teardown task gets its handle from a live `Checkout`. -/
theorem step_teardowns {cfg : PoolConfig} {s s' : State} {a : Action} (h : step cfg s a = some s')
    {b : BrowserId} (hb : some b ∈ s'.teardowns) :
    some b ∈ s.teardowns ∨ ∃ c i : Nat, s.calls[c]? = some (.live i b) := by
  rcases step_ledger h with hl | hl | ⟨c, i, b', hc, hl⟩ | ⟨k, hl⟩
  all_goals
    have htasks := congrArg Prod.fst hl
    simp only [State.ledger] at htasks
    rw [htasks] at hb
  · exact Or.inl hb
  · exact Or.inl hb
  · rcases List.mem_append.mp hb with hold | hnew
    · exact Or.inl hold
    · obtain rfl : b = b' := by simpa using hnew
      exact Or.inr ⟨c, i, hc⟩
  · rcases List.mem_or_eq_of_mem_set hb with hold | hnone
    · exact Or.inl hold
    · cases hnone

end Pool
end BrowserHeadless
