/-
  BrowserHeadless.Pool.Permits

  Where the page permits of an instance are.

  A permit of an instance is free in its semaphore or held by a `checkout` call,
  from the acquire to the end of the drop of its `Checkout`; a call in the queue of
  the semaphore is parked on that instance.  `PermitsKept` says so about the
  semaphores and the calls, its lemmas say that the elementary moves keep it, and
  `step_pages` says which of these moves a step of the pool makes.
-/

import BrowserHeadless.Lib.Lists
import BrowserHeadless.Pool.Custody
import Mathlib.Data.List.Nodup
import Mathlib.Logic.Function.Basic

namespace BrowserHeadless
namespace Pool

open Lib (Semaphore)

/-- The instance whose page permit the call holds. -/
def CallPc.permit : CallPc → Option Nat
  | granted _ i | checkStatus _ i | giveBack _ i | addInFlight i | readInner i | live i _
  | subInFlight i _ | addServed i _ | notifyRecycle i _ | dropBrowser i _ | dropPermit i => some i
  | _ => none

/-- The instance on whose semaphore the call is parked. -/
def CallPc.waitsOn : CallPc → Option Nat
  | parked _ i => some i
  | _ => none

@[simp] theorem CallPc.permit_parked (t i : Nat) : (parked t i).permit = none := rfl

@[simp] theorem CallPc.permit_granted (t i : Nat) : (granted t i).permit = some i := rfl

/-- The page permits of instance `i`. -/
def State.pages (s : State) (i : Nat) : Option (Semaphore Nat) :=
  s.instances[i]?.map Instance.permits

/-- The instance whose permit the action gives back. -/
def State.releases (s : State) : Action → Option Nat
  | .call c =>
      match s.calls[c]? with
      | some (.giveBack _ i) | some (.dropPermit i) => some i
      | _ => none
  | .cancel c =>
      match s.calls[c]? with
      | some (.granted _ i) | some (.readInner i) => some i
      | _ => none
  | _ => none

/-- How many of the calls hold a page permit of instance `i`. -/
def heldOn (calls : List CallPc) (i : Nat) : Nat := (calls.map CallPc.permit).count (some i)

/-- A call that moves changes the count of `j` by the permits it holds before and
    after. -/
theorem heldOn_set {calls : List CallPc} {c : Nat} {pc : CallPc} (hc : calls[c]? = some pc)
    (pc' : CallPc) (j : Nat) :
    heldOn (calls.set c pc') j + (if pc.permit = some j then 1 else 0) =
      heldOn calls j + (if pc'.permit = some j then 1 else 0) := by
  have hmap : (calls.map CallPc.permit)[c]? = some pc.permit := by
    rw [List.getElem?_map, hc]
    rfl
  rw [heldOn, List.map_set]
  exact Lib.count_set_add hmap pc'.permit (some j)

/-! ## Permits under the elementary moves -/

/-- The semaphores of the instances, with `n` permits each, fit the calls. -/
structure PermitsKept (n : Nat) (pages : Nat → Option (Semaphore Nat)) (calls : List CallPc) :
    Prop where
  /-- A call holds a permit of an instance, or waits for one, that exists. -/
  placed : ∀ (c i : Nat) (pc : CallPc), calls[c]? = some pc →
    pc.permit = some i ∨ pc.waitsOn = some i → ∃ sem, pages i = some sem
  nodup : ∀ i sem, pages i = some sem → sem.waiters.Nodup
  /-- Who is in the queue of an instance is parked on it. -/
  parked : ∀ i sem, pages i = some sem → ∀ k ∈ sem.waiters, ∃ t, calls[k]? = some (.parked t i)
  /-- A permit is free or held. -/
  conserved : ∀ i sem, pages i = some sem → sem.permits + heldOn calls i = n

namespace PermitsKept

variable {n : Nat} {pages : Nat → Option (Semaphore Nat)} {calls : List CallPc}

/-- A further instance, whose permits are all free. -/
theorem launch (h : PermitsKept n pages []) {pages' : Nat → Option (Semaphore Nat)}
    (hpages : ∀ j sem, pages' j = some sem → pages j = some sem ∨ sem = .new n) :
    PermitsKept n pages' [] := by
  constructor
  · intro c i pc hc
    simp at hc
  · intro i sem hi
    rcases hpages i sem hi with hold | rfl
    · exact h.nodup i sem hold
    · exact List.nodup_nil
  · intro i sem hi k hk
    rcases hpages i sem hi with hold | rfl
    · exact h.parked i sem hold k hk
    · simp at hk
  · intro i sem hi
    rcases hpages i sem hi with hold | rfl
    · exact h.conserved i sem hold
    · rfl

/-- A new call. -/
theorem append (h : PermitsKept n pages calls) {pc : CallPc} (hp : pc.permit = none)
    (hw : pc.waitsOn = none) : PermitsKept n pages (calls ++ [pc]) := by
  constructor
  · intro c i pc' hc hi
    rw [List.getElem?_append] at hc
    split at hc
    · exact h.placed c i pc' hc hi
    · rw [List.getElem?_singleton] at hc
      split at hc <;> cases hc
      rw [hp, hw] at hi
      rcases hi with hi | hi <;> cases hi
  · exact h.nodup
  · intro i sem hi k hk
    obtain ⟨t, ht⟩ := h.parked i sem hi k hk
    exact ⟨t, by rw [List.getElem?_append_left (List.getElem?_eq_some_iff.mp ht).1, ht]⟩
  · intro i sem hi
    have hheld : heldOn (calls ++ [pc]) i = heldOn calls i := by
      rw [heldOn, List.map_append, List.count_append, heldOn]
      simp [hp]
    rw [hheld]
    exact h.conserved i sem hi

/-- Whoever waits still waits when another call moves. -/
theorem parked_set (h : PermitsKept n pages calls) {c : Nat} {pc : CallPc}
    (hc : calls[c]? = some pc) (hw : pc.waitsOn = none) (pc' : CallPc) {i : Nat}
    {sem : Semaphore Nat} (hi : pages i = some sem) {k : Nat} (hk : k ∈ sem.waiters) :
    k ≠ c ∧ ∃ t, (calls.set c pc')[k]? = some (.parked t i) := by
  obtain ⟨t, ht⟩ := h.parked i sem hi k hk
  have hkc : k ≠ c := by
    rintro rfl
    obtain rfl := Option.some.inj (ht.symm.trans hc)
    cases hw
  exact ⟨hkc, t, by rw [List.getElem?_set_ne (Ne.symm hkc), ht]⟩

/-- Where the calls are after one has moved. -/
theorem placed_set (h : PermitsKept n pages calls) {c : Nat} {pc' : CallPc}
    (hc' : ∀ i, pc'.permit = some i ∨ pc'.waitsOn = some i → ∃ sem, pages i = some sem)
    (d i : Nat) (pc : CallPc) (hd : (calls.set c pc')[d]? = some pc)
    (hi : pc.permit = some i ∨ pc.waitsOn = some i) : ∃ sem, pages i = some sem := by
  by_cases hcd : c = d
  · subst hcd
    have hlt : c < (calls.set c pc').length := (List.getElem?_eq_some_iff.mp hd).1
    rw [List.getElem?_set_self (by rwa [List.length_set] at hlt)] at hd
    cases hd
    exact hc' i hi
  · rw [List.getElem?_set_ne hcd] at hd
    exact h.placed d i pc hd hi

/-- A call moves on with the permits it has. -/
theorem move (h : PermitsKept n pages calls) {c : Nat} {pc pc' : CallPc}
    (hc : calls[c]? = some pc) (hp : pc'.permit = pc.permit) (hw : pc.waitsOn = none)
    (hw' : pc'.waitsOn = none) : PermitsKept n pages (calls.set c pc') := by
  constructor
  · refine h.placed_set ?_
    rintro i (hi | hi)
    · exact h.placed c i pc hc (Or.inl (hp ▸ hi))
    · rw [hw'] at hi
      cases hi
  · exact h.nodup
  · exact fun i sem hi k hk => (h.parked_set hc hw pc' hi hk).2
  · intro i sem hi
    have hheld := heldOn_set hc pc' i
    rw [hp] at hheld
    have hbefore := h.conserved i sem hi
    omega

/-- The semaphore of instance `i` changes with the calls, and for the other
    instances nothing changes. -/
theorem update (h : PermitsKept n pages calls) {i : Nat} {sem sem' : Semaphore Nat}
    {calls' : List CallPc} (hi : pages i = some sem)
    (hplaced : ∀ (c j : Nat) (pc : CallPc), calls'[c]? = some pc →
      pc.permit = some j ∨ pc.waitsOn = some j → ∃ semj, pages j = some semj)
    (hnodup : sem'.waiters.Nodup)
    (hparked : ∀ k ∈ sem'.waiters, ∃ t, calls'[k]? = some (.parked t i))
    (hself : sem'.permits + heldOn calls' i = sem.permits + heldOn calls i)
    (hothers : ∀ j semj, j ≠ i → pages j = some semj →
      (∀ k ∈ semj.waiters, ∃ t, calls'[k]? = some (.parked t j)) ∧
      heldOn calls' j = heldOn calls j) :
    PermitsKept n (Function.update pages i (some sem')) calls' := by
  constructor
  · intro c j pc hc hj
    by_cases hji : j = i
    · exact ⟨sem', by rw [hji, Function.update_self]⟩
    · rw [Function.update_of_ne hji]
      exact hplaced c j pc hc hj
  · intro j semj hj
    by_cases hji : j = i
    · rw [hji, Function.update_self] at hj
      cases hj
      exact hnodup
    · rw [Function.update_of_ne hji] at hj
      exact h.nodup j semj hj
  · intro j semj hj
    by_cases hji : j = i
    · subst hji
      rw [Function.update_self] at hj
      cases hj
      exact hparked
    · rw [Function.update_of_ne hji] at hj
      exact (hothers j semj hji hj).1
  · intro j semj hj
    by_cases hji : j = i
    · subst hji
      rw [Function.update_self] at hj
      cases hj
      rw [hself]
      exact h.conserved j sem hi
    · rw [Function.update_of_ne hji] at hj
      rw [(hothers j semj hji hj).2]
      exact h.conserved j semj hj

/-- A call takes a free permit, or puts one back. -/
theorem exchange (h : PermitsKept n pages calls) {c i : Nat} {pc pc' : CallPc}
    {sem sem' : Semaphore Nat} (hc : calls[c]? = some pc) (hi : pages i = some sem)
    (hw : pc.waitsOn = none) (hw' : pc'.waitsOn = none) (hq : sem'.waiters = sem.waiters)
    (hp : ∀ j, pc.permit = some j → j = i) (hp' : ∀ j, pc'.permit = some j → j = i)
    (hself : sem'.permits + (if pc'.permit = some i then 1 else 0) =
      sem.permits + (if pc.permit = some i then 1 else 0)) :
    PermitsKept n (Function.update pages i (some sem')) (calls.set c pc') := by
  refine h.update hi (h.placed_set ?_) ?_ ?_ ?_ ?_
  · rintro j (hj | hj)
    · exact ⟨sem, hp' j hj ▸ hi⟩
    · rw [hw'] at hj
      cases hj
  · rw [hq]
    exact h.nodup i sem hi
  · rw [hq]
    exact fun k hk => (h.parked_set hc hw pc' hi hk).2
  · have hheld := heldOn_set hc pc' i
    omega
  · intro j semj hji hj
    refine ⟨fun k hk => (h.parked_set hc hw pc' hj hk).2, ?_⟩
    have hheld := heldOn_set hc pc' j
    rwa [if_neg fun heq => hji (hp j heq), if_neg fun heq => hji (hp' j heq)] at hheld

/-- A call joins the queue of `i`. -/
theorem park (h : PermitsKept n pages calls) {c i t : Nat} {pc : CallPc} {sem sem' : Semaphore Nat}
    (hc : calls[c]? = some pc) (hi : pages i = some sem) (hp : pc.permit = none)
    (hw : pc.waitsOn = none) (hn : sem'.permits = sem.permits)
    (hq : sem'.waiters = sem.waiters ++ [c]) :
    PermitsKept n (Function.update pages i (some sem')) (calls.set c (.parked t i)) := by
  have hheld : ∀ j, heldOn (calls.set c (.parked t i)) j = heldOn calls j := by
    intro j
    have hset := heldOn_set hc (.parked t i) j
    rw [hp] at hset
    simpa using hset
  refine h.update hi (h.placed_set ?_) ?_ ?_ ?_ ?_
  · rintro j (hj | hj)
    · cases hj
    · cases hj
      exact ⟨sem, hi⟩
  -- the call was not in the queue
  · rw [hq]
    rw [← List.concat_eq_append]
    refine (h.nodup i sem hi).concat ?_
    intro hmem
    exact (h.parked_set hc hw pc hi hmem).1 rfl
  · rw [hq]
    intro k hk
    rcases List.mem_append.mp hk with hold | hnew
    · exact (h.parked_set hc hw _ hi hold).2
    · obtain rfl := List.mem_singleton.mp hnew
      exact ⟨t, List.getElem?_set_self (List.getElem?_eq_some_iff.mp hc).1⟩
  · rw [hn, hheld]
  · exact fun j semj _ hj => ⟨fun k hk => (h.parked_set hc hw _ hj hk).2, hheld j⟩

/-- A parked call leaves the queue. -/
theorem leave (h : PermitsKept n pages calls) {c i t : Nat} {pc' : CallPc}
    {sem sem' : Semaphore Nat} (hc : calls[c]? = some (.parked t i)) (hi : pages i = some sem)
    (hw' : pc'.waitsOn = none) (hp' : ∀ j, pc'.permit = some j → j = i)
    (hnodup : sem'.waiters.Nodup) (hq : ∀ k ∈ sem'.waiters, k ∈ sem.waiters ∧ k ≠ c)
    (hself : sem'.permits + (if pc'.permit = some i then 1 else 0) = sem.permits) :
    PermitsKept n (Function.update pages i (some sem')) (calls.set c pc') := by
  have hset : ∀ j semj, pages j = some semj → ∀ k ∈ semj.waiters, k ≠ c →
      ∃ t, (calls.set c pc')[k]? = some (.parked t j) := by
    intro j semj hj k hk hkc
    obtain ⟨t', ht⟩ := h.parked j semj hj k hk
    exact ⟨t', by rw [List.getElem?_set_ne (Ne.symm hkc), ht]⟩
  refine h.update hi (h.placed_set ?_) hnodup ?_ ?_ ?_
  · rintro j (hj | hj)
    · exact ⟨sem, hp' j hj ▸ hi⟩
    · rw [hw'] at hj
      cases hj
  · exact fun k hk => hset i sem hi k (hq k hk).1 (hq k hk).2
  · have hheld := heldOn_set hc pc' i
    rw [CallPc.permit_parked, if_neg (by simp)] at hheld
    omega
  · intro j semj hji hj
    constructor
    -- the call was in the queue of `i` alone
    · intro k hk
      refine hset j semj hj k hk ?_
      rintro rfl
      obtain ⟨t', ht⟩ := h.parked j semj hj k hk
      have hsame := Option.some.inj (ht.symm.trans hc)
      cases hsame
      exact hji rfl
    · have hheld := heldOn_set hc pc' j
      rwa [CallPc.permit_parked, if_neg (by simp), if_neg fun heq => hji (hp' j heq)] at hheld

/-- The permit of call `c` goes to the parked call `k`. -/
theorem handOver (h : PermitsKept n pages calls) {c i k t : Nat} {pc pc' : CallPc}
    {sem sem' : Semaphore Nat} (hc : calls[c]? = some pc) (hk : calls[k]? = some (.parked t i))
    (hi : pages i = some sem) (hp : pc.permit = some i) (hp' : pc'.permit = none)
    (hw : pc.waitsOn = none) (hw' : pc'.waitsOn = none) (hn : sem'.permits = sem.permits)
    (hnodup : sem'.waiters.Nodup) (hq : ∀ m ∈ sem'.waiters, m ∈ sem.waiters ∧ m ≠ k) :
    PermitsKept n (Function.update pages i (some sem'))
      ((calls.set k (.granted t i)).set c pc') := by
  have hkc : k ≠ c := by
    rintro rfl
    obtain rfl := Option.some.inj (hk.symm.trans hc)
    cases hw
  have hc1 : (calls.set k (.granted t i))[c]? = some pc := by
    rw [List.getElem?_set_ne hkc, hc]
  -- whoever else waits is neither of the two
  have hwaits : ∀ j semj, pages j = some semj → ∀ m ∈ semj.waiters, m ≠ k →
      ∃ t', ((calls.set k (.granted t i)).set c pc')[m]? = some (.parked t' j) := by
    intro j semj hj m hm hmk
    obtain ⟨hmc, t', ht⟩ := h.parked_set hc hw pc' hj hm
    refine ⟨t', ?_⟩
    rw [List.getElem?_set_ne (Ne.symm hmc), List.getElem?_set_ne (Ne.symm hmk)]
    rwa [List.getElem?_set_ne (Ne.symm hmc)] at ht
  have hheld : ∀ j, heldOn ((calls.set k (.granted t i)).set c pc') j = heldOn calls j := by
    intro j
    have hfirst := heldOn_set hk (.granted t i) j
    have hsecond := heldOn_set hc1 pc' j
    have hnone : (none : Option Nat) ≠ some j := nofun
    rw [CallPc.permit_parked, CallPc.permit_granted, if_neg hnone] at hfirst
    rw [hp, hp', if_neg hnone] at hsecond
    omega
  refine h.update hi ?_ hnodup ?_ ?_ ?_
  · intro d j pcd hd hj
    by_cases hdc : c = d
    · subst hdc
      rw [List.getElem?_set_self (List.getElem?_eq_some_iff.mp hc1).1] at hd
      cases hd
      rw [hp', hw'] at hj
      rcases hj with hj | hj <;> cases hj
    · rw [List.getElem?_set_ne hdc] at hd
      refine h.placed_set ?_ d j pcd hd hj
      rintro j (hj | hj) <;> cases hj
      exact ⟨sem, hi⟩
  · exact fun m hm => hwaits i sem hi m (hq m hm).1 (hq m hm).2
  · rw [hn, hheld]
  · intro j semj hji hj
    refine ⟨fun m hm => hwaits j semj hj m hm ?_, hheld j⟩
    rintro rfl
    obtain ⟨t', ht⟩ := h.parked j semj hj m hm
    have hsame := Option.some.inj (ht.symm.trans hk)
    cases hsame
    exact hji rfl

end PermitsKept

/-! ## Permits under the steps of the pool -/

theorem pages_eq_update {s s' : State} {i : Nat} {inst : Instance} {f : Instance → Instance}
    {sem : Semaphore Nat} (hi : s.instances[i]? = some inst)
    (hs' : s'.instances = s.instances.modify i f) (hsem : (f inst).permits = sem) :
    s'.pages = Function.update s.pages i (some sem) := by
  funext j
  rw [State.pages, hs', List.getElem?_modify]
  by_cases hij : i = j
  · subst hij
    rw [hi, Function.update_self, ← hsem]
    simp
  · rw [Function.update_of_ne (Ne.symm hij), State.pages]
    cases s.instances[j]? <;> simp [hij]

theorem pages_modify_eq {s s' : State} {i : Nat} {f : Instance → Instance}
    (hs' : s'.instances = s.instances.modify i f) (hf : ∀ x, (f x).permits = x.permits) :
    s'.pages = s.pages := by
  funext j
  rw [State.pages, hs', List.getElem?_modify, State.pages]
  cases s.instances[j]? with
  | none => rfl
  | some x =>
      by_cases hij : i = j
      · simp [hij, hf]
      · simp [hij]

namespace State

@[simp] theorem pages_grant (s : State) (k : Nat) : (s.grant k).pages = s.pages := by
  unfold grant
  split <;> rfl

/-- A released permit that nobody waits for. -/
theorem releasePermit_free {s : State} {i : Nat} {sem : Semaphore Nat}
    (hi : s.pages i = some sem) (hw : sem.waiters = []) :
    (s.releasePermit i).pages = Function.update s.pages i (some sem.release.2) ∧
    (s.releasePermit i).calls = s.calls := by
  obtain ⟨inst, hinst, rfl⟩ := Option.map_eq_some_iff.mp hi
  unfold releasePermit
  rw [hinst]
  dsimp only
  rw [(Semaphore.release_of_nil hw).1]
  dsimp only
  exact ⟨pages_eq_update hinst rfl rfl, rfl⟩

/-- A released permit that goes to the parked call `k`. -/
theorem releasePermit_wake {s : State} {i k t j : Nat} {ks : List Nat} {sem : Semaphore Nat}
    (hi : s.pages i = some sem) (hw : sem.waiters = k :: ks)
    (hk : s.calls[k]? = some (.parked t j)) :
    (s.releasePermit i).pages = Function.update s.pages i (some sem.release.2) ∧
    (s.releasePermit i).calls = s.calls.set k (.granted t j) := by
  obtain ⟨inst, hinst, rfl⟩ := Option.map_eq_some_iff.mp hi
  unfold releasePermit
  rw [hinst]
  dsimp only
  rw [(Semaphore.release_of_cons hw).1]
  dsimp only
  constructor
  · rw [pages_grant]
    exact pages_eq_update hinst rfl rfl
  · have hgrant : (s.modifyInstance i fun x =>
        { x with permits := inst.permits.release.2 }).calls[k]? = some (.parked t j) := hk
    unfold grant
    rw [hgrant]
    rfl

theorem pages_releaseRecycleToken (s : State) : s.releaseRecycleToken.pages = s.pages := by
  unfold releaseRecycleToken
  cases s.recycleToken.release.1 with
  | none => rfl
  | some k => exact pages_modify_eq (s := s) rfl fun _ => rfl

end State

/-- Which elementary move of the permits the step from `s` to `s'` makes. -/
inductive PagesStep (cfg : PoolConfig) (s : State) (a : Action) (s' : State) : Prop where
  | quiet (hpages : s'.pages = s.pages) (hcalls : s'.calls = s.calls)
  | launch (hready : s.ready = false)
      (hpages : ∀ j sem, s'.pages j = some sem →
        s.pages j = some sem ∨ sem = .new cfg.pagesPerInstance)
      (hcalls : s'.calls = s.calls)
  | new (hpages : s'.pages = s.pages) (hcalls : s'.calls = s.calls ++ [.scanStatus 0 0 none])
  | move {c : Nat} {pc pc' : CallPc} (hc : s.calls[c]? = some pc)
      (hcalls : s'.calls = s.calls.set c pc') (hpages : s'.pages = s.pages)
      (hp : pc'.permit = pc.permit) (hw : pc.waitsOn = none) (hw' : pc'.waitsOn = none)
  | take {c t i : Nat} {sem : Semaphore Nat} (hc : s.calls[c]? = some (.acquire t i))
      (hi : s.pages i = some sem) (hfree : 0 < sem.permits)
      (hpages : s'.pages = Function.update s.pages i (some (sem.acquire c).2))
      (hcalls : s'.calls = s.calls.set c (.checkStatus t i))
  | park {c t i : Nat} {sem : Semaphore Nat} (ha : a = .call c)
      (hc : s.calls[c]? = some (.acquire t i)) (hi : s.pages i = some sem)
      (hfull : sem.permits = 0)
      (hpages : s'.pages = Function.update s.pages i (some (sem.acquire c).2))
      (hcalls : s'.calls = s.calls.set c (.parked t i))
  /-- A permit is released by the call or by the drop of its locals. -/
  | release {c i : Nat} {pc pc' : CallPc} (hrel : s.releases a = some i)
      (hc : s.calls[c]? = some pc) (hcalls : s'.calls = (s.releasePermit i).calls.set c pc')
      (hpages : s'.pages = (s.releasePermit i).pages) (hp : pc.permit = some i)
      (hp' : pc'.permit = none) (hw' : pc'.waitsOn = none)
  | leave {c t i : Nat} (hc : s.calls[c]? = some (.parked t i))
      (hpages : ∀ sem, s.pages i = some sem →
        s'.pages = Function.update s.pages i (some (sem.cancel c)))
      (hcalls : s'.calls = s.calls.set c .cancelled)

theorem checkout_pages {cfg : PoolConfig} {s s' : State} {c : Nat} {pc : CallPc}
    (hc : s.calls[c]? = some pc) (h : checkout cfg s c pc = some s') :
    PagesStep cfg s (.call c) s' := by
  cases pc with
  | scanStatus t idx best =>
      simp only [checkout] at h
      split at h <;> cases h
      · exact .move hc rfl rfl rfl rfl rfl
      · exact .move hc rfl rfl rfl rfl rfl
      · refine .move hc rfl rfl ?_ rfl ?_ <;> split <;> rfl
  | scanPermits t idx best =>
      obtain ⟨inst, -, rfl⟩ := Option.map_eq_some_iff.mp h
      exact .move hc rfl rfl rfl rfl rfl
  | acquire t i =>
      obtain ⟨inst, hi, rfl⟩ := Option.map_eq_some_iff.mp h
      have hsem : s.pages i = some inst.permits := by rw [State.pages, hi]; rfl
      by_cases hfree : 0 < inst.permits.permits
      · obtain ⟨htaken, -, -⟩ := Semaphore.acquire_of_pos hfree c
        rw [if_pos htaken]
        exact .take hc hsem hfree (pages_eq_update hi rfl rfl) rfl
      · obtain ⟨hparked, -, -⟩ := Semaphore.acquire_of_zero (Nat.eq_zero_of_not_pos hfree) c
        rw [if_neg (by rw [hparked]; exact Bool.false_ne_true)]
        exact .park rfl hc hsem (Nat.eq_zero_of_not_pos hfree) (pages_eq_update hi rfl rfl) rfl
  | granted t i =>
      cases h
      exact .move hc rfl rfl rfl rfl rfl
  | checkStatus t i =>
      obtain ⟨inst, -, rfl⟩ := Option.map_eq_some_iff.mp h
      refine .move hc rfl rfl ?_ rfl ?_ <;> split <;> rfl
  | giveBack t i =>
      cases h
      refine .release (by rw [State.releases, hc]) hc rfl rfl rfl ?_ ?_ <;> split <;> rfl
  | dropPermit i =>
      cases h
      exact .release (by rw [State.releases, hc]) hc rfl rfl rfl rfl rfl
  -- counters and the notification of the instance
  | addInFlight i | subInFlight i b | notifyRecycle i b =>
      cases h
      exact .move hc rfl (pages_modify_eq (s := s) rfl fun _ => rfl) rfl rfl rfl
  | addServed i b =>
      obtain ⟨inst, -, rfl⟩ := Option.map_eq_some_iff.mp h
      refine .move hc rfl (pages_modify_eq (s := s) rfl fun _ => rfl) ?_ rfl ?_ <;> split <;> rfl
  | readInner i =>
      obtain ⟨inst, -, rfl⟩ := Option.map_eq_some_iff.mp h
      exact .move hc rfl rfl rfl rfl rfl
  | dropBrowser i b =>
      cases h
      exact .move hc rfl rfl rfl rfl rfl
  | parked t i | live i b | dropped | unavailable | cancelled => cases h

theorem cancelCheckout_pages {cfg : PoolConfig} {s s' : State} {c : Nat} {pc : CallPc}
    (hc : s.calls[c]? = some pc) (h : cancelCheckout s c pc = some s') :
    PagesStep cfg s (.cancel c) s' := by
  cases pc with
  | parked t i =>
      cases h
      refine .leave hc ?_ rfl
      intro sem hi
      obtain ⟨inst, hinst, rfl⟩ := Option.map_eq_some_iff.mp hi
      exact pages_eq_update hinst rfl rfl
  | granted t i | readInner i =>
      cases h
      exact .release (by rw [State.releases, hc]) hc rfl rfl rfl rfl rfl
  | _ => cases h

/-- A manager leaves the page permits alone. -/
theorem manageInstance_pages {cfg : PoolConfig} {s s' : State} {i : Nat} {inst : Instance}
    {pc : ManagerPc} (h : manageInstance cfg s i inst pc = some s') : s'.pages = s.pages := by
  cases pc with
  | queuedForToken r => cases h
  | waitForTrigger =>
      simp only [manageInstance] at h
      split at h <;> cases h
      exact pages_modify_eq (s := s) rfl fun _ => rfl
  | drain r =>
      simp only [manageInstance] at h
      split at h <;> cases h
      · exact pages_modify_eq (s := s) rfl fun _ => rfl
      · rfl
  | releaseToken r =>
      cases h
      have hmanager : (s.releaseRecycleToken.setManager i .waitForTrigger).pages =
          s.releaseRecycleToken.pages := pages_modify_eq rfl fun _ => rfl
      rw [hmanager, State.pages_releaseRecycleToken]
  | _ =>
      cases h
      exact pages_modify_eq (s := s) rfl fun _ => rfl

/-- What a step of the pool does to the page permits. -/
theorem step_pages {cfg : PoolConfig} {s s' : State} {a : Action} (h : step cfg s a = some s') :
    PagesStep cfg s a s' := by
  cases step_cases h with
  | launchInstance hready _ =>
      refine .launch hready ?_ rfl
      intro j sem hj
      rw [State.pages, List.getElem?_append] at hj
      split at hj
      · exact Or.inl hj
      · rw [List.getElem?_singleton] at hj
        split at hj <;> cases hj
        exact Or.inr rfl
  | launchReturn _ | relaunchFailed | spawnTeardown _ | finishTeardown => exact .quiet rfl rfl
  | disconnect => exact .quiet (pages_modify_eq (s := s) rfl fun _ => rfl) rfl
  | @trigger i inst r s' hi _ h =>
      cases r <;> simp only [waitForTrigger] at h <;> split at h <;> cases h
      all_goals exact .quiet (pages_modify_eq (s := s) rfl fun _ => rfl) rfl
  | manage _ h => exact .quiet (manageInstance_pages h) (manageInstance_calls h)
  | drainTimeout _ _ _ => exact .quiet (pages_modify_eq (s := s) rfl fun _ => rfl) rfl
  | checkout _ => exact .new rfl rfl
  | call hc h => exact checkout_pages hc h
  | cancel hc h => exact cancelCheckout_pages hc h
  | dropCheckout hc => exact .move hc rfl rfl rfl rfl rfl

/-- The permits of the pool in every state of every run. -/
structure Paged (cfg : PoolConfig) (s : State) : Prop where
  early : NoEarlyCalls s
  kept : PermitsKept cfg.pagesPerInstance s.pages s.calls

theorem Paged.init (cfg : PoolConfig) : Paged cfg State.init where
  early := .init
  kept := by
    have hnone : ∀ (i : Nat) (sem : Semaphore Nat), State.init.pages i ≠ some sem := by
      intro i sem hi
      simp [State.pages, State.init] at hi
    constructor
    · intro c i pc hc
      simp [State.init] at hc
    · exact fun i sem hi => absurd hi (hnone i sem)
    · exact fun i sem hi => absurd hi (hnone i sem)
    · exact fun i sem hi => absurd hi (hnone i sem)

/-- A permit that a call gives back is free or goes to a parked call. -/
theorem PermitsKept.release {n : Nat} {s : State} (h : PermitsKept n s.pages s.calls)
    {c i : Nat} {pc pc' : CallPc} (hc : s.calls[c]? = some pc) (hp : pc.permit = some i)
    (hp' : pc'.permit = none) (hw : pc.waitsOn = none) (hw' : pc'.waitsOn = none) :
    PermitsKept n (s.releasePermit i).pages ((s.releasePermit i).calls.set c pc') := by
  obtain ⟨sem, hi⟩ := h.placed c i pc hc (Or.inl hp)
  cases hq : sem.waiters with
  | nil =>
      obtain ⟨hpages, hcalls⟩ := State.releasePermit_free hi hq
      obtain ⟨-, hn, hq'⟩ := Semaphore.release_of_nil hq
      rw [hpages, hcalls]
      refine h.exchange hc hi hw hw' (hq'.trans hq.symm) ?_ ?_ ?_
      · exact fun j hj => Option.some.inj (hj.symm.trans hp)
      · rw [hp']
        nofun
      · rw [hp', hp, hn]
        simp
  | cons k ks =>
      obtain ⟨t, hk⟩ := h.parked i sem hi k (by rw [hq]; exact List.mem_cons_self)
      obtain ⟨hpages, hcalls⟩ := State.releasePermit_wake hi hq hk
      obtain ⟨-, hn, hq'⟩ := Semaphore.release_of_cons hq
      have hnodup : (k :: ks).Nodup := hq ▸ h.nodup i sem hi
      rw [hpages, hcalls]
      refine h.handOver hc hk hi hp hp' hw hw' hn (hq' ▸ hnodup.of_cons) ?_
      intro m hm
      rw [hq'] at hm
      refine ⟨hq ▸ List.mem_cons_of_mem k hm, ?_⟩
      rintro rfl
      exact (List.nodup_cons.mp hnodup).1 hm

theorem PermitsKept.step {cfg : PoolConfig} {s s' : State} {a : Action} (hearly : NoEarlyCalls s)
    (h : PermitsKept cfg.pagesPerInstance s.pages s.calls) (hstep : PagesStep cfg s a s') :
    PermitsKept cfg.pagesPerInstance s'.pages s'.calls := by
  cases hstep with
  | quiet hpages hcalls =>
      rw [hpages, hcalls]
      exact h
  | launch hready hpages hcalls =>
      have hnone := hearly hready
      rw [hnone] at h
      rw [hcalls, hnone]
      exact h.launch hpages
  | new hpages hcalls =>
      rw [hpages, hcalls]
      exact h.append rfl rfl
  | move hc hcalls hpages hp hw hw' =>
      rw [hpages, hcalls]
      exact h.move hc hp hw hw'
  | @take c t i sem hc hi hfree hpages hcalls =>
      obtain ⟨-, hn, hq⟩ := Semaphore.acquire_of_pos hfree c
      rw [hpages, hcalls]
      refine h.exchange hc hi rfl rfl hq nofun (fun j hj => (Option.some.inj hj).symm) ?_
      have hnone : (CallPc.acquire t i).permit ≠ some i := nofun
      have hsome : (CallPc.checkStatus t i).permit = some i := rfl
      rw [hn, if_pos hsome, if_neg hnone]
      omega
  | @park c t i sem ha hc hi hfull hpages hcalls =>
      obtain ⟨-, hn, hq⟩ := Semaphore.acquire_of_zero hfull c
      rw [hpages, hcalls]
      exact h.park hc hi rfl rfl (hn.trans hfull.symm) hq
  | @release c i pc pc' _ hc hcalls hpages hp hp' hw' =>
      rw [hpages, hcalls]
      refine h.release hc hp hp' ?_ hw'
      cases pc <;> cases hp <;> rfl
  | @leave c t i hc hpages hcalls =>
      obtain ⟨sem, hi⟩ := h.placed c i _ hc (Or.inr rfl)
      have hnodup := h.nodup i sem hi
      rw [hpages sem hi, hcalls]
      refine h.leave hc hi rfl nofun (hnodup.erase c) ?_ rfl
      exact fun k hk => ⟨List.mem_of_mem_erase hk, (List.Nodup.mem_erase_iff hnodup).mp hk |>.1⟩

theorem Paged.step {cfg : PoolConfig} {s s' : State} {a : Action} (hs : Paged cfg s)
    (h : step cfg s a = some s') : Paged cfg s' :=
  ⟨hs.early.step h, hs.kept.step hs.early (step_pages h)⟩

end Pool
end BrowserHeadless
