/-
  BrowserHeadless.Pool.Slots

  The page permits of an instance as a fair semaphore of its calls (src/pool.rs, `checkout` and
  `Drop for Checkout`).

  Wherever calls are cancelled and however instances are recycled, no permit is lost or made,
  and the queue is who waits.  So no call waits in vain: when the calls ahead of it finish, it
  is served, whatever the managers do (`checkout_served`).
-/

import BrowserHeadless.Lib.Handover
import BrowserHeadless.Pool.Queueing

namespace BrowserHeadless
namespace Pool

open Lib (Handover Phase Semaphore)

/-- Where a call stands with respect to the permits of instance `i`. -/
def CallPc.phaseOn (i : Nat) (pc : CallPc) : Phase :=
  if pc.permit = some i then .holding
  else if pc.waitsOn = some i then .waiting
  else .outside

namespace CallPc

variable {i : Nat} {pc : CallPc}

theorem phaseOn_holding : pc.phaseOn i = .holding ↔ pc.permit = some i := by
  unfold phaseOn
  split
  next h => simp [h]
  next h => split <;> simp [h]

theorem phaseOn_waiting : pc.phaseOn i = .waiting ↔ pc.waitsOn = some i := by
  unfold phaseOn
  split
  next h => cases pc <;> simp_all [permit, waitsOn]
  next h => split <;> simp_all

theorem phaseOn_outside (hp : pc.permit ≠ some i) (hw : pc.waitsOn ≠ some i) :
    pc.phaseOn i = .outside := by
  rw [phaseOn, if_neg hp, if_neg hw]

/-- A call that holds a permit waits for none. -/
theorem waitsOn_of_permit (h : pc.permit = some i) : pc.waitsOn = none := by
  cases pc with
  | parked t j => cases h
  | _ => rfl

/-- Other instances do not see who holds a permit of `i`. -/
theorem phaseOn_of_permit_ne {j : Nat} (h : pc.permit = some i) (hj : j ≠ i) :
    pc.phaseOn j = .outside := by
  refine phaseOn_outside (fun heq => ?_) (by simp [waitsOn_of_permit h])
  exact hj (Option.some.inj (heq.symm.trans h))

theorem phaseOn_parked_ne {t j : Nat} (hj : j ≠ i) : (parked t i).phaseOn j = .outside :=
  phaseOn_outside (by simp) fun heq => hj (Option.some.inj heq).symm

end CallPc

/-- The calls as the semaphore of instance `i` sees them. -/
def State.phasesOn (s : State) (i : Nat) : List Phase := s.calls.map (CallPc.phaseOn i)

theorem State.getElem?_phasesOn {s : State} {c : Nat} {pc : CallPc} (hc : s.calls[c]? = some pc)
    (i : Nat) : (s.phasesOn i)[c]? = some (pc.phaseOn i) := by
  rw [phasesOn, List.getElem?_map, hc]
  rfl

/-- A call that moves within its phase. -/
theorem map_phaseOn_set {calls : List CallPc} {c i : Nat} {pc pc' : CallPc}
    (hc : calls[c]? = some pc) (h : pc'.phaseOn i = pc.phaseOn i) :
    (calls.set c pc').map (CallPc.phaseOn i) = calls.map (CallPc.phaseOn i) := by
  obtain ⟨hlt, rfl⟩ := List.getElem?_eq_some_iff.mp hc
  refine List.ext_getElem? fun k => ?_
  rw [List.getElem?_map, List.getElem?_map, List.getElem?_set]
  by_cases hk : c = k
  · subst hk
    simp [hlt, h]
  · simp [hk]

/-- Every instance and its calls. -/
def SlotsKept (n : Nat) (s : State) : Prop :=
  ∀ i sem, s.pages i = some sem → Handover n sem (s.phasesOn i)

/-! ## The invariant -/

variable {n : Nat} {cfg : PoolConfig} {s s' : State}

/-- A call moves on and the semaphore of `i` with it; the other instances see nothing of it. -/
theorem SlotsKept.update (hs : SlotsKept n s) {i : Nat} {sem : Semaphore Nat}
    (hpages : s'.pages = Function.update s.pages i (some sem))
    (hself : Handover n sem (s'.phasesOn i))
    (hothers : ∀ j, j ≠ i → s'.phasesOn j = s.phasesOn j) : SlotsKept n s' := by
  intro j semj hj
  rw [hpages] at hj
  by_cases hji : j = i
  · subst hji
    rw [Function.update_self] at hj
    obtain rfl := Option.some.inj hj
    exact hself
  · rw [Function.update_of_ne hji] at hj
    rw [hothers j hji]
    exact hs j semj hj

/-- One call changes. -/
theorem phasesOn_set {calls : List CallPc} {c i : Nat} {pc pc' : CallPc}
    (hcalls : s'.calls = calls.set c pc') (hc : calls[c]? = some pc)
    (h : pc'.phaseOn i = pc.phaseOn i) : s'.phasesOn i = calls.map (CallPc.phaseOn i) := by
  rw [State.phasesOn, hcalls]
  exact map_phaseOn_set hc h

/-- The permits of instance `i` after a call released one. -/
theorem releasePermit_slots (hs : SlotsKept n s) {c i : Nat} {pc pc' : CallPc}
    {sem : Semaphore Nat} (hi : s.pages i = some sem) (hc : s.calls[c]? = some pc)
    (hp : pc.permit = some i) (hp' : pc'.permit = none) (hw' : pc'.waitsOn = none)
    (hcalls : s'.calls = (s.releasePermit i).calls.set c pc')
    (hpages : s'.pages = (s.releasePermit i).pages) :
    s'.pages = Function.update s.pages i (some sem.release.2) ∧
      s'.phasesOn i = Handover.released sem (s.phasesOn i) c ∧
      ∀ j, j ≠ i → s'.phasesOn j = s.phasesOn j := by
  have houtside : ∀ j, pc'.phaseOn j = .outside := fun j =>
    CallPc.phaseOn_outside (by simp [hp']) (by simp [hw'])
  cases hq : sem.waiters with
  | nil =>
      obtain ⟨hpages', hcalls'⟩ := State.releasePermit_free hi hq
      rw [hcalls'] at hcalls
      refine ⟨hpages.trans hpages', ?_, fun j hj => ?_⟩
      · rw [State.phasesOn, hcalls, List.map_set, houtside, Handover.released,
          (Semaphore.release_of_nil hq).1]
        rfl
      · refine phasesOn_set hcalls hc ?_
        rw [houtside, CallPc.phaseOn_of_permit_ne hp hj]
  | cons k ks =>
      have hk : (s.phasesOn i)[k]? = some .waiting :=
        ((hs i sem hi).queued k).mp (hq ▸ List.mem_cons_self)
      rw [State.phasesOn, List.getElem?_map] at hk
      obtain ⟨pck, hpck, hwaits⟩ := Option.map_eq_some_iff.mp hk
      have hwaits' := CallPc.phaseOn_waiting.mp hwaits
      obtain ⟨t, rfl⟩ : ∃ t, pck = .parked t i := by
        cases pck with
        | parked t j =>
            obtain rfl := Option.some.inj hwaits'
            exact ⟨t, rfl⟩
        | _ => cases hwaits'
      obtain ⟨hpages', hcalls'⟩ := State.releasePermit_wake hi hq hpck
      have hkc : k ≠ c := by
        rintro rfl
        obtain rfl := Option.some.inj (hpck.symm.trans hc)
        cases hp
      have hc' : (s.calls.set k (.granted t i))[c]? = some pc := by
        rw [List.getElem?_set_ne hkc, hc]
      rw [hcalls'] at hcalls
      refine ⟨hpages.trans hpages', ?_, fun j hj => ?_⟩
      · have hgranted : (CallPc.granted t i).phaseOn i = .holding := CallPc.phaseOn_holding.mpr rfl
        rw [State.phasesOn, hcalls, List.map_set, List.map_set, houtside, Handover.released,
          (Semaphore.release_of_cons hq).1, hgranted]
        rfl
      · rw [phasesOn_set hcalls hc', map_phaseOn_set hpck]
        · rfl
        · have hgranted : (CallPc.granted t i).permit = some i := rfl
          rw [CallPc.phaseOn_of_permit_ne hgranted hj, CallPc.phaseOn_parked_ne hj]
        · rw [houtside, CallPc.phaseOn_of_permit_ne hp hj]

theorem SlotsKept.step {a : Action} (hearly : NoEarlyCalls s)
    (hplaced : PermitsKept cfg.pagesPerInstance s.pages s.calls)
    (hs : SlotsKept cfg.pagesPerInstance s) (hstep : PagesStep cfg s a s') :
    SlotsKept cfg.pagesPerInstance s' := by
  cases hstep with
  | quiet hpages hcalls =>
      intro i sem hi
      rw [State.phasesOn, hcalls]
      exact hs i sem (hpages ▸ hi)
  | launch hready hpages hcalls =>
      intro i sem hi
      have hnone := hearly hready
      rw [State.phasesOn, hcalls, hnone]
      rcases hpages i sem hi with hold | rfl
      · have hkept := hs i sem hold
        rwa [State.phasesOn, hnone] at hkept
      · exact Handover.new cfg.pagesPerInstance
  | new hpages hcalls =>
      intro i sem hi
      rw [State.phasesOn, hcalls, List.map_append]
      exact (hs i sem (hpages ▸ hi)).append
  | move hc hcalls hpages hp hw hw' =>
      intro i sem hi
      rw [phasesOn_set hcalls hc]
      · exact hs i sem (hpages ▸ hi)
      · rw [CallPc.phaseOn, CallPc.phaseOn, hp, hw, hw']
  | @take c t i sem hc hi hfree hpages hcalls =>
      have houtside : ∀ j, (CallPc.acquire t i).phaseOn j = .outside := fun _ => rfl
      refine hs.update hpages ?_ fun j hj => phasesOn_set hcalls hc ?_
      · have hkept := (hs i sem hi).acquire (i := c) (State.getElem?_phasesOn hc i)
        rw [(Semaphore.acquire_of_pos hfree c).1, if_pos rfl] at hkept
        have hholds : (CallPc.checkStatus t i).phaseOn i = .holding :=
          CallPc.phaseOn_holding.mpr rfl
        rw [State.phasesOn, hcalls, List.map_set, hholds]
        exact hkept
      · have hholds : (CallPc.checkStatus t i).permit = some i := rfl
        rw [houtside, CallPc.phaseOn_of_permit_ne hholds hj]
  | @park c t i sem ha hc hi hfull hpages hcalls =>
      refine hs.update hpages ?_ fun j hj => phasesOn_set hcalls hc ?_
      · have hkept := (hs i sem hi).acquire (i := c) (State.getElem?_phasesOn hc i)
        rw [(Semaphore.acquire_of_zero hfull c).1, if_neg Bool.false_ne_true] at hkept
        have hparked : (CallPc.parked t i).phaseOn i = .waiting := CallPc.phaseOn_waiting.mpr rfl
        rw [State.phasesOn, hcalls, List.map_set, hparked]
        exact hkept
      · exact CallPc.phaseOn_parked_ne hj
  | @release c i pc pc' _ hc hcalls hpages hp hp' hw' =>
      obtain ⟨sem, hi⟩ := hplaced.placed c i pc hc (Or.inl hp)
      obtain ⟨hpages', hself, hothers⟩ := releasePermit_slots hs hi hc hp hp' hw' hcalls hpages
      refine hs.update hpages' ?_ hothers
      rw [hself]
      exact (hs i sem hi).release (by
        rw [State.getElem?_phasesOn hc, CallPc.phaseOn_holding.mpr hp])
  | @leave c t i hc hpages hcalls =>
      obtain ⟨sem, hi⟩ := hplaced.placed c i _ hc (Or.inr rfl)
      refine hs.update (hpages sem hi) ?_ fun j hj => phasesOn_set hcalls hc ?_
      · rw [State.phasesOn, hcalls, List.map_set]
        exact (hs i sem hi).cancel (by
          rw [State.getElem?_phasesOn hc, CallPc.phaseOn_waiting.mpr rfl])
      · rw [CallPc.phaseOn_parked_ne hj]
        rfl

/-- The permits of the pool, with their queues, in every state of every run. -/
structure Slotted (cfg : PoolConfig) (s : State) : Prop where
  paged : Paged cfg s
  slots : SlotsKept cfg.pagesPerInstance s

theorem Slotted.init (cfg : PoolConfig) : Slotted cfg State.init where
  paged := .init cfg
  slots := fun i sem hi => by simp [State.pages, State.init] at hi

theorem Slotted.step {a : Action} (hs : Slotted cfg s) (h : step cfg s a = some s') :
    Slotted cfg s' :=
  ⟨hs.paged.step h, hs.slots.step hs.paged.early hs.paged.kept (step_pages h)⟩

theorem Slotted.exec {t : State} {as : List Action} (hs : Slotted cfg s)
    (h : (system cfg).exec s as = some t) : Slotted cfg t :=
  Lib.System.exec_invariant (Slotted cfg) (fun _ _ _ hu hstep => hu.step hstep) hs h

/-! ## Calls alone -/

/-- A step of a call, or of the holder of a `Checkout`. -/
def Action.ofCall : Action → Prop
  | .call _ | .dropCheckout _ => True
  | _ => False

/-- How many steps a call with a permit is from giving it back. -/
@[simp] def CallPc.toRelease : CallPc → Nat
  | granted _ _ => 9
  | checkStatus _ _ => 8
  | addInFlight _ => 7
  | readInner _ => 6
  | live _ _ => 5
  | subInFlight _ _ => 4
  | addServed _ _ => 3
  | notifyRecycle _ _ => 2
  | dropBrowser _ _ => 1
  | _ => 0

variable (cfg) in
theorem step_call {c : Nat} {pc : CallPc} (hc : s.calls[c]? = some pc) :
    step cfg s (.call c) = checkout cfg s c pc := by
  rw [step, hc]
  rfl

/-- A step of a call that keeps the permit and comes closer to giving it back. -/
theorem slot_moves {c i : Nat} {pc pc' : CallPc} (hc : s.calls[c]? = some pc)
    (hp : pc.permit = some i) {a : Action} {t : State} (hstep : step cfg s a = some t)
    (ha : a.ofCall) (hcalls : t.calls = s.calls.set c pc') (hpages : t.pages = s.pages)
    (hp' : pc'.permit = some i) (hless : pc'.toRelease < pc.toRelease) :
    ∃ a t pc', step cfg s a = some t ∧ a.ofCall ∧ t.pages = s.pages ∧
      t.phasesOn i = s.phasesOn i ∧ t.calls[c]? = some pc' ∧ pc'.permit = some i ∧
      pc'.toRelease < pc.toRelease := by
  refine ⟨a, t, pc', hstep, ha, hpages, phasesOn_set hcalls hc ?_, ?_, hp', hless⟩
  · rw [CallPc.phaseOn_holding.mpr hp, CallPc.phaseOn_holding.mpr hp']
  · rw [hcalls, List.getElem?_set_self (List.getElem?_eq_some_iff.mp hc).1]

variable (cfg) in
/-- A call with a permit can go on until it gives it back; the holder of a `Checkout` lets go
    of it. -/
theorem slot_step {c i : Nat} {pc : CallPc} {inst : Instance} (hi : s.instances[i]? = some inst)
    (hc : s.calls[c]? = some pc) (hp : pc.permit = some i) (hpos : 0 < pc.toRelease) :
    ∃ a t pc', step cfg s a = some t ∧ a.ofCall ∧ t.pages = s.pages ∧
      t.phasesOn i = s.phasesOn i ∧ t.calls[c]? = some pc' ∧ pc'.permit = some i ∧
      pc'.toRelease < pc.toRelease := by
  have hstep := step_call cfg hc
  cases pc with
  | granted t j => exact slot_moves hc hp hstep True.intro rfl rfl hp (by simp)
  | checkStatus t j =>
      obtain rfl : j = i := Option.some.inj hp
      rw [checkout, hi] at hstep
      refine slot_moves hc hp hstep True.intro rfl rfl ?_ ?_
      · split <;> rfl
      · split <;> simp
  | addInFlight j =>
      exact slot_moves hc hp hstep True.intro rfl (pages_modify_eq (s := s) rfl fun _ => rfl) hp
        (by simp)
  | readInner j =>
      obtain rfl : j = i := Option.some.inj hp
      rw [checkout, hi] at hstep
      exact slot_moves hc hp hstep True.intro rfl rfl rfl (by simp)
  | live j b =>
      have hdrop : step cfg s (.dropCheckout c) = some (s.setCall c (.subInFlight j b)) := by
        rw [step, hc]
        rfl
      exact slot_moves hc hp hdrop True.intro rfl rfl hp (by simp)
  | subInFlight j b =>
      exact slot_moves hc hp hstep True.intro rfl (pages_modify_eq (s := s) rfl fun _ => rfl) hp
        (by simp)
  | addServed j b =>
      obtain rfl : j = i := Option.some.inj hp
      rw [checkout, hi] at hstep
      refine slot_moves hc hp hstep True.intro rfl (pages_modify_eq (s := s) rfl fun _ => rfl) ?_ ?_
      · split <;> rfl
      · split <;> simp
  | notifyRecycle j b =>
      exact slot_moves hc hp hstep True.intro rfl (pages_modify_eq (s := s) rfl fun _ => rfl) hp
        (by simp)
  | dropBrowser j b => exact slot_moves hc hp hstep True.intro rfl rfl hp (by simp)
  | _ => exact absurd hpos (Nat.lt_irrefl 0)

variable (cfg) in
/-- A call at its release. -/
theorem step_release {c i : Nat} {pc : CallPc} (hc : s.calls[c]? = some pc)
    (hp : pc.permit = some i) (hzero : pc.toRelease = 0) :
    ∃ t pc', step cfg s (.call c) = some t ∧ pc'.permit = none ∧ pc'.waitsOn = none ∧
      t.calls = (s.releasePermit i).calls.set c pc' ∧ t.pages = (s.releasePermit i).pages := by
  have hstep := step_call cfg hc
  cases pc with
  | giveBack t j =>
      obtain rfl : j = i := Option.some.inj hp
      refine ⟨_, _, hstep, ?_, ?_, rfl, rfl⟩
      · split <;> rfl
      · split <;> rfl
  | dropPermit j =>
      obtain rfl : j = i := Option.some.inj hp
      exact ⟨_, _, hstep, rfl, rfl, rfl, rfl⟩
  | scanStatus t idx best | scanPermits t idx best | acquire t j | parked t j | dropped
  | unavailable | cancelled => cases hp
  | _ => cases hzero

/-- The semaphore of instance `i`. -/
def State.slots (i : Nat) (s : State) : Semaphore Nat := (s.pages i).getD (.new 0)

theorem slots_eq {i : Nat} {sem : Semaphore Nat} (hi : s.pages i = some sem) :
    s.slots i = sem := by
  rw [State.slots, hi]
  rfl

variable (cfg) in
/-- A call with a permit can give it back. -/
theorem slot_releases (hs : Slotted cfg s) {c i : Nat} {pc : CallPc} {sem : Semaphore Nat}
    (hi : s.pages i = some sem) (hc : s.calls[c]? = some pc) (hp : pc.permit = some i) :
    ∃ as t, (system cfg).exec s as = some t ∧ (∀ a ∈ as, a.ofCall) ∧
      t.pages i = some sem.release.2 ∧ t.phasesOn i = Handover.released sem (s.phasesOn i) c := by
  induction hn : pc.toRelease using Nat.strong_induction_on generalizing s pc with
  | h n ih =>
      obtain ⟨inst, hinst, -⟩ := Option.map_eq_some_iff.mp hi
      rcases Nat.eq_zero_or_pos pc.toRelease with hzero | hpos
      · obtain ⟨t, pc', hstep, hp', hw', hcalls, hpages⟩ := step_release cfg hc hp hzero
        obtain ⟨hupdate, hphases, -⟩ :=
          releasePermit_slots hs.slots hi hc hp hp' hw' hcalls hpages
        refine ⟨[.call c], t, (Lib.System.exec_cons_eq_some _).mpr ⟨t, hstep, rfl⟩, ?_, ?_,
          hphases⟩
        · intro a ha
          rw [List.mem_singleton.mp ha]
          exact True.intro
        · rw [hupdate, Function.update_self]
      · obtain ⟨a, u, pc', hstep, ha, hpages, hphases, hc', hp', hless⟩ :=
          slot_step cfg hinst hc hp hpos
        obtain ⟨as, t, hexec, hact, hslots, hreleased⟩ :=
          ih _ (hn ▸ hless) (hs.step hstep) ((congrFun hpages i).trans hi) hc' hp' rfl
        rw [hphases] at hreleased
        refine ⟨a :: as, t, (Lib.System.exec_cons_eq_some _).mpr ⟨u, hstep, hexec⟩, ?_, hslots,
          hreleased⟩
        intro b hb
        rcases List.mem_cons.mp hb with rfl | hb
        · exact ha
        · exact hact b hb

theorem Slotted.handover {i : Nat} (h : Slotted cfg s ∧ ∃ sem, s.pages i = some sem) :
    Handover cfg.pagesPerInstance (s.slots i) (s.phasesOn i) := by
  obtain ⟨hs, sem, hi⟩ := h
  rw [slots_eq hi]
  exact hs.slots i sem hi

variable (cfg) in
theorem slot_releases_view {i d : Nat} (h : Slotted cfg s ∧ ∃ sem, s.pages i = some sem)
    (hd : (s.phasesOn i)[d]? = some .holding) :
    ∃ as t, (system cfg).exec s as = some t ∧ (∀ a ∈ as, a.ofCall) ∧
      (Slotted cfg t ∧ ∃ sem, t.pages i = some sem) ∧ t.slots i = (s.slots i).release.2 ∧
      t.phasesOn i = Handover.released (s.slots i) (s.phasesOn i) d := by
  obtain ⟨hs, sem, hi⟩ := h
  rw [State.phasesOn, List.getElem?_map] at hd
  obtain ⟨pc, hpc, hholds⟩ := Option.map_eq_some_iff.mp hd
  obtain ⟨as, t, hexec, hact, hslots, hphases⟩ :=
    slot_releases cfg hs hi hpc (CallPc.phaseOn_holding.mp hholds)
  refine ⟨as, t, hexec, hact, ⟨hs.exec hexec, _, hslots⟩, ?_, ?_⟩
  · rw [slots_eq hslots, slots_eq hi]
  · rw [slots_eq hi, hphases]

/-- Over every run of the pool, with calls cancelled and instances recycled at any time: the
    permits of an instance are free or held by its calls, so no more captures run than the
    pool has pages; and a call that waits is served once the calls ahead of it have finished,
    without any step of a manager. -/
theorem checkout_served (cfg : PoolConfig) {s : State} (h : (system cfg).Reachable s) :
    (∀ (i : Nat) (x : Instance), s.instances[i]? = some x →
        x.permits.permits + heldOn s.calls i = cfg.pagesPerInstance) ∧
      ∀ (c t i : Nat), s.calls[c]? = some (.parked t i) →
        ∃ as u pc, (system cfg).exec s as = some u ∧ (∀ a ∈ as, a.ofCall) ∧
          u.calls[c]? = some pc ∧ pc.permit = some i := by
  have hs : Slotted cfg s := by
    obtain ⟨as, hexec⟩ := h
    exact (Slotted.init cfg).exec hexec
  refine ⟨fun i x hx => ?_, fun c t i hc => ?_⟩
  · refine hs.paged.kept.conserved i x.permits ?_
    rw [State.pages, hx]
    rfl
  · obtain ⟨sem, hi⟩ := hs.paged.kept.placed c i _ hc (Or.inr rfl)
    have hwaits : (s.phasesOn i)[c]? = some .waiting := by
      rw [State.getElem?_phasesOn hc, CallPc.phaseOn_waiting.mpr rfl]
    obtain ⟨as, u, hexec, hact, -, hserved⟩ := Handover.served_of_release (M := system cfg)
      cfg.pagesPerInstance_pos (fun u => Slotted cfg u ∧ ∃ sem, u.pages i = some sem)
      Action.ofCall (State.slots i) (fun u => u.phasesOn i) (fun _ => Slotted.handover)
      (fun _ _ hu hd => slot_releases_view cfg hu hd) ⟨hs, sem, hi⟩ hwaits
    rw [State.phasesOn, List.getElem?_map] at hserved
    obtain ⟨pc, hpc, hholds⟩ := Option.map_eq_some_iff.mp hserved
    exact ⟨as, u, pc, hexec, hact, hpc, CallPc.phaseOn_holding.mp hholds⟩

/-- Two calls have the pages of the pool, and a third one is cancelled while it waits ahead of
    a fourth. -/
def fourthWaits : List Action :=
  [.launchInstance, .launchInstance, .launchReturn] ++ untilAcquired 0 ++ untilAcquired 1 ++
    untilAcquired 2 ++ untilAcquired 3 ++ [.cancel 2]

theorem checkout_served_fourthWaits :
    ∃ s, (system twoPages).exec State.init fourthWaits = some s ∧
      s.calls[3]? = some (.parked 0 1) ∧
      (∀ (i : Nat) (x : Instance), s.instances[i]? = some x →
        x.permits.permits + heldOn s.calls i = 1) ∧
      ∀ (c t i : Nat), s.calls[c]? = some (.parked t i) →
        ∃ as u pc, (system twoPages).exec s as = some u ∧ (∀ a ∈ as, a.ofCall) ∧
          u.calls[c]? = some pc ∧ pc.permit = some i :=
  ⟨_, rfl, rfl, checkout_served twoPages ⟨fourthWaits, rfl⟩⟩

end Pool
end BrowserHeadless
