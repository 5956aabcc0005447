/-
  BrowserHeadless.Pool.Token

  The recycle token of the pool (src/pool.rs): one permit, for which the managers of the
  instances wait in line before they replace a browser.

  Whatever crashes, ages or is used up, and whatever the captures do, at most one instance is
  being replaced, and no manager is left waiting: the managers alone, without any capture
  ending, can go on until it is served (`replacement_exclusive`).
-/

import BrowserHeadless.Lib.Handover
import BrowserHeadless.Pool.Handles
import BrowserHeadless.Pool.Recycle

namespace BrowserHeadless
namespace Pool

open Lib (Handover Phase)

/-- Where a manager stands with respect to the token. -/
def ManagerPc.tokenPhase : ManagerPc → Phase
  | waitForTrigger | checkServed | storeStatus _ | acquireToken _ => .outside
  -- the gauge is updated before the token is asked for, and again while it is held
  | updateGauge _ _ new => if new = .active then .holding else .outside
  | queuedForToken _ => .waiting
  | drain _ | relaunch _ _ | dropOldBrowser _ _ | dropOldDir _ _ | resetServed _ | storeActive _
  | releaseToken _ => .holding

@[simp] theorem ManagerPc.tokenPhase_afterToken (r : RecycleReason) :
    (ManagerPc.afterToken r).tokenPhase = .holding := by
  cases r <;> rfl

theorem ManagerPc.tokenPhase_resume {pc : ManagerPc} (h : pc.tokenPhase = .waiting) :
    pc.resume.tokenPhase = .holding := by
  cases pc with
  | queuedForToken r => exact ManagerPc.tokenPhase_afterToken r
  | updateGauge r old new =>
      rw [tokenPhase] at h
      split at h <;> cases h
  | _ => cases h

namespace State

/-- All managers. -/
def tokenPhases (s : State) : List Phase := s.instances.map fun inst => inst.manager.tokenPhase

/-- The token and the managers. -/
def tokenView (s : State) : Lib.Semaphore Nat × List Phase := (s.recycleToken, s.tokenPhases)

theorem getElem?_tokenPhases {s : State} {i : Nat} {inst : Instance}
    (hi : s.instances[i]? = some inst) : s.tokenPhases[i]? = some inst.manager.tokenPhase := by
  rw [tokenPhases, List.getElem?_map, hi]
  rfl

/-- An update that leaves the phase of a manager as it is. -/
theorem tokenPhases_modify_eq {s : State} {i : Nat} {f : Instance → Instance}
    (h : ∀ inst, s.instances[i]? = some inst →
      (f inst).manager.tokenPhase = inst.manager.tokenPhase) :
    (s.modifyInstance i f).tokenPhases = s.tokenPhases := by
  refine List.ext_getElem? fun j => ?_
  rw [tokenPhases, tokenPhases, List.getElem?_map, List.getElem?_map, modifyInstance_instances,
    List.getElem?_modify]
  cases hj : s.instances[j]? with
  | none => rfl
  | some inst =>
      by_cases hij : i = j
      · subst hij
        simp [h inst hj]
      · simp [hij]

/-- An update that moves the manager of an instance. -/
theorem tokenPhases_modify {s : State} {i : Nat} {inst : Instance} {f : Instance → Instance}
    (hi : s.instances[i]? = some inst) :
    (s.modifyInstance i f).tokenPhases = s.tokenPhases.set i (f inst).manager.tokenPhase := by
  refine List.ext_getElem? fun j => ?_
  rw [tokenPhases, tokenPhases, List.getElem?_map, modifyInstance_instances,
    List.getElem?_modify, List.getElem?_set, List.length_map]
  by_cases hij : i = j
  · subst hij
    obtain ⟨hlt, rfl⟩ := List.getElem?_eq_some_iff.mp hi
    simp [hlt]
  · simp [hij]

theorem tokenView_modify {s : State} {i : Nat} {f : Instance → Instance}
    (h : ∀ inst, (f inst).manager = inst.manager) :
    (s.modifyInstance i f).tokenView = s.tokenView :=
  Prod.ext rfl (tokenPhases_modify_eq fun inst _ => congrArg ManagerPc.tokenPhase (h inst))

@[simp] theorem tokenView_setCall (s : State) (c : Nat) (pc : CallPc) :
    (s.setCall c pc).tokenView = s.tokenView := rfl

@[simp] theorem tokenView_grant (s : State) (c : Nat) : (s.grant c).tokenView = s.tokenView := by
  unfold grant
  split <;> rfl

@[simp] theorem tokenView_releasePermit (s : State) (i : Nat) :
    (s.releasePermit i).tokenView = s.tokenView := by
  unfold releasePermit
  cases s.instances[i]? with
  | none => rfl
  | some inst =>
      dsimp only
      cases inst.permits.release.1 with
      | none => exact tokenView_modify fun _ => rfl
      | some c =>
          rw [tokenView_grant]
          exact tokenView_modify fun _ => rfl

end State

open State

variable {cfg : PoolConfig} {s s' : State}

/-- How a step deals with the token. -/
inductive TokenStep (s s' : State) : Prop where
  | same (h : s'.tokenView = s.tokenView)
  | launch (h : s'.tokenView = (s.recycleToken, s.tokenPhases ++ [.outside]))
  | acquire {i : Nat} (hi : s.tokenPhases[i]? = some .outside)
      (h : s'.tokenView = ((s.recycleToken.acquire i).2,
        s.tokenPhases.set i (if (s.recycleToken.acquire i).1 then .holding else .waiting)))
  | release {i : Nat} (hi : s.tokenPhases[i]? = some .holding)
      (h : s'.tokenView =
        (s.recycleToken.release.2, Handover.released s.recycleToken s.tokenPhases i))

/-! ## The steps of calls and managers -/

/-- Calls have nothing to do with the token. -/
theorem checkout_tokenView {c : Nat} {pc : CallPc} (h : checkout cfg s c pc = some s') :
    s'.tokenView = s.tokenView := by
  cases pc with
  | scanStatus t idx best =>
      simp only [checkout] at h
      split at h <;>
      · cases h
        rfl
  | scanPermits t idx best | checkStatus t i | readInner i =>
      obtain ⟨inst, -, rfl⟩ := Option.map_eq_some_iff.mp h
      rfl
  | acquire t i | addServed i b =>
      obtain ⟨inst, -, rfl⟩ := Option.map_eq_some_iff.mp h
      rw [tokenView_setCall]
      exact tokenView_modify fun _ => rfl
  | giveBack t i | dropPermit i =>
      cases h
      rw [tokenView_setCall, tokenView_releasePermit]
  | addInFlight i | subInFlight i b | notifyRecycle i b =>
      cases h
      rw [tokenView_setCall]
      exact tokenView_modify fun _ => rfl
  | granted t i | dropBrowser i b =>
      cases h
      rfl
  | parked t i | live i b | dropped | unavailable | cancelled => cases h

theorem cancelCheckout_tokenView {c : Nat} {pc : CallPc} (h : cancelCheckout s c pc = some s') :
    s'.tokenView = s.tokenView := by
  cases pc with
  | parked t i =>
      cases h
      rw [tokenView_setCall]
      exact tokenView_modify fun _ => rfl
  | granted t i | readInner i =>
      cases h
      rw [tokenView_setCall, tokenView_releasePermit]
  | _ => cases h

theorem waitForTrigger_tokenView {i : Nat} {inst : Instance} {r : RecycleReason}
    (hi : s.instances[i]? = some inst) (hpc : inst.manager = .waitForTrigger)
    (h : waitForTrigger cfg s i inst r = some s') : s'.tokenView = s.tokenView := by
  have houtside : inst.manager.tokenPhase = .outside := by
    rw [hpc]
    rfl
  cases r with
  | crash | age | count =>
      simp only [waitForTrigger] at h
      split at h <;> cases h
      refine Prod.ext rfl (tokenPhases_modify_eq fun x hx => ?_)
      obtain rfl := Option.some.inj (hi.symm.trans hx)
      exact houtside.symm

/-- A manager that moves within its phase. -/
theorem tokenView_setManager {i : Nat} {inst : Instance} {pc : ManagerPc}
    (hi : s.instances[i]? = some inst) (h : pc.tokenPhase = inst.manager.tokenPhase) :
    (s.setManager i pc).tokenView = s.tokenView := by
  refine Prod.ext rfl (tokenPhases_modify_eq fun x hx => ?_)
  obtain rfl := Option.some.inj (hi.symm.trans hx)
  exact h

/-- The end of a recycle: the token goes to the longest waiter. -/
theorem tokenView_releaseToken (hs : Handover maxUnavailable s.recycleToken s.tokenPhases)
    {i : Nat} {inst : Instance} (hi : s.instances[i]? = some inst) :
    (s.releaseRecycleToken.setManager i .waitForTrigger).tokenView =
      (s.recycleToken.release.2, Handover.released s.recycleToken s.tokenPhases i) := by
  unfold releaseRecycleToken Handover.released
  cases hw : s.recycleToken.waiters with
  | nil =>
      rw [(Lib.Semaphore.release_of_nil hw).1]
      exact Prod.ext rfl (tokenPhases_modify (s := { s with recycleToken := _ }) hi)
  | cons k ks =>
      rw [(Lib.Semaphore.release_of_cons hw).1]
      have hk : s.tokenPhases[k]? = some .waiting := (hs.queued k).mp (hw ▸ List.mem_cons_self)
      have hk' := hk
      rw [tokenPhases, List.getElem?_map] at hk'
      obtain ⟨x, hx, hphase⟩ := Option.map_eq_some_iff.mp hk'
      have hi' : (({ s with recycleToken := s.recycleToken.release.2 } : State).modifyInstance k
          fun x => { x with manager := x.manager.resume }).instances[i]? =
            some { inst with manager := if k = i then inst.manager.resume else inst.manager } := by
        rw [modifyInstance_instances, List.getElem?_modify, hi]
        split <;> rfl
      refine Prod.ext rfl ?_
      rw [setManager]
      refine (tokenPhases_modify hi').trans ?_
      rw [tokenPhases_modify (s := { s with recycleToken := s.recycleToken.release.2 }) hx]
      dsimp only
      rw [ManagerPc.tokenPhase_resume hphase]
      rfl

theorem manageInstance_token (hs : Handover maxUnavailable s.recycleToken s.tokenPhases) {i : Nat}
    {inst : Instance} (hi : s.instances[i]? = some inst)
    (h : manageInstance cfg s i inst inst.manager = some s') : TokenStep s s' := by
  have hphase := getElem?_tokenPhases hi
  cases hpc : inst.manager with
  | queuedForToken r =>
      rw [hpc] at h
      cases h
  | waitForTrigger =>
      simp only [hpc, manageInstance] at h
      split at h <;> cases h
      exact .same (tokenView_modify fun _ => rfl)
  | checkServed =>
      rw [hpc] at h
      cases h
      refine .same (tokenView_setManager hi ?_)
      rw [hpc]
      split <;> rfl
  | storeStatus r =>
      rw [hpc] at h
      cases h
      refine .same (Prod.ext rfl (tokenPhases_modify_eq fun x hx => ?_))
      obtain rfl := Option.some.inj (hi.symm.trans hx)
      rw [hpc]
      exact if_neg (RecycleReason.status_ne_active r)
  | updateGauge r old new =>
      rw [hpc] at h
      cases h
      refine .same ((tokenView_setManager hi ?_ : (s.setManager i _).tokenView = _))
      rw [hpc]
      by_cases hnew : new = .active
      · rw [if_pos hnew, ManagerPc.tokenPhase, ManagerPc.tokenPhase, if_pos hnew]
      · rw [if_neg hnew, ManagerPc.tokenPhase, ManagerPc.tokenPhase, if_neg hnew]
  | acquireToken r =>
      rw [hpc] at h hphase
      cases h
      refine .acquire hphase (Prod.ext rfl ?_)
      refine (tokenPhases_modify (s := s) hi).trans (congrArg _ ?_)
      cases (s.recycleToken.acquire i).1 with
      | false => rfl
      | true => exact ManagerPc.tokenPhase_afterToken r
  | drain r =>
      simp only [hpc, manageInstance] at h
      split at h
      next =>
        cases h
        exact .same (tokenView_setManager hi (by rw [hpc]; rfl))
      next =>
        cases h
        exact .same rfl
  | relaunch r d =>
      rw [hpc] at h
      cases h
      refine .same (Prod.ext rfl (tokenPhases_modify_eq (s := s) fun x hx => ?_))
      obtain rfl := Option.some.inj (hi.symm.trans hx)
      rw [hpc]
      rfl
  | dropOldBrowser r old | dropOldDir r old =>
      rw [hpc] at h
      cases h
      exact .same (tokenView_setManager hi (by rw [hpc]; rfl))
  | resetServed r | storeActive r =>
      rw [hpc] at h
      cases h
      refine .same (Prod.ext rfl (tokenPhases_modify_eq (s := s) fun x hx => ?_))
      obtain rfl := Option.some.inj (hi.symm.trans hx)
      rw [hpc]
      rfl
  | releaseToken r =>
      rw [hpc] at h hphase
      cases h
      exact .release hphase (tokenView_releaseToken hs hi)

theorem step_token (hs : Handover maxUnavailable s.recycleToken s.tokenPhases) {a : Action}
    (h : step cfg s a = some s') : TokenStep s s' := by
  cases step_cases h with
  | launchInstance => exact .launch (Prod.ext rfl (List.map_append ..))
  | disconnect => exact .same (tokenView_modify fun _ => rfl)
  | trigger hi hpc h => exact .same (waitForTrigger_tokenView hi hpc h)
  | manage hi h => exact manageInstance_token hs hi h
  | drainTimeout hi hpc _ => exact .same (tokenView_setManager hi (by rw [hpc]; rfl))
  | call _ h => exact .same (checkout_tokenView h)
  | cancel _ h => exact .same (cancelCheckout_tokenView h)
  | launchReturn | relaunchFailed | checkout | dropCheckout | spawnTeardown | finishTeardown =>
      exact .same rfl

/-! ## Runs -/

/-- The token is free or held by a manager, and its queue is who waits. -/
def TokenKept (s : State) : Prop := Handover maxUnavailable s.recycleToken s.tokenPhases

theorem TokenStep.kept (h : TokenStep s s') (hs : TokenKept s) : TokenKept s' := by
  have hview : ∀ {sem phases}, s'.tokenView = (sem, phases) → Handover maxUnavailable sem phases →
      TokenKept s' := by
    intro sem phases heq hnew
    obtain ⟨rfl, rfl⟩ := Prod.mk.inj heq
    exact hnew
  cases h with
  | same h => exact hview h hs
  | launch h => exact hview h hs.append
  | acquire hi h => exact hview h (hs.acquire hi)
  | release hi h => exact hview h (hs.release hi)

theorem TokenKept.reachable (h : (system cfg).Reachable s) : TokenKept s :=
  Lib.System.reachable_invariant (M := system cfg) TokenKept (Handover.new maxUnavailable)
    (fun _ _ _ hs hstep => (step_token hs hstep).kept hs) h

/-! ## Managers alone -/

/-- A step of a manager. -/
def Action.ofManager : Action → Prop
  | .manage _ | .drainTimeout _ => True
  | _ => False

/-- How many steps a manager with the token is from its release. -/
def ManagerPc.toRelease : ManagerPc → Nat
  | drain _ => 7
  | relaunch _ _ => 6
  | dropOldBrowser _ _ => 5
  | dropOldDir _ _ => 4
  | resetServed _ => 3
  | storeActive _ => 2
  | updateGauge _ _ _ => 1
  | _ => 0

theorem step_manage_at {i : Nat} {inst : Instance} {pc : ManagerPc}
    (hi : s.instances[i]? = some inst) (hpc : inst.manager = pc) :
    step cfg s (.manage i) = manageInstance cfg s i inst pc := by
  rw [step_manage hi, hpc]

/-- A step of a manager that keeps the token and comes closer to its release. -/
theorem holder_moves {i : Nat} {inst : Instance} (hi : s.instances[i]? = some inst)
    (hholds : inst.manager.tokenPhase = .holding) {a : Action} {t : State}
    (hstep : step cfg s a = some t) (ha : a.ofManager) {f : Instance → Instance}
    (htoken : t.recycleToken = s.recycleToken) (hinstances : t.instances = s.instances.modify i f)
    (hholds' : (f inst).manager.tokenPhase = .holding)
    (hnext : (f inst).manager.toRelease + 1 = inst.manager.toRelease) :
    ∃ a t inst', step cfg s a = some t ∧ a.ofManager ∧ t.tokenView = s.tokenView ∧
      t.instances[i]? = some inst' ∧ inst'.manager.tokenPhase = .holding ∧
      inst'.manager.toRelease + 1 = inst.manager.toRelease := by
  have hphases : t.tokenPhases = (s.modifyInstance i f).tokenPhases := by
    rw [tokenPhases, hinstances]
    rfl
  refine ⟨a, t, f inst, hstep, ha, Prod.ext htoken ?_, ?_, hholds', hnext⟩
  · refine hphases.trans (tokenPhases_modify_eq fun x hx => ?_)
    obtain rfl := Option.some.inj (hi.symm.trans hx)
    exact hholds'.trans hholds.symm
  · rw [hinstances, List.getElem?_modify_eq, hi]
    rfl

variable (cfg) in
/-- A manager with the token can go on: a busy instance is left at the drain deadline. -/
theorem holder_step {i : Nat} {inst : Instance} (hi : s.instances[i]? = some inst)
    (hholds : inst.manager.tokenPhase = .holding) (hpos : 0 < inst.manager.toRelease) :
    ∃ a t inst', step cfg s a = some t ∧ a.ofManager ∧ t.tokenView = s.tokenView ∧
      t.instances[i]? = some inst' ∧ inst'.manager.tokenPhase = .holding ∧
      inst'.manager.toRelease + 1 = inst.manager.toRelease := by
  cases hpc : inst.manager with
  | drain r =>
      by_cases hidle : inst.inFlight = 0
      · have hstep : step cfg s (.manage i) = some (s.setManager i (.relaunch r true)) := by
          rw [step_manage_at hi hpc, manageInstance, if_pos hidle]
        rw [← hpc]
        exact holder_moves hi hholds hstep True.intro rfl rfl rfl (by rw [hpc]; rfl)
      · have hstep : step cfg s (.drainTimeout i) = some (s.setManager i (.relaunch r false)) := by
          rw [step, hi]
          show drainTimeout s i inst inst.manager = _
          rw [hpc, drainTimeout, if_pos (Nat.pos_of_ne_zero hidle)]
        rw [← hpc]
        exact holder_moves hi hholds hstep True.intro rfl rfl rfl (by rw [hpc]; rfl)
  | relaunch r d =>
      rw [← hpc]
      exact holder_moves hi hholds (step_manage_at hi hpc) True.intro rfl rfl rfl (by rw [hpc]; rfl)
  | dropOldBrowser r old | dropOldDir r old | resetServed r | storeActive r =>
      rw [← hpc]
      exact holder_moves hi hholds (step_manage_at hi hpc) True.intro rfl rfl rfl (by rw [hpc]; rfl)
  | updateGauge r old new =>
      obtain rfl : new = .active := by
        by_contra hnew
        rw [hpc, ManagerPc.tokenPhase, if_neg hnew] at hholds
        cases hholds
      rw [← hpc]
      exact holder_moves hi hholds (step_manage_at hi hpc) True.intro rfl rfl rfl (by rw [hpc]; rfl)
  | _ =>
      rw [hpc] at hpos
      exact absurd hpos (Nat.lt_irrefl 0)

theorem eq_releaseToken {pc : ManagerPc} (hholds : pc.tokenPhase = .holding)
    (hzero : pc.toRelease = 0) : ∃ r, pc = .releaseToken r := by
  cases pc with
  | releaseToken r => exact ⟨r, rfl⟩
  | waitForTrigger | checkServed | storeStatus r | acquireToken r | queuedForToken r =>
      cases hholds
  | _ => cases hzero

variable (cfg) in
/-- A manager with the token can get to its release. -/
theorem holder_releases (hs : TokenKept s) {i : Nat} {inst : Instance}
    (hi : s.instances[i]? = some inst) (hholds : inst.manager.tokenPhase = .holding) :
    ∃ as t, (system cfg).exec s as = some t ∧ (∀ a ∈ as, a.ofManager) ∧
      t.tokenView = (s.recycleToken.release.2,
        Handover.released s.recycleToken s.tokenPhases i) := by
  induction hn : inst.manager.toRelease generalizing s inst with
  | zero =>
      obtain ⟨r, hpc⟩ := eq_releaseToken hholds hn
      have hstep : (system cfg).exec s [.manage i] =
          some (s.releaseRecycleToken.setManager i .waitForTrigger) :=
        Lib.System.exec_cons_eq_some _ |>.mpr ⟨_, step_manage_at hi hpc, rfl⟩
      refine ⟨_, _, hstep, fun a ha => ?_, tokenView_releaseToken hs hi⟩
      rw [List.mem_singleton.mp ha]
      exact True.intro
  | succ n ih =>
      obtain ⟨a, u, inst', hstep, ha, hview, hi', hholds', hnext⟩ :=
        holder_step cfg hi hholds (by omega)
      obtain ⟨htoken, hphases⟩ := Prod.mk.inj hview
      have hu : TokenKept u := by
        rw [TokenKept, htoken, hphases]
        exact hs
      obtain ⟨as, t, hexec, hact, hreleased⟩ := ih hu hi' hholds' (by omega)
      rw [htoken, hphases] at hreleased
      refine ⟨a :: as, t, (Lib.System.exec_cons_eq_some _).mpr ⟨u, hstep, hexec⟩, ?_, hreleased⟩
      intro b hb
      rcases List.mem_cons.mp hb with rfl | hb
      · exact ha
      · exact hact b hb

variable (cfg) in
theorem holder_releases_view (hs : TokenKept s) {i : Nat}
    (hi : s.tokenPhases[i]? = some .holding) :
    ∃ as t, (system cfg).exec s as = some t ∧ (∀ a ∈ as, a.ofManager) ∧ TokenKept t ∧
      t.recycleToken = s.recycleToken.release.2 ∧
      t.tokenPhases = Handover.released s.recycleToken s.tokenPhases i := by
  have hi' := hi
  rw [tokenPhases, List.getElem?_map] at hi'
  obtain ⟨inst, hinst, hholds⟩ := Option.map_eq_some_iff.mp hi'
  obtain ⟨as, t, hexec, hact, hview⟩ := holder_releases cfg hs hinst hholds
  obtain ⟨htoken, hphases⟩ := Prod.mk.inj hview
  refine ⟨as, t, hexec, hact, ?_, htoken, hphases⟩
  rw [TokenKept, htoken, hphases]
  exact hs.release hi

/-- Over every run of the pool, at most one instance is being replaced, and the token is free
    exactly when none is.  A manager that waits for the token is not forgotten: some steps of
    managers lead to its turn, whatever the captures in flight do. -/
theorem replacement_exclusive (cfg : PoolConfig) {s : State} (h : (system cfg).Reachable s) :
    (∀ (i j : Nat) (x y : Instance), s.instances[i]? = some x → s.instances[j]? = some y →
        x.manager.tokenPhase = .holding → y.manager.tokenPhase = .holding → i = j) ∧
      (s.recycleToken.permits = 1 ↔ ∀ x ∈ s.instances, x.manager.tokenPhase ≠ .holding) ∧
      ∀ (i : Nat) (x : Instance), s.instances[i]? = some x → x.manager.tokenPhase = .waiting →
        ∃ as t y, (system cfg).exec s as = some t ∧ (∀ a ∈ as, a.ofManager) ∧
          t.instances[i]? = some y ∧ y.manager.tokenPhase = .holding := by
  have hs : TokenKept s := TokenKept.reachable h
  refine ⟨fun i j x y hx hy hholds hholds' => ?_, ?_, fun i x hx hwaits => ?_⟩
  · refine hs.exclusive ?_ ?_
    · rw [getElem?_tokenPhases hx, hholds]
    · rw [getElem?_tokenPhases hy, hholds']
  · have hsum : s.recycleToken.permits + s.tokenPhases.count .holding = 1 := hs.conserved
    have hnone : s.tokenPhases.count .holding = 0 ↔
        ∀ x ∈ s.instances, x.manager.tokenPhase ≠ .holding := by
      rw [List.count_eq_zero, tokenPhases, List.mem_map]
      exact ⟨fun hnot x hx heq => hnot ⟨x, hx, heq⟩, fun hall ⟨x, hx, heq⟩ => hall x hx heq⟩
    rw [← hnone]
    omega
  · have hwaits' : s.tokenPhases[i]? = some .waiting := by
      rw [getElem?_tokenPhases hx, hwaits]
    obtain ⟨as, t, hexec, hact, -, hserved⟩ := Handover.served_of_release (M := system cfg)
      Nat.one_pos TokenKept Action.ofManager State.recycleToken tokenPhases (fun _ hu => hu)
      (fun _ _ hu hj => holder_releases_view cfg hu hj) hs hwaits'
    rw [tokenPhases, List.getElem?_map] at hserved
    obtain ⟨y, hy, hholds⟩ := Option.map_eq_some_iff.mp hserved
    exact ⟨as, t, y, hexec, hact, hy, hholds⟩

/-- Both instances have left service; the first manager drains, the second waits. -/
def oneWaits : List Action := bothAtOnce ++ [.manage 0, .manage 0, .manage 1, .manage 1]

theorem replacement_exclusive_oneWaits :
    ∃ s, (system twoByAge).exec State.init oneWaits = some s ∧
      s.tokenPhases = [.holding, .waiting] ∧
      (∀ (i j : Nat) (x y : Instance), s.instances[i]? = some x → s.instances[j]? = some y →
        x.manager.tokenPhase = .holding → y.manager.tokenPhase = .holding → i = j) ∧
      (s.recycleToken.permits = 1 ↔ ∀ x ∈ s.instances, x.manager.tokenPhase ≠ .holding) ∧
      ∀ (i : Nat) (x : Instance), s.instances[i]? = some x → x.manager.tokenPhase = .waiting →
        ∃ as t y, (system twoByAge).exec s as = some t ∧ (∀ a ∈ as, a.ofManager) ∧
          t.instances[i]? = some y ∧ y.manager.tokenPhase = .holding :=
  ⟨_, rfl, rfl, replacement_exclusive twoByAge ⟨oneWaits, rfl⟩⟩

end Pool
end BrowserHeadless
