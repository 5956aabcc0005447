/-
  BrowserHeadless.Jobs.Drain

  The shutdown drain of the job store.

  src/jobs.rs: `drain` shall "wait until no local job tasks are in flight".  The
  counter it waits for goes up in the `ActiveGuard::new` at the start of the
  spawned task, not in `submit`: between the return of `submit` and the first poll
  of the task the job is accepted and not counted.  A drain that reads zero in such
  a gap returns without the job, and no other drain does (`drain_waits_iff`).
-/

import BrowserHeadless.Jobs.Admission

namespace BrowserHeadless
namespace Jobs

variable {β : Type} {cfg : JobsConfig}

/-- The task has not been polled yet. -/
def JobPc.unpolled : JobPc β → Bool
  | spawned => true
  | _ => false

/-- The `ActiveGuard` of the job is alive. -/
def JobPc.counted : JobPc β → Bool
  | started | capturing | finishing _ | ending => true
  | _ => false

/-- `run_job` is over and the guard is dropped. -/
def JobPc.over : JobPc β → Bool
  | notifying | finished => true
  | _ => false

/-- A drain that was called in `s0`, its place in the list being the next one, has
    returned before its timeout only if every job accepted in `s0` is over. -/
def DrainWaits (s0 s : State β) : Prop :=
  s.drains[s0.drains.length]? = some .drained →
    ∀ (i : Nat) (job : Job β), s0.jobs[i]? = some job → job.pc.returned = true →
      ∃ job', s.jobs[i]? = some job' ∧ job'.pc.over = true

/-- When the drain that was called in `s0` reads `active` as zero, the task of every
    job accepted in `s0` has been polled. -/
def ReadsZeroPolled (s0 s : State β) (a : Action β) : Prop :=
  ∀ pc, a = .drainStep s0.drains.length → s.drains[s0.drains.length]? = some pc →
    (pc = .check ∨ ∃ woken, pc = .recheck woken) → s.active = 0 →
    ∀ (i : Nat) (job job' : Job β), s0.jobs[i]? = some job → job.pc.returned = true →
      s.jobs[i]? = some job' → job'.pc.unpolled = false

/-! ## Jobs and their counter under a step -/

/-- How the job that a step moves, and the counter, change. -/
inductive PcMove : Nat × JobPc β → Nat × JobPc β → Prop where
  | spawn {n : Nat} : PcMove (n, .accepted) (n, .spawned)
  | count {n : Nat} : PcMove (n, .spawned) (n + 1, .started)
  | stay {n : Nat} {pc pc' : JobPc β} (h : pc.counted = true) (h' : pc'.counted = true) :
      PcMove (n, pc) (n, pc')
  | uncount {n : Nat} : PcMove (n, .ending) (n - 1, if n = 1 then .notifying else .finished)
  | notify {n : Nat} : PcMove (n, .notifying) (n, .finished)

/-- What a step from `s` to `s'` does to the jobs. -/
inductive JobsStep (s s' : State β) : Prop where
  | same (hjobs : s'.jobs = s.jobs) (hactive : s'.active = s.active)
  | new {id : String} (hjobs : s'.jobs = s.jobs ++ [⟨id, .accepted⟩])
      (hactive : s'.active = s.active)
  | move {i : Nat} {id : String} {pc pc' : JobPc β} (hi : s.jobs[i]? = some ⟨id, pc⟩)
      (hjobs : s'.jobs = s.jobs.modify i fun job => { job with pc := pc' })
      (hm : PcMove (s.active, pc) (s'.active, pc'))

theorem step_jobs {s s' : State β} {a : Action β} (h : step cfg s a = some s') :
    JobsStep s s' := by
  cases step_cases h with
  | @enter c call _ _ =>
      rcases enter_cases cfg s c call with ⟨-, heq⟩ | ⟨-, heq⟩
      · rw [heq]
        exact .same rfl rfl
      · rw [heq]
        exact .new rfl rfl
  | spawn hi => exact .move hi rfl .spawn
  | count hi => exact .move hi rfl .count
  | run hi | finish hi | captured hi => exact .move hi rfl (.stay rfl rfl)
  | uncount hi => exact .move hi rfl .uncount
  | notify hi => exact .move hi rfl .notify
  | panic hi hpc =>
      refine .move hi rfl (.stay ?_ rfl)
      rcases hpc with rfl | ⟨outcome, rfl⟩ <;> rfl
  | tick | submit _ | cancel _ _ | sweep | purge _ | rehash _ | drain | drainStep _ _
  | drainTimeout _ => exact .same rfl rfl

/-- A job keeps its place, and moves as its `PcMove` says. -/
theorem JobsStep.forward {s s' : State β} (h : JobsStep s s') {i : Nat} {job : Job β}
    (hi : s.jobs[i]? = some job) :
    ∃ job', s'.jobs[i]? = some job' ∧
      (job'.pc = job.pc ∨ PcMove (s.active, job.pc) (s'.active, job'.pc)) := by
  cases h with
  | same hjobs _ => exact ⟨job, by rw [hjobs, hi], Or.inl rfl⟩
  | new hjobs _ =>
      refine ⟨job, ?_, Or.inl rfl⟩
      rw [hjobs, List.getElem?_append_left (List.getElem?_eq_some_iff.mp hi).1, hi]
  | @move k id pc pc' hk hjobs hm =>
      by_cases hki : k = i
      · subst hki
        obtain rfl := Option.some.inj (hk.symm.trans hi)
        exact ⟨⟨id, pc'⟩, by rw [hjobs, List.getElem?_modify_eq, hk]; rfl, Or.inr hm⟩
      · exact ⟨job, by rw [hjobs, List.getElem?_modify_ne _ _ hki, hi], Or.inl rfl⟩

/-- A job for which `submit` has returned stays so. -/
theorem PcMove.returned {n n' : Nat} {pc pc' : JobPc β} (h : PcMove (n, pc) (n', pc'))
    (hpc : pc.returned = true) : pc'.returned = true := by
  cases h with
  | stay _ h' =>
      cases pc' with
      | accepted => cases h'
      | _ => rfl
  | uncount => split <;> rfl
  | spawn | count | notify => rfl

/-- A job that is over stays over. -/
theorem PcMove.over {n n' : Nat} {pc pc' : JobPc β} (h : PcMove (n, pc) (n', pc'))
    (hpc : pc.over = true) : pc'.over = true := by
  cases h with
  | stay h _ =>
      cases pc with
      | started | capturing | finishing _ | ending => cases hpc
      | _ => cases h
  | notify => rfl
  | spawn | count | uncount => cases hpc

/-- The counter follows the number `m` of guards alive. -/
theorem PcMove.counter {m n n' : Nat} {pc pc' : JobPc β} (h : PcMove (n, pc) (n', pc'))
    (hm : m + (if pc.counted = true then 1 else 0) = n + (if pc'.counted = true then 1 else 0)) :
    n' = m := by
  cases h with
  | spawn | notify | count =>
      simp only [JobPc.counted, Bool.false_eq_true, if_false, if_true] at hm
      omega
  | stay h h' =>
      rw [if_pos h, if_pos h'] at hm
      omega
  | uncount =>
      have hgone : (if n = 1 then .notifying else .finished : JobPc β).counted = false := by
        split <;> rfl
      have hguard : (JobPc.ending : JobPc β).counted = true := rfl
      rw [hgone, hguard, if_pos rfl, if_neg Bool.false_ne_true] at hm
      omega

/-- The `active` counter is the number of guards alive. -/
def ActiveExact (s : State β) : Prop := s.active = s.jobs.countP fun job => job.pc.counted

theorem ActiveExact.init : ActiveExact (State.init : State β) := rfl

theorem ActiveExact.step {s s' : State β} (hs : ActiveExact s) (h : JobsStep s s') :
    ActiveExact s' := by
  unfold ActiveExact at hs ⊢
  cases h with
  | same hjobs hactive => rw [hjobs, hactive, hs]
  | new hjobs hactive =>
      rw [hjobs, hactive, hs, List.countP_append]
      rfl
  | @move i id pc pc' hi hjobs hm =>
      have hcount := Lib.countP_modify_add hi (fun job => job.pc.counted)
        fun job => { job with pc := pc' }
      rw [← hjobs, ← hs] at hcount
      exact hm.counter hcount

/-- With the counter at zero, a job for which `submit` has returned is unpolled or
    over. -/
theorem ActiveExact.over_of_zero {s : State β} (hs : ActiveExact s) (hzero : s.active = 0)
    {i : Nat} {job : Job β} (hi : s.jobs[i]? = some job) (hreturned : job.pc.returned = true)
    (hpolled : job.pc.unpolled = false) : job.pc.over = true := by
  have hnone : job.pc.counted = false := by
    rw [ActiveExact, hzero] at hs
    exact Lib.countP_eq_zero_iff_getElem?.mp hs.symm i job hi
  cases hpc : job.pc with
  | accepted => rw [hpc] at hreturned; cases hreturned
  | spawned => rw [hpc] at hpolled; cases hpolled
  | started | capturing | finishing _ | ending => rw [hpc] at hnone; cases hnone
  | notifying | finished => rfl

/-! ## The drain under a step -/

theorem drainStep_drained {active : Nat} {pc : DrainPc} (h : drainStep active pc = some .drained) :
    active = 0 ∧ (pc = .check ∨ ∃ woken, pc = .recheck woken) := by
  cases pc with
  | check =>
      simp only [drainStep] at h
      split at h <;> cases h
      exact ⟨by assumption, Or.inl rfl⟩
  | recheck woken =>
      simp only [drainStep] at h
      split at h <;> cases h
      exact ⟨by assumption, Or.inr ⟨woken, rfl⟩⟩
  | waiting woken => cases woken <;> cases h
  | register | drained | timedOut => cases h

/-- A drain returns before its timeout only by reading zero. -/
theorem step_drained {s s' : State β} {a : Action β} (h : step cfg s a = some s') {k : Nat}
    (hk : s'.drains[k]? = some .drained) :
    s.drains[k]? = some .drained ∨
    (a = .drainStep k ∧ s.active = 0 ∧
      ∃ pc, s.drains[k]? = some pc ∧ (pc = .check ∨ ∃ woken, pc = .recheck woken)) := by
  cases step_cases h with
  | @enter c call _ _ =>
      rcases enter_cases cfg s c call with ⟨-, heq⟩ | ⟨-, heq⟩ <;>
      · rw [heq] at hk
        exact Or.inl hk
  | notify _ =>
      left
      have hk : (s.drains.map DrainPc.wake)[k]? = some .drained := hk
      rw [List.getElem?_map] at hk
      obtain ⟨pc, hpc, hwake⟩ := Option.map_eq_some_iff.mp hk
      cases pc <;> cases hwake
      exact hpc
  | drain =>
      rw [List.getElem?_append] at hk
      split at hk
      · exact Or.inl hk
      · rw [List.getElem?_singleton] at hk
        split at hk <;> cases hk
  | @drainStep j pc pc' hj hstep =>
      by_cases hjk : j = k
      · subst hjk
        rw [List.getElem?_set_self (List.getElem?_eq_some_iff.mp hj).1] at hk
        cases hk
        obtain ⟨hzero, hpc⟩ := drainStep_drained hstep
        exact Or.inr ⟨rfl, hzero, pc, hj, hpc⟩
      · rw [List.getElem?_set_ne hjk] at hk
        exact Or.inl hk
  | @drainTimeout j hj =>
      by_cases hjk : j = k
      · subst hjk
        rw [List.getElem?_set_self (List.getElem?_eq_some_iff.mp hj).1] at hk
        cases hk
      · rw [List.getElem?_set_ne hjk] at hk
        exact Or.inl hk
  | tick | submit _ | cancel _ _ | spawn _ | count _ | run _ | finish _ | uncount _ | captured _
  | panic _ _ | sweep | purge _ | rehash _ => exact Or.inl hk

/-! ## Along a run -/

/-- What holds of the jobs in every state after `s0`. -/
structure Onward (s0 s : State β) : Prop where
  exact : ActiveExact s
  returned : ∀ (i : Nat) (job : Job β), s0.jobs[i]? = some job → job.pc.returned = true →
    ∃ job', s.jobs[i]? = some job' ∧ job'.pc.returned = true

theorem Onward.step {s0 s s' : State β} {a : Action β} (hs : Onward s0 s)
    (h : step cfg s a = some s') : Onward s0 s' where
  exact := hs.exact.step (step_jobs h)
  returned := by
    intro i job hi hreturned
    obtain ⟨before, hbefore, hb⟩ := hs.returned i job hi hreturned
    obtain ⟨after, hafter, hsame | hmove⟩ := (step_jobs h).forward hbefore
    · exact ⟨after, hafter, by rw [hsame, hb]⟩
    · exact ⟨after, hafter, hmove.returned hb⟩

theorem drainWaits_step {s0 s s' : State β} {a : Action β} (hs : Onward s0 s)
    (hP : DrainWaits s0 s) (hG : ReadsZeroPolled s0 s a) (h : step cfg s a = some s') :
    DrainWaits s0 s' := by
  intro hk i job hi hreturned
  -- the job is over before the step, and stays over
  have hover : ∃ before, s.jobs[i]? = some before ∧ before.pc.over = true := by
    rcases step_drained h hk with hold | ⟨ha, hzero, pc, hpc, hcheck⟩
    · exact hP hold i job hi hreturned
    · obtain ⟨before, hbefore, hb⟩ := hs.returned i job hi hreturned
      have hpolled := hG pc ha hpc hcheck hzero i job before hi hreturned hbefore
      exact ⟨before, hbefore, hs.exact.over_of_zero hzero hbefore hb hpolled⟩
  obtain ⟨before, hbefore, hb⟩ := hover
  obtain ⟨after, hafter, hsame | hmove⟩ := (step_jobs h).forward hbefore
  · exact ⟨after, hafter, by rw [hsame, hb]⟩
  · exact ⟨after, hafter, hmove.over hb⟩

/-- A drain that reads zero while an accepted task is unpolled returns without it. -/
theorem readsZeroPolled_of_drainWaits {s0 s s' : State β} {a : Action β}
    (h : step cfg s a = some s') (hP : DrainWaits s0 s') : ReadsZeroPolled s0 s a := by
  rintro pc rfl hk hcheck hzero i job job' hi hreturned hi'
  have hstep : drainStep s.active pc = some .drained := by
    rcases hcheck with rfl | ⟨woken, rfl⟩ <;> simp [drainStep, hzero]
  simp only [step, hk, Option.bind_some, hstep, Option.map_some] at h
  cases h
  have hlt := (List.getElem?_eq_some_iff.mp hk).1
  obtain ⟨after, hafter, hover⟩ := hP (List.getElem?_set_self hlt) i job hi hreturned
  obtain rfl := Option.some.inj (hi'.symm.trans hafter)
  cases hpc : job'.pc <;> rw [hpc] at hover <;> first | rfl | cases hover

/-- After any run, a drain that is called then waits for every job accepted before,
    in every state, if and only if the tasks of those jobs have been polled
    whenever it reads zero. -/
theorem drain_waits_iff (cfg : JobsConfig) (before after : List (Action β)) (s0 : State β)
    (hbefore : (system cfg).exec State.init before = some s0)
    (hafter : ((system cfg).exec s0 (.drain :: after)).isSome = true) :
    (system cfg).Along (DrainWaits s0) s0 (.drain :: after) ↔
      (system cfg).Guarded (ReadsZeroPolled s0) s0 (.drain :: after) := by
  obtain ⟨t, ht⟩ := Option.isSome_iff_exists.mp hafter
  have hexact : ActiveExact s0 := Lib.System.exec_invariant (M := system cfg) ActiveExact
    (fun s a s' hs h => hs.step (step_jobs h)) ActiveExact.init hbefore
  refine Lib.System.along_iff_guarded (Onward s0) (fun _ => True)
    (fun s a s' hs h => hs.step h)
    (fun s a s' hs _ hP hG h => drainWaits_step hs hP hG h)
    (fun s a s' _ _ h hP => readsZeroPolled_of_drainWaits h hP)
    ⟨hexact, fun i job hi hreturned => ⟨job, hi, hreturned⟩⟩ ?_ ht (.trivial _ _)
  intro hk
  rw [List.getElem?_eq_none (Nat.le_refl _)] at hk
  cases hk

/-- A job is submitted, its task is polled and starts its capture. -/
def submitAndStart : List (Action Unit) := [.submit "job-1", .enter 0, .job 0, .job 0, .job 0]

/-- The drain registers, the job ends and wakes it, and it reads zero. -/
def endsDuringDrain : List (Action Unit) :=
  [.drainStep 0, .drainStep 0, .drainStep 0, .captured 0 (.ok (.ok ())), .job 0, .job 0, .job 0,
    .drainStep 0, .drainStep 0]

/-- The drain of `endsDuringDrain` waits for the job of `submitAndStart`. -/
theorem drain_waits_iff_woken :
    ∃ s0 : State Unit, (system oneJob).exec State.init submitAndStart = some s0 ∧
      ((system oneJob).exec s0 (.drain :: endsDuringDrain)).isSome = true ∧
      ((system oneJob).Along (DrainWaits s0) s0 (.drain :: endsDuringDrain) ↔
        (system oneJob).Guarded (ReadsZeroPolled s0) s0 (.drain :: endsDuringDrain)) :=
  ⟨_, rfl, rfl, drain_waits_iff oneJob submitAndStart endsDuringDrain _ rfl rfl⟩

/-- `submit` has returned, the runtime has not polled the task yet, and the drain
    reads zero. -/
theorem drain_returns_early :
    ¬ ∀ (cfg : JobsConfig) (before after : List (Action Unit)) (s0 : State Unit),
        (system cfg).exec State.init before = some s0 →
        ((system cfg).exec s0 (.drain :: after)).isSome = true →
        (system cfg).Along (DrainWaits s0) s0 (.drain :: after) := by
  intro hclaim
  have hal := hclaim oneJob [.submit "job-1", .enter 0, .job 0] [.drainStep 0] _ rfl rfl
  obtain ⟨job, hjob, hover⟩ := hal.last rfl rfl 0 _ rfl rfl
  cases hjob
  cases hover

end Jobs
end BrowserHeadless
