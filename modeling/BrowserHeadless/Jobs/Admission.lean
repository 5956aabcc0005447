/-
  BrowserHeadless.Jobs.Admission

  The admission cap of the job store.  src/config.rs calls `max_async_jobs` the
  "max IN-FLIGHT (queued + running)" jobs, and `submit` counts the records with
  such a status.

  A record stands for its job only while it is in the map, and `retain` drops
  records by age whatever their status.  As long as no `retain` runs when the
  record of an unfinished job has expired, the cap holds
  (`liveJobs_le_maxAsyncJobs`); a job that outlives the TTL frees its slot while
  it runs.
-/

import BrowserHeadless.Jobs.Steps
import Mathlib.Data.List.Perm.Subperm

namespace BrowserHeadless
namespace Jobs

variable {β : Type} {cfg : JobsConfig}

/-- Job `id` is queued or running a capture. -/
def State.Live (s : State β) (id : String) : Prop :=
  ∃ job ∈ s.jobs, job.id = id ∧ job.pc.live = true

/-- The action runs `retain` on the map with this `now`. -/
def RetainsAt (s : State β) (a : Action β) (now : Nat) : Prop :=
  (∃ (c : Nat) (call : SubmitCall), a = .enter c ∧ s.calls[c]? = some call ∧ call.now = now) ∨
  ∃ k : Nat, a = .purge k ∧ s.purges[k]? = some (some now)

/-- No `retain` runs when the record of a live job has expired. -/
def RetainSparesLive (s : State β) (a : Action β) : Prop :=
  ∀ now, RetainsAt s a now → ∀ p ∈ s.map, s.Live p.1 → now < p.2.expires

/-- The invariant: live jobs are represented by active records, of which there
    are at most `max`. -/
structure Admitted (cfg : JobsConfig) (s : State β) : Prop where
  callIds : (s.calls.map (·.id)).Nodup
  jobIds : (s.jobs.map (·.id)).Nodup
  accepted : ∀ id ∈ s.jobs.map (·.id), ∃ call ∈ s.calls, call.id = id ∧ call.pc = .accepted
  represented : ∀ id, s.Live id → ∃ p ∈ s.map, p.1 = id ∧ p.2.status.active = true
  active : ∀ p ∈ s.map, s.Live p.1 → p.2.status.active = true
  cap : s.map.activeCount ≤ cfg.maxAsyncJobs

theorem Admitted.init : Admitted cfg (State.init : State β) where
  callIds := .nil
  jobIds := .nil
  accepted := by
    intro id h
    cases h
  represented := by
    rintro id ⟨job, hjob, -⟩
    cases hjob
  active := by
    intro p hp
    cases hp
  cap := Nat.zero_le _

/-- The part of the invariant that is about ids. -/
theorem Admitted.identified {s : State β} (hs : Admitted cfg s) : Identified s :=
  ⟨hs.callIds, hs.jobIds, hs.accepted⟩

/-! ## The operations on the map -/

namespace JobMap

theorem activeCount_le_of_sublist {map map' : JobMap β} (h : map'.Sublist map) :
    map'.activeCount ≤ map.activeCount := h.countP_le

/-- An update that activates no record does not raise the count. -/
theorem activeCount_update_le {map : JobMap β} {id : String} {f : JobRecord β → JobRecord β}
    (hf : ∀ p ∈ map, p.1 = id → (f p.2).status.active = true → p.2.status.active = true) :
    (map.update id f).activeCount ≤ map.activeCount := by
  rw [activeCount, update, List.countP_map, activeCount]
  -- record by record: the updated one is active only if it was before
  refine List.countP_mono_left fun p hp hact => ?_
  simp only [Function.comp_apply] at hact
  split at hact
  next hid => exact hf p hp hid hact
  next => exact hact

theorem activeCount_insert_le (map : JobMap β) (id : String) (rec : JobRecord β) :
    (map.insert id rec).activeCount ≤ map.activeCount + 1 := by
  have hfilter : activeCount (map.filter fun p => p.1 ≠ id) ≤ map.activeCount :=
    activeCount_le_of_sublist List.filter_sublist
  rw [insert, activeCount, List.countP_cons]
  simp only [activeCount] at hfilter ⊢
  split <;> omega

theorem oldestCompleted_spec {map : JobMap β} {q : String × JobRecord β}
    (h : map.oldestCompleted = some q) : q ∈ map ∧ q.2.status.active = false := by
  have hmem := List.mem_filter.mp (List.argmin_mem h)
  exact ⟨hmem.1, by simpa using hmem.2⟩

/-- Eviction spares a key all of whose records are active. -/
theorem mem_evict {max fuel : Nat} {map : JobMap β} {p : String × JobRecord β} (hp : p ∈ map)
    (hkey : ∀ q ∈ map, q.1 = p.1 → q.2.status.active = true) : p ∈ map.evict max fuel := by
  induction fuel generalizing map with
  | zero => exact hp
  | succ fuel ih =>
      rw [evict]
      split
      · split
        next => exact hp
        next oldest hold =>
          obtain ⟨hmem, hdone⟩ := oldestCompleted_spec hold
          have hne : p.1 ≠ oldest.1 := by
            intro heq
            rw [hkey oldest hmem heq.symm] at hdone
            cases hdone
          refine ih (List.mem_filter.mpr ⟨hp, by simpa using hne⟩) fun q hq hqp => ?_
          exact hkey q (List.mem_filter.mp hq).1 hqp
      · exact hp

end JobMap

/-! ## Moves of jobs and calls -/

/-- A job that moves is not revived. -/
theorem State.Live.of_setPc {s : State β} {i : Nat} {job : Job β} {pc : JobPc β} {id : String}
    (hjob : s.jobs[i]? = some job) (hpc : pc.live = true → job.pc.live = true)
    (h : (s.setPc i pc).Live id) : s.Live id := by
  obtain ⟨job', hmem, hid, hlive⟩ := h
  obtain ⟨j, hj⟩ := List.mem_iff_getElem?.mp hmem
  rw [State.setPc, List.getElem?_modify] at hj
  obtain ⟨old, hold, rfl⟩ := Option.map_eq_some_iff.mp hj
  by_cases hij : i = j
  · subst hij
    obtain rfl : job = old := Option.some.inj (hjob.symm.trans hold)
    simp only [if_true] at hid hlive
    exact ⟨job, List.mem_of_getElem? hjob, hid, hpc hlive⟩
  · simp only [if_neg hij] at hid hlive
    exact ⟨old, List.mem_of_getElem? hold, hid, hlive⟩

/-- A job that ends is not live any more. -/
theorem State.not_live_setPc {s : State β} {i : Nat} {job : Job β} {pc : JobPc β}
    (hids : (s.jobs.map (·.id)).Nodup) (hjob : s.jobs[i]? = some job) (hpc : pc.live = false) :
    ¬ (s.setPc i pc).Live job.id := by
  rintro ⟨job', hmem, hid, hlive⟩
  obtain ⟨j, hj⟩ := List.mem_iff_getElem?.mp hmem
  rw [State.setPc, List.getElem?_modify] at hj
  obtain ⟨old, hold, rfl⟩ := Option.map_eq_some_iff.mp hj
  by_cases hij : i = j
  · simp [hij, hpc] at hlive
  · simp only [if_neg hij] at hid
    have hi : (s.jobs.map (·.id))[i]? = some job.id := by simp [hjob]
    have hj : (s.jobs.map (·.id))[j]? = some job.id := by simp [hold, hid]
    have hlt := (List.getElem?_eq_some_iff.mp hi).1
    exact hij ((List.getElem?_inj hlt hids).mp (hi.trans hj.symm))

/-- What keeps the map and the calls and revives no job keeps the invariant. -/
theorem Admitted.of_same {s s' : State β} (hs : Admitted cfg s) (hmap : s'.map = s.map)
    (hcalls : s'.calls = s.calls) (hids : s'.jobs.map (·.id) = s.jobs.map (·.id))
    (hlive : ∀ id, s'.Live id → s.Live id) : Admitted cfg s' where
  callIds := (hs.identified.of_same hcalls hids).callIds
  jobIds := (hs.identified.of_same hcalls hids).jobIds
  accepted := (hs.identified.of_same hcalls hids).accepted
  represented := by
    rw [hmap]
    exact fun id h => hs.represented id (hlive id h)
  active := by
    rw [hmap]
    exact fun p hp h => hs.active p hp (hlive p.1 h)
  cap := hmap ▸ hs.cap

/-- A job that moves, leaving the map alone. -/
theorem Admitted.setPc {s : State β} (hs : Admitted cfg s) {i : Nat} {job : Job β} {pc : JobPc β}
    (hjob : s.jobs[i]? = some job) (hpc : pc.live = true → job.pc.live = true) :
    Admitted cfg (s.setPc i pc) :=
  hs.of_same rfl rfl (s.setPc_ids i pc) fun _ h => h.of_setPc hjob hpc

/-- The invariant with another map, smaller but for the records of live jobs. -/
theorem Admitted.of_map {s : State β} (hs : Admitted cfg s) {map : JobMap β}
    (hsub : ∀ p ∈ map, p ∈ s.map)
    (hlive : ∀ p ∈ s.map, s.Live p.1 → p.2.status.active = true → p ∈ map)
    (hcap : map.activeCount ≤ cfg.maxAsyncJobs) : Admitted cfg { s with map := map } where
  callIds := hs.callIds
  jobIds := hs.jobIds
  accepted := hs.accepted
  represented := by
    intro id h
    obtain ⟨p, hp, rfl, hact⟩ := hs.represented id h
    exact ⟨p, hlive p hp h hact, rfl, hact⟩
  active := fun p hp h => hs.active p (hsub p hp) h
  cap := hcap

/-- `retain` at a time when no live record has expired. -/
theorem Admitted.retain {s : State β} (hs : Admitted cfg s) {now : Nat}
    (hG : ∀ p ∈ s.map, s.Live p.1 → now < p.2.expires) :
    Admitted cfg { s with map := s.map.retain now } := by
  refine hs.of_map (fun p hp => (List.mem_filter.mp hp).1) ?_ ?_
  · intro p hp hlive _
    exact List.mem_filter.mpr ⟨hp, by simpa using hG p hp hlive⟩
  · exact Nat.le_trans (JobMap.activeCount_le_of_sublist List.filter_sublist) hs.cap

/-- The eviction loop. -/
theorem Admitted.evict {s : State β} (hs : Admitted cfg s) (max fuel : Nat) :
    Admitted cfg { s with map := s.map.evict max fuel } := by
  have hsub := s.map.evict_sublist max fuel
  refine hs.of_map (fun p hp => hsub.subset hp) ?_ ?_
  · intro p hp hlive _
    exact JobMap.mem_evict hp fun q hq hqp => hs.active q hq (hqp ▸ hlive)
  · exact Nat.le_trans (JobMap.activeCount_le_of_sublist hsub) hs.cap

/-- A move of a call changes no job. -/
theorem Admitted.setCall {s : State β} (hs : Admitted cfg s) {c : Nat} {call : SubmitCall}
    {pc : SubmitPc} (hcall : s.calls[c]? = some call) (hpc : call.pc = .waiting) :
    Admitted cfg (s.setCall c pc) := by
  have hid : Identified (s.setCall c pc) := hs.identified.setCall hcall hpc rfl rfl
  exact ⟨hid.callIds, hid.jobIds, hid.accepted, hs.represented, hs.active, hs.cap⟩

/-- An accepted `submit`: room in the cap, a new record, a new job. -/
theorem Admitted.insert {s : State β} (hs : Admitted cfg s) {c : Nat} {call : SubmitCall}
    (hcall : s.calls[c]? = some call) (hpc : call.pc = .waiting) {rec : JobRecord β}
    (hrec : rec.status = .queued) (hroom : s.map.activeCount < cfg.maxAsyncJobs) :
    Admitted cfg (State.setCall
      { s with map := s.map.insert call.id rec, jobs := s.jobs ++ [⟨call.id, .accepted⟩] }
      c .accepted) := by
  have hfresh := hs.identified.fresh hcall hpc
  -- the live jobs afterwards: the new one, and the old ones under other ids
  have hlive : ∀ id, State.Live (State.setCall
      { s with map := s.map.insert call.id rec, jobs := s.jobs ++ [⟨call.id, .accepted⟩] }
      c .accepted) id → id = call.id ∨ (id ≠ call.id ∧ s.Live id) := by
    rintro id ⟨job, hmem, rfl, hl⟩
    rcases List.mem_append.mp hmem with hold | hnew
    · refine Or.inr ⟨fun heq => hfresh (heq ▸ List.mem_map_of_mem hold), job, hold, rfl, hl⟩
    · rw [List.mem_singleton] at hnew
      exact Or.inl (by rw [hnew])
  have hid : Identified (State.setCall
      { s with map := s.map.insert call.id rec, jobs := s.jobs ++ [⟨call.id, .accepted⟩] }
      c .accepted) := hs.identified.accept hcall hpc rfl rfl
  refine ⟨hid.callIds, hid.jobIds, hid.accepted, ?_, ?_, ?_⟩
  · intro id hid
    rcases hlive id hid with rfl | ⟨hne, hl⟩
    · exact ⟨(call.id, rec), List.mem_cons_self, rfl, by rw [hrec]; rfl⟩
    · obtain ⟨p, hp, rfl, hact⟩ := hs.represented id hl
      exact ⟨p, List.mem_cons_of_mem _ (List.mem_filter.mpr ⟨hp, by simpa using hne⟩), rfl, hact⟩
  · intro p hp hl
    rcases List.mem_cons.mp hp with rfl | hold
    · simp [hrec, JobStatus.active]
    · obtain ⟨hmem, hne⟩ := List.mem_filter.mp hold
      rcases hlive p.1 hl with heq | ⟨-, hl⟩
      · simp [heq] at hne
      · exact hs.active p hmem hl
  · exact Nat.le_trans (JobMap.activeCount_insert_le _ _ _) hroom

/-- The critical section of `submit`. -/
theorem Admitted.enter {s : State β} (hs : Admitted cfg s) {c : Nat} {call : SubmitCall}
    (hcall : s.calls[c]? = some call) (hpc : call.pc = .waiting)
    (hG : ∀ p ∈ s.map, s.Live p.1 → call.now < p.2.expires) :
    Admitted cfg (enter cfg s c call) := by
  -- the purge spares live jobs, so both branches start from an admitted state
  have hret := hs.retain hG
  rcases enter_cases cfg s c call with ⟨-, heq⟩ | ⟨hroom, heq⟩
  · rw [heq]
    exact hret.setCall hcall hpc
  · rw [heq]
    have hev := hret.evict cfg.maxAsyncJobs (s.map.retain call.now).length
    refine hev.insert hcall hpc rfl ?_
    exact Nat.lt_of_le_of_lt (JobMap.activeCount_le_of_sublist (JobMap.evict_sublist _ _ _)) hroom

/-- A live job updates its record and stays live. -/
theorem Admitted.update {s : State β} (hs : Admitted cfg s) {id : String} (hid : s.Live id)
    {f : JobRecord β → JobRecord β} (hf : ∀ rec, (f rec).status.active = true) :
    Admitted cfg { s with map := s.map.update id f } where
  callIds := hs.callIds
  jobIds := hs.jobIds
  accepted := hs.accepted
  represented := by
    intro id' h
    obtain ⟨p, hp, rfl, hact⟩ := hs.represented id' h
    refine ⟨_, JobMap.mem_update.mpr ⟨p, hp, rfl⟩, ?_, ?_⟩
    · split <;> rfl
    · split
      · exact hf p.2
      · exact hact
  active := by
    intro q hq h
    obtain ⟨p, hp, rfl⟩ := JobMap.mem_update.mp hq
    split
    next => exact hf p.2
    next hne =>
      rw [if_neg hne] at h
      exact hs.active p hp h
  cap := Nat.le_trans
    (JobMap.activeCount_update_le fun p hp hpid _ => hs.active p hp (hpid ▸ hid)) hs.cap

/-- A job writes its outcome and is not live any more. -/
theorem Admitted.complete {s : State β} (hs : Admitted cfg s) {i : Nat} {job : Job β}
    (hjob : s.jobs[i]? = some job) {f : JobRecord β → JobRecord β}
    (hf : ∀ rec, (f rec).status.active = false) :
    Admitted cfg (State.setPc { s with map := s.map.update job.id f } i .ending) := by
  -- job ids are distinct, so only this job stops being live
  have hlive : ∀ id, State.Live (State.setPc { s with map := s.map.update job.id f } i .ending) id →
      id ≠ job.id ∧ s.Live id := by
    intro id h
    refine ⟨?_, h.of_setPc hjob fun h => by cases h⟩
    rintro rfl
    exact State.not_live_setPc hs.jobIds hjob rfl h
  constructor
  · exact hs.callIds
  · rw [State.setPc_ids]
    exact hs.jobIds
  · rw [State.setPc_ids]
    exact hs.accepted
  · intro id h
    obtain ⟨hne, hl⟩ := hlive id h
    obtain ⟨p, hp, rfl, hact⟩ := hs.represented id hl
    exact ⟨p, JobMap.mem_update.mpr ⟨p, hp, if_neg hne⟩, rfl, hact⟩
  · intro q hq h
    obtain ⟨p, hp, rfl⟩ := JobMap.mem_update.mp hq
    split at h
    next heq => exact absurd heq (hlive _ h).1
    next hne =>
      rw [if_neg hne]
      exact hs.active p hp (hlive _ h).2
  · refine Nat.le_trans (JobMap.activeCount_update_le fun p hp _ hact => ?_) hs.cap
    rw [hf] at hact
    cases hact

/-- A completed record is not active. -/
theorem JobRecord.complete_active (cfg : JobsConfig) (now : Nat) (rec : JobRecord β)
    (o : JobOutcome β) : (rec.complete cfg now o).status.active = false := by
  rcases o with (_ | _) | _ <;> rfl

/-- The map in another iteration order. -/
theorem Admitted.perm {s : State β} (hs : Admitted cfg s) {map : JobMap β} (h : map.Perm s.map) :
    Admitted cfg { s with map := map } :=
  hs.of_map (fun _ hp => h.mem_iff.mp hp) (fun _ hp _ _ => h.mem_iff.mpr hp)
    (Nat.le_trans (Nat.le_of_eq (h.countP_eq _)) hs.cap)

/-- A job that moves and changes counters only. -/
theorem Admitted.move {s s' : State β} (hs : Admitted cfg s) {i : Nat} {job : Job β} {pc : JobPc β}
    (hi : s.jobs[i]? = some job) (hpc : pc.live = true → job.pc.live = true)
    (hmap : s'.map = s.map) (hcalls : s'.calls = s.calls) (hjobs : s'.jobs = (s.setPc i pc).jobs) :
    Admitted cfg s' := by
  refine hs.of_same hmap hcalls (by rw [hjobs, State.setPc_ids]) ?_
  rintro id ⟨job', hmem, hid, hlive⟩
  exact State.Live.of_setPc hi hpc ⟨job', hjobs ▸ hmem, hid, hlive⟩

theorem Admitted.step {s s' : State β} {a : Action β} (hs : Admitted cfg s)
    (hG : RetainSparesLive s a) (h : step cfg s a = some s') : Admitted cfg s' := by
  have hid := hs.identified.step h
  -- only `submit`, the jobs and the purges touch what the invariant is about
  cases step_cases h with
  | submit _ => exact ⟨hid.callIds, hid.jobIds, hid.accepted, hs.represented, hs.active, hs.cap⟩
  | @enter c call hc hpc => exact hs.enter hc hpc (hG call.now (Or.inl ⟨c, call, rfl, hc, rfl⟩))
  | cancel hc hpc => exact hs.setCall hc hpc
  | spawn hi | count hi | captured hi => exact hs.move hi (fun _ => rfl) rfl rfl rfl
  | run hi =>
      have hlive : s.Live _ := ⟨_, List.mem_of_getElem? hi, rfl, rfl⟩
      exact (hs.update hlive fun _ => rfl).setPc hi fun _ => rfl
  | @finish i id outcome hi => exact hs.complete hi fun rec => rec.complete_active cfg s.clock outcome
  | uncount hi =>
      refine hs.move hi (fun hlive => ?_) rfl rfl rfl
      split at hlive <;> cases hlive
  | notify hi | panic hi _ => exact hs.move hi (fun hlive => by cases hlive) rfl rfl rfl
  | @purge k now hk =>
      refine (hs.retain (hG now (Or.inr ⟨k, rfl, hk⟩))).of_same rfl rfl rfl fun _ h => h
  | rehash hi =>
      obtain ⟨hlt, rfl⟩ := List.getElem?_eq_some_iff.mp hi
      exact hs.perm (List.getElem_cons_eraseIdx_perm hlt)
  | tick | sweep | drain | drainStep _ _ | drainTimeout _ =>
      exact hs.of_same rfl rfl rfl fun _ h => h

/-- Live jobs have different active records, so the cap bounds them. -/
theorem Admitted.liveJobs_le {s : State β} (hs : Admitted cfg s) :
    s.liveJobs.length ≤ cfg.maxAsyncJobs := by
  have hnodup : (s.liveJobs.map (·.id)).Nodup :=
    (List.filter_sublist.map _).nodup hs.jobIds
  -- each live job has an active record under its own id
  have hsub : s.liveJobs.map (·.id) ⊆ (s.map.filter fun p => p.2.status.active).map (·.1) := by
    intro id hid
    obtain ⟨job, hjob, rfl⟩ := List.mem_map.mp hid
    obtain ⟨hmem, hlive⟩ := List.mem_filter.mp hjob
    obtain ⟨p, hp, hpid, hact⟩ := hs.represented job.id ⟨job, hmem, rfl, hlive⟩
    exact hpid ▸ List.mem_map_of_mem (List.mem_filter.mpr ⟨hp, hact⟩)
  have hle := (hnodup.subperm hsub).length_le
  rw [List.length_map, List.length_map] at hle
  calc s.liveJobs.length ≤ (s.map.filter fun p => p.2.status.active).length := hle
    _ = s.map.activeCount := (List.countP_eq_length_filter).symm
    _ ≤ cfg.maxAsyncJobs := hs.cap

/-- Along every run in which no `retain` meets an expired record of a live job,
    at most `max_async_jobs` accepted jobs are queued or running. -/
theorem liveJobs_le_maxAsyncJobs (cfg : JobsConfig) (as : List (Action β))
    (hG : (system cfg).Guarded RetainSparesLive State.init as) :
    (system cfg).Along (fun s => s.liveJobs.length ≤ cfg.maxAsyncJobs) State.init as :=
  (Lib.System.along_of_invariant (Admitted cfg) RetainSparesLive
    (fun _ _ _ hs hG h => hs.step hG h) .init hG).mono fun _ hs => hs.liveJobs_le

/-- The `now` of the `retain` that the action runs. -/
def retainTime (s : State β) : Action β → Option Nat
  | .enter c => s.calls[c]?.map fun call => call.now
  | .purge k => s.purges[k]?.join
  | _ => none

theorem retainsAt_iff (s : State β) (a : Action β) (now : Nat) :
    RetainsAt s a now ↔ retainTime s a = some now := by
  unfold RetainsAt
  cases a with
  | enter c => simp [retainTime, Option.map_eq_some_iff]
  | purge k => simp [retainTime, Option.join_eq_some_iff]
  | _ => simp [retainTime]

instance (s : State β) (id : String) : Decidable (s.Live id) :=
  inferInstanceAs (Decidable (∃ job ∈ s.jobs, job.id = id ∧ job.pc.live = true))

instance (s : State β) (a : Action β) : Decidable (RetainSparesLive s a) :=
  decidable_of_iff (∀ now ∈ retainTime s a, ∀ p ∈ s.map, s.Live p.1 → now < p.2.expires)
    (forall_congr' fun now => by rw [Option.mem_def, retainsAt_iff])

/-- Two jobs at a time, with results kept for ten ticks. -/
def twoJobs : JobsConfig where
  maxAsyncJobs := 2
  jobTtl := 10
  maxAsyncJobs_pos := by decide
  jobTtl_pos := by decide

/-- A second job is submitted while the first one runs, then a third one; the sweeper comes, and
    the first two end. -/
def overlapping : List (Action Unit) :=
  [.submit "job-1", .enter 0, .job 0, .job 0, .job 0, .tick 2, .submit "job-2", .enter 1, .job 1,
    .tick 2, .submit "job-3", .enter 2, .sweep, .purge 0, .captured 0 (.ok (.ok ())), .job 0,
    .job 0, .job 1, .job 1, .captured 1 (.err ⟨.gatewayTimeout, ""⟩), .job 1, .job 1, .job 1]

/-- Every `retain` of `overlapping` but the first meets records of live jobs, and spares them; the
    third submit is refused. -/
theorem liveJobs_le_maxAsyncJobs_overlapping :
    ((system twoJobs).exec State.init overlapping).isSome = true ∧
    (system twoJobs).Guarded RetainSparesLive State.init overlapping ∧
    (system twoJobs).Along (fun s : State Unit => s.liveJobs.length ≤ 2) State.init
      overlapping := by
  have hG : (system twoJobs).Guarded RetainSparesLive State.init overlapping := by decide +kernel
  exact ⟨by decide +kernel, hG, liveJobs_le_maxAsyncJobs twoJobs overlapping hG⟩

/-- One job at a time, with results kept for one tick. -/
def oneJob : JobsConfig where
  maxAsyncJobs := 1
  jobTtl := 1
  maxAsyncJobs_pos := by decide
  jobTtl_pos := by decide

/-- The first job is still queued when its record expires; the second `submit`
    purges the record and finds the cap free. -/
def outlivesTtl : List (Action Unit) :=
  [.submit "job-1", .enter 0, .job 0, .tick 1, .submit "job-2", .enter 1]

/-- Two jobs are accepted and unfinished with a cap of one. -/
theorem liveJobs_exceed_cap :
    ¬ ∀ (cfg : JobsConfig) (as : List (Action Unit)),
        ((system cfg).exec State.init as).isSome = true →
        (system cfg).Along (fun s => s.liveJobs.length ≤ cfg.maxAsyncJobs) State.init as := by
  intro hclaim
  have hrun : (system oneJob).exec State.init outlivesTtl
      = some (((system oneJob).exec State.init outlivesTtl).get (by rfl)) := (Option.some_get _).symm
  have hlast := (hclaim oneJob outlivesTtl (by rfl)).last hrun
  revert hlast
  decide

end Jobs
end BrowserHeadless
