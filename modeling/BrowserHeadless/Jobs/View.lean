/-
  BrowserHeadless.Jobs.View

  What a poller sees of a job (src/jobs.rs, `JobStore::get`).

  `get` checks the expiry of a record itself, and the record stays in the map until
  a sweep or a `submit` drops it.  The completion of a job restarts the expiry of
  whatever record it finds: a record that expired while the job ran answers `None`
  before and the result after.  Without such a completion the answers only move
  forward (`get_ordered_iff`).
-/

import BrowserHeadless.Jobs.Admission

namespace BrowserHeadless
namespace Jobs

variable {β : Type} {cfg : JobsConfig}

/-- `JobView`. -/
structure JobView (β : Type) where
  id : String
  status : JobStatus
  httpStatus : Option Nat
  data : Option β
  error : Option String
  ageMs : Nat

/-- The view but for its age. -/
def JobView.ageless (v : JobView β) : JobView β := { v with ageMs := 0 }

/-- `map.get(id)`. -/
def JobMap.get (map : JobMap β) (id : String) : Option (JobRecord β) := map.lookup id

/-- The view `get` makes of a record. -/
def JobRecord.view (id : String) (clock : Nat) (rec : JobRecord β) : JobView β where
  id := id
  status := rec.status
  httpStatus := rec.httpStatus
  data := rec.data
  error := rec.error
  ageMs := clock - rec.created

/-- `JobStore::get`.  The lock is held while the expiry is checked. -/
def State.get (s : State β) (id : String) : Option (JobView β) :=
  (JobMap.get s.map id).bind fun rec =>
    if rec.expires ≤ s.clock then none else some (rec.view id s.clock)

/-- Which answer of `get` may come after which: first `Queued`, then `Running`,
    then one terminal view, then nothing. -/
inductive Follows : Option (JobView β) → Option (JobView β) → Prop where
  | gone {o : Option (JobView β)} : Follows o none
  | queued {v w : JobView β} (hv : v.status = .queued) : Follows (some v) (some w)
  | running {v w : JobView β} (hv : v.status = .running) (hw : w.status ≠ .queued) :
      Follows (some v) (some w)
  | terminal {v w : JobView β} (hv : v.status.active = false) (hw : w.ageless = v.ageless) :
      Follows (some v) (some w)

theorem JobView.status_eq {v w : JobView β} (h : w.ageless = v.ageless) : w.status = v.status := by
  have hstatus : w.ageless.status = v.ageless.status := by rw [h]
  exact hstatus

theorem Follows.of_same {v w : JobView β} (h : w.ageless = v.ageless) :
    Follows (some v) (some w) := by
  cases hv : v.status with
  | queued => exact .queued hv
  | running =>
      refine .running hv ?_
      rw [JobView.status_eq h, hv]
      exact JobStatus.noConfusion
  | done | error => exact .terminal (by rw [hv]; rfl) h

theorem Follows.refl (o : Option (JobView β)) : Follows o o := by
  cases o with
  | none => exact .gone
  | some v => exact .of_same rfl

theorem Follows.trans {o p q : Option (JobView β)} (h : Follows o p) (h' : Follows p q) :
    Follows o q := by
  cases h with
  | gone =>
      cases h'
      exact .gone
  | queued hv =>
      cases h' with
      | gone => exact .gone
      | queued _ | running _ _ | terminal _ _ => exact .queued hv
  | running hv hw =>
      cases h' with
      | gone => exact .gone
      | queued hqueued => exact absurd hqueued hw
      | running _ hne => exact .running hv hne
      | terminal _ hsame => exact .running hv (by rwa [JobView.status_eq hsame])
  -- after a terminal view only that view comes
  | terminal hv hw =>
      have hstatus := JobView.status_eq hw
      cases h' with
      | gone => exact .gone
      | queued hqueued =>
          rw [← hstatus, hqueued] at hv
          cases hv
      | running hrunning _ =>
          rw [← hstatus, hrunning] at hv
          cases hv
      | terminal _ hsame => exact .terminal hv (hsame.trans hw)

instance : IsPreorder (Option (JobView β)) Follows where
  refl := Follows.refl
  trans := fun _ _ _ h h' => h.trans h'

/-- Where the record of a job can be while the job stands there. -/
def JobPc.Expects : JobPc β → JobStatus → Prop
  | accepted, st | spawned, st | started, st => st = .queued
  | capturing, st | finishing _, st => st = .running
  | ending, _ | notifying, _ | finished, _ => True

/-- A job with id `id` completes only a record that has not expired. -/
def CompletesFresh (id : String) (s : State β) (a : Action β) : Prop :=
  ∀ (i : Nat) (outcome : JobOutcome β) (rec : JobRecord β), a = .job i →
    s.jobs[i]? = some ⟨id, .finishing outcome⟩ → JobMap.get s.map id = some rec →
    s.clock < rec.expires

/-! ## Records and jobs -/

/-- With distinct keys, `map.get` finds the record that is in the map. -/
theorem JobMap.get_eq_some_iff {map : JobMap β} (hkeys : map.keys.Nodup) {id : String}
    {rec : JobRecord β} : JobMap.get map id = some rec ↔ (id, rec) ∈ map := by
  induction map with
  | nil => simp [JobMap.get]
  | cons p map ih =>
      obtain ⟨key, r⟩ := p
      rw [JobMap.keys, List.map_cons, List.nodup_cons] at hkeys
      rw [JobMap.get, List.lookup_cons, List.mem_cons]
      by_cases hkey : id = key
      · subst hkey
        have hout : (id, rec) ∉ map := by
          intro h
          exact hkeys.1 (List.mem_map.mpr ⟨(id, rec), h, rfl⟩)
        simp [hout, eq_comm]
      · have hne : (id == key) = false := by simpa using hkey
        rw [hne]
        dsimp only
        rw [← JobMap.get, ih hkeys.2]
        simp [hkey]

/-- Records and statuses fit the jobs in every state of every run. -/
structure Tracked (s : State β) : Prop where
  keyed : Keyed s
  expects : ∀ (i : Nat) (job : Job β) (rec : JobRecord β), s.jobs[i]? = some job →
    (job.id, rec) ∈ s.map → job.pc.Expects rec.status

theorem Tracked.init : Tracked (State.init : State β) where
  keyed := .init
  expects := by
    intro i job rec hi
    simp [State.init] at hi

/-- Two jobs with one id are one job. -/
theorem Identified.job_inj {s : State β} (hs : Identified s) {i j : Nat} {job job' : Job β}
    (hi : s.jobs[i]? = some job) (hj : s.jobs[j]? = some job') (h : job.id = job'.id) : i = j := by
  have h1 : (s.jobs.map (·.id))[i]? = some job.id := by simp [hi]
  have h2 : (s.jobs.map (·.id))[j]? = some job.id := by simp [hj, h]
  have hlt := (List.getElem?_eq_some_iff.mp h1).1
  exact (List.getElem?_inj hlt hs.jobIds).mp (h1.trans h2.symm)

/-- A job moves, and its record with it. -/
theorem Tracked.expects_move {s s' : State β} (hs : Tracked s) {i : Nat} {id : String}
    {pc pc' : JobPc β} (hi : s.jobs[i]? = some ⟨id, pc⟩)
    (hjobs : s'.jobs = s.jobs.modify i fun job => { job with pc := pc' })
    (hown : ∀ rec, (id, rec) ∈ s'.map → pc'.Expects rec.status)
    (hothers : ∀ p ∈ s'.map, p.1 ≠ id → p ∈ s.map) (j : Nat) (job : Job β) (rec : JobRecord β)
    (hj : s'.jobs[j]? = some job) (hrec : (job.id, rec) ∈ s'.map) : job.pc.Expects rec.status := by
  by_cases hij : i = j
  · subst hij
    rw [hjobs, List.getElem?_modify_eq, hi] at hj
    cases hj
    exact hown rec hrec
  · rw [hjobs, List.getElem?_modify_ne _ _ hij] at hj
    have hne : job.id ≠ id := fun heq => hij (hs.keyed.ids.job_inj hi hj heq.symm)
    exact hs.expects j job rec hj (hothers _ hrec hne)

/-- A job moves and its record stays. -/
theorem Tracked.expects_stay {s s' : State β} (hs : Tracked s) {i : Nat} {id : String}
    {pc pc' : JobPc β} (hi : s.jobs[i]? = some ⟨id, pc⟩)
    (hjobs : s'.jobs = s.jobs.modify i fun job => { job with pc := pc' }) (hmap : s'.map = s.map)
    (hpc : ∀ st, pc.Expects st → pc'.Expects st) (j : Nat) (job : Job β) (rec : JobRecord β)
    (hj : s'.jobs[j]? = some job) (hrec : (job.id, rec) ∈ s'.map) : job.pc.Expects rec.status := by
  refine hs.expects_move hi hjobs ?_ ?_ j job rec hj hrec
  · rw [hmap]
    exact fun r hr => hpc r.status (hs.expects i _ r hi hr)
  · rw [hmap]
    exact fun p hp _ => hp

/-- What an update of the records of `id` leaves. -/
theorem JobMap.mem_update_iff {map : JobMap β} {id id' : String} {f : JobRecord β → JobRecord β}
    {rec' : JobRecord β} : (id', rec') ∈ map.update id f ↔
      ∃ rec, (id', rec) ∈ map ∧ rec' = if id' = id then f rec else rec := by
  rw [JobMap.mem_update]
  constructor
  · rintro ⟨⟨key, rec⟩, hp, heq⟩
    by_cases hkey : key = id
    · rw [if_pos hkey] at heq
      cases heq
      exact ⟨rec, hp, by rw [if_pos hkey]⟩
    · rw [if_neg hkey] at heq
      cases heq
      exact ⟨rec', hp, by rw [if_neg hkey]⟩
  · rintro ⟨rec, hp, rfl⟩
    refine ⟨(id', rec), hp, ?_⟩
    dsimp only
    split <;> rfl

/-- The records of other ids. -/
theorem JobMap.mem_of_update_ne {map : JobMap β} {id : String} {f : JobRecord β → JobRecord β}
    {p : String × JobRecord β} (hp : p ∈ map.update id f) (hne : p.1 ≠ id) : p ∈ map := by
  obtain ⟨old, hold, heq⟩ := JobMap.mem_update_iff.mp hp
  rw [if_neg hne] at heq
  rwa [← heq] at hold

theorem Tracked.step {s s' : State β} {a : Action β} (hs : Tracked s) (h : step cfg s a = some s') :
    Tracked s' where
  keyed := hs.keyed.step h
  expects := by
    have same : s'.jobs = s.jobs → (∀ p ∈ s'.map, p ∈ s.map) →
        ∀ (i : Nat) (job : Job β) (rec : JobRecord β), s'.jobs[i]? = some job →
          (job.id, rec) ∈ s'.map → job.pc.Expects rec.status :=
      fun hjobs hsub i job rec hi hrec => hs.expects i job rec (hjobs ▸ hi) (hsub _ hrec)
    cases step_cases h with
    | @enter c call hc hpc =>
        have hret := s.map.retain_sublist call.now
        rcases enter_cases cfg s c call with ⟨-, heq⟩ | ⟨-, heq⟩
        · rw [heq] at same ⊢
          exact same rfl fun p hp => hret.subset hp
        -- the new job and its queued record
        · rw [heq]
          have hroom := (JobMap.evict_sublist cfg.maxAsyncJobs (s.map.retain call.now).length
            (s.map.retain call.now)).trans hret
          simp only [State.setCall, hs.keyed.insert_room hc hpc hroom]
          intro i job rec hi hrec
          rw [List.getElem?_append] at hi
          split at hi
          · have hmem := List.mem_of_getElem? hi
            rcases List.mem_cons.mp hrec with heq | hold
            · have hid : job.id = call.id := congrArg Prod.fst heq
              exact absurd (hid ▸ List.mem_map_of_mem hmem) (hs.keyed.ids.fresh hc hpc)
            · exact hs.expects i job rec hi (hroom.subset hold)
          · rw [List.getElem?_singleton] at hi
            split at hi <;> cases hi
            rcases List.mem_cons.mp hrec with heq | hold
            · cases heq
              rfl
            · exact absurd (List.mem_map_of_mem (hroom.subset hold)) (hs.keyed.fresh hc hpc)
    | spawn hi | count hi | captured hi => exact hs.expects_stay hi rfl rfl fun _ hst => hst
    | notify hi | panic hi _ => exact hs.expects_stay hi rfl rfl fun _ _ => True.intro
    | uncount hi =>
        refine hs.expects_stay hi rfl rfl fun _ _ => ?_
        split <;> exact True.intro
    | @run i id hi =>
        refine hs.expects_move hi rfl ?_ ?_
        · intro rec hrec
          have hrec : (id, rec) ∈ s.map.update id fun rec => { rec with status := .running } := hrec
          obtain ⟨old, -, rfl⟩ := JobMap.mem_update_iff.mp hrec
          rw [if_pos rfl]
          rfl
        · intro p (hp : p ∈ s.map.update id fun rec => { rec with status := .running }) hne
          exact JobMap.mem_of_update_ne hp hne
    | @finish i id outcome hi =>
        refine hs.expects_move hi rfl (fun _ _ => True.intro) ?_
        intro p (hp : p ∈ s.map.update id fun rec => rec.complete cfg s.clock outcome) hne
        exact JobMap.mem_of_update_ne hp hne
    | purge _ => exact same rfl fun p hp => (s.map.retain_sublist _).subset hp
    | rehash hi =>
        obtain ⟨hlt, rfl⟩ := List.getElem?_eq_some_iff.mp hi
        exact same rfl fun p hp => (List.getElem_cons_eraseIdx_perm hlt).mem_iff.mp hp
    | tick | submit _ | cancel _ _ | sweep | drain | drainStep _ _ | drainTimeout _ =>
        exact same rfl fun p hp => hp

/-! ## One record under a step -/

/-- What a step does to a record that is there afterwards. -/
inductive RecordMove (cfg : JobsConfig) (s : State β) (a : Action β) (id : String) :
    JobRecord β → JobRecord β → Prop where
  | same {rec : JobRecord β} : RecordMove cfg s a id rec rec
  | run {rec : JobRecord β} {i : Nat} (ha : a = .job i) (hi : s.jobs[i]? = some ⟨id, .started⟩) :
      RecordMove cfg s a id rec { rec with status := .running }
  | complete {rec : JobRecord β} {i : Nat} {outcome : JobOutcome β} (ha : a = .job i)
      (hi : s.jobs[i]? = some ⟨id, .finishing outcome⟩) :
      RecordMove cfg s a id rec (rec.complete cfg s.clock outcome)

theorem step_clock {s s' : State β} {a : Action β} (h : step cfg s a = some s') :
    s.clock ≤ s'.clock := by
  cases step_cases h with
  | tick => exact Nat.le_add_right _ _
  | @enter c call hc hpc =>
      rcases enter_cases cfg s c call with ⟨-, heq⟩ | ⟨-, heq⟩ <;>
      · rw [heq]
        exact Nat.le_refl _
  | _ => exact Nat.le_refl _

/-- A record comes from the one its job had, or is that of the job just accepted. -/
theorem step_records {s s' : State β} {a : Action β} (hs : Keyed s) (h : step cfg s a = some s')
    {id : String} {rec' : JobRecord β} (hrec : (id, rec') ∈ s'.map) :
    (∃ rec, (id, rec) ∈ s.map ∧ RecordMove cfg s a id rec rec') ∨
    (id ∉ s.jobs.map (·.id) ∧ ∃ now, rec' = .queued cfg now) := by
  have same : (id, rec') ∈ s.map →
      (∃ rec, (id, rec) ∈ s.map ∧ RecordMove cfg s a id rec rec') ∨
      (id ∉ s.jobs.map (·.id) ∧ ∃ now, rec' = .queued cfg now) :=
    fun hrec => Or.inl ⟨rec', hrec, .same⟩
  cases step_cases h with
  | @enter c call hc hpc =>
      have hret := s.map.retain_sublist call.now
      rcases enter_cases cfg s c call with ⟨-, heq⟩ | ⟨-, heq⟩
      · rw [heq] at hrec
        exact same (hret.subset hrec)
      · rw [heq] at hrec
        have hroom := (JobMap.evict_sublist cfg.maxAsyncJobs (s.map.retain call.now).length
          (s.map.retain call.now)).trans hret
        simp only [State.setCall, hs.insert_room hc hpc hroom] at hrec
        rcases List.mem_cons.mp hrec with hnew | hold
        · cases hnew
          exact Or.inr ⟨hs.ids.fresh hc hpc, call.now, rfl⟩
        · exact same (hroom.subset hold)
  | @run i key hi =>
      have hrec : (id, rec') ∈ s.map.update key fun rec => { rec with status := .running } := hrec
      obtain ⟨rec, hmem, rfl⟩ := JobMap.mem_update_iff.mp hrec
      refine Or.inl ⟨rec, hmem, ?_⟩
      split
      next hkey => exact .run rfl (hkey ▸ hi)
      next => exact .same
  | @finish i key outcome hi =>
      have hrec : (id, rec') ∈ s.map.update key fun rec => rec.complete cfg s.clock outcome := hrec
      obtain ⟨rec, hmem, rfl⟩ := JobMap.mem_update_iff.mp hrec
      refine Or.inl ⟨rec, hmem, ?_⟩
      split
      next hkey => exact .complete rfl (hkey ▸ hi)
      next => exact .same
  | purge _ => exact same ((s.map.retain_sublist _).subset hrec)
  | rehash hi =>
      obtain ⟨hlt, rfl⟩ := List.getElem?_eq_some_iff.mp hi
      exact same ((List.getElem_cons_eraseIdx_perm hlt).mem_iff.mp hrec)
  | tick | submit _ | cancel _ _ | spawn _ | count _ | uncount _ | notify _ | captured _
  | panic _ _ | sweep | drain | drainStep _ _ | drainTimeout _ => exact same hrec

/-- The record of a job comes from the record it had. -/
theorem step_record {s s' : State β} {a : Action β} (hs : Keyed s) (h : step cfg s a = some s')
    {id : String} (hid : id ∈ s.jobs.map (·.id)) {rec' : JobRecord β} (hrec : (id, rec') ∈ s'.map) :
    ∃ rec, (id, rec) ∈ s.map ∧ RecordMove cfg s a id rec rec' := by
  rcases step_records hs h hrec with hold | ⟨hnew, -⟩
  · exact hold
  · exact absurd hid hnew

/-- A completed record has not expired. -/
theorem JobRecord.lt_complete_expires (rec : JobRecord β) (cfg : JobsConfig) (now : Nat)
    (outcome : JobOutcome β) : now < (rec.complete cfg now outcome).expires := by
  have hpos := cfg.jobTtl_pos
  rcases outcome with (_ | _) | _ <;>
  · simp only [complete]
    omega

/-! ## The answers along a run -/

theorem State.get_eq_some_iff {s : State β} (hkeys : s.map.keys.Nodup) {id : String}
    {v : JobView β} : s.get id = some v ↔
      ∃ rec, (id, rec) ∈ s.map ∧ s.clock < rec.expires ∧ v = rec.view id s.clock := by
  rw [State.get, Option.bind_eq_some_iff]
  constructor
  · rintro ⟨rec, hrec, hv⟩
    split at hv
    · cases hv
    next hexp =>
      cases hv
      exact ⟨rec, (JobMap.get_eq_some_iff hkeys).mp hrec, Nat.not_le.mp hexp, rfl⟩
  · rintro ⟨rec, hrec, hexp, rfl⟩
    refine ⟨rec, (JobMap.get_eq_some_iff hkeys).mpr hrec, ?_⟩
    rw [if_neg (Nat.not_le.mpr hexp)]

/-- A step that completes no expired record leaves an answer that may follow. -/
theorem follows_step {s s' : State β} {a : Action β} {id : String} (hs : Tracked s)
    (hid : id ∈ s.jobs.map (·.id)) (h : step cfg s a = some s') (hG : CompletesFresh id s a) :
    Follows (s.get id) (s'.get id) := by
  have hkeys := hs.keyed.nodup
  cases hafter : s'.get id with
  | none => exact .gone
  | some w =>
      obtain ⟨rec', hrec', hexp', rfl⟩ :=
        (State.get_eq_some_iff (hs.keyed.step h).nodup).mp hafter
      have hclock := step_clock h
      obtain ⟨rec, hrec, hmove⟩ := step_record hs.keyed h hid hrec'
      cases hmove with
      | same =>
          rw [(State.get_eq_some_iff hkeys).mpr ⟨rec', hrec, by omega, rfl⟩]
          exact .of_same rfl
      | run ha hi =>
          rw [(State.get_eq_some_iff hkeys).mpr ⟨rec, hrec, Nat.lt_of_le_of_lt hclock hexp', rfl⟩]
          exact .queued (hs.expects _ _ rec hi hrec)
      | @complete i outcome ha hi =>
          have hfresh := hG i outcome rec ha hi ((JobMap.get_eq_some_iff hkeys).mpr hrec)
          rw [(State.get_eq_some_iff hkeys).mpr ⟨rec, hrec, hfresh, rfl⟩]
          refine .running (hs.expects _ _ rec hi hrec) ?_
          have hdone := rec.complete_active cfg s.clock outcome
          intro hqueued
          have hstatus : (rec.complete cfg s.clock outcome).status = .queued := hqueued
          rw [hstatus] at hdone
          cases hdone

/-- Right after its completion a record that is there is shown. -/
theorem get_completed {s s' : State β} (hs : Keyed s) {i : Nat} {id : String}
    {outcome : JobOutcome β} (hi : s.jobs[i]? = some ⟨id, .finishing outcome⟩)
    (h : step cfg s (.job i) = some s') {rec : JobRecord β} (hrec : (id, rec) ∈ s.map) :
    s'.get id = some ((rec.complete cfg s.clock outcome).view id s.clock) := by
  have hkeys := (hs.step h).nodup
  have hcompleted : (id, rec.complete cfg s.clock outcome) ∈
      s.map.update id fun rec => rec.complete cfg s.clock outcome :=
    JobMap.mem_update_iff.mpr ⟨rec, hrec, by rw [if_pos rfl]⟩
  have hlive := rec.lt_complete_expires cfg s.clock outcome
  simp only [step, hi, Option.bind_some, jobStep] at h
  cases h
  exact (State.get_eq_some_iff hkeys).mpr ⟨_, hcompleted, hlive, rfl⟩

/-- Completing an expired record answers after `None`. -/
theorem completesFresh_of_follows {s s' : State β} {a : Action β} {id : String} (hs : Tracked s)
    (h : step cfg s a = some s') (hR : Follows (s.get id) (s'.get id)) : CompletesFresh id s a := by
  rintro i outcome rec rfl hi hget
  by_contra hexp
  have hrec := (JobMap.get_eq_some_iff hs.keyed.nodup).mp hget
  have hbefore : s.get id = none := by
    rw [State.get, hget]
    exact if_pos (Nat.not_lt.mp hexp)
  rw [hbefore, get_completed hs.keyed hi h hrec] at hR
  cases hR

/-- A job is never forgotten. -/
theorem step_jobs_ids {s s' : State β} {a : Action β} (h : step cfg s a = some s') {id : String}
    (hid : id ∈ s.jobs.map (·.id)) : id ∈ s'.jobs.map (·.id) := by
  cases step_cases h with
  | @enter c call _ _ =>
      rcases enter_cases cfg s c call with ⟨-, heq⟩ | ⟨-, heq⟩
      · rw [heq]
        exact hid
      · rw [heq]
        simp only [State.setCall, List.map_append]
        exact List.mem_append_left _ hid
  | spawn _ | count _ | run _ | finish _ | uncount _ | notify _ | captured _ | panic _ _ =>
      rw [State.setPc_ids]
      exact hid
  | tick | submit _ | cancel _ _ | sweep | purge _ | rehash _ | drain | drainStep _ _
  | drainTimeout _ => exact hid

/-- After `submit` has returned an id, the answers of `get` for it move from
    `Queued` over `Running` to one terminal view and to `None`, in every run, if
    and only if the job completes no record that has expired. -/
theorem get_ordered_iff (cfg : JobsConfig) (before after : List (Action β)) (s0 : State β)
    (job : Job β) (hbefore : (system cfg).exec State.init before = some s0) (hjob : job ∈ s0.jobs)
    (_ : job.pc.returned = true) (hafter : ((system cfg).exec s0 after).isSome = true) :
    (system cfg).Ordered Follows (fun s => s.get job.id) s0 after ↔
      (system cfg).Guarded (CompletesFresh job.id) s0 after := by
  obtain ⟨t, ht⟩ := Option.isSome_iff_exists.mp hafter
  have htracked : Tracked s0 := Lib.System.exec_invariant (M := system cfg) Tracked
    (fun s a s' hs h => hs.step h) .init hbefore
  refine Lib.System.ordered_iff_guarded
    (fun s => Tracked s ∧ job.id ∈ s.jobs.map (·.id))
    (fun s a s' hs h => ⟨hs.1.step h, step_jobs_ids h hs.2⟩) ?_
    ⟨htracked, List.mem_map_of_mem hjob⟩ ht
  intro s a s' hs h
  exact ⟨fun hR => completesFresh_of_follows hs.1 h hR, fun hG => follows_step hs.1 hs.2 h hG⟩

/-- A job is submitted and its task spawned. -/
def submitted : List (Action Unit) := [.submit "job-1", .enter 0, .job 0]

/-- The job runs, ends within its TTL, and its result is swept away later. -/
def runAndSweep : List (Action Unit) :=
  [.job 0, .job 0, .captured 0 (.ok (.ok ())), .job 0, .tick 1, .sweep, .purge 0]

/-- The answers of `runAndSweep` are queued, running, done and none. -/
theorem get_ordered_iff_swept :
    ∃ (s0 : State Unit) (job : Job Unit), (system oneJob).exec State.init submitted = some s0 ∧
      job ∈ s0.jobs ∧ job.pc.returned = true ∧
      ((system oneJob).exec s0 runAndSweep).isSome = true ∧
      ((system oneJob).Ordered Follows (fun s => s.get job.id) s0 runAndSweep ↔
        (system oneJob).Guarded (CompletesFresh job.id) s0 runAndSweep) :=
  ⟨_, ⟨"job-1", .spawned⟩, rfl, List.mem_cons_self, rfl, rfl,
    get_ordered_iff oneJob submitted runAndSweep _ _ rfl List.mem_cons_self rfl rfl⟩

/-- The job runs for as long as its record lives. -/
def runsPastTtl : List (Action Unit) := [.job 0, .job 0, .tick 1, .captured 0 (.ok (.ok ()))]

/-- After `runsPastTtl` a poller gets `None`, and once the job has completed it gets
    the result. -/
theorem get_answers_after_none :
    ¬ ∀ (cfg : JobsConfig) (before after : List (Action Unit)) (s0 : State Unit) (job : Job Unit),
        (system cfg).exec State.init before = some s0 → job ∈ s0.jobs →
        job.pc.returned = true → ((system cfg).exec s0 after).isSome = true →
        (system cfg).Ordered Follows (fun s => s.get job.id) s0 after := by
  intro hclaim
  have hordered := hclaim oneJob submitted (runsPastTtl ++ [.job 0]) _ ⟨"job-1", .spawned⟩ rfl
    List.mem_cons_self rfl rfl
  cases hordered.rel runsPastTtl [.job 0] rfl rfl

end Jobs
end BrowserHeadless
