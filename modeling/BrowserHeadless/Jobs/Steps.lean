/-
  BrowserHeadless.Jobs.Steps

  The steps of the job store taken apart once (`step_cases`), and what holds of
  its ids along every run: the calls of `submit` have different ids, a job has the
  id of the call that was accepted for it, and the keys of the map are distinct
  (`Keyed`).
-/

import BrowserHeadless.Jobs.Store
import BrowserHeadless.Lib.Lists
import Mathlib.Data.List.Nodup
import Mathlib.Data.List.Perm.Basic

namespace BrowserHeadless
namespace Jobs

variable {β : Type} {cfg : JobsConfig}

/-- `submit` has returned `Ok` for the job. -/
def JobPc.returned : JobPc β → Bool
  | accepted => false
  | _ => true

/-- The ways in which a step of the store can be taken. -/
inductive StepCase (cfg : JobsConfig) (s : State β) : Action β → State β → Prop where
  | tick {d : Nat} : StepCase cfg s (.tick d) { s with clock := s.clock + d }
  | submit {id : String} (hnew : ∀ call ∈ s.calls, call.id ≠ id) :
      StepCase cfg s (.submit id) { s with calls := s.calls ++ [⟨id, s.clock, .waiting⟩] }
  | enter {c : Nat} {call : SubmitCall} (hc : s.calls[c]? = some call) (hpc : call.pc = .waiting) :
      StepCase cfg s (.enter c) (enter cfg s c call)
  | cancel {c : Nat} {call : SubmitCall} (hc : s.calls[c]? = some call) (hpc : call.pc = .waiting) :
      StepCase cfg s (.cancel c) (s.setCall c .cancelled)
  | spawn {i : Nat} {id : String} (hi : s.jobs[i]? = some ⟨id, .accepted⟩) :
      StepCase cfg s (.job i) (s.setPc i .spawned)
  | count {i : Nat} {id : String} (hi : s.jobs[i]? = some ⟨id, .spawned⟩) :
      StepCase cfg s (.job i) (State.setPc { s with active := s.active + 1 } i .started)
  | run {i : Nat} {id : String} (hi : s.jobs[i]? = some ⟨id, .started⟩) :
      StepCase cfg s (.job i) (State.setPc
        { s with map := s.map.update id fun rec => { rec with status := .running } } i .capturing)
  | finish {i : Nat} {id : String} {outcome : JobOutcome β}
      (hi : s.jobs[i]? = some ⟨id, .finishing outcome⟩) :
      StepCase cfg s (.job i) (State.setPc
        { s with map := s.map.update id fun rec => rec.complete cfg s.clock outcome } i .ending)
  | uncount {i : Nat} {id : String} (hi : s.jobs[i]? = some ⟨id, .ending⟩) :
      StepCase cfg s (.job i) (State.setPc { s with active := s.active - 1 } i
        (if s.active = 1 then .notifying else .finished))
  | notify {i : Nat} {id : String} (hi : s.jobs[i]? = some ⟨id, .notifying⟩) :
      StepCase cfg s (.job i)
        (State.setPc { s with drains := s.drains.map DrainPc.wake } i .finished)
  | captured {i : Nat} {id : String} {outcome : JobOutcome β}
      (hi : s.jobs[i]? = some ⟨id, .capturing⟩) :
      StepCase cfg s (.captured i outcome) (s.setPc i (.finishing outcome))
  | panic {i : Nat} {id : String} {pc : JobPc β} (hi : s.jobs[i]? = some ⟨id, pc⟩)
      (hpc : pc = .started ∨ ∃ outcome, pc = .finishing outcome) :
      StepCase cfg s (.panic i) (s.setPc i .ending)
  | sweep : StepCase cfg s .sweep { s with purges := s.purges ++ [some s.clock] }
  | purge {k now : Nat} (hk : s.purges[k]? = some (some now)) :
      StepCase cfg s (.purge k)
        { s with map := s.map.retain now, purges := s.purges.set k none }
  | rehash {i : Nat} {p : String × JobRecord β} (hi : s.map[i]? = some p) :
      StepCase cfg s (.rehash i) { s with map := p :: s.map.eraseIdx i }
  | drain : StepCase cfg s .drain { s with drains := s.drains ++ [.check] }
  | drainStep {k : Nat} {pc pc' : DrainPc} (hk : s.drains[k]? = some pc)
      (h : drainStep s.active pc = some pc') :
      StepCase cfg s (.drainStep k) { s with drains := s.drains.set k pc' }
  | drainTimeout {k : Nat} (hk : s.drains[k]? = some (.waiting false)) :
      StepCase cfg s (.drainTimeout k) { s with drains := s.drains.set k .timedOut }

theorem jobStep_cases {s s' : State β} {i : Nat} {job : Job β} (hi : s.jobs[i]? = some job)
    (h : jobStep cfg s i job.id job.pc = some s') : StepCase cfg s (.job i) s' := by
  obtain ⟨id, pc⟩ := job
  cases pc with
  | accepted =>
      cases h
      exact .spawn hi
  | spawned =>
      cases h
      exact .count hi
  | started =>
      cases h
      exact .run hi
  | finishing outcome =>
      cases h
      exact .finish hi
  | ending =>
      cases h
      exact .uncount hi
  | notifying =>
      cases h
      exact .notify hi
  | capturing | finished => cases h

theorem step_cases {s s' : State β} {a : Action β} (h : step cfg s a = some s') :
    StepCase cfg s a s' := by
  cases a with
  | tick d =>
      cases h
      exact .tick
  | submit id =>
      simp only [step] at h
      split at h
      next hall =>
        cases h
        exact .submit fun call hcall => by simpa using List.all_eq_true.mp hall call hcall
      next => cases h
  | enter c =>
      obtain ⟨call, hc, h⟩ := Option.bind_eq_some_iff.mp h
      split at h
      next hpc =>
        cases h
        exact .enter hc hpc
      next => cases h
  | cancel c =>
      obtain ⟨call, hc, h⟩ := Option.bind_eq_some_iff.mp h
      split at h
      next hpc =>
        cases h
        exact .cancel hc hpc
      next => cases h
  | job i =>
      obtain ⟨job, hi, h⟩ := Option.bind_eq_some_iff.mp h
      exact jobStep_cases hi h
  | captured i outcome =>
      obtain ⟨⟨id, pc⟩, hi, h⟩ := Option.bind_eq_some_iff.mp h
      cases pc <;> cases h
      exact .captured hi
  | panic i =>
      obtain ⟨⟨id, pc⟩, hi, h⟩ := Option.bind_eq_some_iff.mp h
      cases pc <;> cases h
      · exact .panic hi (Or.inl rfl)
      · exact .panic hi (Or.inr ⟨_, rfl⟩)
  | sweep =>
      cases h
      exact .sweep
  | purge k =>
      obtain ⟨now, hnow, rfl⟩ := Option.map_eq_some_iff.mp h
      obtain ⟨o, hk, rfl⟩ := Option.bind_eq_some_iff.mp hnow
      exact .purge hk
  | rehash i =>
      obtain ⟨p, hi, rfl⟩ := Option.map_eq_some_iff.mp h
      exact .rehash hi
  | drain =>
      cases h
      exact .drain
  | drainStep k =>
      obtain ⟨pc', hpc', rfl⟩ := Option.map_eq_some_iff.mp h
      obtain ⟨pc, hk, h⟩ := Option.bind_eq_some_iff.mp hpc'
      exact .drainStep hk h
  | drainTimeout k =>
      obtain ⟨pc, hk, h⟩ := Option.bind_eq_some_iff.mp h
      split at h
      next hpc =>
        cases h
        exact .drainTimeout (hpc ▸ hk)
      next => cases h

/-! ## Ids along a run -/

theorem State.setPc_ids (s : State β) (i : Nat) (pc : JobPc β) :
    (s.setPc i pc).jobs.map (·.id) = s.jobs.map (·.id) :=
  Lib.map_modify_of_eq _ _ fun _ => rfl

theorem State.setCall_ids (s : State β) (c : Nat) (pc : SubmitPc) :
    (s.setCall c pc).calls.map (·.id) = s.calls.map (·.id) :=
  Lib.map_modify_of_eq _ _ fun _ => rfl

/-- Calls and jobs have ids of their own. -/
structure Identified (s : State β) : Prop where
  callIds : (s.calls.map (·.id)).Nodup
  jobIds : (s.jobs.map (·.id)).Nodup
  /-- A job has the id of the call that was accepted for it. -/
  accepted : ∀ id ∈ s.jobs.map (·.id), ∃ call ∈ s.calls, call.id = id ∧ call.pc = .accepted

theorem Identified.init : Identified (State.init : State β) where
  callIds := .nil
  jobIds := .nil
  accepted := by
    intro id h
    cases h

theorem Identified.of_same {s s' : State β} (hs : Identified s) (hcalls : s'.calls = s.calls)
    (hids : s'.jobs.map (·.id) = s.jobs.map (·.id)) : Identified s' where
  callIds := hcalls ▸ hs.callIds
  jobIds := hids ▸ hs.jobIds
  accepted := by
    rw [hids, hcalls]
    exact hs.accepted

/-- A call that stops waiting. -/
theorem Identified.setCall {s s' : State β} (hs : Identified s) {c : Nat} {call : SubmitCall}
    {pc : SubmitPc} (hc : s.calls[c]? = some call) (hpc : call.pc = .waiting)
    (hcalls : s'.calls = (s.setCall c pc).calls) (hjobs : s'.jobs = s.jobs) : Identified s' where
  callIds := by
    rw [hcalls, State.setCall_ids]
    exact hs.callIds
  jobIds := hjobs ▸ hs.jobIds
  accepted := by
    intro id hid
    rw [hjobs] at hid
    obtain ⟨other, hother, hoid, hacc⟩ := hs.accepted id hid
    obtain ⟨d, hd⟩ := List.mem_iff_getElem?.mp hother
    -- an accepted call is not the waiting one
    have hne : c ≠ d := by
      rintro rfl
      obtain rfl : call = other := Option.some.inj (hc.symm.trans hd)
      rw [hpc] at hacc
      cases hacc
    refine ⟨other, List.mem_of_getElem? (i := d) ?_, hoid, hacc⟩
    rw [hcalls, State.setCall, List.getElem?_modify_ne _ _ hne, hd]

/-- The id of a waiting call is new to the jobs. -/
theorem Identified.fresh {s : State β} (hs : Identified s) {c : Nat} {call : SubmitCall}
    (hc : s.calls[c]? = some call) (hpc : call.pc = .waiting) : call.id ∉ s.jobs.map (·.id) := by
  intro hmem
  obtain ⟨other, hother, hid, hacc⟩ := hs.accepted call.id hmem
  obtain ⟨d, hd⟩ := List.mem_iff_getElem?.mp hother
  have h1 : (s.calls.map (·.id))[c]? = some call.id := by simp [hc]
  have h2 : (s.calls.map (·.id))[d]? = some call.id := by simp [hd, hid]
  have hlt := (List.getElem?_eq_some_iff.mp h1).1
  obtain rfl : c = d := (List.getElem?_inj hlt hs.callIds).mp (h1.trans h2.symm)
  obtain rfl : call = other := Option.some.inj (hc.symm.trans hd)
  rw [hpc] at hacc
  cases hacc

/-- An accepted call and the job with its id. -/
theorem Identified.accept {s s' : State β} (hs : Identified s) {c : Nat} {call : SubmitCall}
    (hc : s.calls[c]? = some call) (hpc : call.pc = .waiting)
    (hcalls : s'.calls = (s.setCall c .accepted).calls)
    (hjobs : s'.jobs = s.jobs ++ [⟨call.id, .accepted⟩]) : Identified s' where
  callIds := by
    rw [hcalls, State.setCall_ids]
    exact hs.callIds
  jobIds := by
    rw [hjobs, List.map_append, List.nodup_append]
    refine ⟨hs.jobIds, by simp, ?_⟩
    intro a ha b hb
    simp only [List.map_cons, List.map_nil, List.mem_singleton] at hb
    rintro rfl
    exact hs.fresh hc hpc (hb ▸ ha)
  accepted := by
    intro id hid
    rw [hjobs, List.map_append, List.mem_append] at hid
    rcases hid with hold | hnew
    · have hset : Identified (s.setCall c .accepted) := hs.setCall hc hpc rfl rfl
      rw [hcalls]
      exact hset.accepted id hold
    · obtain rfl : id = call.id := by simpa using hnew
      refine ⟨{ call with pc := .accepted }, List.mem_of_getElem? (i := c) ?_, rfl, rfl⟩
      rw [hcalls, State.setCall, List.getElem?_modify_eq, hc]
      rfl

/-- The critical section of `submit`, with the branch it takes. -/
theorem enter_cases (cfg : JobsConfig) (s : State β) (c : Nat) (call : SubmitCall) :
    (cfg.maxAsyncJobs ≤ (s.map.retain call.now).activeCount ∧
      enter cfg s c call = State.setCall { s with map := s.map.retain call.now } c
        (.rejected (queueFull (s.map.retain call.now).activeCount cfg.maxAsyncJobs))) ∨
    ((s.map.retain call.now).activeCount < cfg.maxAsyncJobs ∧
      enter cfg s c call = State.setCall { s with
        map := ((s.map.retain call.now).evict cfg.maxAsyncJobs
          (s.map.retain call.now).length).insert call.id (.queued cfg call.now)
        jobs := s.jobs ++ [⟨call.id, .accepted⟩] } c .accepted) := by
  by_cases hfull : cfg.maxAsyncJobs ≤ (s.map.retain call.now).activeCount
  · exact Or.inl ⟨hfull, by rw [enter]; exact if_pos hfull⟩
  · exact Or.inr ⟨Nat.not_le.mp hfull, by rw [enter]; exact if_neg hfull⟩

theorem Identified.step {s s' : State β} {a : Action β} (hs : Identified s)
    (h : step cfg s a = some s') : Identified s' := by
  cases step_cases h with
  | @submit id hnew =>
      constructor
      · rw [List.map_append, List.nodup_append]
        refine ⟨hs.callIds, by simp, ?_⟩
        intro x hx y hy
        obtain ⟨call, hcall, rfl⟩ := List.mem_map.mp hx
        obtain rfl : y = id := by simpa using hy
        exact hnew call hcall
      · exact hs.jobIds
      · intro id' hid
        obtain ⟨call, hcall, hacc⟩ := hs.accepted id' hid
        exact ⟨call, List.mem_append_left _ hcall, hacc⟩
  | @enter c call hc hpc =>
      rcases enter_cases cfg s c call with ⟨-, heq⟩ | ⟨-, heq⟩
      · rw [heq]
        exact hs.setCall hc hpc rfl rfl
      · rw [heq]
        exact hs.accept hc hpc rfl rfl
  | cancel hc hpc => exact hs.setCall hc hpc rfl rfl
  | spawn hi | count hi | run hi | finish hi | uncount hi | notify hi | captured hi | panic hi _ =>
      exact hs.of_same rfl (State.setPc_ids _ _ _)
  | tick | sweep | purge _ | rehash _ | drain | drainStep _ _ | drainTimeout _ =>
      exact hs.of_same rfl rfl

/-! ## Keys of the map -/

namespace JobMap

/-- The ids the map has records for. -/
def keys (map : JobMap β) : List String := map.map Prod.fst

@[simp] theorem keys_update (map : JobMap β) (id : String) (f : JobRecord β → JobRecord β) :
    (map.update id f).keys = map.keys := by
  rw [keys, update, List.map_map, keys]
  refine List.map_congr_left fun p _ => ?_
  simp only [Function.comp_apply]
  split <;> rfl

theorem keys_sublist {map map' : JobMap β} (h : map'.Sublist map) : map'.keys.Sublist map.keys :=
  h.map Prod.fst

theorem retain_sublist (map : JobMap β) (now : Nat) : (map.retain now).Sublist map :=
  List.filter_sublist

theorem evict_sublist (max fuel : Nat) (map : JobMap β) : (map.evict max fuel).Sublist map := by
  induction fuel generalizing map with
  | zero => exact .refl _
  | succ fuel ih =>
      rw [evict]
      split
      · split
        · exact .refl _
        · exact (ih _).trans List.filter_sublist
      · exact .refl _

theorem mem_update {map : JobMap β} {id : String} {f : JobRecord β → JobRecord β}
    {q : String × JobRecord β} :
    q ∈ map.update id f ↔ ∃ p ∈ map, (if p.1 = id then (p.1, f p.2) else p) = q :=
  List.mem_map

/-- A record under a new id goes to the front, and nothing is replaced. -/
theorem insert_of_not_mem {map : JobMap β} {id : String} (h : id ∉ map.keys) (rec : JobRecord β) :
    map.insert id rec = (id, rec) :: map := by
  rw [insert, List.filter_eq_self.mpr]
  intro p hp
  have hne : p.1 ≠ id := by
    rintro rfl
    exact h (List.mem_map_of_mem hp)
  simpa using hne

end JobMap

/-- The map has at most one record for an id, and only for ids of jobs. -/
structure Keyed (s : State β) : Prop where
  ids : Identified s
  nodup : s.map.keys.Nodup
  owned : ∀ id ∈ s.map.keys, id ∈ s.jobs.map (·.id)

theorem Keyed.init : Keyed (State.init : State β) where
  ids := .init
  nodup := .nil
  owned := by
    intro id h
    cases h

/-- A map with fewer keys. -/
theorem Keyed.of_keys {s s' : State β} (hs : Keyed s) (hids : Identified s')
    (hkeys : s'.map.keys.Sublist s.map.keys) (hjobs : s'.jobs.map (·.id) = s.jobs.map (·.id)) :
    Keyed s' where
  ids := hids
  nodup := hkeys.nodup hs.nodup
  owned := by
    rw [hjobs]
    exact fun id h => hs.owned id (hkeys.subset h)

/-- The id of a waiting call has no record. -/
theorem Keyed.fresh {s : State β} (hs : Keyed s) {c : Nat} {call : SubmitCall}
    (hc : s.calls[c]? = some call) (hpc : call.pc = .waiting) : call.id ∉ s.map.keys :=
  fun h => hs.ids.fresh hc hpc (hs.owned _ h)

/-- The map after an accepted `submit`. -/
theorem Keyed.insert_room {s : State β} (hs : Keyed s) {c : Nat} {call : SubmitCall}
    (hc : s.calls[c]? = some call) (hpc : call.pc = .waiting) {room : JobMap β}
    (hroom : room.Sublist s.map) (rec : JobRecord β) :
    room.insert call.id rec = (call.id, rec) :: room := by
  refine JobMap.insert_of_not_mem ?_ rec
  exact fun h => hs.fresh hc hpc ((JobMap.keys_sublist hroom).subset h)

theorem Keyed.step {s s' : State β} {a : Action β} (hs : Keyed s) (h : step cfg s a = some s') :
    Keyed s' := by
  have hids := hs.ids.step h
  cases step_cases h with
  | @enter c call hc hpc =>
      have hret := s.map.retain_sublist call.now
      rcases enter_cases cfg s c call with ⟨-, heq⟩ | ⟨-, heq⟩
      · rw [heq] at hids ⊢
        exact hs.of_keys hids (JobMap.keys_sublist hret) rfl
      · rw [heq] at hids ⊢
        have hroom := (JobMap.evict_sublist cfg.maxAsyncJobs (s.map.retain call.now).length
          (s.map.retain call.now)).trans hret
        have hkeys := JobMap.keys_sublist hroom
        refine ⟨hids, ?_, ?_⟩
        · simp only [State.setCall, hs.insert_room hc hpc hroom]
          refine List.nodup_cons.mpr ⟨fun h => hs.fresh hc hpc (hkeys.subset h), ?_⟩
          exact hkeys.nodup hs.nodup
        · intro id hid
          simp only [State.setCall, hs.insert_room hc hpc hroom] at hid ⊢
          rw [List.map_append, List.mem_append]
          rcases List.mem_cons.mp hid with rfl | hold
          · exact Or.inr (by simp)
          · exact Or.inl (hs.owned id (hkeys.subset hold))
  | spawn hi | count hi | uncount hi | notify hi | captured hi | panic hi _ =>
      exact hs.of_keys hids (.refl _) (State.setPc_ids _ _ _)
  | run hi | finish hi =>
      refine hs.of_keys hids ?_ (State.setPc_ids _ _ _)
      simp only [State.setPc, JobMap.keys_update]
      exact .refl _
  | purge _ => exact hs.of_keys hids (JobMap.keys_sublist (s.map.retain_sublist _)) rfl
  | rehash hi =>
      obtain ⟨hlt, rfl⟩ := List.getElem?_eq_some_iff.mp hi
      have hperm := (List.getElem_cons_eraseIdx_perm hlt).map Prod.fst
      exact ⟨hids, hperm.nodup_iff.mpr hs.nodup, fun id h => hs.owned id (hperm.mem_iff.mp h)⟩
  | tick | submit _ | cancel _ _ | sweep | drain | drainStep _ _ | drainTimeout _ =>
      exact hs.of_keys hids (.refl _) rfl

end Jobs
end BrowserHeadless
