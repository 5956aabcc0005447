/-
  BrowserHeadless.Jobs.Bound

  The bound on the job map and the eviction loop of `submit`.

  src/jobs.rs: "Memory stays bounded at the same `max` records", and `active < max`
  "guarantees a completed record exists whenever the map is full".  A run of the
  loop that never takes its `break` is an `Evicts`; every accepted submit makes one
  (`evicted`), so in every reachable state the map holds at most `max` records
  (`jobStore_bounded`).
-/

import BrowserHeadless.Jobs.Admission

namespace BrowserHeadless
namespace Jobs

variable {β : Type} {cfg : JobsConfig}

/-- A run of the eviction loop that ends because the bound is met: each round
    removes the completed record created first. -/
inductive Evicts (max : Nat) : JobMap β → List (String × JobRecord β) → JobMap β → Prop where
  | done {map : JobMap β} (hroom : map.length < max) : Evicts max map [] map
  | round {map room : JobMap β} {oldest : String × JobRecord β}
      {removed : List (String × JobRecord β)} (hfull : max ≤ map.length)
      (hold : map.oldestCompleted = some oldest) (rest : Evicts max (map.remove oldest.1) removed room) :
      Evicts max map (oldest :: removed) room

/-- The eviction loop made room in `map` by removing `removed`, which leaves
    `room`. -/
structure Evicted (max : Nat) (map : JobMap β) (removed : List (String × JobRecord β))
    (room : JobMap β) : Prop where
  trace : Evicts max map removed room
  kept : (removed ++ room).Perm map
  completed : ∀ p ∈ removed, p.2.status = .done ∨ p.2.status = .error
  inOrder : removed.Pairwise fun p q => p.2.created ≤ q.2.created
  oldest : ∀ p ∈ removed, ∀ q ∈ room, q.2.status = .done ∨ q.2.status = .error →
    p.2.created ≤ q.2.created
  /-- One record more than fits goes, and none else. -/
  enough : removed.length = map.length + 1 - max

/-- What one submit does to the map: rejected, it only drops expired records;
    accepted, it evicts for room and adds one queued record. -/
def SubmitFits (cfg : JobsConfig) (s s' : State β) (call : SubmitCall) (c : Nat) : Prop :=
  ((∃ e, s'.calls[c]? = some { call with pc := .rejected e }) ∧
    s'.map = s.map.retain call.now) ∨
  (s'.calls[c]? = some { call with pc := .accepted } ∧
    ∃ removed room, Evicted cfg.maxAsyncJobs (s.map.retain call.now) removed room ∧
      s'.map = (call.id, .queued cfg call.now) :: room)

theorem JobStatus.completed_of_not_active {status : JobStatus} (h : status.active = false) :
    status = .done ∨ status = .error := by
  cases status with
  | queued | running => cases h
  | done => exact Or.inl rfl
  | error => exact Or.inr rfl

theorem JobStatus.not_active_of_completed {status : JobStatus}
    (h : status = .done ∨ status = .error) : status.active = false := by
  rcases h with rfl | rfl <;> rfl

/-! ## One round of the loop -/

namespace JobMap

/-- A map with fewer active records than records has a completed one. -/
theorem oldestCompleted_of_activeCount {map : JobMap β} (h : map.activeCount < map.length) :
    ∃ oldest, map.oldestCompleted = some oldest := by
  rw [← Option.isSome_iff_exists, Option.isSome_iff_ne_none]
  intro hnone
  rw [oldestCompleted, List.argmin_eq_none, List.filter_eq_nil_iff] at hnone
  have hall : map.activeCount = map.length :=
    List.countP_eq_length.mpr fun p hp => by simpa using hnone p hp
  omega

/-- The completed record the loop picks was created first. -/
theorem oldestCompleted_le {map : JobMap β} {oldest : String × JobRecord β}
    (h : map.oldestCompleted = some oldest) {p : String × JobRecord β} (hp : p ∈ map)
    (hdone : p.2.status.active = false) : oldest.2.created ≤ p.2.created := by
  have hmem : p ∈ map.filter fun p => !p.2.status.active :=
    List.mem_filter.mpr ⟨hp, by rw [hdone]; rfl⟩
  exact List.le_of_mem_argmin (f := fun p : String × JobRecord β => p.2.created) hmem h

/-- The record with the key of `p` is `p`. -/
theorem eq_of_key {map : JobMap β} (hkeys : map.keys.Nodup) {p q : String × JobRecord β}
    (hp : p ∈ map) (hq : q ∈ map) (h : p.1 = q.1) : p = q :=
  List.inj_on_of_nodup_map hkeys hp hq h

/-- `map.remove` takes one record out. -/
theorem remove_perm {map : JobMap β} (hkeys : map.keys.Nodup) {p : String × JobRecord β}
    (hp : p ∈ map) : (p :: map.remove p.1).Perm map := by
  have hnodup : map.Nodup := List.Nodup.of_map Prod.fst hkeys
  have hout : p ∉ map.remove p.1 := fun h => by simpa using (List.mem_filter.mp h).2
  rw [List.perm_ext_iff_of_nodup (List.nodup_cons.mpr ⟨hout, hnodup.filter _⟩) hnodup]
  intro q
  rw [List.mem_cons, remove, List.mem_filter]
  constructor
  · rintro (rfl | ⟨hq, -⟩)
    · exact hp
    · exact hq
  · intro hq
    by_cases hkey : q.1 = p.1
    · exact Or.inl (eq_of_key hkeys hq hp hkey)
    · exact Or.inr ⟨hq, by simpa using hkey⟩

theorem keys_remove {map : JobMap β} (hkeys : map.keys.Nodup) (id : String) :
    (map.remove id).keys.Nodup := (keys_sublist List.filter_sublist).nodup hkeys

theorem activeCount_remove_le (map : JobMap β) (id : String) :
    (map.remove id).activeCount ≤ map.activeCount := activeCount_le_of_sublist List.filter_sublist

end JobMap

/-! ## The loop -/

/-- With fewer active records than `max`, the loop ends at its bound. -/
theorem evicts_evict {max : Nat} {fuel : Nat} {map : JobMap β} (hkeys : map.keys.Nodup)
    (hactive : map.activeCount < max) (hfuel : map.length ≤ fuel) :
    ∃ removed, Evicts max map removed (map.evict max fuel) := by
  induction fuel generalizing map with
  | zero =>
      have hroom : map.length < max := by omega
      exact ⟨[], .done hroom⟩
  | succ fuel ih =>
      rw [JobMap.evict]
      by_cases hfull : max ≤ map.length
      · obtain ⟨oldest, hold⟩ :=
          JobMap.oldestCompleted_of_activeCount (Nat.lt_of_lt_of_le hactive hfull)
        have hperm := JobMap.remove_perm hkeys (JobMap.oldestCompleted_spec hold).1
        have hlen := hperm.length_eq
        rw [List.length_cons] at hlen
        have hless := map.activeCount_remove_le oldest.1
        obtain ⟨removed, hrest⟩ := ih (JobMap.keys_remove hkeys oldest.1)
          (Nat.lt_of_le_of_lt hless hactive) (by omega)
        rw [if_pos hfull, hold]
        exact ⟨oldest :: removed, .round hfull hold hrest⟩
      · rw [if_neg hfull]
        exact ⟨[], .done (Nat.not_le.mp hfull)⟩

/-- A run of the loop that ends at its bound has evicted as it should. -/
theorem Evicts.evicted {max : Nat} {map room : JobMap β} {removed : List (String × JobRecord β)}
    (h : Evicts max map removed room) (hkeys : map.keys.Nodup) :
    Evicted max map removed room := by
  induction h with
  | done hroom =>
      refine ⟨.done hroom, .refl _, nofun, .nil, nofun, ?_⟩
      rw [List.length_nil]
      omega
  | @round map room oldest removed hfull hold rest ih =>
      have hev := ih (JobMap.keys_remove hkeys oldest.1)
      obtain ⟨hmem, hdone⟩ := JobMap.oldestCompleted_spec hold
      have hperm := JobMap.remove_perm hkeys hmem
      -- whatever is left over is in the map, so the loop could have picked it
      have hmap : ∀ p ∈ removed ++ room, p ∈ map := fun p hp =>
        (List.mem_filter.mp (hev.kept.mem_iff.mp hp)).1
      refine ⟨.round hfull hold rest, ?_, ?_, ?_, ?_, ?_⟩
      · exact (hev.kept.cons oldest).trans hperm
      · intro p hp
        rcases List.mem_cons.mp hp with rfl | hp
        · exact JobStatus.completed_of_not_active hdone
        · exact hev.completed p hp
      · refine List.pairwise_cons.mpr ⟨?_, hev.inOrder⟩
        intro p hp
        exact JobMap.oldestCompleted_le hold (hmap p (List.mem_append_left _ hp))
          (JobStatus.not_active_of_completed (hev.completed p hp))
      · intro p hp q hq hqdone
        rcases List.mem_cons.mp hp with rfl | hp
        · exact JobMap.oldestCompleted_le hold (hmap q (List.mem_append_right _ hq))
            (JobStatus.not_active_of_completed hqdone)
        · exact hev.oldest p hp q hq hqdone
      · have hlen := hperm.length_eq
        have hrest := hev.enough
        rw [List.length_cons] at hlen ⊢
        omega

/-- After the loop there is room for one more record. -/
theorem Evicts.length_lt {max : Nat} {map room : JobMap β}
    {removed : List (String × JobRecord β)} (h : Evicts max map removed room) :
    room.length < max := by
  induction h with
  | done hroom => exact hroom
  | round _ _ _ ih => exact ih

/-! ## Along a run -/

/-- The map in every state of every run. -/
structure Bounded (cfg : JobsConfig) (s : State β) : Prop where
  keyed : Keyed s
  size : s.map.length ≤ cfg.maxAsyncJobs

theorem Bounded.init : Bounded cfg (State.init : State β) where
  keyed := .init
  size := Nat.zero_le _

/-- A submit that is not rejected runs the eviction loop to its bound. -/
theorem Bounded.accept {s : State β} (hs : Keyed s) {c : Nat} {call : SubmitCall}
    (hc : s.calls[c]? = some call) (hpc : call.pc = .waiting)
    (hactive : (s.map.retain call.now).activeCount < cfg.maxAsyncJobs) :
    ∃ removed room, Evicts cfg.maxAsyncJobs (s.map.retain call.now) removed room ∧
      Evicted cfg.maxAsyncJobs (s.map.retain call.now) removed room ∧
      ((s.map.retain call.now).evict cfg.maxAsyncJobs (s.map.retain call.now).length).insert
        call.id (.queued cfg call.now) = (call.id, .queued cfg call.now) :: room := by
  have hret := s.map.retain_sublist call.now
  have hkeys : (s.map.retain call.now).keys.Nodup := (JobMap.keys_sublist hret).nodup hs.nodup
  obtain ⟨removed, hev⟩ := evicts_evict hkeys hactive (Nat.le_refl _)
  refine ⟨removed, _, hev, hev.evicted hkeys, ?_⟩
  exact hs.insert_room hc hpc ((JobMap.evict_sublist _ _ _).trans hret) _

theorem Bounded.step {s s' : State β} {a : Action β} (hs : Bounded cfg s)
    (h : step cfg s a = some s') : Bounded cfg s' where
  keyed := hs.keyed.step h
  size := by
    have hsize := hs.size
    cases step_cases h with
    | @enter c call hc hpc =>
        rcases enter_cases cfg s c call with ⟨-, heq⟩ | ⟨hactive, heq⟩
        · rw [heq]
          exact Nat.le_trans (s.map.retain_sublist call.now).length_le hsize
        · obtain ⟨removed, room, hev, -, hmap⟩ := Bounded.accept hs.keyed hc hpc hactive
          rw [heq]
          simp only [State.setCall, hmap, List.length_cons]
          exact hev.length_lt
    | run _ | finish _ =>
        simp only [State.setPc, JobMap.update, List.length_map]
        exact hsize
    | purge _ => exact Nat.le_trans (s.map.retain_sublist _).length_le hsize
    | rehash hi =>
        obtain ⟨hlt, rfl⟩ := List.getElem?_eq_some_iff.mp hi
        exact Nat.le_trans (Nat.le_of_eq (List.getElem_cons_eraseIdx_perm hlt).length_eq) hsize
    | tick | submit _ | cancel _ _ | spawn _ | count _ | uncount _ | notify _ | captured _
    | panic _ _ | sweep | drain | drainStep _ _ | drainTimeout _ => exact hsize

/-- In every reachable state the map holds at most `max_async_jobs` records, and
    a submit that gets the lock there drops expired records, evicts no more than it
    has to, or is rejected. -/
theorem jobStore_bounded (cfg : JobsConfig) (s : State β) (h : (system cfg).Reachable s) :
    s.map.length ≤ cfg.maxAsyncJobs ∧
    ∀ (c : Nat) (call : SubmitCall) (s' : State β), s.calls[c]? = some call →
      step cfg s (.enter c) = some s' → SubmitFits cfg s s' call c := by
  have hs : Bounded cfg s := Lib.System.reachable_invariant (M := system cfg) (Bounded cfg) .init
    (fun s a s' hs h => hs.step h) h
  refine ⟨hs.size, ?_⟩
  intro c call s' hc hstep
  cases step_cases hstep with
  | @enter _ call' hc' hpc =>
      obtain rfl := Option.some.inj (hc.symm.trans hc')
      rcases enter_cases cfg s c call with ⟨-, heq⟩ | ⟨hactive, heq⟩
      · left
        rw [heq]
        refine ⟨⟨queueFull (s.map.retain call.now).activeCount cfg.maxAsyncJobs, ?_⟩, rfl⟩
        rw [State.setCall, List.getElem?_modify_eq, hc]
        rfl
      · obtain ⟨removed, room, -, hev, hmap⟩ := Bounded.accept hs.keyed hc hpc hactive
        right
        rw [heq]
        refine ⟨?_, removed, room, hev, hmap⟩
        rw [State.setCall, List.getElem?_modify_eq, hc]
        rfl

/-- A job is submitted, runs and ends within its TTL. -/
def quickJob : List (Action Unit) :=
  [.submit "job-1", .enter 0, .job 0, .job 0, .job 0, .captured 0 (.ok (.ok ())), .job 0, .job 0]

/-- A job has ended, and a second submit waits for the lock of the full map. -/
def secondWaits : List (Action Unit) := quickJob ++ [.submit "job-2"]

/-- The second submit of `secondWaits` evicts the record of the first. -/
theorem jobStore_bounded_second :
    ∃ s : State Unit, (system oneJob).Reachable s ∧ s.map.length ≤ 1 ∧
      ∃ s', step oneJob s (.enter 1) = some s' ∧ SubmitFits oneJob s s' ⟨"job-2", 0, .waiting⟩ 1 := by
  have hreach : (system oneJob).Reachable
      (((system oneJob).exec State.init secondWaits).get (by rfl)) :=
    ⟨secondWaits, (Option.some_get _).symm⟩
  have hbounded := jobStore_bounded oneJob _ hreach
  exact ⟨_, hreach, hbounded.1, _, rfl, hbounded.2 1 _ _ rfl rfl⟩

end Jobs
end BrowserHeadless
