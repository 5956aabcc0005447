/-
  BrowserHeadless.Queue.AtLeastOnce

  At-least-once processing.  An entry with a decodable payload leaves the
  pending list only behind a result: whatever crashes, fails or loses its
  reply, it is undelivered, pending, or its result was written.
-/

import BrowserHeadless.Queue.Steps

namespace BrowserHeadless
namespace Queue

variable {β : Type} {cfg : WorkerConfig β}

/-- A terminal result of job `id` was written. -/
def State.ResultWritten (s : State β) (id : String) : Prop :=
  ∃ r ∈ s.written, r.id = id ∧ r.stored.terminal = true

/-- What the group is done with, or what a task is about to acknowledge, has a
    written result. -/
structure Recorded (cfg : WorkerConfig β) (s : State β) : Prop where
  settled : ∀ (e : Nat) (id : String), cfg.jobId s.redis e = some id → s.redis.Settled e →
    s.ResultWritten id
  acking : ∀ (i : Nat) (t : Task β) (id : String), s.tasks[i]? = some t →
    t.pc.acknowledging = true → cfg.jobId s.redis t.entry = some id → s.ResultWritten id

theorem Recorded.init : Recorded cfg (State.init : State β) where
  settled := by
    rintro e id - ⟨x, hx, -⟩
    cases hx
  acking := by
    intro i t id ht
    cases ht

theorem State.ResultWritten.mono {s s' : State β} {id : String} (h : s.ResultWritten id)
    (hsub : s.written ⊆ s'.written) : s'.ResultWritten id := by
  obtain ⟨r, hr, hid, hterm⟩ := h
  exact ⟨r, hsub hr, hid, hterm⟩

/-- A task starts to acknowledge a decodable entry only behind its result. -/
theorem PcStep.resultWritten {s s' : State β} {e : Nat} {pc pc' : TaskPc β} {id : String}
    (h : PcStep cfg s s' e pc pc') (hser : ∀ r, cfg.serializes r = true)
    (hjob : cfg.jobId s.redis e = some id)
    (hpcid : ∀ id', pc.id? = some id' → cfg.jobId s.redis e = some id')
    (hack : pc'.acknowledging = true) : pc.acknowledging = true ∨ s'.ResultWritten id := by
  cases h with
  | stay => exact Or.inl hack
  -- the payload decodes, so the task does not drop the entry
  | drop hnone =>
      rw [hjob] at hnone
      cases hnone
  -- results serialize, so neither does the end of the capture
  | unserializable id' o hfail =>
      rw [hser] at hfail
      cases hfail
  | wrote r hkey hwr =>
      have hid := hpcid r.id rfl
      rw [hjob] at hid
      exact Or.inr ⟨r, hwr, (Option.some.inj hid).symm, rfl⟩
  | acked => exact Or.inl rfl
  | start | mark | captured | writeFailed | retained | deleted | died => cases hack

theorem Recorded.step {s s' : State β} {a : Action β} (hser : ∀ r, cfg.serializes r = true)
    (hs : Sound cfg s) (hr : Recorded cfg s) (h : step cfg s a = some s') : Recorded cfg s' where
  settled := by
    intro e id hjob hset
    -- settled before, or settled now by a task that acknowledges
    rcases (step_redis h).settled hs.group hset with hold | ⟨i, t, ht, rfl, hack⟩
    · have hlt : e < s.redis.log.length := by
        obtain ⟨x, hx, -⟩ := hold
        exact (List.getElem?_eq_some_iff.mp hx).1
      rw [(step_redis h).jobId_eq hlt] at hjob
      exact (hr.settled e id hjob hold).mono (step_written h)
    · rw [(step_redis h).jobId_eq (hs.lt_length ht)] at hjob
      exact (hr.acking i t id ht hack hjob).mono (step_written h)
  acking := by
    intro i t' id ht' hack hjob
    rcases step_task hs.group h ht' with ⟨t, ht, hent, hpc⟩ | ⟨hpc, -⟩
    · rw [hent, (step_redis h).jobId_eq (hs.lt_length ht)] at hjob
      rcases hpc.resultWritten hser hjob (fun id' => hs.ids i t id' ht) hack with hold | hwr
      · exact (hr.acking i t id ht hold hjob).mono (step_written h)
      · exact hwr
    · rw [hpc] at hack
      cases hack

/-- In every reachable state an entry with a decodable payload is undelivered,
    pending, or has a terminal result written under its job id; and an entry
    that was delivered and is no longer pending without such a result has a
    payload that is missing or does not decode. -/
theorem atLeastOnce (cfg : WorkerConfig β) (hser : ∀ r, cfg.serializes r = true) (s : State β)
    (hreach : (system cfg).Reachable s) :
    (∀ (e : Nat) (id : String), cfg.jobId s.redis e = some id →
      s.redis.cursor ≤ e ∨ s.redis.Pending e ∨ s.ResultWritten id) ∧
    (∀ e : Nat, e < s.redis.cursor → ¬ s.redis.Pending e →
      (∀ id, cfg.jobId s.redis e = some id → ¬ s.ResultWritten id) →
      s.redis.payload e = none ∨ ∃ p, s.redis.payload e = some p ∧ cfg.decode p = none) := by
  have hinv : Sound cfg s ∧ Recorded cfg s :=
    Lib.System.reachable_invariant (fun s => Sound cfg s ∧ Recorded cfg s) ⟨.init, .init⟩
      (fun s a s' hi h => ⟨hi.1.step h, hi.2.step hser hi.1 h⟩) hreach
  obtain ⟨hs, hr⟩ := hinv
  -- a delivered entry that is not pending is settled
  have hwritten : ∀ (e : Nat) (id : String), e < s.redis.cursor → ¬ s.redis.Pending e →
      cfg.jobId s.redis e = some id → s.ResultWritten id := by
    intro e id hcur hpend hjob
    have hlt : e < s.redis.log.length := Nat.lt_of_lt_of_le hcur hs.group.cursor_le
    have hx := List.getElem?_eq_getElem hlt
    refine hr.settled e id hjob ⟨_, hx, hcur, Or.inl ?_⟩
    by_contra hne
    exact hpend ⟨_, hx, by simpa using hne⟩
  refine ⟨?_, ?_⟩
  · intro e id hjob
    by_cases hcur : s.redis.cursor ≤ e
    · exact Or.inl hcur
    · by_cases hpend : s.redis.Pending e
      · exact Or.inr (Or.inl hpend)
      · exact Or.inr (Or.inr (hwritten e id (by omega) hpend hjob))
  · intro e hcur hpend hno
    cases hp : s.redis.payload e with
    | none => exact Or.inl rfl
    | some p =>
        refine Or.inr ⟨p, rfl, ?_⟩
        by_contra hne
        obtain ⟨job, hjob⟩ := Option.ne_none_iff_exists'.mp hne
        have hid : cfg.jobId s.redis e = some (job.id.getD (cfg.entryId e)) := by
          simp [WorkerConfig.jobId, hp, hjob]
        exact hno _ hid (hwritten e _ hcur hpend hid)

/-- One job, read by one worker that dies after its result write. -/
def diesBeforeAck : List (Action Unit) :=
  [.xadd (some samplePayload), .read 0 1 .ok, .task 0 .ok, .task 0 .failed,
    .captured 0 (.ok (.ok ())), .task 0 .ok, .crash 0]

/-- The state `diesBeforeAck` ends in: the entry is still pending. -/
def diedBeforeAck : State Unit where
  redis := (Redis.set ⟨[⟨some samplePayload, true, true⟩], 1, fun _ => none⟩
    (sampleConfig.resultKey "job-1") ⟨"job-1", none, some 200, some (), none⟩)
  tasks := [⟨0, 0, .dead⟩]
  written := [⟨"job-1", 200, some (), none⟩]

/-- `atLeastOnce` at `diedBeforeAck`. -/
theorem atLeastOnce_diedBeforeAck :
    (system sampleConfig).Reachable diedBeforeAck ∧
    (∀ (e : Nat) (id : String), sampleConfig.jobId diedBeforeAck.redis e = some id →
      diedBeforeAck.redis.cursor ≤ e ∨ diedBeforeAck.redis.Pending e ∨
        diedBeforeAck.ResultWritten id) := by
  have hreach : (system sampleConfig).Reachable diedBeforeAck := ⟨diesBeforeAck, rfl⟩
  exact ⟨hreach, (atLeastOnce sampleConfig (fun _ => rfl) diedBeforeAck hreach).1⟩

end Queue
end BrowserHeadless
