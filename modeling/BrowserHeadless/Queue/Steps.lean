/-
  BrowserHeadless.Queue.Steps

  What one step of the worker fleet can do: to Redis (`RedisStep`), to a task
  (`PcStep`), and to the entries the group has done with.  The invariants of
  the queue are derived from these, not from `step` itself.
-/

import BrowserHeadless.Queue.Worker

namespace BrowserHeadless
namespace Queue

variable {β : Type} {cfg : WorkerConfig β}

/-- What one step does to Redis. -/
inductive RedisStep (cfg : WorkerConfig β) (s : State β) (a : Action β) : Redis β → Prop where
  | same : RedisStep cfg s a s.redis
  | xadd (p : Option String) (ha : a = .xadd p) : RedisStep cfg s a (s.redis.xadd p)
  | read (count : Nat) : RedisStep cfg s a (s.redis.xreadgroup count).1
  | claim (ids : List Nat) (hids : ∀ e ∈ ids, s.redis.Pending e) :
      RedisStep cfg s a (s.redis.xautoclaim ids).1
  /-- A task writes its running marker. -/
  | mark (i : Nat) (t : Task β) (id : String) (reply : Reply) (ht : s.tasks[i]? = some t)
      (hpc : t.pc = .marking id) (ha : a = .task i reply) (heff : reply.effect = true) :
      RedisStep cfg s a (s.redis.set (cfg.resultKey id) (runningMarker id))
  /-- A task writes its result. -/
  | write (i : Nat) (t : Task β) (r : JobResult β) (ht : s.tasks[i]? = some t)
      (hpc : t.pc = .writing r) :
      RedisStep cfg s a (s.redis.set (cfg.resultKey r.id) r.stored)
  /-- A task acknowledges its entry. -/
  | xack (i : Nat) (t : Task β) (ht : s.tasks[i]? = some t) (hpc : t.pc = .acking) :
      RedisStep cfg s a (s.redis.xack t.entry)
  /-- A task deletes its entry. -/
  | xdel (i : Nat) (t : Task β) (ht : s.tasks[i]? = some t) (hpc : t.pc = .deleting) :
      RedisStep cfg s a (s.redis.xdel t.entry)

@[simp] theorem State.setPc_redis (s : State β) (i : Nat) (pc : TaskPc β) :
    (s.setPc i pc).redis = s.redis := rfl

@[simp] theorem State.setPc_written (s : State β) (i : Nat) (pc : TaskPc β) :
    (s.setPc i pc).written = s.written := rfl

@[simp] theorem State.command_tasks (s : State β) (reply : Reply) (f : Redis β → Redis β) :
    (s.command reply f).tasks = s.tasks := by
  unfold State.command
  split <;> rfl

@[simp] theorem State.command_written (s : State β) (reply : Reply) (f : Redis β → Redis β) :
    (s.command reply f).written = s.written := by
  unfold State.command
  split <;> rfl

/-- A command either changes Redis as it should or not at all. -/
theorem State.command_redis (s : State β) (reply : Reply) (f : Redis β → Redis β) :
    (reply.effect = true ∧ (s.command reply f).redis = f s.redis) ∨
    (s.command reply f).redis = s.redis := by
  unfold State.command
  split
  next h => exact Or.inl ⟨h, rfl⟩
  next => exact Or.inr rfl

theorem writeResult_redis (s : State β) (r : JobResult β) (reply : Reply) :
    (writeResult cfg s r reply).redis
      = (s.command reply fun redis => redis.set (cfg.resultKey r.id) r.stored).redis := by
  unfold writeResult
  split <;> rfl

@[simp] theorem writeResult_tasks (s : State β) (r : JobResult β) (reply : Reply) :
    (writeResult cfg s r reply).tasks = s.tasks := by
  unfold writeResult
  split <;> simp

theorem writeResult_written (s : State β) (r : JobResult β) (reply : Reply) :
    s.written ⊆ (writeResult cfg s r reply).written := by
  unfold writeResult
  split <;> simp

/-- A result write that was answered is in place and recorded. -/
theorem writeResult_ok (s : State β) (r : JobResult β) :
    writeResult cfg s r .ok
      = { s with
          redis := s.redis.set (cfg.resultKey r.id) r.stored, written := s.written ++ [r] } :=
  rfl

theorem read_redis (s : State β) (w count : Nat) (reply : Reply) :
    (read s w count reply).redis
      = (s.command reply fun r => (r.xreadgroup count).1).redis := by
  unfold read
  split <;> rfl

theorem reclaim_redis (s : State β) (w : Nat) (ids : List Nat) (reply : Reply) :
    (reclaim s w ids reply).redis
      = (s.command reply fun r => (r.xautoclaim ids).1).redis := by
  unfold reclaim
  split <;> rfl

/-- A command that is one of the effects when it is executed. -/
theorem RedisStep.of_command {s : State β} {a : Action β} {reply : Reply} {f : Redis β → Redis β}
    (h : reply.effect = true → RedisStep cfg s a (f s.redis)) :
    RedisStep cfg s a (s.command reply f).redis := by
  rcases s.command_redis reply f with ⟨heff, heq⟩ | heq
  · rw [heq]
    exact h heff
  · rw [heq]
    exact .same

theorem processOne_redis {s s' : State β} {i : Nat} {t : Task β} {reply : Reply}
    (ht : s.tasks[i]? = some t) (h : processOne cfg s i t.entry reply t.pc = some s') :
    RedisStep cfg s (.task i reply) s'.redis := by
  cases hpc : t.pc with
  | received =>
      rw [hpc] at h
      simp only [processOne] at h
      split at h <;> cases h <;> exact .same
  | marking id =>
      rw [hpc] at h
      cases h
      exact .of_command fun heff => .mark i t id reply ht hpc rfl heff
  | writing r =>
      rw [hpc] at h
      cases h
      rw [State.setPc_redis, writeResult_redis]
      exact .of_command fun _ => .write i t r ht hpc
  | acking =>
      rw [hpc] at h
      cases h
      exact .of_command fun _ => .xack i t ht hpc
  | deleting =>
      rw [hpc] at h
      cases h
      exact .of_command fun _ => .xdel i t ht hpc
  | capturing id | finished | dead =>
      rw [hpc] at h
      cases h

/-- The end of a capture touches only its task. -/
theorem captured_eq_some {s s' : State β} {i : Nat} {o : CaptureOutcome β} {pc : TaskPc β}
    (h : captured cfg s i o pc = some s') :
    ∃ id, pc = .capturing id ∧
      s' = s.setPc i (if cfg.serializes (o.result id) then .writing (o.result id) else .acking) := by
  cases pc with
  | capturing id =>
      cases h
      exact ⟨id, rfl, rfl⟩
  | _ => cases h

theorem step_redis {s s' : State β} {a : Action β} (h : step cfg s a = some s') :
    RedisStep cfg s a s'.redis := by
  cases a <;> simp only [step] at h
  case xadd p =>
    cases h
    exact .xadd p rfl
  case read w count reply =>
    cases h
    rw [read_redis]
    exact .of_command fun _ => .read count
  case reclaim w ids reply =>
    split at h
    next hall =>
      cases h
      rw [reclaim_redis]
      refine .of_command fun _ => .claim ids fun e he => ?_
      have hp := List.all_eq_true.mp hall e he
      obtain ⟨x, hx, hpend⟩ := (Option.any_eq_true _ _).mp hp
      exact ⟨x, hx, hpend⟩
    next => cases h
  case task i reply =>
    obtain ⟨t, ht, h⟩ := Option.bind_eq_some_iff.mp h
    exact processOne_redis ht h
  case captured i o =>
    obtain ⟨t, ht, h⟩ := Option.bind_eq_some_iff.mp h
    obtain ⟨id, -, rfl⟩ := captured_eq_some h
    exact .same
  case panic i =>
    obtain ⟨t, ht, h⟩ := Option.bind_eq_some_iff.mp h
    split at h <;> cases h
    exact .same
  case crash w =>
    cases h
    exact .same

/-! ## Consequences for the stream -/

theorem RedisStep.groupOk {s : State β} {a : Action β} {r : Redis β} (h : RedisStep cfg s a r)
    (hg : s.redis.GroupOk)
    (hdel : ∀ (i : Nat) (t : Task β), s.tasks[i]? = some t → t.entry < s.redis.cursor) :
    r.GroupOk := by
  -- tasks hold delivered entries, so their `XACK` and `XDEL` reach no unread one
  have hone : ∀ (i : Nat) (t : Task β), s.tasks[i]? = some t →
      ∀ e ∈ [t.entry], e < s.redis.cursor := by
    intro i t ht e he
    rw [List.mem_singleton] at he
    exact he ▸ hdel i t ht
  cases h with
  | same => exact hg
  | xadd p _ => exact hg.xadd p
  | read count => exact hg.xreadgroup count
  | claim ids hids => exact hg.modifyEntries fun e he => hg.lt_cursor (hids e he)
  | mark | write => exact ⟨hg.cursor_le, hg.unread⟩
  | xack i t ht _ | xdel i t ht _ => exact hg.modifyEntries (hone i t ht)

theorem RedisStep.cursor_le {s : State β} {a : Action β} {r : Redis β} (h : RedisStep cfg s a r)
    (hg : s.redis.GroupOk) : s.redis.cursor ≤ r.cursor := by
  cases h with
  | read count =>
      obtain ⟨n, -, -, hcur⟩ := hg.xreadgroup_eq count
      omega
  | _ => exact Nat.le_refl _

/-- The payload of a logged entry never changes. -/
theorem RedisStep.payload_eq {s : State β} {a : Action β} {r : Redis β} (h : RedisStep cfg s a r)
    {e : Nat} (he : e < s.redis.log.length) : r.payload e = s.redis.payload e := by
  cases h with
  | xadd p _ => exact s.redis.payload_xadd_of_lt p he
  | read count => exact Redis.payload_of_map (s.redis.xreadgroup_log count e) (by grind)
  -- these commands change flags only
  | claim | xack | xdel =>
      exact Redis.payload_of_map (s.redis.getElem?_modifyEntries _ _ e) (by grind)
  | same | mark | write => rfl

theorem RedisStep.jobId_eq {s : State β} {a : Action β} {r : Redis β} (h : RedisStep cfg s a r)
    {e : Nat} (he : e < s.redis.log.length) : cfg.jobId r e = cfg.jobId s.redis e := by
  rw [WorkerConfig.jobId, h.payload_eq he, WorkerConfig.jobId]

/-- An entry is settled by an acknowledging task only. -/
theorem RedisStep.settled {s : State β} {a : Action β} {r : Redis β} (h : RedisStep cfg s a r)
    (hg : s.redis.GroupOk) {e : Nat} (hs : r.Settled e) :
    s.redis.Settled e ∨
    ∃ (i : Nat) (t : Task β), s.tasks[i]? = some t ∧ t.entry = e ∧ t.pc.acknowledging = true := by
  cases h with
  | same => exact Or.inl hs
  | xadd p _ => exact Or.inl (hs.of_xadd hg)
  | read count => exact Or.inl (hs.of_xreadgroup hg)
  | claim ids hids => exact Or.inl hs.of_xautoclaim
  | mark | write => exact Or.inl hs
  | xack i t ht hpc | xdel i t ht hpc =>
      rcases hs.of_modifyEntries with hs | he
      · exact Or.inl hs
      · rw [List.mem_singleton] at he
        exact Or.inr ⟨i, t, ht, he.symm, by rw [hpc]; rfl⟩

/-! ## What a step does to a task -/

/-- How the task of entry `e` can move in one step. -/
inductive PcStep (cfg : WorkerConfig β) (s s' : State β) (e : Nat) :
    TaskPc β → TaskPc β → Prop where
  | stay (pc : TaskPc β) : PcStep cfg s s' e pc pc
  /-- The payload is missing or does not decode. -/
  | drop (h : cfg.jobId s.redis e = none) : PcStep cfg s s' e .received .acking
  | start (id : String) (h : cfg.jobId s.redis e = some id) :
      PcStep cfg s s' e .received (.marking id)
  | mark (id : String) : PcStep cfg s s' e (.marking id) (.capturing id)
  | captured (id : String) (o : CaptureOutcome β) :
      PcStep cfg s s' e (.capturing id) (.writing (o.result id))
  /-- The result does not serialize; the entry is dropped. -/
  | unserializable (id : String) (o : CaptureOutcome β)
      (h : cfg.serializes (o.result id) = false) : PcStep cfg s s' e (.capturing id) .acking
  | wrote (r : JobResult β) (hkey : s'.redis.keys (cfg.resultKey r.id) = some r.stored)
      (hwr : r ∈ s'.written) : PcStep cfg s s' e (.writing r) .acking
  | writeFailed (r : JobResult β) : PcStep cfg s s' e (.writing r) .finished
  | acked : PcStep cfg s s' e .acking .deleting
  | retained : PcStep cfg s s' e .acking .finished
  | deleted : PcStep cfg s s' e .deleting .finished
  | died (pc : TaskPc β) : PcStep cfg s s' e pc .dead

theorem State.getElem?_setPc (s : State β) (i j : Nat) (pc : TaskPc β) :
    (s.setPc i pc).tasks[j]?
      = s.tasks[j]?.map fun t => if i = j then { t with pc := pc } else t := by
  rw [State.setPc, List.getElem?_modify]
  rfl

/-- A task comes from a task that made a `PcStep`, or was spawned for a
    delivered entry. -/
def TaskStep (cfg : WorkerConfig β) (s s' : State β) (j : Nat) (t' : Task β) : Prop :=
  (∃ t, s.tasks[j]? = some t ∧ t'.entry = t.entry ∧ PcStep cfg s s' t.entry t.pc t'.pc) ∨
  (t'.pc = .received ∧ t'.entry < s'.redis.cursor)

/-- If task `i` moves and the others stay, every task made a step. -/
theorem TaskStep.of_setPc {s s' : State β} {i : Nat} {t : Task β} (pc : TaskPc β)
    (ht : s.tasks[i]? = some t) (htasks : s'.tasks = (s.setPc i pc).tasks)
    (hpc : PcStep cfg s s' t.entry t.pc pc) {j : Nat} {t' : Task β}
    (ht' : s'.tasks[j]? = some t') : TaskStep cfg s s' j t' := by
  rw [htasks, State.getElem?_setPc] at ht'
  obtain ⟨t0, ht0, rfl⟩ := Option.map_eq_some_iff.mp ht'
  refine Or.inl ⟨t0, ht0, ?_, ?_⟩
  · split <;> rfl
  · split
    next hij =>
      subst hij
      obtain rfl : t = t0 := Option.some.inj (ht.symm.trans ht0)
      exact hpc
    next => exact .stay _

/-- Tasks spawned for delivered entries, with the other tasks unchanged. -/
theorem TaskStep.of_append {s s' : State β} {w : Nat} {ids : List Nat}
    (htasks : s'.tasks = s.tasks ++ ids.map fun e => ⟨w, e, .received⟩)
    (hids : ∀ e ∈ ids, e < s'.redis.cursor) {j : Nat} {t' : Task β}
    (ht' : s'.tasks[j]? = some t') : TaskStep cfg s s' j t' := by
  rw [htasks, List.getElem?_append] at ht'
  split at ht'
  next => exact Or.inl ⟨t', ht', rfl, .stay _⟩
  next =>
    obtain ⟨e, he, rfl⟩ := List.mem_map.mp (List.mem_of_getElem? ht')
    exact Or.inr ⟨rfl, hids e he⟩

theorem TaskStep.of_same (s : State β) {s' : State β} {j : Nat} {t' : Task β}
    (ht' : s'.tasks[j]? = some t') (htasks : s'.tasks = s.tasks) : TaskStep cfg s s' j t' :=
  Or.inl ⟨t', htasks ▸ ht', rfl, .stay _⟩

theorem processOne_task {s s' : State β} {i : Nat} {t : Task β} {reply : Reply}
    (ht : s.tasks[i]? = some t) (h : processOne cfg s i t.entry reply t.pc = some s')
    {j : Nat} {t' : Task β} (ht' : s'.tasks[j]? = some t') : TaskStep cfg s s' j t' := by
  cases hpc : t.pc with
  | received =>
      rw [hpc] at h
      simp only [processOne] at h
      split at h
      next hnone =>
        cases h
        exact .of_setPc .acking ht rfl (hpc ▸ .drop hnone) ht'
      next id hid =>
        cases h
        exact .of_setPc (.marking id) ht rfl (hpc ▸ .start id hid) ht'
  | marking id =>
      rw [hpc] at h
      cases h
      refine .of_setPc (.capturing id) ht ?_ (hpc ▸ .mark id) ht'
      simp [State.setPc]
  | writing r =>
      rw [hpc] at h
      cases h
      cases reply with
      | ok =>
          -- answered: the key holds the result and the write is recorded
          refine .of_setPc .acking ht ?_ (hpc ▸ .wrote r ?_ ?_) ht'
          · simp [State.setPc]
          · exact s.redis.set_keys_self _ _
          · simp [writeResult_ok]
      | failed | lost =>
          refine .of_setPc .finished ht ?_ (hpc ▸ .writeFailed r) ht'
          simp [State.setPc]
  | acking =>
      rw [hpc] at h
      cases h
      refine .of_setPc (if cfg.deleteOnAck then .deleting else .finished) ht ?_ ?_ ht'
      · simp [State.setPc]
      · rw [hpc]
        split
        · exact .acked
        · exact .retained
  | deleting =>
      rw [hpc] at h
      cases h
      refine .of_setPc .finished ht ?_ (hpc ▸ .deleted) ht'
      simp [State.setPc]
  | capturing id | finished | dead =>
      rw [hpc] at h
      cases h

/-- A killed task is dead or what it was. -/
theorem Task.kill_step {s s' : State β} (w : Nat) (t : Task β) :
    (t.kill w).entry = t.entry ∧ PcStep cfg s s' t.entry t.pc (t.kill w).pc := by
  unfold Task.kill
  split
  · exact ⟨rfl, .died _⟩
  · exact ⟨rfl, .stay _⟩

/-- Every task of the new state made a step or was spawned. -/
theorem step_task {s s' : State β} {a : Action β} (hg : s.redis.GroupOk)
    (h : step cfg s a = some s') {j : Nat} {t' : Task β} (ht' : s'.tasks[j]? = some t') :
    TaskStep cfg s s' j t' := by
  cases a <;> simp only [step] at h
  case xadd p =>
    cases h
    exact .of_same s ht' rfl
  case read w count reply =>
    cases h
    cases reply with
    | ok =>
        -- the entries of the reply lie below the new cursor
        obtain ⟨n, -, hids, hcur⟩ := hg.xreadgroup_eq count
        refine .of_append rfl ?_ ht'
        intro e he
        rw [hids, List.mem_range'_1] at he
        change e < (s.redis.xreadgroup count).1.cursor
        omega
    | failed | lost => exact .of_same s ht' rfl
  case reclaim w ids reply =>
    split at h
    next hall =>
      cases h
      cases reply with
      | ok =>
          refine .of_append rfl ?_ ht'
          -- claimed entries are pending, so they were delivered
          intro e he
          have hp := List.all_eq_true.mp hall e (List.mem_filter.mp he).1
          exact hg.lt_cursor ((Option.any_eq_true _ _).mp hp)
      | failed | lost => exact .of_same s ht' rfl
    next => cases h
  case task i reply =>
    obtain ⟨t, ht, h⟩ := Option.bind_eq_some_iff.mp h
    exact processOne_task ht h ht'
  case captured i o =>
    obtain ⟨t, ht, h⟩ := Option.bind_eq_some_iff.mp h
    obtain ⟨id, hpc, rfl⟩ := captured_eq_some h
    refine .of_setPc _ ht rfl ?_ ht'
    rw [hpc]
    split
    · exact .captured id o
    next hser => exact .unserializable id o (by simpa using hser)
  case panic i =>
    obtain ⟨t, ht, h⟩ := Option.bind_eq_some_iff.mp h
    split at h <;> cases h
    exact .of_setPc _ ht rfl (.died _) ht'
  case crash w =>
    cases h
    simp only [List.getElem?_map] at ht'
    obtain ⟨t, ht, rfl⟩ := Option.map_eq_some_iff.mp ht'
    exact Or.inl ⟨t, ht, Task.kill_step w t⟩

/-- Recorded results stay recorded. -/
theorem step_written {s s' : State β} {a : Action β} (h : step cfg s a = some s') :
    s.written ⊆ s'.written := by
  cases a <;> simp only [step] at h
  case read w count reply =>
    cases h
    cases reply <;> exact List.Subset.refl _
  case reclaim w ids reply =>
    split at h <;> cases h
    cases reply <;> exact List.Subset.refl _
  case task i reply =>
    obtain ⟨t, -, h⟩ := Option.bind_eq_some_iff.mp h
    cases hpc : t.pc <;> rw [hpc] at h <;> simp only [processOne] at h
    case received => split at h <;> cases h <;> exact List.Subset.refl _
    case writing r =>
      cases h
      exact writeResult_written s r reply
    all_goals first
      | cases h
        simp
      | cases h
  case captured i o =>
    obtain ⟨t, -, h⟩ := Option.bind_eq_some_iff.mp h
    obtain ⟨id, -, rfl⟩ := captured_eq_some h
    exact List.Subset.refl _
  case panic i =>
    obtain ⟨t, -, h⟩ := Option.bind_eq_some_iff.mp h
    split at h <;> cases h
    exact List.Subset.refl _
  all_goals
    cases h
    exact List.Subset.refl _

/-! ## What holds in every state -/

/-- The job id a task works on. -/
def TaskPc.id? : TaskPc β → Option String
  | marking id | capturing id => some id
  | writing r => some r.id
  | _ => none

/-- What holds in every state of every run: the group has read a prefix of the
    log, tasks work on delivered entries, and under the job id of the entry. -/
structure Sound (cfg : WorkerConfig β) (s : State β) : Prop where
  group : s.redis.GroupOk
  delivered : ∀ (i : Nat) (t : Task β), s.tasks[i]? = some t → t.entry < s.redis.cursor
  ids : ∀ (i : Nat) (t : Task β) (id : String), s.tasks[i]? = some t → t.pc.id? = some id →
    cfg.jobId s.redis t.entry = some id

theorem Sound.init : Sound cfg (State.init : State β) where
  group := .empty
  delivered := by
    intro i t ht
    cases ht
  ids := by
    intro i t id ht
    cases ht

theorem Sound.lt_length {s : State β} (hs : Sound cfg s) {i : Nat} {t : Task β}
    (ht : s.tasks[i]? = some t) : t.entry < s.redis.log.length :=
  Nat.lt_of_lt_of_le (hs.delivered i t ht) hs.group.cursor_le

/-- A task keeps its job id, or takes it from its entry. -/
theorem PcStep.id?_eq {s s' : State β} {e : Nat} {pc pc' : TaskPc β} {id : String}
    (h : PcStep cfg s s' e pc pc') (hid : pc'.id? = some id) :
    pc.id? = some id ∨ cfg.jobId s.redis e = some id := by
  cases h with
  | stay => exact Or.inl hid
  | start id' hjob =>
      obtain rfl : id' = id := Option.some.inj hid
      exact Or.inr hjob
  | mark => exact Or.inl hid
  | captured id' o =>
      rw [TaskPc.id?, CaptureOutcome.result_id] at hid
      exact Or.inl hid
  | drop | unserializable | wrote | writeFailed | acked | retained | deleted | died => cases hid

theorem Sound.step {s s' : State β} {a : Action β} (hs : Sound cfg s)
    (h : step cfg s a = some s') : Sound cfg s' where
  group := (step_redis h).groupOk hs.group hs.delivered
  delivered := by
    intro i t' ht'
    rcases step_task hs.group h ht' with ⟨t, ht, hent, -⟩ | ⟨-, hlt⟩
    · rw [hent]
      exact Nat.lt_of_lt_of_le (hs.delivered i t ht) ((step_redis h).cursor_le hs.group)
    · exact hlt
  ids := by
    intro i t' id ht' hid
    rcases step_task hs.group h ht' with ⟨t, ht, hent, hpc⟩ | ⟨hpc, -⟩
    · rw [hent, (step_redis h).jobId_eq (hs.lt_length ht)]
      rcases hpc.id?_eq hid with hid | hjob
      · exact hs.ids i t id ht hid
      · exact hjob
    · rw [hpc] at hid
      cases hid

end Queue
end BrowserHeadless
