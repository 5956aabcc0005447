/-
  BrowserHeadless.Queue.ResultKept

  Whether a terminal result can be lost.  src/worker.rs writes the running
  marker of a job unconditionally and argues that "pollers transiently see
  `running`, never lose the final result", since the task that wrote the marker
  writes its own result later.

  It may die first.  When the marker lands on a result whose entry is already
  acknowledged, or is about to be, nobody reclaims the entry and the result is
  gone.  `resultKept_iff` says that this is the only way.
-/

import BrowserHeadless.Queue.Steps

namespace BrowserHeadless
namespace Queue

variable {β : Type} {cfg : WorkerConfig β}

/-- The result key of job `id` holds a terminal result. -/
def HasResult (cfg : WorkerConfig β) (r : Redis β) (id : String) : Prop :=
  ∃ doc, r.keys (cfg.resultKey id) = some doc ∧ doc.terminal = true

/-- No two decodable entries carry one job id. -/
def DistinctJobs (cfg : WorkerConfig β) (s : State β) : Prop :=
  ∀ (e e' : Nat) (id : String),
    cfg.jobId s.redis e = some id → cfg.jobId s.redis e' = some id → e = e'

/-- A delivered entry that has left the stream or the pending list and that no
    live task works on has a terminal result. -/
def ResultKept (cfg : WorkerConfig β) (s : State β) : Prop :=
  ∀ (e : Nat) (id : String), cfg.jobId s.redis e = some id → s.redis.Settled e →
    (∀ t ∈ s.tasks, t.entry = e → t.pc.live = false) → HasResult cfg s.redis id

/-- Steps by which the tasks at hand wind up: they die, or they acknowledge what
    they are about to acknowledge. -/
def Winding (s : State β) (a : Action β) : Prop :=
  (∃ w, a = .crash w) ∨ (∃ i, a = .panic i) ∨
  ∃ (i : Nat) (t : Task β),
    a = .task i .ok ∧ s.tasks[i]? = some t ∧ t.pc.acknowledging = true

/-- Results are kept, also if from here on the tasks only wind up. -/
def StaysKept (cfg : WorkerConfig β) (s : State β) : Prop :=
  ∀ (bs : List (Action β)) (t : State β),
    (system cfg).Guarded Winding s bs → (system cfg).exec s bs = some t → ResultKept cfg t

/-- The group is done with entry `e`, or a task is about to acknowledge it. -/
def Closing (s : State β) (e : Nat) : Prop :=
  s.redis.Settled e ∨
  ∃ (i : Nat) (t : Task β), s.tasks[i]? = some t ∧ t.entry = e ∧ t.pc.acknowledging = true

/-- A running marker replaces a terminal result only while the entry is in the
    stream, pending, and not about to be acknowledged by another task. -/
def MarksNoResult (cfg : WorkerConfig β) (s : State β) (a : Action β) : Prop :=
  ∀ (i : Nat) (t : Task β) (id : String) (reply : Reply),
    a = .task i reply → s.tasks[i]? = some t → t.pc = .marking id → reply.effect = true →
      HasResult cfg s.redis id → ¬ Closing s t.entry

/-- The invariant: every closing entry has its terminal result. -/
def Backed (cfg : WorkerConfig β) (s : State β) : Prop :=
  ∀ (e : Nat) (id : String),
    cfg.jobId s.redis e = some id → Closing s e → HasResult cfg s.redis id

/-! ## The invariant and the guard -/

theorem Closing.lt_length {s : State β} (hs : Sound cfg s) {e : Nat} (h : Closing s e) :
    e < s.redis.log.length := by
  rcases h with ⟨x, hx, -⟩ | ⟨i, t, ht, rfl, -⟩
  · exact (List.getElem?_eq_some_iff.mp hx).1
  · exact hs.lt_length ht

/-- An entry closes by an answered result write, or was closing before. -/
theorem Closing.before {s s' : State β} {a : Action β} {e : Nat} {id : String}
    (hser : ∀ r, cfg.serializes r = true) (hs : Sound cfg s) (h : step cfg s a = some s')
    (hjob : cfg.jobId s'.redis e = some id) (hc : Closing s' e) :
    (Closing s e ∧ cfg.jobId s.redis e = some id) ∨ HasResult cfg s'.redis id := by
  have hold : Closing s e → (Closing s e ∧ cfg.jobId s.redis e = some id) := fun hc =>
    ⟨hc, by rwa [(step_redis h).jobId_eq (hc.lt_length hs)] at hjob⟩
  rcases hc with hset | ⟨i, t', ht', rfl, hack⟩
  · exact Or.inl (hold ((step_redis h).settled hs.group hset))
  · rcases step_task hs.group h ht' with ⟨t, ht, hent, hpc⟩ | ⟨hrec, -⟩
    · rw [hent] at hold hjob ⊢
      have hjob0 := hjob
      rw [(step_redis h).jobId_eq (hs.lt_length ht)] at hjob0
      -- one case for each move that can end in an acknowledging task
      generalize hpc0 : t.pc = pc at hpc
      generalize t'.pc = pc' at hpc hack
      cases hpc with
      | stay => exact Or.inl (hold (Or.inr ⟨i, t, ht, rfl, hpc0 ▸ hack⟩))
      | drop hnone =>
          rw [hjob0] at hnone
          cases hnone
      | unserializable id' o hfail =>
          rw [hser] at hfail
          cases hfail
      | wrote r hkey _ =>
          have hid := hs.ids i t r.id ht (by rw [hpc0]; rfl)
          rw [hjob0] at hid
          obtain rfl : id = r.id := Option.some.inj hid
          exact Or.inr ⟨r.stored, hkey, rfl⟩
      | acked => exact Or.inl (hold (Or.inr ⟨i, t, ht, rfl, hpc0 ▸ rfl⟩))
      | start | mark | captured | writeFailed | retained | deleted | died => cases hack
    · rw [hrec] at hack
      cases hack

/-- A key keeps its terminal result, unless a running marker is written to it. -/
theorem HasResult.after {s : State β} {a : Action β} {r : Redis β} {id : String}
    (h : RedisStep cfg s a r)
    (hmark : ∀ (i : Nat) (t : Task β) (reply : Reply), a = .task i reply →
      s.tasks[i]? = some t → t.pc = .marking id → reply.effect = true → False)
    (hres : HasResult cfg s.redis id) : HasResult cfg r id := by
  cases h with
  | mark i t id' reply ht hpc ha heff =>
      obtain ⟨doc, hdoc, hterm⟩ := hres
      refine ⟨doc, ?_, hterm⟩
      rw [Redis.set_keys_ne, hdoc]
      intro hkey
      obtain rfl := cfg.resultKey_injective hkey
      exact hmark i t reply ha ht hpc heff
  | write i t res ht hpc =>
      obtain ⟨doc, hdoc, hterm⟩ := hres
      -- a result over a result: either way the key stays terminal
      by_cases hkey : cfg.resultKey id = cfg.resultKey res.id
      · exact ⟨res.stored, by rw [hkey, Redis.set_keys_self], rfl⟩
      · exact ⟨doc, by rw [Redis.set_keys_ne _ _ hkey, hdoc], hterm⟩
  | _ => exact hres

/-- `Backed` is kept by a step that marks no closing entry. -/
theorem Backed.step_of {s s' : State β} {a : Action β} (hser : ∀ r, cfg.serializes r = true)
    (hs : Sound cfg s) (hb : Backed cfg s) (h : step cfg s a = some s')
    (hmark : ∀ (i : Nat) (t : Task β) (id : String) (reply : Reply), a = .task i reply →
      s.tasks[i]? = some t → t.pc = .marking id → reply.effect = true →
      ∀ e, cfg.jobId s.redis e = some id → ¬ Closing s e) : Backed cfg s' := by
  intro e id hjob hc
  rcases hc.before hser hs h hjob with ⟨hc, hjob⟩ | hres
  · refine HasResult.after (step_redis h) ?_ (hb e id hjob hc)
    intro i t reply ha ht hpc heff
    exact hmark i t id reply ha ht hpc heff e hjob hc
  · exact hres

theorem Backed.step {s s' : State β} {a : Action β} (hser : ∀ r, cfg.serializes r = true)
    (hs : Sound cfg s) (hdist : DistinctJobs cfg s) (hb : Backed cfg s)
    (hG : MarksNoResult cfg s a) (h : step cfg s a = some s') : Backed cfg s' := by
  refine hb.step_of hser hs h ?_
  intro i t id reply ha ht hpc heff e hjob hc
  -- job ids are distinct, so the marking task works on `e` itself
  have hent : t.entry = e := hdist _ _ id (hs.ids i t id ht (by rw [hpc]; rfl)) hjob
  exact hG i t id reply ha ht hpc heff (hb e id hjob hc) (hent ▸ hc)

/-- A marker over the result of a closing entry leaves it without a result. -/
theorem marksNoResult_of_backed {s s' : State β} {a : Action β} (hs : Sound cfg s)
    (h : step cfg s a = some s') (hb : Backed cfg s') : MarksNoResult cfg s a := by
  rintro i t id reply rfl ht hpc heff - hc
  have hjob := hs.ids i t id ht (by rw [hpc]; rfl)
  obtain ⟨t0, ht0, h⟩ := Option.bind_eq_some_iff.mp h
  obtain rfl : t = t0 := Option.some.inj (ht.symm.trans ht0)
  rw [hpc] at h
  cases h
  have hredis : ((s.command reply fun r => r.set (cfg.resultKey id) (runningMarker id)).setPc i
      (.capturing id)).redis = s.redis.set (cfg.resultKey id) (runningMarker id) := by
    simp [State.command, heff]
  have hclosing : Closing ((s.command reply fun r =>
      r.set (cfg.resultKey id) (runningMarker id)).setPc i (.capturing id)) t.entry := by
    rcases hc with hset | ⟨j, u, hu, hent, hack⟩
    · exact Or.inl (by rw [hredis]; exact hset)
    · refine Or.inr ⟨j, u, ?_, hent, hack⟩
      -- the task that marks is not the one that acknowledges
      have hij : i ≠ j := by
        rintro rfl
        obtain rfl : t = u := Option.some.inj (ht.symm.trans hu)
        rw [hpc] at hack
        cases hack
      rw [State.getElem?_setPc, State.command_tasks, hu, Option.map_some, if_neg hij]
  obtain ⟨doc, hdoc, hterm⟩ := hb t.entry id (by rw [hredis]; exact hjob) hclosing
  rw [hredis, Redis.set_keys_self] at hdoc
  cases hdoc
  cases hterm

/-! ## Winding up -/

theorem Task.kill_worker (w : Nat) (t : Task β) : (t.kill w).worker = t.worker := by
  unfold Task.kill
  split <;> rfl

theorem Task.kill_not_live {w : Nat} {t : Task β} (h : t.worker = w ∨ t.pc.live = false) :
    (t.kill w).pc.live = false := by
  unfold Task.kill
  split
  next => rfl
  next hno =>
    rcases h with hw | hl
    · simpa [hw] using hno
    · exact hl

/-- The task after the workers `ws` died. -/
def Task.killAll (ws : List Nat) (t : Task β) : Task β := ws.foldl (fun t w => t.kill w) t

theorem Task.killAll_not_live {ws : List Nat} {t : Task β}
    (h : t.worker ∈ ws ∨ t.pc.live = false) : (t.killAll ws).pc.live = false := by
  induction ws generalizing t with
  | nil =>
      rcases h with h | h
      · cases h
      · exact h
  | cons w ws ih =>
      refine ih (t := t.kill w) ?_
      rw [Task.kill_worker]
      rcases h with h | h
      · rcases List.mem_cons.mp h with hw | hmem
        · exact Or.inr (Task.kill_not_live (Or.inl hw))
        · exact Or.inl hmem
      · exact Or.inr (Task.kill_not_live (Or.inr h))

/-- The workers `ws` die one after the other. -/
theorem exec_crashes (s : State β) (ws : List Nat) :
    (system cfg).exec s (ws.map .crash) = some { s with tasks := s.tasks.map (Task.killAll ws) } := by
  induction ws generalizing s with
  | nil =>
      have hid : (Task.killAll [] : Task β → Task β) = id := rfl
      simp [hid]
  | cons w ws ih =>
      rw [List.map_cons, Lib.System.exec_cons]
      change (system cfg).exec { s with tasks := s.tasks.map (Task.kill w) } _ = _
      rw [ih, List.map_map]
      rfl

/-- When all workers die, what the group is done with is all that is left. -/
theorem StaysKept.hasResult {s : State β} (h : StaysKept cfg s) {e : Nat} {id : String}
    (hjob : cfg.jobId s.redis e = some id) (hset : s.redis.Settled e) :
    HasResult cfg s.redis id := by
  have hguard : (system cfg).Guarded Winding s
      ((s.tasks.map (·.worker)).map Action.crash) := by
    refine Lib.System.Guarded.of_forall fun a ha _ => Or.inl ?_
    obtain ⟨w, -, rfl⟩ := List.mem_map.mp ha
    exact ⟨w, rfl⟩
  refine h _ _ hguard (exec_crashes s _) e id hjob hset ?_
  intro t ht _
  obtain ⟨u, hu, rfl⟩ := List.mem_map.mp ht
  exact Task.killAll_not_live (Or.inl (List.mem_map_of_mem hu))

/-- A winding step marks nothing. -/
theorem Winding.not_marking {s : State β} {a : Action β} (h : Winding s a) {i : Nat} {t : Task β}
    {id : String} {reply : Reply} (ha : a = .task i reply) (ht : s.tasks[i]? = some t)
    (hpc : t.pc = .marking id) : False := by
  rcases h with ⟨w, rfl⟩ | ⟨j, rfl⟩ | ⟨j, u, rfl, hu, hack⟩
  · cases ha
  · cases ha
  · cases ha
    obtain rfl : t = u := Option.some.inj (ht.symm.trans hu)
    rw [hpc] at hack
    cases hack

/-- The next step of an acknowledging task settles its entry and leaves the
    keys. -/
theorem acknowledge_step {s : State β} (hs : Sound cfg s) {i : Nat} {t : Task β}
    (ht : s.tasks[i]? = some t) (hack : t.pc.acknowledging = true) :
    ∃ s', step cfg s (.task i .ok) = some s' ∧ s'.redis.Settled t.entry ∧
      s'.redis.keys = s.redis.keys := by
  have hlt := hs.lt_length ht
  have hset : ∀ f : Entry → Entry, (∀ x, (f x).pending = false ∨ (f x).inStream = false) →
      (s.redis.modifyEntries [t.entry] f).Settled t.entry := by
    intro f hf
    refine ⟨f s.redis.log[t.entry], ?_, hs.delivered i t ht, hf _⟩
    rw [Redis.getElem?_modifyEntries, List.getElem?_eq_getElem hlt]
    simp
  cases hpc : t.pc with
  | acking =>
      refine ⟨(s.command .ok fun r => r.xack t.entry).setPc i
        (if cfg.deleteOnAck then .deleting else .finished), ?_,
        hset (fun x => { x with pending := false }) fun _ => Or.inl rfl, rfl⟩
      simp only [step, ht, Option.bind_some, hpc, processOne]
  | deleting =>
      refine ⟨(s.command .ok fun r => r.xdel t.entry).setPc i .finished, ?_,
        hset (fun x => { x with inStream := false }) fun _ => Or.inr rfl, rfl⟩
      simp only [step, ht, Option.bind_some, hpc, processOne]
  | received | marking | capturing | writing | finished | dead =>
      rw [hpc] at hack
      cases hack

/-- The invariant is what it takes for results to stay kept. -/
theorem backed_iff_staysKept {s : State β} (hser : ∀ r, cfg.serializes r = true)
    (hs : Sound cfg s) : Backed cfg s ↔ StaysKept cfg s := by
  constructor
  · intro hb bs t hguard hrun
    -- winding steps mark nothing, so the invariant goes on
    have hboth : (system cfg).Along (fun s => Sound cfg s ∧ Backed cfg s) s bs := by
      refine Lib.System.along_of_invariant _ Winding ?_ ⟨hs, hb⟩ hguard
      intro s a s' hi hw h
      refine ⟨hi.1.step h, hi.2.step_of hser hi.1 h ?_⟩
      intro i t id reply ha ht hpc
      exact (hw.not_marking ha ht hpc).elim
    intro e id hjob hset _
    exact (hboth.last hrun).2 e id hjob (Or.inl hset)
  · intro h e id hjob hc
    -- a settled entry is judged after all workers died; one about to be
    -- acknowledged is first settled by that acknowledgement
    rcases hc with hset | ⟨i, t, ht, rfl, hack⟩
    · exact h.hasResult hjob hset
    · obtain ⟨s', hstep, hset, hkeys⟩ := acknowledge_step hs ht hack
      have h' : StaysKept cfg s' := by
        intro bs u hguard hrun
        refine h (.task i .ok :: bs) u ⟨Or.inr (Or.inr ⟨i, t, rfl, ht, hack⟩), ?_⟩ ?_
        · intro s'' hs''
          obtain rfl : s' = s'' := Option.some.inj (hstep.symm.trans hs'')
          exact hguard
        · exact Lib.System.exec_cons_eq_some _ |>.mpr ⟨s', hstep, hrun⟩
      have hjob' : cfg.jobId s'.redis t.entry = some id := by
        rw [(step_redis hstep).jobId_eq (hs.lt_length ht)]
        exact hjob
      obtain ⟨doc, hdoc, hterm⟩ := h'.hasResult hjob' hset
      exact ⟨doc, hkeys ▸ hdoc, hterm⟩

/-! ## Runs -/

/-- Distinct job ids are inherited backwards: the log only grows. -/
theorem DistinctJobs.before {s s' : State β} {a : Action β} (h : step cfg s a = some s')
    (hdist : DistinctJobs cfg s') : DistinctJobs cfg s := by
  have hkeep : ∀ (e : Nat) (id : String), cfg.jobId s.redis e = some id →
      cfg.jobId s'.redis e = some id := by
    intro e id hjob
    have hlt : e < s.redis.log.length := by
      by_contra hle
      simp [WorkerConfig.jobId, Redis.payload, List.getElem?_eq_none (Nat.not_lt.mp hle)] at hjob
    rwa [(step_redis h).jobId_eq hlt]
  intro e e' id hjob hjob'
  exact hdist e e' id (hkeep e id hjob) (hkeep e' id hjob')

/-- Along a run with distinct job ids, results stay kept from every state on if
    and only if no running marker replaces the result of a closing entry; and
    along such a run results are kept. -/
theorem resultKept_iff (cfg : WorkerConfig β) (hser : ∀ r, cfg.serializes r = true)
    (as : List (Action β)) (t : State β) (hrun : (system cfg).exec State.init as = some t)
    (hdist : DistinctJobs cfg t) :
    ((system cfg).Along (StaysKept cfg) State.init as ↔
      (system cfg).Guarded (MarksNoResult cfg) State.init as) ∧
    ((system cfg).Guarded (MarksNoResult cfg) State.init as →
      (system cfg).Along (ResultKept cfg) State.init as) := by
  have hbacked : (system cfg).Along (Backed cfg) State.init as ↔
      (system cfg).Guarded (MarksNoResult cfg) State.init as := by
    refine Lib.System.along_iff_guarded (Sound cfg) (DistinctJobs cfg)
      (fun s a s' hs h => hs.step h)
      (fun s a s' hs hd hb hG h => hb.step hser hs (hd.before h) hG h)
      (fun s a s' hs _ h hb => marksNoResult_of_backed hs h hb)
      .init ?_ hrun
      (Lib.System.along_of_last _ (fun s a s' h hd => hd.before h) hrun hdist)
    -- before the first step nothing is closing
    rintro e id hjob
    cases hjob
  have hsound : (system cfg).Along (Sound cfg) State.init as :=
    Lib.System.along_of_invariant _ (fun _ _ => True) (fun s a s' hs _ h => hs.step h) .init
      (.trivial _ _)
  -- in sound states the invariant says the same as staying kept
  have hstays : (system cfg).Along (StaysKept cfg) State.init as ↔
      (system cfg).Along (Backed cfg) State.init as :=
    ⟨hsound.combine fun _ hs h => (backed_iff_staysKept hser hs).mpr h,
      hsound.combine fun _ hs h => (backed_iff_staysKept hser hs).mp h⟩
  refine ⟨hstays.trans hbacked, fun hG => ?_⟩
  exact (hstays.mpr (hbacked.mpr hG)).mono fun s h => h [] s True.intro rfl

/-- One worker processes a job without a second one reclaiming it. -/
def oneWorker : List (Action Unit) :=
  [.xadd (some samplePayload), .read 0 1 .ok, .task 0 .ok, .task 0 .ok,
    .captured 0 (.ok (.ok ())), .task 0 .ok, .task 0 .ok, .task 0 .ok]

/-- The state `oneWorker` ends in. -/
def oneWorkerDone : State Unit where
  redis := Redis.set (Redis.set ⟨[⟨some samplePayload, false, false⟩], 1, fun _ => none⟩
    (sampleConfig.resultKey "job-1") (runningMarker "job-1"))
    (sampleConfig.resultKey "job-1") ⟨"job-1", none, some 200, some (), none⟩
  tasks := [⟨0, 0, .finished⟩]
  written := [⟨"job-1", 200, some (), none⟩]

/-- With one entry in the log, job ids are distinct. -/
theorem distinctJobs_of_length_one {s : State β} (h : s.redis.log.length = 1) :
    DistinctJobs cfg s := by
  have hzero : ∀ (e : Nat) (id : String), cfg.jobId s.redis e = some id → e = 0 := by
    intro e id hjob
    by_contra hne
    have hle : s.redis.log.length ≤ e := by omega
    simp [WorkerConfig.jobId, Redis.payload, List.getElem?_eq_none hle] at hjob
  intro e e' id he he'
  rw [hzero e id he, hzero e' id he']

/-- `oneWorker` is a run the equivalence is about. -/
theorem resultKept_iff_oneWorker :
    (system sampleConfig).exec State.init oneWorker = some oneWorkerDone ∧
    ((system sampleConfig).Along (StaysKept sampleConfig) State.init oneWorker ↔
      (system sampleConfig).Guarded (MarksNoResult sampleConfig) State.init oneWorker) := by
  have hrun : (system sampleConfig).exec State.init oneWorker = some oneWorkerDone := rfl
  exact ⟨hrun, (resultKept_iff sampleConfig (fun _ => rfl) oneWorker oneWorkerDone hrun
    (distinctJobs_of_length_one rfl)).1⟩

/-- Worker 1 reclaims the entry while worker 0 captures, writes its running
    marker after worker 0 wrote the result, and dies. -/
def markerAfterResult : List (Action Unit) :=
  [.xadd (some samplePayload), .read 0 1 .ok, .task 0 .ok, .task 0 .ok, .reclaim 1 [0] .ok,
    .task 1 .ok, .captured 0 (.ok (.ok ())), .task 0 .ok, .task 1 .ok, .task 0 .ok, .task 0 .ok,
    .crash 1]

/-- The state `markerAfterResult` ends in. -/
def markerLeft : State Unit where
  redis := Redis.set (Redis.set (Redis.set ⟨[⟨some samplePayload, false, false⟩], 1, fun _ => none⟩
    (sampleConfig.resultKey "job-1") (runningMarker "job-1"))
    (sampleConfig.resultKey "job-1") ⟨"job-1", none, some 200, some (), none⟩)
    (sampleConfig.resultKey "job-1") (runningMarker "job-1")
  tasks := [⟨0, 0, .finished⟩, ⟨1, 0, .dead⟩]
  written := [⟨"job-1", 200, some (), none⟩]

/-- The result of worker 0 is lost: the entry is acknowledged and deleted, no
    task works on it, and its key holds the running marker of worker 1. -/
theorem terminalResult_lost :
    ¬ ∀ (cfg : WorkerConfig Unit) (as : List (Action Unit)) (t : State Unit),
        cfg.deleteOnAck = true → (∀ r, cfg.serializes r = true) →
        (system cfg).exec State.init as = some t → DistinctJobs cfg t →
        ∀ (e : Nat) (id : String), cfg.jobId t.redis e = some id → e < t.redis.cursor →
          ¬ t.redis.InStream e → ¬ t.redis.Pending e →
          (∀ task ∈ t.tasks, task.entry = e → task.pc.live = false) → HasResult cfg t.redis id := by
  intro hclaim
  have hgone : ∀ x, markerLeft.redis.log[0]? = some x → x.inStream = false ∧ x.pending = false := by
    rintro x hx
    cases hx
    exact ⟨rfl, rfl⟩
  have hres : HasResult sampleConfig markerLeft.redis "job-1" := by
    refine hclaim sampleConfig markerAfterResult markerLeft rfl (fun _ => rfl) rfl
      (distinctJobs_of_length_one rfl) 0 "job-1" (by decide) (by decide) ?_ ?_ ?_
    · rintro ⟨x, hx, hin⟩
      simp [(hgone x hx).1] at hin
    · rintro ⟨x, hx, hpend⟩
      simp [(hgone x hx).2] at hpend
    · intro task htask _
      simp only [markerLeft, List.mem_cons, List.not_mem_nil, or_false] at htask
      rcases htask with rfl | rfl <;> rfl
  obtain ⟨doc, hdoc, hterm⟩ := hres
  rw [markerLeft, Redis.set_keys_self] at hdoc
  cases hdoc
  cases hterm

end Queue
end BrowserHeadless
