/-
  BrowserHeadless.Capture.Batch

  `run_batch` (src/capture.rs): the URLs of a batch, captured through `buffer_unordered`.

  The captures may end in any order; each writes the slot of its index.  When the stream
  has ended, every slot holds the outcome of its own capture (`results_of_ended`).
-/

import BrowserHeadless.Capture.Query
import BrowserHeadless.Error
import BrowserHeadless.Lib.Lists
import BrowserHeadless.Lib.Window
import BrowserHeadless.Pool.State

namespace BrowserHeadless
namespace Capture

open Lib (System Window)

variable {β : Type}

/-! ## Items -/

/-- `BatchItem`. -/
structure BatchItem (β : Type) where
  url : String
  status : Nat
  data : Option β
  error : Option String
deriving DecidableEq

/-- `BatchItem::success`. -/
def BatchItem.success (url : String) : Except String β → BatchItem β
  | .ok value => ⟨url, 200, some value, none⟩
  | .error e => ⟨url, 500, none, some ("serialize result: " ++ e)⟩

/-- `BatchItem::failure`. -/
def BatchItem.failure (url : String) (status : Nat) (error : String) : BatchItem β :=
  ⟨url, status, none, some error⟩

/-- The item for the outcome of a capture. -/
def batchItem (url : String) : CaptureResult β → BatchItem β
  | .ok data => BatchItem.success url data
  | .error e => BatchItem.failure url e.statusU16 e.message

/-- An item echoes its URL and has either data or an error. -/
theorem batchItem_url (url : String) (r : CaptureResult β) : (batchItem url r).url = url := by
  rcases r with e | (e | value) <;> rfl

theorem batchItem_data_or_error (url : String) (r : CaptureResult β) :
    (batchItem url r).data.isSome = !(batchItem url r).error.isSome := by
  rcases r with e | (e | value) <;> rfl

/-! ## The stream -/

/-- `BatchQuery`. -/
structure BatchQuery where
  urls : List String
  base : SummaryQuery

/-- `BrowserPool::capacity`. -/
def capacity (cfg : Pool.PoolConfig) : Nat := cfg.poolSize * cfg.pagesPerInstance

/-- The width of the stream. -/
def concurrency (cfg : Pool.PoolConfig) (batch : BatchQuery) : Nat :=
  max (min (capacity cfg) batch.urls.length) 1

/-- `urls.into_iter().enumerate()`. -/
def BatchQuery.tasks (batch : BatchQuery) : List (Nat × String) :=
  batch.urls.zipIdx.map fun (url, idx) => (idx, url)

/-- The parameters of the capture of a URL. -/
def BatchQuery.query (batch : BatchQuery) (url : String) : SummaryQuery :=
  { batch.base with url := url }

/-- The stream and the slots of the results. -/
structure BatchState (β : Type) where
  stream : Window (Nat × String)
  slots : List (Option (BatchItem β))

section Run

variable (cfg : Pool.PoolConfig) (batch : BatchQuery)
  (captureOne : Nat → SummaryQuery → CaptureResult β)

/-- The item of one task; `captureOne` gives the outcome of the capture made for an index. -/
def itemOf (task : Nat × String) : BatchItem β :=
  batchItem task.2 (captureOne task.1 (batch.query task.2))

/-- A step of the stream; a capture that ends writes its slot: the body of the
    `while let`. -/
def batchStep (s : BatchState β) (a : Window.Action) : Option (BatchState β) :=
  (s.stream.step (concurrency cfg batch) a).map fun stream =>
    match a with
    | .start => { s with stream := stream }
    | .finish i =>
        { stream := stream
          slots :=
            match s.stream.running[i]? with
            | some task => s.slots.set task.1 (some (itemOf batch captureOne task))
            | none => s.slots }

/-- `run_batch`. -/
def runBatch : System (BatchState β) Window.Action where
  init := ⟨Window.new batch.tasks, List.replicate batch.urls.length none⟩
  step := batchStep cfg batch captureOne

end Run

/-- The `collect` at the end; `none` where a slot is empty and `expect` panics. -/
def BatchState.results (s : BatchState β) : Option (List (BatchItem β)) := s.slots.mapM id

/-! ## What a step keeps -/

theorem mem_tasks {batch : BatchQuery} {task : Nat × String} :
    task ∈ batch.tasks ↔ batch.urls[task.1]? = some task.2 := by
  obtain ⟨idx, url⟩ := task
  simp [BatchQuery.tasks, List.mem_zipIdx_iff_getElem?]

theorem map_fst_tasks (batch : BatchQuery) :
    batch.tasks.map Prod.fst = List.range batch.urls.length := by
  rw [BatchQuery.tasks, List.map_map, List.range_eq_range', ← List.zipIdx_map_snd]
  rfl

section Invariant

variable {cfg : Pool.PoolConfig} {batch : BatchQuery}
  {captureOne : Nat → SummaryQuery → CaptureResult β} {s s' : BatchState β} {a : Window.Action}
  {as : List Window.Action}

/-- Every slot of a capture that has ended holds its item. -/
structure BatchInv (batch : BatchQuery) (captureOne : Nat → SummaryQuery → CaptureResult β)
    (s : BatchState β) : Prop where
  length_slots : s.slots.length = batch.urls.length
  perm : (s.stream.done ++ (s.stream.running ++ s.stream.waiting)).Perm batch.tasks
  slot : ∀ task ∈ s.stream.done,
    s.slots[task.1]? = some (some (itemOf batch captureOne task))

/-- The stream of a batch makes the steps of its window. -/
theorem stream_step (h : batchStep cfg batch captureOne s a = some s') :
    s.stream.step (concurrency cfg batch) a = some s'.stream := by
  obtain ⟨stream, hstream, rfl⟩ := Option.map_eq_some_iff.mp h
  cases a <;> exact hstream

theorem BatchInv.step (hs : BatchInv batch captureOne s)
    (h : batchStep cfg batch captureOne s a = some s') : BatchInv batch captureOne s' := by
  have hwindow := stream_step h
  have hperm := (Window.perm_step hwindow).trans hs.perm
  obtain ⟨stream, hstream, rfl⟩ := Option.map_eq_some_iff.mp h
  obtain ⟨t, ts, rfl, -, -, rfl⟩ | ⟨i, t, rfl, hi, rfl⟩ := Window.step_cases hstream
  · exact ⟨hs.length_slots, hperm, hs.slot⟩
  · have htask : t ∈ batch.tasks :=
      hs.perm.subset (List.mem_append_right _
        (List.mem_append_left _ (List.mem_of_getElem? hi)))
    have hurl := mem_tasks.mp htask
    have hlt : t.1 < s.slots.length := by
      rw [hs.length_slots]
      exact (List.getElem?_eq_some_iff.mp hurl).1
    refine ⟨?_, hperm, ?_⟩
    · simp only [hi, List.length_set]
      exact hs.length_slots
    · intro task hmem
      simp only [hi]
      rcases List.mem_append.mp hmem with hdone | hlast
      · by_cases hidx : t.1 = task.1
        · -- one index, one URL
          have hurl' : batch.urls[task.1]? = some task.2 :=
            mem_tasks.mp (hs.perm.subset (List.mem_append_left _ hdone))
          rw [← hidx, hurl] at hurl'
          obtain rfl : t = task := Prod.ext hidx (Option.some.inj hurl')
          rw [List.getElem?_set_self hlt]
        · rw [List.getElem?_set_ne hidx]
          exact hs.slot task hdone
      · obtain rfl := List.mem_singleton.mp hlast
        rw [List.getElem?_set_self hlt]

theorem batchInv_init : BatchInv batch captureOne (runBatch cfg batch captureOne).init where
  length_slots := List.length_replicate
  perm := List.Perm.refl _
  slot := fun _ hmem => absurd hmem List.not_mem_nil

theorem batchInv_of_exec (h : (runBatch cfg batch captureOne).exec
    (runBatch cfg batch captureOne).init as = some s) : BatchInv batch captureOne s :=
  System.exec_invariant (BatchInv batch captureOne) (fun _ _ _ hs hstep => hs.step hstep)
    batchInv_init h

/-- The stream of a run is a run of the stream. -/
theorem stream_exec {u : BatchState β} (h : (runBatch cfg batch captureOne).exec u as = some s) :
    (Window.system (concurrency cfg batch) batch.tasks).exec u.stream as = some s.stream := by
  induction as generalizing u with
  | nil =>
      obtain rfl : u = s := Option.some.inj h
      rfl
  | cons a as ih =>
      obtain ⟨v, hstep, hrest⟩ := (runBatch cfg batch captureOne).exec_cons_eq_some.mp h
      exact ((Window.system _ _).exec_cons_eq_some).mpr ⟨v.stream, stream_step hstep, ih hrest⟩

/-! ## The end of a batch -/

theorem capacity_pos (cfg : Pool.PoolConfig) : 0 < capacity cfg :=
  Nat.mul_pos cfg.poolSize_pos cfg.pagesPerInstance_pos

/-- No more captures run than the pool has pages and the batch has URLs. -/
theorem running_le (h : (runBatch cfg batch captureOne).exec
    (runBatch cfg batch captureOne).init as = some s) :
    s.stream.running.length ≤ min (capacity cfg) batch.urls.length := by
  have hwidth := Window.running_le_of_exec (stream_exec h)
  have hlen := (batchInv_of_exec h).perm.length_eq
  have htasks : batch.tasks.length = batch.urls.length := by
    rw [BatchQuery.tasks, List.length_map, List.length_zipIdx]
  have hcap := capacity_pos cfg
  simp only [List.length_append] at hlen
  rw [concurrency] at hwidth
  omega

/-- A run has two steps for each URL at most. -/
theorem length_le (h : (runBatch cfg batch captureOne).exec
    (runBatch cfg batch captureOne).init as = some s) : as.length ≤ 2 * batch.urls.length := by
  have hrun := Window.length_add_measure (stream_exec h)
  have hinit : (Window.new batch.tasks).measure = 2 * batch.urls.length := by
    show 2 * batch.tasks.length + 0 = _
    rw [BatchQuery.tasks, List.length_map, List.length_zipIdx, Nat.add_zero]
  have hmeasure : as.length + s.stream.measure = 2 * batch.urls.length := hrun.trans hinit
  omega

/-- A batch does not block. -/
theorem exists_batchStep (h : ¬ s.stream.Ended) :
    ∃ a s', (runBatch cfg batch captureOne).step s a = some s' := by
  have hwidth : 1 ≤ concurrency cfg batch := Nat.le_max_right _ _
  obtain ⟨a, stream, hstep⟩ := Window.exists_step hwidth h
  refine ⟨a, Option.isSome_iff_exists.mp ?_⟩
  show ((s.stream.step (concurrency cfg batch) a).map _).isSome = true
  rw [Option.isSome_map, hstep]
  rfl

/-- No index is captured twice. -/
theorem nodup_captured (h : (runBatch cfg batch captureOne).exec
    (runBatch cfg batch captureOne).init as = some s) :
    ((s.stream.done ++ s.stream.running).map Prod.fst).Nodup := by
  have hperm := (batchInv_of_exec h).perm.map Prod.fst
  rw [map_fst_tasks, ← List.append_assoc, List.map_append] at hperm
  exact (hperm.nodup_iff.mpr List.nodup_range).of_append_left

/-- At the end every slot is filled, each with the item of its own URL. -/
theorem results_of_ended (h : (runBatch cfg batch captureOne).exec
    (runBatch cfg batch captureOne).init as = some s) (hend : s.stream.Ended) :
    (s.stream.done.map Prod.fst).Perm (List.range batch.urls.length) ∧
      s.results = some (batch.tasks.map (itemOf batch captureOne)) := by
  have hinv := batchInv_of_exec h
  have hdone := Window.perm_of_ended (stream_exec h) hend
  constructor
  · rw [← map_fst_tasks]
    exact hdone.map Prod.fst
  · have hslots : s.slots = (batch.tasks.map (itemOf batch captureOne)).map some := by
      refine List.ext_getElem? fun i => ?_
      cases hurl : batch.urls[i]? with
      | none =>
          have hlen := List.getElem?_eq_none_iff.mp hurl
          rw [List.getElem?_eq_none (by rw [hinv.length_slots]; exact hlen),
            List.getElem?_eq_none (by
              rw [List.length_map, List.length_map, BatchQuery.tasks, List.length_map,
                List.length_zipIdx]
              exact hlen)]
      | some url =>
          have htask : (i, url) ∈ batch.tasks := mem_tasks.mpr hurl
          rw [hinv.slot (i, url) (hdone.mem_iff.mpr htask), List.getElem?_map, List.getElem?_map,
            BatchQuery.tasks, List.getElem?_map, List.getElem?_zipIdx, hurl]
          simp
    have hcollect : ∀ items : List (BatchItem β), (items.map some).mapM id = some items := by
      intro items
      induction items with
      | nil => rfl
      | cons item items ih =>
          rw [List.map_cons, List.mapM_cons, ih]
          rfl
    rw [BatchState.results, hslots, hcollect]

end Invariant

/-- For every batch and every order in which its captures end: the captures are bounded by
    the pool, none is made twice, the stream does not block, and its end has one item for
    each URL, in order, with the outcome of its own capture. -/
theorem runBatch_spec (cfg : Pool.PoolConfig) (batch : BatchQuery)
    (captureOne : Nat → SummaryQuery → CaptureResult β) (as : List Window.Action)
    (s : BatchState β)
    (h : (runBatch cfg batch captureOne).exec (runBatch cfg batch captureOne).init as = some s) :
    s.stream.running.length ≤ min (capacity cfg) batch.urls.length ∧
      ((s.stream.done ++ s.stream.running).map Prod.fst).Nodup ∧
      as.length ≤ 2 * batch.urls.length ∧
      (¬ s.stream.Ended → ∃ a s', (runBatch cfg batch captureOne).step s a = some s') ∧
      (s.stream.Ended →
        (s.stream.done.map Prod.fst).Perm (List.range batch.urls.length) ∧
        ∃ items, s.results = some items ∧ items.length = batch.urls.length ∧
          ∀ i url, batch.urls[i]? = some url →
            items[i]? = some (batchItem url (captureOne i { batch.base with url := url }))) := by
  refine ⟨running_le h, nodup_captured h, length_le h, exists_batchStep, fun hend => ?_⟩
  obtain ⟨hperm, hresults⟩ := results_of_ended h hend
  refine ⟨hperm, _, hresults, ?_, fun i url hurl => ?_⟩
  · rw [List.length_map, BatchQuery.tasks, List.length_map, List.length_zipIdx]
  · rw [List.getElem?_map, BatchQuery.tasks, List.getElem?_map, List.getElem?_zipIdx, hurl]
    simp [itemOf, BatchQuery.query]

/-- Three captures on two pages, two of them of one URL; the first ends last and fails. -/
theorem runBatch_spec_example :
    let cfg : Pool.PoolConfig := ⟨1, 2, 0, none, by decide, by decide⟩
    let batch : BatchQuery := ⟨["/a", "/b", "/a"], SummaryQuery.defaults 0⟩
    let captureOne : Nat → SummaryQuery → CaptureResult String := fun i q =>
      if i = 0 then .error ⟨.timeout, "late"⟩ else .ok (.ok q.url)
    ∃ s, (runBatch cfg batch captureOne).exec (runBatch cfg batch captureOne).init
        [.start, .start, .finish 1, .start, .finish 1, .finish 0] = some s ∧
      ∃ items, s.results = some items ∧ items.length = 3 ∧
        items[0]? = some ⟨"/a", 408, none, some "late"⟩ ∧
        items[2]? = some ⟨"/a", 200, some "/a", none⟩ := by
  intro cfg batch captureOne
  refine ⟨_, rfl, ?_⟩
  obtain ⟨-, -, -, -, hend⟩ := runBatch_spec cfg batch captureOne
    [.start, .start, .finish 1, .start, .finish 1, .finish 0] _ rfl
  obtain ⟨-, items, hresults, hlength, hitem⟩ := hend ⟨rfl, rfl⟩
  exact ⟨items, hresults, hlength, hitem 0 "/a" rfl, hitem 2 "/a" rfl⟩

end Capture
end BrowserHeadless
