/-
  BrowserHeadless.Capture.Teardown

  Captures on a browser, and who closes what they opened.

  src/browser/mod.rs gives every `capture` its own incognito context, "torn
  down when we dispose it at the end of `capture`", and
  `capture_one_unmetered` (src/capture.rs) drives the future under a hard
  deadline that drops it.  The teardown task is spawned by the last statement
  of `capture` only: an early `?` return and a drop at an await both skip it.
-/

import BrowserHeadless.Capture.Stages
import BrowserHeadless.Lib.Lists
import BrowserHeadless.Lib.System

namespace BrowserHeadless
namespace Capture

/-- How far one `capture` future has come. -/
inductive RunPc where
  | running (stage : Stage)
  /-- Returned `Ok(stat)`. -/
  | returned
  /-- Returned the error of a stage. -/
  | failed
  /-- Dropped by the deadline at an await. -/
  | dropped
deriving DecidableEq, Repr

/-- The stage of a running capture. -/
def RunPc.stage? : RunPc → Option Stage
  | running st => some st
  | _ => none

theorem RunPc.stage?_eq_some {pc : RunPc} {st : Stage} : pc.stage? = some st ↔ pc = running st := by
  cases pc <;> simp [stage?]

/-- The incognito context the browser has created for a capture. -/
structure Context where
  /-- A page is open in it. -/
  page : Bool
  disposed : Bool
deriving DecidableEq, Repr

/-- One `capture` call with its browser context.  A capture creates one
    context, so the index of the capture also names the context; the task
    learns the id when it leaves `createContext`. -/
structure Run where
  request : SummaryRequest
  pc : RunPc
  context : Option Context

/-- `createBrowserContext` was sent and may still be executed: the capture waits
    for it, or has ended at that await. -/
def Run.contextPending (run : Run) : Bool :=
  run.context.isNone &&
    match run.pc with
    | .running st => st = .createContext
    | .failed | .dropped => true
    | .returned => false

/-- How far a teardown task has come. -/
inductive TeardownPc where
  /-- `page.close().await` is next. -/
  | closePage
  /-- `Target.disposeBrowserContext` is next. -/
  | dispose
  | done
deriving DecidableEq, Repr

/-- A spawned teardown task, with the capture whose page and context id were
    moved into it. -/
structure TeardownTask where
  capture : Nat
  pc : TeardownPc
deriving DecidableEq, Repr

/-- The captures on a browser and the teardown tasks that were spawned. -/
structure State where
  runs : List Run
  teardowns : List TeardownTask

namespace State

def init : State := ⟨[], []⟩

/-- Move capture `i`. -/
def setPc (s : State) (i : Nat) (pc : RunPc) : State :=
  { s with runs := s.runs.modify i fun run => { run with pc := pc } }

/-- Update the context of capture `i`. -/
def modifyContext (s : State) (i : Nat) (f : Context → Context) : State :=
  { s with runs := s.runs.modify i fun run => { run with context := run.context.map f } }

/-- Move teardown task `k`. -/
def setTeardown (s : State) (k : Nat) (pc : TeardownPc) : State :=
  { s with teardowns := s.teardowns.modify k fun t => { t with pc := pc } }

end State

/-- What can happen next. -/
inductive Action where
  /-- A new call of `capture`. -/
  | start (req : SummaryRequest)
  /-- The browser executes the `createBrowserContext` of capture `i`; the
      capture may have ended at that await meanwhile. -/
  | created (i : Nat)
  /-- The stage of capture `i` comes back with `Ok`. -/
  | ok (i : Nat)
  /-- The `k`-th pending arm of the join of capture `i` comes back with `Ok`. -/
  | armOk (i k : Nat)
  /-- The stage of capture `i`, or an arm of its join, comes back with `Err`. -/
  | err (i : Nat)
  /-- The deadline of capture `i` fires: its future is dropped. -/
  | deadline (i : Nat)
  /-- Teardown task `k` gets the answer to its next call; the answer is
      ignored (`let _ =`), but only a call that succeeded took effect. -/
  | teardown (k : Nat) (succeeded : Bool)

/-- `Ok` at a stage: the capture moves on, and what the call did stays. -/
def stageOk (s : State) (i : Nat) (run : Run) : Stage → Option State
  | .createContext =>
      if run.context.isSome then some (s.setPc i (.running .targetParams)) else none
  -- the page is open as soon as the call succeeded
  | .newPage =>
      if run.context.isSome then
        some ((s.modifyContext i fun ctx => { ctx with page := true }).setPc i
          (.running (.apply (applyArms run.request))))
      else none
  -- `tokio::spawn`: the task and the return are one step
  | .teardown =>
      if run.context.isSome then
        some (State.setPc { s with teardowns := s.teardowns ++ [⟨i, .closePage⟩] } i .returned)
      else none
  -- the other stages leave the context alone
  | st => (st.next run.request).map fun st' => s.setPc i (.running st')

/-- One call of a teardown task. -/
def teardownStep (s : State) (k : Nat) (t : TeardownTask) (succeeded : Bool) :
    TeardownPc → Option State
  | .closePage =>
      let s' := if succeeded then s.modifyContext t.capture fun ctx => { ctx with page := false }
        else s
      some (s'.setTeardown k .dispose)
  | .dispose =>
      let s' := if succeeded then
          s.modifyContext t.capture fun _ => { page := false, disposed := true }
        else s
      some (s'.setTeardown k .done)
  | .done => none

/-- A step of capture `i` that needs it to be running. -/
def whileRunning (s : State) (i : Nat) (f : Run → Stage → Option State) : Option State :=
  s.runs[i]?.bind fun run => run.pc.stage?.bind (f run)

/-- The guarded step function of the server. -/
def step (s : State) : Action → Option State
  | .start req => some { s with runs := s.runs ++ [⟨req, .running .createContext, none⟩] }
  | .created i =>
      s.runs[i]?.bind fun run =>
        if run.contextPending then
          some { s with runs := s.runs.modify i fun r => { r with context := some ⟨false, false⟩ } }
        else none
  | .ok i => whileRunning s i fun run st => stageOk s i run st
  | .armOk i k => whileRunning s i fun _ st =>
      (st.completeArm k).map fun st' => s.setPc i (.running st')
  | .err i => whileRunning s i fun _ st =>
      if st.fallible then some (s.setPc i .failed) else none
  | .deadline i => whileRunning s i fun _ st =>
      if st.awaits then some (s.setPc i .dropped) else none
  | .teardown k succeeded =>
      match s.teardowns[k]? with
      | some t => teardownStep s k t succeeded t.pc
      | none => none

/-- The server as a transition system. -/
def system : Lib.System State Action := ⟨State.init, step⟩

/-- The page and the context of capture `i` were moved into a teardown task. -/
def State.HandedOver (s : State) (i : Nat) : Prop := ∃ t ∈ s.teardowns, t.capture = i

/-- Every context that exists belongs to a capture still running or was handed
    to a teardown task. -/
def Accounted (s : State) : Prop :=
  ∀ (i : Nat) (run : Run) (ctx : Context),
    s.runs[i]? = some run → run.context = some ctx → ctx.disposed = false →
      (∃ st, run.pc = .running st) ∨ s.HandedOver i

/-- A capture fails or is dropped only before its context exists, and no context
    is created for a capture that has ended. -/
def EndsBeforeContext (s : State) (a : Action) : Prop :=
  ∀ (i : Nat) (run : Run), s.runs[i]? = some run →
    (a = .err i ∨ a = .deadline i → run.context = none) ∧
    (a = .created i → ∃ st, run.pc = .running st)

/-! ## What a step does -/

/-- What one step does to captures and teardown tasks. -/
inductive StepEffect (s : State) (a : Action) : State → Prop where
  /-- A capture starts. -/
  | start (req : SummaryRequest) :
      StepEffect s a { s with runs := s.runs ++ [⟨req, .running .createContext, none⟩] }
  /-- The browser creates the context of a capture that has not returned. -/
  | created (i : Nat) (run : Run) (hrun : s.runs[i]? = some run) (hpc : run.pc ≠ .returned)
      (ha : a = .created i) :
      StepEffect s a
        { s with runs := s.runs.modify i fun r => { r with context := some ⟨false, false⟩ } }
  /-- A running capture goes on to another stage. -/
  | move (i : Nat) (run : Run) (st st' : Stage) (f : Context → Context)
      (hrun : s.runs[i]? = some run) (hpc : run.pc = .running st)
      (hf : ∀ ctx, (f ctx).disposed = ctx.disposed) :
      StepEffect s a ((s.modifyContext i f).setPc i (.running st'))
  /-- A running capture fails or is dropped. -/
  | stop (i : Nat) (run : Run) (st : Stage) (pc : RunPc) (hrun : s.runs[i]? = some run)
      (hpc : run.pc = .running st) (ha : a = .err i ∨ a = .deadline i)
      (hstop : pc = .failed ∨ pc = .dropped) : StepEffect s a (s.setPc i pc)
  /-- A running capture spawns its teardown and returns. -/
  | finish (i : Nat) (run : Run) (st : Stage) (hrun : s.runs[i]? = some run)
      (hpc : run.pc = .running st) :
      StepEffect s a
        (State.setPc { s with teardowns := s.teardowns ++ [⟨i, .closePage⟩] } i .returned)
  /-- A teardown task moves; only the context of its capture changes. -/
  | teardown (k : Nat) (t : TeardownTask) (pc : TeardownPc) (f : Context → Context)
      (ht : s.teardowns[k]? = some t) :
      StepEffect s a ((s.modifyContext t.capture f).setTeardown k pc)

@[simp] theorem State.modifyContext_id (s : State) (i : Nat) : s.modifyContext i id = s := by
  have hid : (fun run : Run => { run with context := run.context.map id }) = id := by
    funext run
    rw [Option.map_id]
    rfl
  rw [State.modifyContext, hid, List.modify_id]

theorem whileRunning_eq_some {s s' : State} {i : Nat} {f : Run → Stage → Option State}
    (h : whileRunning s i f = some s') :
    ∃ run st, s.runs[i]? = some run ∧ run.pc = .running st ∧ f run st = some s' := by
  obtain ⟨run, hrun, h⟩ := Option.bind_eq_some_iff.mp h
  obtain ⟨st, hst, h⟩ := Option.bind_eq_some_iff.mp h
  exact ⟨run, st, hrun, RunPc.stage?_eq_some.mp hst, h⟩

/-- A capture that moves on without touching its context. -/
theorem StepEffect.advance {s : State} {a : Action} {i : Nat} {run : Run} {st : Stage}
    (st' : Stage) (hrun : s.runs[i]? = some run) (hpc : run.pc = .running st) :
    StepEffect s a (s.setPc i (.running st')) := by
  have h : StepEffect s a _ := .move i run st st' id hrun hpc fun _ => rfl
  rwa [State.modifyContext_id] at h

theorem stageOk_effect {s s' : State} {a : Action} {i : Nat} {run : Run} {st : Stage}
    (hrun : s.runs[i]? = some run) (hpc : run.pc = .running st)
    (h : stageOk s i run st = some s') : StepEffect s a s' := by
  unfold stageOk at h
  split at h
  next =>
    split at h <;> cases h
    exact .advance _ hrun hpc
  next =>
    split at h <;> cases h
    exact .move i run _ _ _ hrun hpc fun _ => rfl
  next =>
    split at h <;> cases h
    exact .finish i run _ hrun hpc
  next =>
    obtain ⟨st', -, rfl⟩ := Option.map_eq_some_iff.mp h
    exact .advance st' hrun hpc

theorem teardownStep_effect {s s' : State} {a : Action} {k : Nat} {t : TeardownTask} {b : Bool}
    {pc : TeardownPc} (ht : s.teardowns[k]? = some t)
    (h : teardownStep s k t b pc = some s') : StepEffect s a s' := by
  have hskip : ∀ pc', StepEffect s a (s.setTeardown k pc') := by
    intro pc'
    have h : StepEffect s a _ := .teardown k t pc' id ht
    rwa [State.modifyContext_id] at h
  cases pc with
  | closePage =>
      cases h
      cases b with
      | true => exact .teardown k t .dispose _ ht
      | false => exact hskip .dispose
  | dispose =>
      cases h
      cases b with
      | true => exact .teardown k t .done _ ht
      | false => exact hskip .done
  | done => cases h

/-- Every step has one of the effects. -/
theorem step_effect {s s' : State} {a : Action} (h : step s a = some s') : StepEffect s a s' := by
  cases a <;> simp only [step] at h
  case start req =>
    cases h
    exact .start req
  case created i =>
    obtain ⟨run, hrun, h⟩ := Option.bind_eq_some_iff.mp h
    split at h
    next hpend =>
      cases h
      refine .created i run hrun ?_ rfl
      intro hret
      simp [Run.contextPending, hret] at hpend
    next => cases h
  case ok i =>
    obtain ⟨run, st, hrun, hpc, h⟩ := whileRunning_eq_some h
    exact stageOk_effect hrun hpc h
  case armOk i k =>
    obtain ⟨run, st, hrun, hpc, h⟩ := whileRunning_eq_some h
    obtain ⟨st', -, rfl⟩ := Option.map_eq_some_iff.mp h
    exact .advance st' hrun hpc
  case err i =>
    obtain ⟨run, st, hrun, hpc, h⟩ := whileRunning_eq_some h
    split at h <;> cases h
    exact .stop i run st .failed hrun hpc (Or.inl rfl) (Or.inl rfl)
  case deadline i =>
    obtain ⟨run, st, hrun, hpc, h⟩ := whileRunning_eq_some h
    split at h <;> cases h
    exact .stop i run st .dropped hrun hpc (Or.inr rfl) (Or.inr rfl)
  case teardown k b =>
    split at h
    next t ht => exact teardownStep_effect ht h
    next => cases h

/-! ## Captures and teardown tasks belong together -/

namespace State

theorem getElem?_setPc (s : State) (i j : Nat) (pc : RunPc) :
    (s.setPc i pc).runs[j]?
      = s.runs[j]?.map fun run => if i = j then { run with pc := pc } else run := by
  rw [setPc, List.getElem?_modify]
  rfl

theorem getElem?_modifyContext (s : State) (i j : Nat) (f : Context → Context) :
    (s.modifyContext i f).runs[j]?
      = s.runs[j]?.map fun run =>
          if i = j then { run with context := run.context.map f } else run := by
  rw [modifyContext, List.getElem?_modify]
  rfl

@[simp] theorem handedOver_setPc {s : State} {i j : Nat} {pc : RunPc} :
    (s.setPc i pc).HandedOver j ↔ s.HandedOver j := Iff.rfl

@[simp] theorem handedOver_modifyContext {s : State} {i j : Nat} {f : Context → Context} :
    (s.modifyContext i f).HandedOver j ↔ s.HandedOver j := Iff.rfl

@[simp] theorem handedOver_append {s : State} {t : TeardownTask} {j : Nat} :
    State.HandedOver { s with teardowns := s.teardowns ++ [t] } j
      ↔ s.HandedOver j ∨ t.capture = j := by
  simp [HandedOver, or_and_right, exists_or]

theorem handedOver_iff {s : State} {i : Nat} :
    s.HandedOver i ↔ i ∈ s.teardowns.map (·.capture) := by
  simp [HandedOver]

/-- Moving a teardown task hands nothing over and takes nothing back. -/
@[simp] theorem handedOver_setTeardown {s : State} {k j : Nat} {pc : TeardownPc} :
    (s.setTeardown k pc).HandedOver j ↔ s.HandedOver j := by
  rw [handedOver_iff, handedOver_iff, setTeardown, Lib.map_modify_of_eq]
  exact fun _ => rfl

end State

/-- What holds in every state of every run. -/
structure Coupled (s : State) : Prop where
  /-- The captures that returned are the ones with a teardown task. -/
  handed : ∀ i, s.HandedOver i ↔ ∃ run : Run, s.runs[i]? = some run ∧ run.pc = .returned
  /-- Only the context of a capture that returned is disposed of. -/
  disposed : ∀ (i : Nat) (run : Run) (ctx : Context), s.runs[i]? = some run →
    run.context = some ctx → ctx.disposed = true → run.pc = .returned

theorem Coupled.init : Coupled State.init := by
  constructor <;> simp [State.init, State.HandedOver]

theorem Coupled.step {s s' : State} {a : Action} (hs : Coupled s) (h : StepEffect s a s') :
    Coupled s' where
  handed := by
    intro j
    have hj := hs.handed j
    cases h with
    | start req =>
        grind [State.HandedOver]
    | created i run hrun hpc ha => grind [State.HandedOver]
    | move i run st st' f hrun hpc hf =>
        rw [State.handedOver_setPc, State.handedOver_modifyContext, State.getElem?_setPc,
          State.getElem?_modifyContext]
        grind
    | stop i run st pc hrun hpc ha hstop =>
        rw [State.handedOver_setPc, State.getElem?_setPc]
        grind
    | finish i run st hrun hpc =>
        rw [State.handedOver_setPc, State.getElem?_setPc, State.handedOver_append]
        grind
    | teardown k t pc f ht =>
        rw [State.handedOver_setTeardown, State.handedOver_modifyContext]
        have := s.getElem?_modifyContext t.capture j f
        grind [State.setTeardown]
  disposed := by
    intro j run' ctx' hrun' hctx' hd
    cases h with
    | start req => grind [hs.disposed]
    | created i run hrun hpc ha => grind [hs.disposed]
    | move i run st st' f hrun hpc hf =>
        rw [State.getElem?_setPc, State.getElem?_modifyContext, Option.map_map] at hrun'
        obtain ⟨old, hold, rfl⟩ := Option.map_eq_some_iff.mp hrun'
        -- the moved capture was running, so its context was not disposed of
        by_cases hij : i = j
        · subst hij
          obtain rfl : run = old := Option.some.inj (hrun.symm.trans hold)
          simp only [Function.comp_apply, if_true] at hctx'
          obtain ⟨ctx, hctx, rfl⟩ := Option.map_eq_some_iff.mp hctx'
          have hret := hs.disposed i run ctx hrun hctx (hf ctx ▸ hd)
          rw [hpc] at hret
          cases hret
        · simp only [Function.comp_apply, if_neg hij] at hctx' ⊢
          exact hs.disposed j old ctx' hold hctx' hd
    | stop i run st pc hrun hpc ha hstop =>
        rw [State.getElem?_setPc] at hrun'
        have := hs.disposed j
        grind
    | finish i run st hrun hpc =>
        rw [State.getElem?_setPc] at hrun'
        have := hs.disposed j
        grind
    | teardown k t pc f ht =>
        have hth : s.HandedOver t.capture := ⟨t, List.mem_of_getElem? ht, rfl⟩
        have := (hs.handed t.capture).mp hth
        have := hs.disposed j
        have := s.getElem?_modifyContext t.capture j f
        grind [State.setTeardown]

/-- In a state of a run, the contexts are accounted for exactly when no capture
    ended by an error or a drop with its context created. -/
theorem Coupled.accounted_iff {s : State} (hs : Coupled s) :
    Accounted s ↔ ∀ (i : Nat) (run : Run), s.runs[i]? = some run →
      run.pc = .failed ∨ run.pc = .dropped → run.context = none := by
  constructor
  · intro h i run hrun hpc
    by_contra hne
    obtain ⟨ctx, hctx⟩ := Option.ne_none_iff_exists'.mp hne
    have hlive : ctx.disposed = false := by
      by_contra hd
      have hret := hs.disposed i run ctx hrun hctx (by simpa using hd)
      simp [hret] at hpc
    -- an ended capture neither runs nor has a teardown task
    rcases h i run ctx hrun hctx hlive with ⟨st, hst⟩ | hhand
    · simp [hst] at hpc
    · obtain ⟨run', hrun', hret⟩ := (hs.handed i).mp hhand
      obtain rfl : run = run' := Option.some.inj (hrun.symm.trans hrun')
      simp [hret] at hpc
  · intro h i run ctx hrun hctx _
    cases hpc : run.pc with
    | running st => exact Or.inl ⟨st, rfl⟩
    | returned => exact Or.inr ((hs.handed i).mpr ⟨run, hrun, hpc⟩)
    | failed => simp [h i run hrun (Or.inl hpc)] at hctx
    | dropped => simp [h i run hrun (Or.inr hpc)] at hctx

/-- A step that leaves no context to an ended capture leaves every context
    accounted for. -/
theorem accounted_step {s s' : State} {a : Action} (hs : Coupled s) (hP : Accounted s)
    (hG : EndsBeforeContext s a) (h : StepEffect s a s') : Accounted s' := by
  rw [(hs.step h).accounted_iff]
  rw [hs.accounted_iff] at hP
  intro j run' hrun' hpc'
  cases h with
  | start req => grind
  | created i run hrun hpc ha =>
      -- the capture of the new context is running
      obtain ⟨st, hst⟩ := (hG i run hrun).2 ha
      grind
  | move i run st st' f hrun hpc hf =>
      rw [State.getElem?_setPc, State.getElem?_modifyContext] at hrun'
      grind
  | stop i run st pc hrun hpc ha hstop =>
      rw [State.getElem?_setPc] at hrun'
      have := (hG i run hrun).1 ha
      grind
  | finish i run st hrun hpc =>
      rw [State.getElem?_setPc] at hrun'
      grind
  | teardown k t pc f ht =>
      have := s.getElem?_modifyContext t.capture j f
      grind [State.setTeardown]

/-- A context that exists after a capture has failed or was dropped belongs to
    nobody. -/
theorem endsBeforeContext_of_accounted {s s' : State} {a : Action} (hs : Coupled s)
    (h : step s a = some s') (hP : Accounted s') : EndsBeforeContext s a := by
  have hs' := hs.step (step_effect h)
  rw [hs'.accounted_iff] at hP
  intro i run hrun
  refine ⟨fun ha => ?_, fun ha => ?_⟩
  case refine_2 =>
    -- the context created now would be one of an ended capture
    subst ha
    obtain ⟨run0, hrun0, h⟩ := Option.bind_eq_some_iff.mp h
    obtain rfl : run = run0 := Option.some.inj (hrun.symm.trans hrun0)
    split at h <;> cases h
    rename_i hpend
    cases hpc : run.pc with
    | running st => exact ⟨st, rfl⟩
    | returned => simp [Run.contextPending, hpc] at hpend
    | failed | dropped =>
        have hnone := hP i { run with context := some ⟨false, false⟩ }
          (by rw [List.getElem?_modify_eq, hrun]; rfl) (by simp [hpc])
        cases hnone
  -- both actions end the capture and leave its context as it is
  have hstop : ∃ pc, (pc = .failed ∨ pc = .dropped) ∧ s' = s.setPc i pc := by
    rcases ha with rfl | rfl
    · obtain ⟨_, st, -, -, h⟩ := whileRunning_eq_some h
      split at h <;> cases h
      exact ⟨.failed, Or.inl rfl, rfl⟩
    · obtain ⟨_, st, -, -, h⟩ := whileRunning_eq_some h
      split at h <;> cases h
      exact ⟨.dropped, Or.inr rfl, rfl⟩
  obtain ⟨pc, hpc, rfl⟩ := hstop
  have hrun' : (s.setPc i pc).runs[i]? = some { run with pc := pc } := by
    rw [State.getElem?_setPc, hrun, Option.map_some, if_pos rfl]
  exact hP i { run with pc := pc } hrun' hpc

/-- Along a run every context stays accounted for if and only if every capture
    that fails or is dropped does so before its context exists, and none is
    created for it later. -/
theorem capture_accounted_iff (as : List Action) (hrun : (system.exec State.init as).isSome = true) :
    system.Along Accounted State.init as ↔ system.Guarded EndsBeforeContext State.init as := by
  obtain ⟨t, ht⟩ := Option.isSome_iff_exists.mp hrun
  refine Lib.System.along_iff_guarded Coupled (fun _ => True)
    (fun s a s' hs h => hs.step (step_effect h))
    (fun s a s' hs _ hP hG h => accounted_step hs hP hG (step_effect h))
    (fun s a s' hs _ h hP => endsBeforeContext_of_accounted hs h hP)
    Coupled.init ?_ ht (.trivial _ _)
  intro i run ctx hrun
  cases hrun

/-- A request without options, from its start to the return of `capture` and
    the end of its teardown task. -/
def plainCapture : List Action :=
  [.start {}, .created 0, .ok 0, .ok 0, .ok 0, .armOk 0 0, .ok 0, .ok 0, .armOk 0 0, .ok 0, .ok 0,
    .teardown 0 true, .teardown 0 true]

/-- `plainCapture` is a run the equivalence is about. -/
theorem capture_accounted_iff_plain :
    (system.exec State.init plainCapture).isSome = true ∧
    (system.Along Accounted State.init plainCapture ↔
      system.Guarded EndsBeforeContext State.init plainCapture) :=
  ⟨by decide, capture_accounted_iff plainCapture (by decide)⟩

/-- `browser.new_page` fails after the context was created. -/
def newPageFails : List Action := [.start {}, .created 0, .ok 0, .ok 0, .err 0]

/-- A capture that returns early leaves a context that nobody disposes of. -/
theorem capture_accounted_newPage :
    ¬ ∀ as : List Action, (system.exec State.init as).isSome = true →
        system.Along Accounted State.init as := by
  intro hclaim
  have hrun : system.exec State.init newPageFails
      = some ⟨[⟨{}, .failed, some ⟨false, false⟩⟩], []⟩ := rfl
  have hlast := (hclaim newPageFails (by decide)).last hrun
  rcases hlast 0 _ _ rfl rfl rfl with ⟨st, hst⟩ | ⟨t, ht, -⟩
  · cases hst
  · cases ht

end Capture
end BrowserHeadless
