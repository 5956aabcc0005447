/-
  BrowserHeadless.Queue.Dispatch

  What becomes of the entries that Redis hands to the loop of the worker's `run`
  (src/worker.rs), and how its drain ends.

  Whatever Redis returns, whenever jobs end and whenever shutdown is requested, a job is
  spawned for every entry, once and in the order of arrival (`dispatch_accounted`).  The
  drain is clean exactly when all of them have ended, and otherwise it reports how many are
  still running (`drain_accounted`).
-/

import BrowserHeadless.Queue.Backpressure
import Mathlib.Algebra.Group.Nat.Defs
import Mathlib.Data.List.Perm.Basic

namespace BrowserHeadless
namespace Queue

open Lib (Semaphore System)

variable {ε : Type}

/-! ## Entries and jobs -/

/-- The entries that Redis hands over. -/
def LoopAction.delivered : LoopAction ε → List ε
  | .readReply (.entries entries) => entries
  | .reclaimReply (some entries) => entries
  | _ => []

/-- The entries that the loop has got and has not spawned a job for. -/
def LoopPc.undispatched : LoopPc ε → List ε
  | .dispatching _ entries | .acquiring _ entries => entries
  | _ => []

/-- The job that ends. -/
def WorkerLoop.ended (s : WorkerLoop ε) : LoopAction ε → Option ε
  | .jobDone i => s.running[i]?
  | _ => none

/-- The jobs that a step spawns. -/
def spawned (e : WorkerLoop ε × LoopAction ε × WorkerLoop ε) : List ε :=
  match e.2.1 with
  | .advance => e.2.2.running.drop e.1.running.length
  | _ => []

/-- The history of a run. -/
abbrev History (ε : Type) := List (WorkerLoop ε × LoopAction ε × WorkerLoop ε)

namespace History

/-- All entries that came in. -/
def delivered (log : History ε) : List ε := log.flatMap fun e => e.2.1.delivered

/-- All jobs that were spawned. -/
def spawned (log : History ε) : List ε := log.flatMap Queue.spawned

/-- All jobs that have ended. -/
def ended (log : History ε) : List ε := log.flatMap fun e => (e.1.ended e.2.1).toList

end History

/-! ## One step -/

/-- The permits of the semaphore: free, held by the loop, or held by a job. -/
def WorkerLoop.allPermits (s : WorkerLoop ε) : Nat :=
  s.inflight.permits + s.pc.held + s.running.length

/-- What a step does with permits, entries and jobs. -/
structure StepAccounts (s : WorkerLoop ε) (a : LoopAction ε) (s' : WorkerLoop ε) : Prop where
  permits : s'.allPermits = s.allPermits
  queued : s'.inflight.waiters = s'.pc.queued
  entries : s.pc.undispatched ++ a.delivered = spawned (s, a, s') ++ s'.pc.undispatched
  jobs : (s.running ++ spawned (s, a, s')).Perm ((s.ended a).toList ++ s'.running)
  order : s'.running.Sublist (s.running ++ spawned (s, a, s'))

section

variable {s s' : WorkerLoop ε} {a : LoopAction ε}

/-- No job is spawned and none ends. -/
theorem StepAccounts.quiet (hended : s.ended a = none) (hrunning : s'.running = s.running)
    (hpermits : s'.inflight.permits + s'.pc.held = s.inflight.permits + s.pc.held)
    (hqueued : s'.inflight.waiters = s'.pc.queued)
    (hentries : s.pc.undispatched ++ a.delivered = s'.pc.undispatched) : StepAccounts s a s' := by
  have hspawned : spawned (s, a, s') = [] := by
    cases a with
    | advance =>
        show s'.running.drop s.running.length = []
        rw [hrunning, List.drop_length]
    | _ => rfl
  refine ⟨?_, hqueued, ?_, ?_, ?_⟩
  · rw [WorkerLoop.allPermits, WorkerLoop.allPermits, hpermits, hrunning]
  · rw [hspawned]
    exact hentries
  · rw [hspawned, hended, hrunning, List.append_nil]
    exact List.Perm.refl _
  · rw [hspawned, hrunning, List.append_nil]

/-- A permit becomes a job. -/
theorem StepAccounts.spawn {entry : ε} (hrunning : s'.running = s.running ++ [entry])
    (hpermits : s'.inflight.permits + s'.pc.held + 1 = s.inflight.permits + s.pc.held)
    (hqueued : s'.inflight.waiters = s'.pc.queued)
    (hentries : s.pc.undispatched = entry :: s'.pc.undispatched) :
    StepAccounts s .advance s' := by
  have hspawned : spawned (s, .advance, s') = [entry] := by
    show s'.running.drop s.running.length = [entry]
    rw [hrunning, List.drop_left]
  refine ⟨?_, hqueued, ?_, ?_, ?_⟩
  · rw [WorkerLoop.allPermits, WorkerLoop.allPermits, hrunning, List.length_append,
      List.length_singleton]
    omega
  · rw [hspawned, hentries]
    exact List.append_nil _
  · rw [hspawned, hrunning]
    exact List.Perm.refl _
  · rw [hspawned, hrunning]

theorem acquire_cases (inflight : Semaphore Unit) :
    ((inflight.acquire ()).1 = true ∧
        (inflight.acquire ()).2.permits + 1 = inflight.permits ∧
        (inflight.acquire ()).2.waiters = inflight.waiters) ∨
      (inflight.acquire ()).1 = false ∧
        (inflight.acquire ()).2.permits = inflight.permits ∧
        (inflight.acquire ()).2.waiters = inflight.waiters ++ [()] := by
  rcases Nat.eq_zero_or_pos inflight.permits with hzero | hpos
  · obtain ⟨hfalse, hpermits, hwaiters⟩ := Semaphore.acquire_of_zero hzero ()
    exact .inr ⟨hfalse, hpermits.trans hzero.symm, hwaiters⟩
  · obtain ⟨htrue, hpermits, hwaiters⟩ := Semaphore.acquire_of_pos hpos ()
    exact .inl ⟨htrue, by omega, hwaiters⟩

/-- The loop drops the permit it holds. -/
theorem StepAccounts.drop (hqueued : s.inflight.waiters = []) {pc : LoopPc ε}
    (hended : s.ended a = none) (hheld : s.pc.held = 1) (hheld' : pc.held = 0)
    (hqueued' : pc.queued = []) (hentries : s.pc.undispatched ++ a.delivered = pc.undispatched) :
    StepAccounts s a { s.dropPermit with pc := pc } := by
  obtain ⟨hpermits, hwaiters⟩ := dropPermit_inflight hqueued
  refine .quiet hended rfl ?_ (hwaiters.trans hqueued'.symm) hentries
  show s.dropPermit.inflight.permits + pc.held = _
  omega

/-- The loop goes on without touching a permit. -/
theorem StepAccounts.move (hqueued : s.inflight.waiters = s.pc.queued) {pc : LoopPc ε}
    (hended : s.ended a = none) (hheld : pc.held = s.pc.held) (hqueued' : pc.queued = s.pc.queued)
    (hentries : s.pc.undispatched ++ a.delivered = pc.undispatched) :
    StepAccounts s a { s with pc := pc } :=
  .quiet hended rfl (congrArg (s.inflight.permits + ·) hheld) (hqueued.trans hqueued'.symm)
    hentries

/-! ### The loop by itself -/

theorem advance_top_accounts (hs : s.inflight.waiters = s.pc.queued) (hpc : s.pc = .top)
    (h : s.advance = some s') : StepAccounts s .advance s' := by
  simp only [WorkerLoop.advance, hpc] at h
  rw [hpc] at hs
  split at h
  next =>
      obtain rfl := Option.some.inj h
      exact .move (hs.trans (congrArg LoopPc.queued hpc).symm) rfl (by rw [hpc]; rfl)
        (by rw [hpc]; rfl) (by rw [hpc]; rfl)
  next =>
      obtain rfl := Option.some.inj h
      rcases acquire_cases s.inflight with
        ⟨htaken, hpermits, hwaiters⟩ | ⟨htaken, hpermits, hwaiters⟩
      · refine .quiet rfl rfl ?_ ?_ ?_
        · rw [htaken, hpc]
          exact hpermits
        · rw [htaken]
          exact hwaiters.trans hs
        · rw [htaken, hpc]
          rfl
      · refine .quiet rfl rfl ?_ ?_ ?_
        · rw [htaken, hpc]
          exact congrArg (· + 0) hpermits
        · rw [htaken]
          show (s.inflight.acquire ()).2.waiters = [()]
          rw [hwaiters, hs]
          rfl
        · rw [htaken, hpc]
          rfl

theorem advance_parked_accounts (hs : s.inflight.waiters = s.pc.queued) {granted : Bool}
    (hpc : s.pc = .parked granted) (h : s.advance = some s') : StepAccounts s .advance s' := by
  simp only [WorkerLoop.advance, hpc] at h
  cases granted with
  | true =>
      have hnil : s.inflight.waiters = [] := by rw [hs, hpc]; rfl
      split at h
      next =>
          obtain rfl := Option.some.inj h
          exact .drop hnil rfl (by rw [hpc]; rfl) rfl rfl (by rw [hpc]; rfl)
      next =>
          obtain rfl := Option.some.inj h
          exact .move hs rfl (by rw [hpc]; rfl) (by rw [hpc]; rfl) (by rw [hpc]; rfl)
  | false =>
      split at h
      next =>
          obtain rfl := Option.some.inj h
          refine .quiet rfl rfl (by rw [hpc]; rfl) ?_ (by rw [hpc]; rfl)
          show s.inflight.waiters.erase () = []
          rw [hs, hpc]
          rfl
      next => cases h

theorem advance_dispatching_accounts (hs : s.inflight.waiters = s.pc.queued) {held : Bool}
    {entries : List ε} (hpc : s.pc = .dispatching held entries) (h : s.advance = some s') :
    StepAccounts s .advance s' := by
  have hnil : s.inflight.waiters = [] := by
    rw [hs, hpc]
    rfl
  simp only [WorkerLoop.advance, hpc] at h
  cases entries with
  | nil =>
      cases held with
      | true =>
          obtain rfl := Option.some.inj h
          exact .drop hnil rfl (by rw [hpc]; rfl) rfl rfl (by rw [hpc]; rfl)
      | false =>
          obtain rfl := Option.some.inj h
          exact .move hs rfl (by rw [hpc]; rfl) (by rw [hpc]; rfl) (by rw [hpc]; rfl)
  | cons entry entries =>
      cases held with
      | true =>
          obtain rfl := Option.some.inj h
          exact .spawn rfl (by rw [hpc]; rfl) hnil (by rw [hpc]; rfl)
      | false =>
          rcases acquire_cases s.inflight with
            ⟨htaken, hpermits, hwaiters⟩ | ⟨htaken, hpermits, hwaiters⟩
          · rw [htaken] at h
            obtain rfl := Option.some.inj h
            exact .spawn rfl (by rw [hpc]; exact hpermits) (hwaiters.trans hnil) (by rw [hpc]; rfl)
          · -- more entries than slots: the loop waits with what it has got
            rw [htaken] at h
            obtain rfl := Option.some.inj h
            refine .quiet rfl rfl (by rw [hpc]; exact congrArg (· + 0) hpermits) ?_ ?_
            · show (s.inflight.acquire ()).2.waiters = [()]
              rw [hwaiters, hnil]
              rfl
            · rw [hpc]
              exact List.append_nil _

theorem advance_accounts (hs : s.inflight.waiters = s.pc.queued) (h : s.advance = some s') :
    StepAccounts s .advance s' := by
  cases hpc : s.pc with
  | top => exact advance_top_accounts hs hpc h
  | parked granted => exact advance_parked_accounts hs hpc h
  | reserved =>
      simp only [WorkerLoop.advance, hpc] at h
      obtain rfl := Option.some.inj h
      exact .move hs rfl (by rw [hpc]; rfl) (by rw [hpc]; rfl) (by rw [hpc]; rfl)
  | reading want =>
      simp only [WorkerLoop.advance, hpc] at h
      split at h
      next =>
          obtain rfl := Option.some.inj h
          exact .drop (by rw [hs, hpc]; rfl) rfl (by rw [hpc]; rfl) rfl rfl (by rw [hpc]; rfl)
      next => cases h
  | dispatching held entries => exact advance_dispatching_accounts hs hpc h
  | acquiring granted entries =>
      cases granted with
      | false =>
          simp only [WorkerLoop.advance, hpc] at h
          cases h
      | true =>
          cases entries with
          | nil =>
              simp only [WorkerLoop.advance, hpc] at h
              cases h
          | cons entry entries =>
              simp only [WorkerLoop.advance, hpc] at h
              obtain rfl := Option.some.inj h
              refine .spawn rfl (by rw [hpc]; rfl) ?_ (by rw [hpc]; rfl)
              rw [hpc] at hs
              exact hs
  | _ =>
      simp only [WorkerLoop.advance, hpc] at h
      cases h

/-! ### Redis answers, and jobs end -/

theorem readReply_accounts (hs : s.inflight.waiters = s.pc.queued) {reply : ReadReply ε}
    (h : s.readReply reply = some s') : StepAccounts s (.readReply reply) s' := by
  cases hpc : s.pc with
  | reading want =>
      have hnil : s.inflight.waiters = [] := by
        rw [hs, hpc]
        rfl
      simp only [WorkerLoop.readReply, hpc] at h
      split at h
      next => cases h
      next =>
          cases reply with
          | entries entries =>
              cases entries with
              | nil =>
                  obtain rfl := Option.some.inj h
                  exact .drop hnil rfl (by rw [hpc]; rfl) rfl rfl (by rw [hpc]; rfl)
              | cons entry entries =>
                  obtain rfl := Option.some.inj h
                  exact .move hs rfl (by rw [hpc]; rfl) (by rw [hpc]; rfl) (by rw [hpc]; rfl)
          | noGroup =>
              obtain rfl := Option.some.inj h
              exact .drop hnil rfl (by rw [hpc]; rfl) rfl rfl (by rw [hpc]; rfl)
          | failed =>
              obtain rfl := Option.some.inj h
              exact .drop hnil rfl (by rw [hpc]; rfl) rfl rfl (by rw [hpc]; rfl)
  | _ =>
      simp only [WorkerLoop.readReply, hpc] at h
      cases h

theorem reclaimReply_accounts (hs : s.inflight.waiters = s.pc.queued) {claimed : Option (List ε)}
    (h : s.reclaimReply claimed = some s') : StepAccounts s (.reclaimReply claimed) s' := by
  cases hpc : s.pc with
  | reclaiming want =>
      simp only [WorkerLoop.reclaimReply, hpc] at h
      cases claimed with
      | some entries =>
          obtain rfl := Option.some.inj h
          exact .move hs rfl (by rw [hpc]; rfl) (by rw [hpc]; rfl) (by rw [hpc]; rfl)
      | none =>
          obtain rfl := Option.some.inj h
          exact .move hs rfl (by rw [hpc]; rfl) (by rw [hpc]; rfl) (by rw [hpc]; rfl)
  | _ =>
      simp only [WorkerLoop.reclaimReply, hpc] at h
      cases h

/-- The job's permit is handed to the loop where the loop is queued for one. -/
theorem grant_queued {pc : LoopPc ε} {waiters : List Unit} (h : pc.queued = () :: waiters) :
    (WorkerLoop.grant pc).queued = [] ∧ waiters = [] ∧
      (WorkerLoop.grant pc).held = pc.held + 1 ∧
      (WorkerLoop.grant pc).undispatched = pc.undispatched := by
  cases pc with
  | parked granted =>
      cases granted with
      | false => exact ⟨rfl, (List.cons.inj h).2.symm, rfl, rfl⟩
      | true => cases h
  | acquiring granted entries =>
      cases granted with
      | false => exact ⟨rfl, (List.cons.inj h).2.symm, rfl, rfl⟩
      | true => cases h
  | _ => cases h

theorem jobDone_accounts (hs : s.inflight.waiters = s.pc.queued) {i : Nat}
    (h : s.jobDone i = some s') : StepAccounts s (.jobDone i) s' := by
  obtain ⟨hi, hfree, hgrant⟩ := jobDone_cases h
  have hended : s.ended (.jobDone i) = some s.running[i] := List.getElem?_eq_getElem hi
  have hlen : (s.running.eraseIdx i).length + 1 = s.running.length := by
    rw [List.length_eraseIdx_of_lt hi]
    omega
  have hperm : (s.running ++ []).Perm ((s.ended (.jobDone i)).toList ++ s.running.eraseIdx i) := by
    rw [hended, List.append_nil]
    exact (List.getElem_cons_eraseIdx_perm hi).symm
  have horder : (s.running.eraseIdx i).Sublist (s.running ++ []) := by
    rw [List.append_nil]
    exact List.eraseIdx_sublist s.running i
  cases hwaiters : s.inflight.waiters with
  | nil =>
      obtain ⟨hpermits, hwaiters'⟩ := dropPermit_inflight hwaiters
      rw [hfree hwaiters]
      refine ⟨?_, hwaiters'.trans (hwaiters.symm.trans hs), List.append_nil _, hperm, horder⟩
      show s.dropPermit.inflight.permits + s.pc.held + (s.running.eraseIdx i).length =
        s.inflight.permits + s.pc.held + s.running.length
      omega
  | cons u waiters =>
      obtain ⟨-, hpermits, hwaiters'⟩ := Semaphore.release_of_cons hwaiters
      obtain ⟨hqueued, hnil, hheld, hentries⟩ := grant_queued (hs.symm.trans hwaiters)
      rw [hgrant waiters hwaiters]
      refine ⟨?_, hwaiters'.trans (hnil.trans hqueued.symm), ?_, hperm, horder⟩
      · show s.inflight.release.2.permits + (WorkerLoop.grant s.pc).held +
          (s.running.eraseIdx i).length = s.inflight.permits + s.pc.held + s.running.length
        omega
      · exact (List.append_nil _).trans hentries.symm

/-- Every step accounts for permits, entries and jobs, whatever Redis returns. -/
theorem step_accounts (hs : s.inflight.waiters = s.pc.queued) (h : s.step a = some s') :
    StepAccounts s a s' := by
  cases a with
  | advance => exact advance_accounts hs h
  | readReply reply => exact readReply_accounts hs h
  | reclaimReply claimed => exact reclaimReply_accounts hs h
  | recovered =>
      cases hpc : s.pc with
      | recovering =>
          simp only [WorkerLoop.step, hpc] at h
          obtain rfl := Option.some.inj h
          exact .move hs rfl (by rw [hpc]; rfl) (by rw [hpc]; rfl) (by rw [hpc]; rfl)
      | _ =>
          simp only [WorkerLoop.step, hpc] at h
          cases h
  | jobDone i => exact jobDone_accounts hs h
  | requestShutdown =>
      obtain rfl := Option.some.inj h
      exact .quiet rfl rfl rfl hs (List.append_nil _)

end

/-! ## Runs -/

/-- What has been accounted for after some steps. -/
structure Accounts (capacity : Nat) (s : WorkerLoop ε) (log : History ε) : Prop where
  permits : s.allPermits = capacity
  queued : s.inflight.waiters = s.pc.queued
  entries : log.delivered = log.spawned ++ s.pc.undispatched
  jobs : log.spawned.Perm (log.ended ++ s.running)
  order : s.running.Sublist log.spawned

theorem Accounts.step {capacity : Nat} {s s' : WorkerLoop ε} {log : History ε} {a : LoopAction ε}
    (hs : Accounts capacity s log) (h : s.step a = some s') :
    Accounts capacity s' (log ++ [(s, a, s')]) := by
  have hstep := step_accounts hs.queued h
  have hdelivered : History.delivered (log ++ [(s, a, s')]) = log.delivered ++ a.delivered := by
    rw [History.delivered, List.flatMap_append, List.flatMap_singleton]
    rfl
  have hspawned : History.spawned (log ++ [(s, a, s')]) = log.spawned ++ spawned (s, a, s') := by
    rw [History.spawned, List.flatMap_append, List.flatMap_singleton]
    rfl
  have hended : History.ended (log ++ [(s, a, s')]) = log.ended ++ (s.ended a).toList := by
    rw [History.ended, List.flatMap_append, List.flatMap_singleton]
    rfl
  refine ⟨hstep.permits.trans hs.permits, hstep.queued, ?_, ?_, ?_⟩
  · rw [hdelivered, hspawned, hs.entries, List.append_assoc, hstep.entries, List.append_assoc]
  · rw [hspawned, hended, List.append_assoc]
    have hbefore := hs.jobs.append_right (spawned (s, a, s'))
    rw [List.append_assoc] at hbefore
    exact hbefore.trans (hstep.jobs.append_left _)
  · rw [hspawned]
    exact hstep.order.trans (hs.order.append_right _)

theorem Accounts.exec {poolCapacity : Nat} {as : List (LoopAction ε)} {s : WorkerLoop ε}
    (h : (workerRun ε poolCapacity).exec (workerRun ε poolCapacity).init as = some s) :
    Accounts (max poolCapacity 1) s
      ((workerRun ε poolCapacity).trace (workerRun ε poolCapacity).init as) :=
  System.exec_history (fun s log => Accounts (max poolCapacity 1) s log)
    ⟨rfl, rfl, rfl, List.Perm.refl _, List.Sublist.refl _⟩
    (fun _ _ _ _ hs hstep => hs.step hstep) h

/-- How the drain at the end of `run` ends. -/
inductive DrainEnd where
  | clean
  | timedOut (inFlight : Nat)
deriving DecidableEq

/-- The `timeout` around `acquire_many` when it is polled after the loop; nobody else asks for
    permits by then. -/
def WorkerLoop.drain (poolCapacity : Nat) (s : WorkerLoop ε) (expired : Bool) : Option DrainEnd :=
  let capacity := max poolCapacity 1
  match s.pc with
  | .draining =>
      if capacity % 2 ^ 32 ≤ s.inflight.availablePermits then some .clean
      else if expired then some (.timedOut (capacity - s.inflight.availablePermits))
      else none
  | _ => none

end Queue
end BrowserHeadless
