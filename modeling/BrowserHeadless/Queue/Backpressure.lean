/-
  BrowserHeadless.Queue.Backpressure

  The loop of the worker's `run` (src/worker.rs) with its semaphore: how many entries it
  asks Redis for, and the permits it takes for the jobs it spawns.

  Jobs end at any time, and Redis answers as the schedule says.  While it returns no more
  entries than it was asked for, the loop finds a permit for every entry at once and never
  waits between two reads of the shutdown flag (`backpressure`).
-/

import BrowserHeadless.Lib.Semaphore
import BrowserHeadless.Lib.System

namespace BrowserHeadless
namespace Queue

open Lib (Semaphore System)

variable {ε : Type}

/-! ## The loop -/

/-- What `poll_new` returns; `NOGROUP` is an error of its own. -/
inductive ReadReply (ε : Type) where
  | entries (entries : List ε)
  | noGroup
  | failed

/-- Where the loop stands. -/
inductive LoopPc (ε : Type) where
  /-- At the top, before the first `select!`. -/
  | top
  /-- In that `select!`, queued for a permit; `granted` when it has been handed over. -/
  | parked (granted : Bool)
  /-- Holds `first`; `want` comes next. -/
  | reserved
  /-- Holds `first`, in the second `select!`. -/
  | reading (want : Nat)
  /-- In `reclaim`; `first` is dropped. -/
  | reclaiming (want : Nat)
  /-- In one of the two `for` loops; `held` is `first`, which the loop over reclaimed
      entries does not have. -/
  | dispatching (held : Bool) (entries : List ε)
  /-- Waits for a permit inside a `for` loop. -/
  | acquiring (granted : Bool) (entries : List ε)
  /-- In `ensure_group`, or sleeping and connecting again. -/
  | recovering
  /-- Left the loop. -/
  | draining

/-- The loop and the jobs it has spawned. -/
structure WorkerLoop (ε : Type) where
  inflight : Semaphore Unit
  running : List ε
  shutdown : Bool
  pc : LoopPc ε

/-- What happens: the loop goes on by itself, Redis answers, the connection is back, a job
    ends and drops its permit, or shutdown is requested. -/
inductive LoopAction (ε : Type) where
  | advance
  | readReply (reply : ReadReply ε)
  /-- `none` when `XAUTOCLAIM` failed. -/
  | reclaimReply (claimed : Option (List ε))
  | recovered
  | jobDone (i : Nat)
  | requestShutdown

namespace WorkerLoop

/-- The state of a worker whose pool can run `poolCapacity` captures. -/
def init (poolCapacity : Nat) : WorkerLoop ε where
  inflight := Semaphore.new (max poolCapacity 1)
  running := []
  shutdown := false
  pc := .top

/-- `drop` of a permit of the loop, which is not queued itself. -/
def dropPermit (s : WorkerLoop ε) : WorkerLoop ε := { s with inflight := s.inflight.release.2 }

/-- `spawn_job` with a permit. -/
def spawnJob (s : WorkerLoop ε) (entry : ε) : WorkerLoop ε :=
  { s with running := s.running ++ [entry] }

/-- The loop gets the permit it is queued for. -/
def grant : LoopPc ε → LoopPc ε
  | .parked _ => .parked true
  | .acquiring _ entries => .acquiring true entries
  | pc => pc

/-- The loop goes on, unless it waits. -/
def advance (s : WorkerLoop ε) : Option (WorkerLoop ε) :=
  match s.pc with
  | .top =>
      if s.shutdown then some { s with pc := .draining }
      else
        let (taken, inflight) := s.inflight.acquire ()
        some { s with inflight := inflight, pc := if taken then .reserved else .parked false }
  | .parked granted =>
      if s.shutdown then
        -- the acquire is dropped: it leaves the queue, or gives its permit back
        if granted then some { s.dropPermit with pc := .draining }
        else some { s with inflight := s.inflight.cancel (), pc := .draining }
      else if granted then some { s with pc := .reserved }
      else none
  | .reserved => some { s with pc := .reading (1 + s.inflight.availablePermits) }
  | .reading _ => if s.shutdown then some { s.dropPermit with pc := .draining } else none
  | .dispatching held [] =>
      if held then some { s.dropPermit with pc := .top } else some { s with pc := .top }
  | .dispatching true (entry :: entries) =>
      some { s.spawnJob entry with pc := .dispatching false entries }
  | .dispatching false (entry :: entries) =>
      let (taken, inflight) := s.inflight.acquire ()
      if taken then
        some { ({ s with inflight := inflight }).spawnJob entry with
          pc := .dispatching false entries }
      else some { s with inflight := inflight, pc := .acquiring false (entry :: entries) }
  | .acquiring true (entry :: entries) =>
      some { s.spawnJob entry with pc := .dispatching false entries }
  | _ => none

/-- The arms of `match read`.  The shutdown flag is polled before the read. -/
def readReply (s : WorkerLoop ε) (reply : ReadReply ε) : Option (WorkerLoop ε) :=
  match s.pc with
  | .reading want =>
      if s.shutdown then none
      else
        match reply with
        | .entries [] => some { s.dropPermit with pc := .reclaiming want }
        | .entries entries => some { s with pc := .dispatching true entries }
        | .noGroup | .failed => some { s.dropPermit with pc := .recovering }
  | _ => none

/-- The arms of `match reclaim(..)`. -/
def reclaimReply (s : WorkerLoop ε) (claimed : Option (List ε)) : Option (WorkerLoop ε) :=
  match s.pc with
  | .reclaiming _ =>
      match claimed with
      | some entries => some { s with pc := .dispatching false entries }
      | none => some { s with pc := .top }
  | _ => none

/-- A job ends: its permit goes to the loop, if it is queued, or becomes free. -/
def jobDone (s : WorkerLoop ε) (i : Nat) : Option (WorkerLoop ε) :=
  if i < s.running.length then
    let (waiter, inflight) := s.inflight.release
    some { s with
      inflight := inflight
      running := s.running.eraseIdx i
      pc := if waiter.isSome then grant s.pc else s.pc }
  else none

/-- One step of the worker. -/
def step (s : WorkerLoop ε) : LoopAction ε → Option (WorkerLoop ε)
  | .advance => s.advance
  | .readReply reply => s.readReply reply
  | .reclaimReply claimed => s.reclaimReply claimed
  | .recovered =>
      match s.pc with
      | .recovering => some { s with pc := .top }
      | _ => none
  | .jobDone i => s.jobDone i
  | .requestShutdown => some { s with shutdown := true }

end WorkerLoop

/-- `run`. -/
def workerRun (ε : Type) (poolCapacity : Nat) : System (WorkerLoop ε) (LoopAction ε) :=
  ⟨WorkerLoop.init poolCapacity, WorkerLoop.step⟩

/-- `XREADGROUP` and `XAUTOCLAIM` return at most `COUNT` entries. -/
def AnswersCount (s : WorkerLoop ε) (a : LoopAction ε) : Prop :=
  match a, s.pc with
  | .readReply (.entries entries), .reading want => entries.length ≤ want
  | .reclaimReply (some entries), .reclaiming want => entries.length ≤ want
  | _, _ => True

/-! ## Permits -/

/-- The permits the loop holds. -/
def LoopPc.held : LoopPc ε → Nat
  | .parked granted => granted.toNat
  | .reserved | .reading _ => 1
  | .dispatching held _ => held.toNat
  | .acquiring granted _ => granted.toNat
  | _ => 0

/-- The queue of the semaphore: nobody else takes permits. -/
def LoopPc.queued : LoopPc ε → List Unit
  | .parked false | .acquiring false _ => [()]
  | _ => []

/-- The free permits cover what the loop has asked for or still has to spawn. -/
def LoopPc.Covered (permits : Nat) : LoopPc ε → Prop
  | .reading want => want ≤ permits + 1
  | .reclaiming want => want ≤ permits
  | .dispatching held entries => entries.length ≤ permits + held.toNat
  | .acquiring _ _ => False
  | _ => True

/-- Every permit is free, held by the loop or held by a job. -/
structure LoopInv (capacity : Nat) (s : WorkerLoop ε) : Prop where
  permits : s.inflight.permits + s.pc.held + s.running.length = capacity
  queued : s.inflight.waiters = s.pc.queued
  covered : s.pc.Covered s.inflight.permits

section Invariant

variable {capacity : Nat} {s s' : WorkerLoop ε}

theorem LoopPc.Covered.mono {pc : LoopPc ε} {m n : Nat} (h : pc.Covered m) (hle : m ≤ n) :
    pc.Covered n := by
  cases pc with
  | reading want => exact Nat.le_trans h (Nat.add_le_add_right hle 1)
  | reclaiming want => exact Nat.le_trans h hle
  | dispatching held entries => exact Nat.le_trans h (Nat.add_le_add_right hle _)
  | acquiring granted entries => exact h
  | _ => exact True.intro

/-- A dropped permit is free again. -/
theorem dropPermit_inflight (h : s.inflight.waiters = []) :
    s.dropPermit.inflight.permits = s.inflight.permits + 1 ∧
      s.dropPermit.inflight.waiters = [] :=
  (Semaphore.release_of_nil h).2

/-- The loop drops the permit it holds and goes on without one. -/
theorem LoopInv.drop (hs : LoopInv capacity s) {pc₀ pc : LoopPc ε} (hpc : s.pc = pc₀)
    (hheld : pc₀.held = 1) (hqueued : pc₀.queued = []) (hheld' : pc.held = 0)
    (hqueued' : pc.queued = []) (hcovered : pc.Covered (s.inflight.permits + 1)) :
    LoopInv capacity { s.dropPermit with pc := pc } := by
  subst hpc
  obtain ⟨hpermits, hwaiters⟩ := dropPermit_inflight (hs.queued.trans hqueued)
  have hsum := hs.permits
  refine ⟨?_, ?_, ?_⟩
  · show s.dropPermit.inflight.permits + pc.held + s.running.length = capacity
    omega
  · exact hwaiters.trans hqueued'.symm
  · show pc.Covered s.dropPermit.inflight.permits
    rw [hpermits]
    exact hcovered

/-- The loop goes on without touching a permit. -/
theorem LoopInv.move (hs : LoopInv capacity s) {pc₀ pc : LoopPc ε} (hpc : s.pc = pc₀)
    (hheld : pc.held = pc₀.held) (hqueued : pc.queued = pc₀.queued)
    (hcovered : pc.Covered s.inflight.permits) : LoopInv capacity { s with pc := pc } := by
  subst hpc
  refine ⟨?_, hs.queued.trans hqueued.symm, hcovered⟩
  show s.inflight.permits + pc.held + s.running.length = capacity
  rw [hheld]
  exact hs.permits

/-- The loop spawns a job with the permit it holds. -/
theorem LoopInv.spawn (hs : LoopInv capacity s) {pc₀ pc : LoopPc ε} (entry : ε)
    (hpc : s.pc = pc₀) (hheld : pc₀.held = pc.held + 1) (hqueued : pc.queued = pc₀.queued)
    (hcovered : pc.Covered s.inflight.permits) :
    LoopInv capacity { s.spawnJob entry with pc := pc } := by
  subst hpc
  have hsum := hs.permits
  refine ⟨?_, hs.queued.trans hqueued.symm, hcovered⟩
  show s.inflight.permits + pc.held + (s.running ++ [entry]).length = capacity
  rw [List.length_append, List.length_singleton]
  omega

/-- The loop takes a free permit. -/
theorem LoopInv.take (hs : LoopInv capacity s) (hpos : 0 < s.inflight.permits)
    {pc₀ pc : LoopPc ε} (hpc : s.pc = pc₀) (hheld : pc.held = pc₀.held + 1)
    (hqueued : pc.queued = pc₀.queued) (hcovered : pc.Covered (s.inflight.permits - 1)) :
    LoopInv capacity { s with inflight := (s.inflight.acquire ()).2, pc := pc } := by
  subst hpc
  obtain ⟨-, hpermits, hwaiters⟩ := Semaphore.acquire_of_pos hpos ()
  have hsum := hs.permits
  refine ⟨?_, ?_, ?_⟩
  · show (s.inflight.acquire ()).2.permits + pc.held + s.running.length = capacity
    omega
  · show (s.inflight.acquire ()).2.waiters = pc.queued
    rw [hwaiters, hqueued]
    exact hs.queued
  · show pc.Covered (s.inflight.acquire ()).2.permits
    rw [hpermits]
    exact hcovered

/-- A job that ends frees its permit or hands it to the loop. -/
theorem jobDone_cases {i : Nat} (h : s.jobDone i = some s') :
    i < s.running.length ∧
      ((s.inflight.waiters = [] →
          s' = { s.dropPermit with running := s.running.eraseIdx i }) ∧
        ∀ waiters, s.inflight.waiters = () :: waiters →
          s' = { s.dropPermit with
            running := s.running.eraseIdx i
            pc := WorkerLoop.grant s.pc }) := by
  simp only [WorkerLoop.jobDone] at h
  split at h
  next hi =>
    obtain rfl := Option.some.inj h
    refine ⟨hi, fun hnil => ?_, fun waiters hcons => ?_⟩
    · rw [(Semaphore.release_of_nil hnil).1]
      rfl
    · rw [(Semaphore.release_of_cons hcons).1]
      rfl
  next => exact absurd h (by simp)

/-- Only the loop at its top is ever queued. -/
theorem LoopInv.parked_of_queued (hs : LoopInv capacity s) (h : s.pc.queued ≠ []) :
    s.pc = .parked false := by
  have hcovered := hs.covered
  cases hpc : s.pc with
  | parked granted =>
      cases granted with
      | false => rfl
      | true =>
          rw [hpc] at h
          exact absurd rfl h
  | acquiring granted entries =>
      rw [hpc] at hcovered
      exact hcovered.elim
  | _ =>
      rw [hpc] at h
      exact absurd rfl h

/-- Every job that ends leaves more room. -/
theorem LoopInv.jobDone (hs : LoopInv capacity s) {i : Nat} (h : s.jobDone i = some s') :
    LoopInv capacity s' := by
  obtain ⟨hi, hfree, hgrant⟩ := jobDone_cases h
  have hsum := hs.permits
  have hlen : (s.running.eraseIdx i).length + 1 = s.running.length := by
    rw [List.length_eraseIdx_of_lt hi]
    omega
  by_cases hqueued : s.pc.queued = []
  · have hnil := hs.queued.trans hqueued
    obtain ⟨hpermits, hwaiters⟩ := dropPermit_inflight hnil
    rw [hfree hnil]
    refine ⟨?_, hwaiters.trans hqueued.symm, ?_⟩
    · show s.dropPermit.inflight.permits + s.pc.held + (s.running.eraseIdx i).length = capacity
      omega
    · show s.pc.Covered s.dropPermit.inflight.permits
      rw [hpermits]
      exact hs.covered.mono (Nat.le_succ _)
  · have hparked := hs.parked_of_queued hqueued
    have hcons : s.inflight.waiters = () :: [] := by
      rw [hs.queued, hparked]
      rfl
    obtain ⟨-, hpermits, hwaiters⟩ := Semaphore.release_of_cons hcons
    rw [hgrant [] hcons, hparked]
    rw [hparked] at hsum
    refine ⟨?_, hwaiters, True.intro⟩
    have hsum' : s.inflight.permits + 0 + s.running.length = capacity := hsum
    show s.inflight.release.2.permits + 1 + (s.running.eraseIdx i).length = capacity
    omega

/-- There is a free permit for every entry that the loop still has to spawn a job for. -/
theorem LoopInv.length_le_permits (hs : LoopInv capacity s) {held : Bool} {entries : List ε}
    (hpc : s.pc = .dispatching held entries) : entries.length ≤ s.inflight.permits + held.toNat := by
  have hcovered := hs.covered
  rw [hpc] at hcovered
  exact hcovered

/-- The next acquire of a `for` loop takes a permit at once. -/
theorem LoopInv.permits_pos (hs : LoopInv capacity s) {entry : ε} {entries : List ε}
    (hpc : s.pc = .dispatching false (entry :: entries)) : 0 < s.inflight.permits := by
  have hle := hs.length_le_permits hpc
  rw [List.length_cons, Bool.toNat_false] at hle
  omega

/-! ### The loop by itself -/

theorem LoopInv.advance_top (hs : LoopInv capacity s) (hpc : s.pc = .top)
    (h : s.advance = some s') : LoopInv capacity s' := by
  simp only [WorkerLoop.advance, hpc] at h
  split at h
  next =>
    obtain rfl := Option.some.inj h
    exact hs.move hpc rfl rfl True.intro
  next =>
    obtain rfl := Option.some.inj h
    rcases Nat.eq_zero_or_pos s.inflight.permits with hzero | hpos
    · -- all permits are taken: the loop waits for a job to end
      obtain ⟨hfalse, hpermits, hwaiters⟩ := Semaphore.acquire_of_zero hzero ()
      have hsum := hs.permits
      rw [hpc] at hsum
      rw [hfalse, if_neg (by decide)]
      refine ⟨?_, ?_, True.intro⟩
      · show (s.inflight.acquire ()).2.permits + 0 + s.running.length = capacity
        have hsum' : s.inflight.permits + 0 + s.running.length = capacity := hsum
        omega
      · show (s.inflight.acquire ()).2.waiters = [()]
        rw [hwaiters, hs.queued, hpc]
        rfl
    · rw [(Semaphore.acquire_of_pos hpos ()).1, if_pos rfl]
      exact hs.take hpos hpc rfl rfl True.intro

theorem LoopInv.advance_parked (hs : LoopInv capacity s) {granted : Bool}
    (hpc : s.pc = .parked granted) (h : s.advance = some s') : LoopInv capacity s' := by
  simp only [WorkerLoop.advance, hpc] at h
  cases granted with
  | true =>
      split at h
      next =>
        obtain rfl := Option.some.inj h
        exact hs.drop hpc rfl rfl rfl rfl True.intro
      next =>
        obtain rfl := Option.some.inj h
        exact hs.move hpc rfl rfl True.intro
  | false =>
      split at h
      next =>
        obtain rfl := Option.some.inj h
        have hsum := hs.permits
        rw [hpc] at hsum
        refine ⟨hsum, ?_, True.intro⟩
        show s.inflight.waiters.erase () = []
        rw [hs.queued, hpc]
        rfl
      next => exact absurd h (by simp)

theorem LoopInv.advance_dispatching (hs : LoopInv capacity s) {held : Bool} {entries : List ε}
    (hpc : s.pc = .dispatching held entries) (h : s.advance = some s') : LoopInv capacity s' := by
  have hle := hs.length_le_permits hpc
  simp only [WorkerLoop.advance, hpc] at h
  cases entries with
  | nil =>
      cases held with
      | true =>
          obtain rfl := Option.some.inj h
          exact hs.drop hpc rfl rfl rfl rfl True.intro
      | false =>
          obtain rfl := Option.some.inj h
          exact hs.move hpc rfl rfl True.intro
  | cons entry entries =>
      rw [List.length_cons] at hle
      cases held with
      | true =>
          obtain rfl := Option.some.inj h
          exact hs.spawn entry hpc rfl rfl (Nat.le_of_succ_le_succ hle)
      | false =>
          -- the entry has a free permit of its own
          have hpos := hs.permits_pos hpc
          obtain ⟨htrue, hpermits, -⟩ := Semaphore.acquire_of_pos hpos ()
          rw [htrue] at h
          obtain rfl := Option.some.inj h
          have htake : LoopInv capacity
              { s with
                inflight := (s.inflight.acquire ()).2
                pc := .dispatching true (entry :: entries) } := by
            refine hs.take hpos hpc rfl rfl ?_
            show entries.length + 1 ≤ s.inflight.permits - 1 + 1
            rw [Bool.toNat_false] at hle
            omega
          refine htake.spawn entry rfl rfl rfl ?_
          show entries.length ≤ (s.inflight.acquire ()).2.permits + 0
          rw [hpermits]
          rw [Bool.toNat_false] at hle
          omega

theorem LoopInv.advance (hs : LoopInv capacity s) (h : s.advance = some s') :
    LoopInv capacity s' := by
  cases hpc : s.pc with
  | top => exact hs.advance_top hpc h
  | parked granted => exact hs.advance_parked hpc h
  | reserved =>
      simp only [WorkerLoop.advance, hpc] at h
      obtain rfl := Option.some.inj h
      refine hs.move hpc rfl rfl ?_
      show 1 + s.inflight.permits ≤ s.inflight.permits + 1
      omega
  | reading want =>
      simp only [WorkerLoop.advance, hpc] at h
      split at h
      next =>
        obtain rfl := Option.some.inj h
        exact hs.drop hpc rfl rfl rfl rfl True.intro
      next => exact absurd h (by simp)
  | dispatching held entries => exact hs.advance_dispatching hpc h
  | acquiring granted entries =>
      have hcovered := hs.covered
      rw [hpc] at hcovered
      exact hcovered.elim
  | _ =>
      simp only [WorkerLoop.advance, hpc] at h
      exact absurd h (by simp)

/-! ### Redis answers -/

/-- A read that returns no more than `want` entries. -/
theorem LoopInv.readReply (hs : LoopInv capacity s) {reply : ReadReply ε}
    (hcount : AnswersCount s (.readReply reply)) (h : s.readReply reply = some s') :
    LoopInv capacity s' := by
  have hcovered := hs.covered
  cases hpc : s.pc with
  | reading want =>
      rw [hpc] at hcovered
      have hwant : want ≤ s.inflight.permits + 1 := hcovered
      simp only [WorkerLoop.readReply, hpc] at h
      split at h
      next => exact absurd h (by simp)
      next =>
        cases reply with
        | entries entries =>
            cases entries with
            | nil =>
                obtain rfl := Option.some.inj h
                exact hs.drop hpc rfl rfl rfl rfl hwant
            | cons entry entries =>
                obtain rfl := Option.some.inj h
                simp only [AnswersCount, hpc] at hcount
                refine hs.move hpc rfl rfl ?_
                show (entry :: entries).length ≤ s.inflight.permits + 1
                omega
        | noGroup =>
            obtain rfl := Option.some.inj h
            exact hs.drop hpc rfl rfl rfl rfl True.intro
        | failed =>
            obtain rfl := Option.some.inj h
            exact hs.drop hpc rfl rfl rfl rfl True.intro
  | _ =>
      simp only [WorkerLoop.readReply, hpc] at h
      exact absurd h (by simp)

/-- A claim of no more than `want` entries. -/
theorem LoopInv.reclaimReply (hs : LoopInv capacity s) {claimed : Option (List ε)}
    (hcount : AnswersCount s (.reclaimReply claimed)) (h : s.reclaimReply claimed = some s') :
    LoopInv capacity s' := by
  have hcovered := hs.covered
  cases hpc : s.pc with
  | reclaiming want =>
      rw [hpc] at hcovered
      have hwant : want ≤ s.inflight.permits := hcovered
      simp only [WorkerLoop.reclaimReply, hpc] at h
      cases claimed with
      | some entries =>
          obtain rfl := Option.some.inj h
          simp only [AnswersCount, hpc] at hcount
          refine hs.move hpc rfl rfl ?_
          show entries.length ≤ s.inflight.permits + 0
          omega
      | none =>
          obtain rfl := Option.some.inj h
          exact hs.move hpc rfl rfl True.intro
  | _ =>
      simp only [WorkerLoop.reclaimReply, hpc] at h
      exact absurd h (by simp)

/-- Every step keeps the count of the permits. -/
theorem LoopInv.step (hs : LoopInv capacity s) {a : LoopAction ε} (hcount : AnswersCount s a)
    (h : s.step a = some s') : LoopInv capacity s' := by
  cases a with
  | advance => exact hs.advance h
  | readReply reply => exact hs.readReply hcount h
  | reclaimReply claimed => exact hs.reclaimReply hcount h
  | recovered =>
      cases hpc : s.pc with
      | recovering =>
          simp only [WorkerLoop.step, hpc] at h
          obtain rfl := Option.some.inj h
          exact hs.move hpc rfl rfl True.intro
      | _ =>
          simp only [WorkerLoop.step, hpc] at h
          exact absurd h (by simp)
  | jobDone i => exact hs.jobDone h
  | requestShutdown =>
      obtain rfl := Option.some.inj h
      exact ⟨hs.permits, hs.queued, hs.covered⟩

theorem loopInv_init (poolCapacity : Nat) :
    LoopInv (max poolCapacity 1) (WorkerLoop.init poolCapacity : WorkerLoop ε) :=
  ⟨rfl, rfl, True.intro⟩

/-! ## The loop never waits between two reads of the flag -/

/-- The end of a `for` loop. -/
theorem advance_dispatching_nil {held : Bool} (hpc : s.pc = .dispatching held []) :
    ∃ u, s.advance = some u ∧ u.pc = .top ∧ u.shutdown = s.shutdown := by
  simp only [WorkerLoop.advance, hpc]
  cases held with
  | true => exact ⟨_, rfl, rfl, rfl⟩
  | false => exact ⟨_, rfl, rfl, rfl⟩

/-- One round of a `for` loop. -/
theorem LoopInv.advance_dispatching_cons (hs : LoopInv capacity s) {held : Bool} {entry : ε}
    {entries : List ε} (hpc : s.pc = .dispatching held (entry :: entries)) :
    ∃ u, s.advance = some u ∧ u.pc = .dispatching false entries ∧ u.shutdown = s.shutdown := by
  simp only [WorkerLoop.advance, hpc]
  cases held with
  | true => exact ⟨_, rfl, rfl, rfl⟩
  | false =>
      rw [(Semaphore.acquire_of_pos (hs.permits_pos hpc) ()).1, if_pos rfl]
      exact ⟨_, rfl, rfl, rfl⟩

/-- The `for` loops run to their end without any other step. -/
theorem LoopInv.exec_dispatching (poolCapacity : Nat) (hs : LoopInv capacity s) {held : Bool}
    {entries : List ε} (hpc : s.pc = .dispatching held entries) :
    ∃ t, (workerRun ε poolCapacity).exec s (List.replicate (entries.length + 1) .advance) =
        some t ∧ t.pc = .top ∧ t.shutdown = s.shutdown := by
  induction entries generalizing s held with
  | nil =>
      obtain ⟨u, hstep, hu, hflag⟩ := advance_dispatching_nil hpc
      exact ⟨u, (System.exec_cons_eq_some _).mpr ⟨u, hstep, rfl⟩, hu, hflag⟩
  | cons entry entries ih =>
      obtain ⟨u, hstep, hu, hflag⟩ := hs.advance_dispatching_cons hpc
      obtain ⟨t, hrun, htop, hsame⟩ := ih (hs.advance hstep) hu
      exact ⟨t, (System.exec_cons_eq_some _).mpr ⟨u, hstep, hrun⟩, htop, hsame.trans hflag⟩

end Invariant

/-- The loop asks for no more entries than there are free slots, each entry it has got has
    a slot, every acquire in a `for` loop takes a permit at once, the `for` loops lead back
    to the top by themselves, and the top sees the flag. -/
structure Unblocked (capacity : Nat) (s : WorkerLoop ε) : Prop where
  running_le : s.running.length ≤ capacity
  asks_free : ∀ want, s.pc = .reading want ∨ s.pc = .reclaiming want →
    s.running.length + want ≤ capacity
  got_free : ∀ held entries, s.pc = .dispatching held entries →
    s.running.length + entries.length ≤ capacity
  acquires : ∀ entry entries, s.pc = .dispatching false (entry :: entries) →
    (s.inflight.acquire ()).1 = true
  never_waits : ∀ granted entries, s.pc ≠ .acquiring granted entries
  returns : ∀ held entries, s.pc = .dispatching held entries →
    ∃ t, (workerRun ε capacity).exec s (List.replicate (entries.length + 1) .advance) = some t ∧
      t.pc = .top ∧ t.shutdown = s.shutdown
  observes : s.pc = .top → s.shutdown = true →
    s.step .advance = some { s with pc := .draining }

theorem LoopInv.unblocked {capacity : Nat} {s : WorkerLoop ε} (hs : LoopInv capacity s) :
    Unblocked capacity s := by
  have hsum := hs.permits
  have hcovered := hs.covered
  refine ⟨by omega, ?_, ?_, ?_, ?_, ?_, ?_⟩
  · rintro want (hpc | hpc) <;> rw [hpc] at hsum hcovered
    · have hwant : want ≤ s.inflight.permits + 1 := hcovered
      have hsum' : s.inflight.permits + 1 + s.running.length = capacity := hsum
      omega
    · have hwant : want ≤ s.inflight.permits := hcovered
      omega
  · intro held entries hpc
    have hle := hs.length_le_permits hpc
    rw [hpc] at hsum
    have hsum' : s.inflight.permits + held.toNat + s.running.length = capacity := hsum
    omega
  · exact fun entry entries hpc => (Semaphore.acquire_of_pos (hs.permits_pos hpc) ()).1
  · intro granted entries hpc
    rw [hpc] at hcovered
    exact hcovered
  · exact fun held entries hpc => hs.exec_dispatching capacity hpc
  · intro hpc hflag
    show s.advance = _
    rw [WorkerLoop.advance, hpc]
    exact if_pos hflag

/-- For every capacity and every run in which Redis returns no more than it was asked for,
    whenever the jobs end. -/
theorem backpressure (poolCapacity : Nat) (as : List (LoopAction ε))
    (hcount : (workerRun ε poolCapacity).Guarded AnswersCount (workerRun ε poolCapacity).init as) :
    (workerRun ε poolCapacity).Along (Unblocked (max poolCapacity 1))
      (workerRun ε poolCapacity).init as :=
  (System.along_of_invariant (LoopInv (max poolCapacity 1)) AnswersCount
    (fun _ _ _ hs hG hstep => hs.step hG hstep) (loopInv_init poolCapacity) hcount).mono
    fun _ hs => hs.unblocked

/-- Two entries fill a pool of two; the loop parks, a job ends, and shutdown comes first. -/
def fillsThePool : List (LoopAction Nat) :=
  [.advance, .advance, .readReply (.entries [1, 2]), .advance, .advance, .advance, .advance,
    .jobDone 0, .requestShutdown, .advance]

theorem backpressure_fillsThePool :
    ((workerRun Nat 2).exec (workerRun Nat 2).init fillsThePool).isSome = true ∧
      (workerRun Nat 2).Along (Unblocked 2) (workerRun Nat 2).init fillsThePool := by
  refine ⟨rfl, backpressure 2 fillsThePool ?_⟩
  refine ⟨True.intro, fun s hs => ?_⟩
  cases hs
  refine ⟨True.intro, fun s hs => ?_⟩
  cases hs
  refine ⟨Nat.le_refl 2, fun s hs => ?_⟩
  -- Redis is not asked again
  refine System.Guarded.of_forall fun a ha s => ?_
  simp only [List.mem_cons, List.not_mem_nil, or_false] at ha
  rcases ha with rfl | rfl | rfl | rfl | rfl | rfl | rfl <;> exact True.intro

end Queue
end BrowserHeadless
