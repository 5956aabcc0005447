/-
  BrowserHeadless.Lib.Handover

  Processes that share a fair semaphore.

  A process is outside, waits, or holds a permit.  `Handover` says that the permits are free or
  held and that the queue is who waits; it is kept by every way in which a process can go on.
  With one permit the holders exclude each other (`exclusive`), and if every holder can get to
  its release then everybody who waits can be served (`served_of_release`).
-/

import BrowserHeadless.Lib.Lists
import BrowserHeadless.Lib.Semaphore
import BrowserHeadless.Lib.System

namespace BrowserHeadless
namespace Lib

/-- Where a process stands. -/
inductive Phase where
  | outside
  | waiting
  | holding
deriving DecidableEq, Repr

/-- Processes and their semaphore of `n` permits, whose waiters are positions in the list. -/
structure Handover (n : Nat) (sem : Semaphore Nat) (phases : List Phase) : Prop where
  conserved : sem.permits + phases.count .holding = n
  nodup : sem.waiters.Nodup
  queued : ∀ k, k ∈ sem.waiters ↔ phases[k]? = some .waiting

namespace Handover

variable {n : Nat} {sem : Semaphore Nat} {phases : List Phase}

theorem new (n : Nat) : Handover n (.new n) [] where
  conserved := rfl
  nodup := List.nodup_nil
  queued := fun k => by simp

/-- A further process. -/
theorem append (h : Handover n sem phases) : Handover n sem (phases ++ [.outside]) where
  conserved := by
    rw [List.count_append, List.count_singleton]
    exact h.conserved
  nodup := h.nodup
  queued := fun k => by
    rw [h.queued, List.getElem?_append]
    split
    next => exact Iff.rfl
    next hk =>
        rw [List.getElem?_eq_none (Nat.not_lt.mp hk), List.getElem?_singleton]
        split <;> simp

/-- A process asks for a permit: it takes one, or it joins the queue. -/
theorem acquire (h : Handover n sem phases) {i : Nat} (hi : phases[i]? = some .outside) :
    Handover n (sem.acquire i).2
      (phases.set i (if (sem.acquire i).1 then .holding else .waiting)) := by
  have hlt := (List.getElem?_eq_some_iff.mp hi).1
  have hnew : i ∉ sem.waiters := by
    rw [h.queued, hi]
    simp
  have hother : ∀ {k : Nat}, i ≠ k → ∀ ph, (phases.set i ph)[k]? = phases[k]? :=
    fun hne ph => List.getElem?_set_ne hne
  rcases Nat.eq_zero_or_pos sem.permits with hzero | hpos
  · obtain ⟨hfalse, hpermits, hwaiters⟩ := Semaphore.acquire_of_zero hzero i
    rw [hfalse]
    refine ⟨?_, ?_, fun k => ?_⟩
    · have hcount := count_set_add hi .waiting .holding
      rw [hpermits]
      simp only [reduceCtorEq, if_false, Nat.add_zero] at hcount
      have hsum := h.conserved
      rw [hzero] at hsum
      simpa [hcount] using hsum
    · rw [hwaiters]
      exact List.nodup_append.mpr ⟨h.nodup, List.nodup_singleton i, by
        rintro a ha b hb rfl
        exact hnew (List.mem_singleton.mp hb ▸ ha)⟩
    · rw [hwaiters, List.mem_append, List.mem_singleton, h.queued]
      by_cases hk : i = k
      · subst hk
        simp [List.getElem?_set_self hlt]
      · rw [if_neg Bool.false_ne_true, hother hk]
        simp [Ne.symm hk]
  · obtain ⟨htrue, hpermits, hwaiters⟩ := Semaphore.acquire_of_pos hpos i
    rw [htrue]
    refine ⟨?_, hwaiters.symm ▸ h.nodup, fun k => ?_⟩
    · have hcount := count_set_add hi .holding .holding
      have hsum := h.conserved
      simp only [reduceCtorEq, if_false, if_true, Nat.add_zero] at hcount
      rw [if_pos rfl]
      omega
    · rw [hwaiters, h.queued]
      by_cases hk : i = k
      · subst hk
        simp [List.getElem?_set_self hlt, hi]
      · rw [hother hk]

/-- A process gives up waiting. -/
theorem cancel (h : Handover n sem phases) {i : Nat} (hi : phases[i]? = some .waiting) :
    Handover n (sem.cancel i) (phases.set i .outside) where
  conserved := by
    have hcount := count_set_add hi .outside .holding
    simp only [reduceCtorEq, if_false, Nat.add_zero] at hcount
    rw [hcount]
    exact h.conserved
  nodup := h.nodup.erase i
  queued := fun k => by
    show k ∈ sem.waiters.erase i ↔ _
    rw [h.nodup.mem_erase_iff, h.queued]
    by_cases hk : i = k
    · subst hk
      simp [List.getElem?_set_self (List.getElem?_eq_some_iff.mp hi).1]
    · rw [List.getElem?_set_ne hk]
      exact and_iff_right (Ne.symm hk)

/-- The processes after one of them released a permit: the longest waiter has it now. -/
def released (sem : Semaphore Nat) (phases : List Phase) (i : Nat) : List Phase :=
  match sem.release.1 with
  | none => phases.set i .outside
  | some k => (phases.set k .holding).set i .outside

theorem release (h : Handover n sem phases) {i : Nat} (hi : phases[i]? = some .holding) :
    Handover n sem.release.2 (released sem phases i) := by
  have hlt := (List.getElem?_eq_some_iff.mp hi).1
  have hcount := count_set_add hi .outside .holding
  have hsum := h.conserved
  simp only [reduceCtorEq, if_false, if_true, Nat.add_zero] at hcount
  cases hw : sem.waiters with
  | nil =>
      obtain ⟨hnone, hpermits, hwaiters⟩ := Semaphore.release_of_nil hw
      rw [released, hnone]
      refine ⟨by dsimp only; omega, hwaiters.symm ▸ List.nodup_nil, fun k => ?_⟩
      rw [hwaiters, ← hw, h.queued]
      by_cases hk : i = k
      · subst hk
        simp [List.getElem?_set_self hlt, hi]
      · rw [List.getElem?_set_ne hk]
  | cons j ks =>
      obtain ⟨hsome, hpermits, hwaiters⟩ := Semaphore.release_of_cons hw
      have hj : phases[j]? = some .waiting := (h.queued j).mp (hw ▸ List.mem_cons_self)
      have hnodup := h.nodup
      rw [hw, List.nodup_cons] at hnodup
      have hji : j ≠ i := by
        rintro rfl
        rw [hi] at hj
        cases hj
      have hi' : (phases.set j .holding)[i]? = some .holding := by
        rw [List.getElem?_set_ne hji, hi]
      have hcount' := count_set_add hi' .outside .holding
      have hcountj := count_set_add hj .holding .holding
      simp only [reduceCtorEq, if_false, if_true, Nat.add_zero] at hcount' hcountj
      rw [released, hsome]
      refine ⟨by dsimp only; omega, hwaiters.symm ▸ hnodup.2, fun k => ?_⟩
      have hqueue := h.queued k
      rw [hw, List.mem_cons] at hqueue
      rw [hwaiters]
      dsimp only
      by_cases hk : i = k
      · subst hk
        have hnot : i ∉ ks := fun hmem => by
          rw [hi] at hqueue
          cases hqueue.mp (.inr hmem)
        simp [hlt, hnot]
      · rw [List.getElem?_set_ne hk]
        by_cases hkj : j = k
        · subst hkj
          have hltj := (List.getElem?_eq_some_iff.mp hj).1
          simp [List.getElem?_set_self hltj, hnodup.1]
        · rw [List.getElem?_set_ne hkj, ← hqueue]
          exact ⟨.inr, fun hmem => hmem.resolve_left (Ne.symm hkj)⟩

/-- With one permit the holders exclude each other. -/
theorem exclusive (h : Handover 1 sem phases) {i j : Nat} (hi : phases[i]? = some .holding)
    (hj : phases[j]? = some .holding) : i = j := by
  have hle : phases.countP (· == .holding) ≤ 1 := by
    have hsum := h.conserved
    rw [List.count] at hsum
    omega
  exact (countP_le_one_iff.mp hle) i j _ _ hi hj rfl rfl

/-- While somebody waits, somebody holds. -/
theorem exists_holding (h : Handover n sem phases) (hn : 0 < n) {k : Nat}
    (hk : phases[k]? = some .waiting) : ∃ i : Nat, phases[i]? = some Phase.holding := by
  have hzero := sem.queued (List.ne_nil_of_mem ((h.queued k).mpr hk))
  have hpos : 0 < phases.count .holding := by
    have hsum := h.conserved
    omega
  exact List.mem_iff_getElem?.mp (List.count_pos_iff.mp hpos)

/-- After a release the longest waiter holds, and the others move up. -/
theorem released_cons (h : Handover n sem phases) {i k : Nat} {ks : List Nat}
    (hi : phases[i]? = some .holding) (hw : sem.waiters = k :: ks) :
    (released sem phases i)[k]? = some .holding ∧ sem.release.2.waiters = ks := by
  obtain ⟨hsome, -, hwaiters⟩ := Semaphore.release_of_cons hw
  have hk : phases[k]? = some .waiting := (h.queued k).mp (hw ▸ List.mem_cons_self)
  have hik : i ≠ k := by
    rintro rfl
    rw [hi] at hk
    cases hk
  refine ⟨?_, hwaiters⟩
  rw [released, hsome]
  dsimp only
  rw [List.getElem?_set_ne hik, List.getElem?_set_self (List.getElem?_eq_some_iff.mp hk).1]

/-- If every holder can get to its release by actions of some kind, everybody who waits can be
    served by such actions: those ahead in the queue are served one after the other. -/
theorem served_of_release {σ α : Type*} {M : System σ α} (hn : 0 < n) (Inv : σ → Prop)
    (act : α → Prop) (sem : σ → Semaphore Nat) (phases : σ → List Phase)
    (hinv : ∀ s, Inv s → Handover n (sem s) (phases s))
    (hrelease : ∀ s i, Inv s → (phases s)[i]? = some .holding → ∃ as t, M.exec s as = some t ∧
      (∀ a ∈ as, act a) ∧ Inv t ∧ sem t = (sem s).release.2 ∧
      phases t = released (sem s) (phases s) i)
    {s : σ} (hs : Inv s) {k : Nat} (hk : (phases s)[k]? = some .waiting) :
    ∃ as t, M.exec s as = some t ∧ (∀ a ∈ as, act a) ∧ Inv t ∧
      (phases t)[k]? = some .holding := by
  obtain ⟨ahead, behind, hqueue⟩ := List.append_of_mem (((hinv s hs).queued k).mpr hk)
  induction ahead generalizing s with
  | nil =>
      obtain ⟨i, hi⟩ := (hinv s hs).exists_holding hn hk
      obtain ⟨as, t, hexec, hact, ht, -, hphases⟩ := hrelease s i hs hi
      exact ⟨as, t, hexec, hact, ht, hphases ▸ ((hinv s hs).released_cons hi hqueue).1⟩
  | cons j ahead ih =>
      obtain ⟨i, hi⟩ := (hinv s hs).exists_holding hn hk
      obtain ⟨as, t, hexec, hact, ht, hsem, -⟩ := hrelease s i hs hi
      have hqueue' : (sem t).waiters = ahead ++ k :: behind :=
        hsem ▸ ((hinv s hs).released_cons hi hqueue).2
      have hwaits : (phases t)[k]? = some .waiting :=
        ((hinv t ht).queued k).mp (hqueue' ▸ List.mem_append_right _ List.mem_cons_self)
      obtain ⟨bs, u, hexec', hact', hu, hserved⟩ := ih ht hwaits hqueue'
      refine ⟨as ++ bs, u, M.exec_trans hexec hexec', fun a ha => ?_, hu, hserved⟩
      exact (List.mem_append.mp ha).elim (hact a) (hact' a)

end Handover
end Lib
end BrowserHeadless
