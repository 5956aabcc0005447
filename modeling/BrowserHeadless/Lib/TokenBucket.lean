/-
  BrowserHeadless.Lib.TokenBucket

  A token bucket that is refilled when it is asked: the level grows with the time since
  the last call, up to the capacity, and a call takes one token if there is one.

  `le_level_iff` unrolls the refills.  What the bucket holds is the least, over all
  earlier calls and now, of what a bucket full at that time would hold after the calls
  allowed since.  So a call is allowed exactly when it keeps every window that ends with
  it within the capacity and the rate (`answers_iff`).
-/

import Mathlib.Algebra.Order.Ring.Cast
import Mathlib.Data.List.Induction
import Mathlib.Tactic.Linarith
import Mathlib.Tactic.Ring

namespace BrowserHeadless
namespace Lib

/-- What is left after the last call, and the time of that call. -/
@[ext] structure TokenBucket (K : Type*) where
  tokens : K
  last : K

namespace TokenBucket

variable {K : Type*} [LinearOrder K]

/-! ## Counting allowed calls -/

/-- The calls allowed between two times. -/
def allowedBetween (start stop : K) (times : List K) (answers : List Bool) : Nat :=
  (times.zip answers).countP fun c => decide (start ≤ c.1) && decide (c.1 ≤ stop) && c.2

variable {times : List K} {now start stop : K} {given : List Bool} {answer : Bool}

theorem allowedBetween_append_singleton (hlen : times.length = given.length) :
    allowedBetween start stop (times ++ [now]) (given ++ [answer]) =
      allowedBetween start stop times given +
        if start ≤ now ∧ now ≤ stop ∧ answer = true then 1 else 0 := by
  rw [allowedBetween, List.zip_append hlen, List.countP_append]
  refine congrArg _ ?_
  simp [and_assoc]

/-- One more answer adds one token at most. -/
theorem allowedBetween_append_le (start stop now : K) (answer : Bool)
    (hlen : times.length = given.length) :
    allowedBetween start stop (times ++ [now]) (given ++ [answer]) ≤
      allowedBetween start stop times given + [answer].count true := by
  rw [allowedBetween_append_singleton hlen]
  refine Nat.add_le_add_left ?_ _
  split
  next h => simp [h.2.2]
  next => exact Nat.zero_le _

theorem allowedBetween_eq_zero (h : ∀ t ∈ times, t < start) :
    allowedBetween start stop times given = 0 := by
  refine List.countP_eq_zero.mpr fun c hc => ?_
  have hlt := h c.1 (List.of_mem_zip hc).1
  simp [not_le.mpr hlt]

/-! ## The bucket -/

variable [CommRing K]

/-- What the bucket holds at `now`.  A clock that runs backwards adds nothing. -/
def level (capacity rate : K) (b : TokenBucket K) (now : K) : K :=
  min (b.tokens + max (now - b.last) 0 * rate) capacity

/-- A call at `now`: the bucket after it, and whether it got its token. -/
def call (capacity rate : K) (b : TokenBucket K) (now : K) : TokenBucket K × Bool :=
  if 1 ≤ b.level capacity rate now then (⟨b.level capacity rate now - 1, now⟩, true)
  else (⟨b.level capacity rate now, now⟩, false)

/-- The bucket after calls at the given times. -/
def run (capacity rate : K) (b : TokenBucket K) (times : List K) : TokenBucket K :=
  times.foldl (fun b now => (b.call capacity rate now).1) b

/-- The answers to these calls. -/
def answers (capacity rate : K) : TokenBucket K → List K → List Bool
  | _, [] => []
  | b, now :: rest =>
      (b.call capacity rate now).2 :: answers capacity rate (b.call capacity rate now).1 rest

variable {capacity rate : K} {b : TokenBucket K} {rest : List K}

/-! ## Calls one after the other -/

theorem call_last : (b.call capacity rate now).1.last = now := by
  rw [call]
  split <;> rfl

theorem call_allowed : (b.call capacity rate now).2 = true ↔ 1 ≤ b.level capacity rate now := by
  rw [call]
  split
  next h => simp [h]
  next h => simp [h]

/-- The tokens left are the level less the token taken. -/
theorem call_tokens (capacity rate : K) (b : TokenBucket K) (now : K) :
    (b.call capacity rate now).1.tokens =
      b.level capacity rate now - ([(b.call capacity rate now).2].count true : ℕ) := by
  rw [call]
  split
  next h => simp
  next h => simp

theorem run_append_singleton :
    b.run capacity rate (times ++ [now]) =
      ((b.run capacity rate times).call capacity rate now).1 := by
  rw [run, List.foldl_append]
  rfl

theorem length_answers (capacity rate : K) (b : TokenBucket K) (times : List K) :
    (b.answers capacity rate times).length = times.length := by
  induction times generalizing b with
  | nil => rfl
  | cons now rest ih => rw [answers, List.length_cons, ih, List.length_cons]

theorem answers_append : b.answers capacity rate (times ++ rest) =
    b.answers capacity rate times ++ (b.run capacity rate times).answers capacity rate rest := by
  induction times generalizing b with
  | nil => rfl
  | cons now times ih =>
      rw [List.cons_append, answers, answers, ih, List.cons_append]
      rfl

theorem answers_append_singleton : b.answers capacity rate (times ++ [now]) =
    b.answers capacity rate times ++ [((b.run capacity rate times).call capacity rate now).2] :=
  answers_append

/-- Earlier calls are answered without regard to later ones. -/
theorem take_answers (k : Nat) :
    (b.answers capacity rate times).take k = b.answers capacity rate (times.take k) := by
  have hsplit := congrArg (b.answers capacity rate) (List.take_append_drop k times)
  rw [answers_append] at hsplit
  rcases Nat.le_total k times.length with hk | hk
  · rw [← hsplit, List.take_left' ((length_answers _ _ _ _).trans (List.length_take_of_le hk))]
  · rw [List.take_of_length_le hk, List.take_of_length_le ((length_answers _ _ _ _).trans_le hk)]

/-- The answer to one call, from the bucket that the calls before it leave. -/
theorem getElem?_answers {k : Nat} (hk : times[k]? = some now) :
    (b.answers capacity rate times)[k]? =
      some ((b.run capacity rate (times.take k)).call capacity rate now).2 := by
  obtain ⟨hlt, rfl⟩ := List.getElem?_eq_some_iff.mp hk
  have hpre : (b.answers capacity rate (times.take (k + 1)))[k]? =
      (b.answers capacity rate times)[k]? := by
    rw [← take_answers, List.getElem?_take_of_lt (Nat.lt_succ_self k)]
  have hlen : (b.answers capacity rate (times.take k)).length = k :=
    (length_answers _ _ _ _).trans (List.length_take_of_le hlt.le)
  rw [← hpre, List.take_succ_eq_append_getElem hlt, answers_append_singleton,
    List.getElem?_append_right hlen.le, hlen, Nat.sub_self]
  rfl

/-! ## The tokens -/

theorem level_le : b.level capacity rate now ≤ capacity := min_le_right _ _

section

variable [IsStrictOrderedRing K]

theorem le_level {x : K} (hx : x ≤ b.tokens) (hcap : x ≤ capacity) (hrate : 0 ≤ rate) :
    x ≤ b.level capacity rate now := by
  have hrefill : 0 ≤ max (now - b.last) 0 * rate := mul_nonneg (le_max_right _ _) hrate
  exact le_min (by linarith) hcap

/-- One call keeps the tokens between none and the capacity. -/
theorem call_tokens_mem (hcap : 0 ≤ capacity) (hrate : 0 ≤ rate) (h0 : 0 ≤ b.tokens) :
    0 ≤ (b.call capacity rate now).1.tokens ∧ (b.call capacity rate now).1.tokens ≤ capacity := by
  have hle : b.level capacity rate now ≤ capacity := level_le
  have hge : 0 ≤ b.level capacity rate now := le_level h0 hcap hrate
  rw [call]
  split
  next h =>
      constructor
      · show 0 ≤ b.level capacity rate now - 1
        linarith
      · show b.level capacity rate now - 1 ≤ capacity
        linarith
  next => exact ⟨hge, hle⟩

theorem run_tokens_mem (hrate : 0 ≤ rate) (h0 : 0 ≤ b.tokens) (h1 : b.tokens ≤ capacity) :
    0 ≤ (b.run capacity rate times).tokens ∧ (b.run capacity rate times).tokens ≤ capacity := by
  have hcap : 0 ≤ capacity := h0.trans h1
  induction times using List.reverseRecOn with
  | nil => exact ⟨h0, h1⟩
  | append_singleton times now ih =>
      rw [run_append_singleton]
      exact call_tokens_mem hcap hrate ih.1

end

/-! ## The level in closed form -/

variable [IsStrictOrderedRing K]

/-- What the bucket holds after a call: what the call left, and the refill since. -/
theorem le_level_call_iff {last : K} (hle : last ≤ now) (x : K) :
    x ≤ (b.call capacity rate last).1.level capacity rate now ↔
      x - rate * (now - last) + ([(b.call capacity rate last).2].count true : ℕ) ≤
          b.level capacity rate last ∧
        x ≤ capacity := by
  rw [level, call_last, call_tokens, max_eq_left (sub_nonneg.mpr hle), le_min_iff]
  refine and_congr ?_ Iff.rfl
  constructor
  · intro h
    linarith
  · intro h
    linarith

omit [LinearOrder K] [CommRing K] [IsStrictOrderedRing K] in
/-- The windows that end with the last call: those of the calls before it, and its own. -/
theorem forall_window_append_singleton {P : K → List Bool → Prop} {last : K}
    (hlen : given.length = times.length) :
    (∀ j t, (times ++ [last])[j]? = some t → P t ((given ++ [answer]).drop j)) ↔
      (∀ j t, times[j]? = some t → P t (given.drop j ++ [answer])) ∧ P last [answer] := by
  constructor
  · intro h
    refine ⟨fun j t hj => ?_, ?_⟩
    · have hlt := (List.getElem?_eq_some_iff.mp hj).1
      have hw := h j t (by rw [List.getElem?_append_left hlt]; exact hj)
      rwa [List.drop_append_of_le_length (hlen ▸ hlt.le)] at hw
    · have hw := h times.length last List.getElem?_concat_length
      rwa [List.drop_left' hlen] at hw
  · rintro ⟨hearlier, hlast⟩ j t hj
    rcases Nat.lt_or_ge j times.length with hlt | hge
    · rw [List.getElem?_append_left hlt] at hj
      rw [List.drop_append_of_le_length (hlen ▸ hlt.le)]
      exact hearlier j t hj
    · have hidx : j = times.length := by
        have hj' := (List.getElem?_eq_some_iff.mp hj).1
        rw [List.length_append, List.length_singleton] at hj'
        omega
      subst hidx
      rw [List.getElem?_concat_length, Option.some.injEq] at hj
      rw [List.drop_left' hlen, ← hj]
      exact hlast

/-- What a full bucket holds after calls: for each of them, what a bucket full at its
    time would hold after the calls allowed from then on. -/
theorem le_level_iff (hrate : 0 ≤ rate) (hfull : b.tokens = capacity)
    (hsorted : (times ++ [now]).Pairwise (· ≤ ·)) (x : K) :
    x ≤ (b.run capacity rate times).level capacity rate now ↔
      x ≤ capacity ∧ ∀ j t, times[j]? = some t →
        x ≤ capacity + rate * (now - t) -
          (((b.answers capacity rate times).drop j).count true : ℕ) := by
  induction times using List.reverseRecOn generalizing now x with
  | nil =>
      have hlevel : b.level capacity rate now = capacity :=
        le_antisymm level_le (le_level hfull.ge le_rfl hrate)
      show x ≤ b.level capacity rate now ↔ _
      rw [hlevel]
      simp
  | append_singleton times last ih =>
      obtain ⟨hbefore, -, hlast⟩ := List.pairwise_append.mp hsorted
      have hle : last ≤ now :=
        hlast last (List.mem_append_right _ (List.mem_singleton_self last)) now
          (List.mem_singleton_self now)
      rw [run_append_singleton, answers_append_singleton, le_level_call_iff hle, ih hbefore,
        forall_window_append_singleton
          (P := fun t w => x ≤ capacity + rate * (now - t) - (w.count true : ℕ))
          (length_answers capacity rate b times)]
      simp only [List.count_append, Nat.cast_add]
      -- the same windows, with the refill and the last call on the other side
      constructor
      · rintro ⟨⟨hcap, hearlier⟩, hx⟩
        refine ⟨hx, fun j t hj => ?_, by linarith⟩
        have hw := hearlier j t hj
        linarith
      · rintro ⟨hx, hearlier, hown⟩
        refine ⟨⟨by linarith, fun j t hj => ?_⟩, hx⟩
        have hw := hearlier j t hj
        linarith

/-- A call is allowed exactly when every window that ends with it stays within the
    capacity and the rate. -/
theorem answers_iff (hrate : 0 ≤ rate) (hcap : 1 ≤ capacity) (hfull : b.tokens = capacity)
    (hsorted : times.Pairwise (· ≤ ·)) {k : Nat} (hk : times[k]? = some now) :
    (b.answers capacity rate times)[k]? = some true ↔
      ∀ j t, j ≤ k → times[j]? = some t →
        ((((b.answers capacity rate times).take k).drop j).count true : ℕ) + 1 ≤
          capacity + rate * (now - t) := by
  obtain ⟨hlt, hget⟩ := List.getElem?_eq_some_iff.mp hk
  have hpre : (times.take k ++ [now]).Pairwise (· ≤ ·) := by
    rw [← hget, ← List.take_succ_eq_append_getElem hlt]
    exact hsorted.sublist (List.take_sublist _ _)
  rw [getElem?_answers hk, Option.some.injEq, call_allowed, le_level_iff hrate hfull hpre,
    take_answers]
  constructor
  · rintro ⟨-, hall⟩ j t hj ht
    rcases Nat.lt_or_eq_of_le hj with hj | rfl
    · have hw := hall j t (by rw [List.getElem?_take_of_lt hj]; exact ht)
      linarith
    · have hempty : (b.answers capacity rate (times.take j)).drop j = [] :=
        List.drop_eq_nil_of_le (by rw [length_answers]; exact List.length_take_le j times)
      have hnow : now = t := Option.some.inj (hk.symm.trans ht)
      rw [hempty, hnow]
      simpa using hcap
  · intro hall
    refine ⟨hcap, fun j t ht => ?_⟩
    have hj : j < k := by
      have hj := (List.getElem?_eq_some_iff.mp ht).1
      rw [List.length_take] at hj
      omega
    rw [List.getElem?_take_of_lt hj] at ht
    have hw := hall j t hj.le ht
    linarith

/-! ## Any window -/

/-- The calls allowed since `start` and what is left now are paid for by the capacity
    and the refill since. -/
theorem allowedBetween_add_level_le (capacity : K) (b : TokenBucket K) (start stop : K)
    (hrate : 0 ≤ rate)
    (hsorted : (times ++ [now]).Pairwise (· ≤ ·)) :
    (allowedBetween start stop times (b.answers capacity rate times) : K) +
        (b.run capacity rate times).level capacity rate now ≤
      capacity + rate * (max now start - start) := by
  have hpaid : 0 ≤ rate * (max now start - start) :=
    mul_nonneg hrate (sub_nonneg.mpr (le_max_right now start))
  induction times using List.reverseRecOn generalizing now with
  | nil =>
      have hlevel : b.level capacity rate now ≤ capacity := level_le
      show ((0 : ℕ) : K) + b.level capacity rate now ≤ _
      rw [Nat.cast_zero]
      linarith
  | append_singleton times last ih =>
      obtain ⟨hbefore, -, hnow⟩ := List.pairwise_append.mp hsorted
      have hbounds : ∀ t ∈ times ++ [last], t ≤ last := by
        intro t ht
        rcases List.mem_append.mp ht with h | h
        · exact (List.pairwise_append.mp hbefore).2.2 t h last (List.mem_singleton_self last)
        · exact (List.mem_singleton.mp h).le
      rcases lt_or_ge last start with hlast | hlast
      · -- no call since `start`
        have hzero : allowedBetween start stop (times ++ [last])
            (b.answers capacity rate (times ++ [last])) = 0 :=
          allowedBetween_eq_zero fun t ht => (hbounds t ht).trans_lt hlast
        have hlevel : (b.run capacity rate (times ++ [last])).level capacity rate now ≤ capacity :=
          level_le
        rw [hzero, Nat.cast_zero]
        linarith
      · have hle : last ≤ now :=
          hnow last (List.mem_append_right _ (List.mem_singleton_self last)) now
            (List.mem_singleton_self now)
        have hcount := Nat.cast_le (α := K) |>.mpr
          (allowedBetween_append_le start stop last
            ((b.run capacity rate times).call capacity rate last).2
            (length_answers capacity rate b times).symm)
        have hprev := ih hbefore (mul_nonneg hrate (sub_nonneg.mpr (le_max_right last start)))
        have htokens := call_tokens capacity rate (b.run capacity rate times) last
        have hlevel : (b.run capacity rate (times ++ [last])).level capacity rate now ≤
            ((b.run capacity rate times).call capacity rate last).1.tokens +
              (now - last) * rate := by
          rw [run_append_singleton, level, call_last, max_eq_left (sub_nonneg.mpr hle)]
          exact min_le_left _ _
        rw [max_eq_left hlast] at hprev
        rw [Nat.cast_add] at hcount
        rw [answers_append_singleton, max_eq_left (hlast.trans hle)]
        linarith

/-- No window has more calls allowed than the capacity and what its length refills. -/
theorem allowedBetween_le (hrate : 0 ≤ rate) (h0 : 0 ≤ b.tokens) (h1 : b.tokens ≤ capacity)
    (hsorted : times.Pairwise (· ≤ ·)) (hwindow : start ≤ stop) :
    (allowedBetween start stop times (b.answers capacity rate times) : K) ≤
      capacity + rate * (stop - start) := by
  have hcap : 0 ≤ capacity := h0.trans h1
  induction times using List.reverseRecOn with
  | nil =>
      have hpaid : 0 ≤ rate * (stop - start) := mul_nonneg hrate (sub_nonneg.mpr hwindow)
      show ((0 : ℕ) : K) ≤ _
      rw [Nat.cast_zero]
      linarith
  | append_singleton times now ih =>
      have hbefore := (List.pairwise_append.mp hsorted).1
      rw [answers_append_singleton]
      rcases le_or_gt now stop with hin | hout
      · have hpaid := allowedBetween_add_level_le capacity b start stop hrate hsorted
        have hcount := Nat.cast_le (α := K) |>.mpr
          (allowedBetween_append_le start stop now
            ((b.run capacity rate times).call capacity rate now).2
            (length_answers capacity rate b times).symm)
        have hleft : 0 ≤ ((b.run capacity rate times).call capacity rate now).1.tokens :=
          (call_tokens_mem hcap hrate (run_tokens_mem hrate h0 h1).1).1
        have hmax : rate * (max now start - start) ≤ rate * (stop - start) :=
          mul_le_mul_of_nonneg_left (sub_le_sub_right (max_le hin hwindow) start) hrate
        rw [call_tokens] at hleft
        rw [Nat.cast_add] at hcount
        linarith
      · have hskip : ¬ (start ≤ now ∧ now ≤ stop ∧
            ((b.run capacity rate times).call capacity rate now).2 = true) :=
          fun h => not_le.mpr hout h.2.1
        rw [allowedBetween_append_singleton (length_answers _ _ _ _).symm, if_neg hskip]
        exact ih hbefore

end TokenBucket
end Lib
end BrowserHeadless
