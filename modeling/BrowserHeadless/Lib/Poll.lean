/-
  BrowserHeadless.Lib.Poll

  Polling with backoff: a loop that polls, checks its deadline and sleeps, where each sleep is
  twice as long as the one before, up to a cap.

  Polls take no time and sleeps are exact.  The last poll of a loop that gives up is taken at
  or after the deadline, but less than one cap after it, and the number of polls is bounded by
  the time there was.
-/

import Mathlib.Algebra.Order.Group.Nat
import Mathlib.Data.List.Chain
import Mathlib.Data.Nat.Init
import Mathlib.Order.Lattice

namespace BrowserHeadless
namespace Lib

/-- How long a polling loop sleeps between its polls. -/
structure Backoff where
  initial : Nat
  cap : Nat
  initial_pos : 0 < initial
  initial_le_cap : initial ≤ cap

namespace Backoff

variable {b : Backoff}

/-- A sleep the loop can come to. -/
structure Interval (b : Backoff) where
  length : Nat
  initial_le : b.initial ≤ length
  le_cap : length ≤ b.cap

/-- The first sleep. -/
def first (b : Backoff) : b.Interval := ⟨b.initial, le_rfl, b.initial_le_cap⟩

/-- The next sleep: twice as long, up to the cap. -/
def Interval.next (i : b.Interval) : b.Interval where
  length := min (i.length * 2) b.cap
  initial_le := by
    have hi := i.initial_le
    have hcap := b.initial_le_cap
    omega
  le_cap := min_le_right _ _

theorem Interval.length_pos (i : b.Interval) : 0 < i.length :=
  lt_of_lt_of_le b.initial_pos i.initial_le

/-- What a polling loop did. -/
structure Polled where
  /-- When it polled before its last poll. -/
  earlier : List Nat
  /-- When it polled last, and whether that poll succeeded. -/
  last : Nat
  ready : Bool
deriving DecidableEq

/-- All polls, in order. -/
def Polled.polls (p : Polled) : List Nat := p.earlier ++ [p.last]

/-- The loop from a poll on: poll, check the deadline, sleep. -/
def poll (ready : Nat → Bool) (deadline now : Nat) (i : b.Interval) : Polled :=
  if ready now then ⟨[], now, true⟩
  else if deadline ≤ now then ⟨[], now, false⟩
  else
    let rest := poll ready deadline (now + i.length) i.next
    { rest with earlier := now :: rest.earlier }
termination_by deadline - now
decreasing_by
  have hpos := i.length_pos
  omega

section Rules

variable (ready : Nat → Bool) (deadline now : Nat) (i : b.Interval)

/-- The last poll decides, and every poll before it failed before the deadline. -/
theorem poll_ready : (poll ready deadline now i).ready = ready (poll ready deadline now i).last := by
  induction now, i using poll.induct ready deadline with
  | case1 now i h => rw [poll, if_pos h, h]
  | case2 now i h hover => rw [poll, if_neg h, if_pos hover, Bool.eq_false_iff.mpr h]
  | case3 now i h hover ih =>
      rw [poll, if_neg h, if_neg hover]
      exact ih

theorem poll_earlier : ∀ t ∈ (poll ready deadline now i).earlier, ready t = false ∧ t < deadline := by
  induction now, i using poll.induct ready deadline with
  | case1 now i h =>
      rw [poll, if_pos h]
      exact List.forall_mem_nil _
  | case2 now i h hover =>
      rw [poll, if_neg h, if_pos hover]
      exact List.forall_mem_nil _
  | case3 now i h hover ih =>
      rw [poll, if_neg h, if_neg hover]
      exact List.forall_mem_cons.mpr ⟨⟨Bool.eq_false_iff.mpr h, Nat.lt_of_not_le hover⟩, ih⟩

/-- A loop gives up no earlier than at its deadline. -/
theorem deadline_le_last (h : (poll ready deadline now i).ready = false) :
    deadline ≤ (poll ready deadline now i).last := by
  induction now, i using poll.induct ready deadline with
  | case1 now i hready =>
      rw [poll, if_pos hready] at h
      cases h
  | case2 now i hready hover =>
      rw [poll, if_neg hready, if_pos hover]
      exact hover
  | case3 now i hready hover ih =>
      rw [poll, if_neg hready, if_neg hover] at h ⊢
      exact ih h

/-- A loop that starts less than a cap after its deadline ends so. -/
theorem last_lt (h : now < deadline + b.cap) :
    (poll ready deadline now i).last < deadline + b.cap := by
  induction now, i using poll.induct ready deadline with
  | case1 now i hready =>
      rw [poll, if_pos hready]
      exact h
  | case2 now i hready hover =>
      rw [poll, if_neg hready, if_pos hover]
      exact h
  | case3 now i hready hover ih =>
      rw [poll, if_neg hready, if_neg hover]
      -- the sleep starts before the deadline
      have hcap := i.le_cap
      exact ih (by omega)

theorem polls_head : (poll ready deadline now i).polls.head? = some now := by
  rw [poll]
  split
  · rfl
  · split <;> rfl

/-- Between two polls there is one sleep. -/
theorem polls_isChain : (poll ready deadline now i).polls.IsChain
    fun s t => s + b.initial ≤ t ∧ t ≤ s + b.cap := by
  induction now, i using poll.induct ready deadline with
  | case1 now i h =>
      rw [poll, if_pos h]
      exact .singleton now
  | case2 now i h hover =>
      rw [poll, if_neg h, if_pos hover]
      exact .singleton now
  | case3 now i h hover ih =>
      rw [poll, if_neg h, if_neg hover]
      show (now :: (poll ready deadline (now + i.length) i.next).polls).IsChain _
      refine List.isChain_cons.mpr ⟨?_, ih⟩
      intro t ht
      rw [polls_head ready deadline (now + i.length) i.next] at ht
      obtain rfl : now + i.length = t := Option.some.inj ht
      have hlen := i.initial_le
      have hcap := i.le_cap
      omega

/-- The next sleep needs one doubling less to come to the cap. -/
theorem Interval.cap_le_next {i : b.Interval} {d : Nat} (h : b.cap ≤ i.length * 2 ^ (d + 1)) :
    b.cap ≤ i.next.length * 2 ^ d := by
  show b.cap ≤ min (i.length * 2) b.cap * 2 ^ d
  rw [Nat.pow_succ', ← Nat.mul_assoc] at h
  rcases Nat.le_total (i.length * 2) b.cap with hle | hle
  · rwa [min_eq_left hle]
  · rw [min_eq_right hle]
    exact Nat.le_mul_of_pos_right b.cap (Nat.two_pow_pos d)

/-- A sleep of a whole cap uses up one cap of the time that is left. -/
theorem ceil_div_sub {x cap : Nat} (hx : 0 < x) (hcap : 0 < cap) :
    (x - cap + (cap - 1)) / cap + 1 ≤ (x + (cap - 1)) / cap := by
  have hsum : x - 1 + cap = x + (cap - 1) := by omega
  rw [← hsum, Nat.add_div_right _ hcap, Nat.add_one_le_add_one_iff]
  rcases Nat.lt_or_ge x cap with hlt | hge
  · have hzero : (x - cap + (cap - 1)) / cap = 0 := Nat.div_eq_of_lt (by omega)
    rw [hzero]
    exact Nat.zero_le _
  · exact Nat.div_le_div_right (by omega)

/-- The number of polls, where `d` doublings are left until the sleeps are as long as the
    cap. -/
theorem length_polls_le (d : Nat) (hd : b.cap ≤ i.length * 2 ^ d) :
    (poll ready deadline now i).polls.length ≤
      (deadline - now + (b.cap - 1)) / b.cap + d + 1 := by
  induction now, i using poll.induct ready deadline generalizing d with
  | case1 now i h =>
      rw [poll, if_pos h]
      exact Nat.le_add_left 1 _
  | case2 now i h hover =>
      rw [poll, if_neg h, if_pos hover]
      exact Nat.le_add_left 1 _
  | case3 now i h hover ih =>
      rw [poll, if_neg h, if_neg hover]
      show (poll ready deadline (now + i.length) i.next).polls.length + 1 ≤ _
      rw [Nat.sub_add_eq] at ih
      cases d with
      | zero =>
          -- every sleep from here on is as long as the cap
          rw [Nat.pow_zero, Nat.mul_one] at hd
          obtain hlen : i.length = b.cap := Nat.le_antisymm i.le_cap hd
          have hnext : b.cap ≤ i.next.length * 2 ^ 0 := by
            show b.cap ≤ min (i.length * 2) b.cap * 1
            omega
          have hrest := ih 0 hnext
          rw [hlen] at hrest
          have hlate : 0 < deadline - now := by omega
          have hceil := ceil_div_sub hlate (lt_of_lt_of_le b.initial_pos b.initial_le_cap)
          rw [hlen]
          omega
      | succ d =>
          have hrest := ih d (Interval.cap_le_next hd)
          have hmono : (deadline - now - i.length + (b.cap - 1)) / b.cap ≤
              (deadline - now + (b.cap - 1)) / b.cap := Nat.div_le_div_right (by omega)
          omega

end Rules

end Backoff
end Lib
end BrowserHeadless
