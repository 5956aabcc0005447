/-
  BrowserHeadless.RateLimit

  The process-wide rate limiter (src/rate_limit.rs), in exact arithmetic: instants and
  durations are rational seconds.

  The lock makes the calls a sequence at non-decreasing times.  A limiter that is on is
  the token bucket of the library (`tryAcquire_bucket`), so its answers are given by the
  windows that end with each call (`tryAcquireAll_token_bucket`).
-/

import BrowserHeadless.Lib.TokenBucket
import Mathlib.Algebra.Order.Field.Rat

namespace BrowserHeadless
namespace RateLimit

open Lib (TokenBucket)

/-! ## The limiter -/

/-- `std::sync::Mutex`, when nobody holds it. -/
structure Mutex (α : Type) where
  poisoned : Bool
  value : α
deriving DecidableEq, Repr

/-- `Bucket`. -/
structure Bucket where
  tokens : ℚ
  capacity : ℚ
  /-- Tokens added per second. -/
  refillPerSec : ℚ
  last : ℚ
deriving DecidableEq, Repr

/-- `RateLimiter`; without a bucket, rate limiting is off. -/
structure RateLimiter where
  inner : Option (Mutex Bucket)
deriving DecidableEq, Repr

/-- `Instant::duration_since(..).as_secs_f64()`, which saturates at zero. -/
def durationSince (now earlier : ℚ) : ℚ := max (now - earlier) 0

namespace RateLimiter

/-- A limiter whose bucket is full. -/
def full (capacity refillPerSec now : ℚ) : RateLimiter :=
  { inner := some
      { poisoned := false
        value :=
          { tokens := capacity
            capacity := capacity
            refillPerSec := refillPerSec
            last := now } } }

/-- `from_env`, given the two settings. -/
def fromEnv (rateLimitRps rateLimitBurst : BitVec 32) (now : ℚ) : RateLimiter :=
  if rateLimitRps = 0 then { inner := none }
  else full (max rateLimitBurst.toNat 1 : ℕ) rateLimitRps.toNat now

/-- `try_acquire` at the time `now`. -/
def tryAcquire (lim : RateLimiter) (now : ℚ) : Bool × RateLimiter :=
  match lim.inner with
  | none => (true, lim)
  | some lock =>
      -- a poisoned lock fails open
      if lock.poisoned then (true, lim)
      else
        let b := lock.value
        let elapsed := durationSince now b.last
        let tokens := min (b.tokens + elapsed * b.refillPerSec) b.capacity
        if 1 ≤ tokens then
          (true, { inner := some { lock with value := { b with last := now, tokens := tokens - 1 } } })
        else (false, { inner := some { lock with value := { b with last := now, tokens := tokens } } })

/-- The answers to calls at the given times, and the limiter after them. -/
def tryAcquireAll : RateLimiter → List ℚ → List Bool × RateLimiter
  | lim, [] => ([], lim)
  | lim, now :: rest =>
      let (answer, lim) := lim.tryAcquire now
      let (answers, lim) := lim.tryAcquireAll rest
      (answer :: answers, lim)

end RateLimiter

/-! ## A limiter that is on -/

/-- The limiter whose state is the given bucket. -/
def ofBucket (capacity refillPerSec : ℚ) (b : TokenBucket ℚ) : RateLimiter :=
  { inner := some
      { poisoned := false
        value :=
          { tokens := b.tokens
            capacity := capacity
            refillPerSec := refillPerSec
            last := b.last } } }

theorem full_eq_ofBucket (capacity refillPerSec now : ℚ) :
    RateLimiter.full capacity refillPerSec now = ofBucket capacity refillPerSec ⟨capacity, now⟩ :=
  rfl

/-- A call to the limiter is a call to its bucket. -/
theorem tryAcquire_bucket (capacity refillPerSec : ℚ) (b : TokenBucket ℚ) (now : ℚ) :
    (ofBucket capacity refillPerSec b).tryAcquire now =
      ((b.call capacity refillPerSec now).2,
        ofBucket capacity refillPerSec (b.call capacity refillPerSec now).1) := by
  show (if 1 ≤ b.level capacity refillPerSec now then _ else _) = _
  rw [TokenBucket.call]
  split
  next => rfl
  next => rfl

theorem tryAcquireAll_bucket (capacity refillPerSec : ℚ) (b : TokenBucket ℚ) (times : List ℚ) :
    (ofBucket capacity refillPerSec b).tryAcquireAll times =
      (b.answers capacity refillPerSec times,
        ofBucket capacity refillPerSec (b.run capacity refillPerSec times)) := by
  induction times generalizing b with
  | nil => rfl
  | cons now rest ih =>
      rw [RateLimiter.tryAcquireAll, tryAcquire_bucket]
      dsimp only
      rw [ih]
      rfl

/-- A limiter that is off allows every call. -/
theorem tryAcquireAll_off (times : List ℚ) :
    (RateLimiter.mk none).tryAcquireAll times = (times.map fun _ => true, RateLimiter.mk none) := by
  induction times with
  | nil => rfl
  | cons now rest ih =>
      rw [RateLimiter.tryAcquireAll]
      show (true :: (RateLimiter.tryAcquireAll ⟨none⟩ rest).1, _) = _
      rw [ih]
      rfl

/-- The environment gives a limiter that is off, or one whose rate and capacity are at
    least one. -/
theorem fromEnv_cases (rateLimitRps rateLimitBurst : BitVec 32) (now : ℚ) :
    (rateLimitRps = 0 ∧ RateLimiter.fromEnv rateLimitRps rateLimitBurst now = ⟨none⟩) ∨
      ∃ capacity refillPerSec : ℚ, 1 ≤ capacity ∧ 1 ≤ refillPerSec ∧
        RateLimiter.fromEnv rateLimitRps rateLimitBurst now =
          RateLimiter.full capacity refillPerSec now := by
  by_cases h : rateLimitRps = 0
  · left
    exact ⟨h, if_pos h⟩
  · right
    have hpos : 1 ≤ rateLimitRps.toNat := by
      have hne : rateLimitRps.toNat ≠ 0 := fun h0 => h (BitVec.eq_of_toNat_eq h0)
      omega
    refine ⟨_, _, ?_, ?_, if_neg h⟩
    · exact Nat.one_le_cast.mpr (Nat.le_max_right _ 1)
    · exact Nat.one_le_cast.mpr hpos

/-! ## The law -/

/-- A limiter that starts full allows the `k`-th call exactly when every window of calls
    that ends with it stays within the capacity and the rate; no window of time has more
    calls allowed than that, and the tokens stay between none and the capacity. -/
theorem tryAcquireAll_token_bucket (capacity refillPerSec created : ℚ) (hcap : 1 ≤ capacity)
    (hrate : 1 ≤ refillPerSec) (times : List ℚ) (hmono : times.Pairwise (· ≤ ·)) :
    (∀ k now, times[k]? = some now →
      (((RateLimiter.full capacity refillPerSec created).tryAcquireAll times).1[k]? = some true ↔
        ∀ j t, j ≤ k → times[j]? = some t →
          (((((RateLimiter.full capacity refillPerSec created).tryAcquireAll times).1.take k).drop
              j).count true : ℕ) + 1 ≤ capacity + refillPerSec * (now - t))) ∧
      (∀ start stop, start ≤ stop →
        (TokenBucket.allowedBetween start stop times
            ((RateLimiter.full capacity refillPerSec created).tryAcquireAll times).1 : ℚ) ≤
          capacity + refillPerSec * (stop - start)) ∧
      ∃ lock, ((RateLimiter.full capacity refillPerSec created).tryAcquireAll times).2.inner =
          some lock ∧ 0 ≤ lock.value.tokens ∧ lock.value.tokens ≤ capacity := by
  have hcap0 : 0 ≤ capacity := zero_le_one.trans hcap
  have hrate0 : 0 ≤ refillPerSec := zero_le_one.trans hrate
  rw [full_eq_ofBucket, tryAcquireAll_bucket]
  refine ⟨fun k now hk => ?_, fun start stop hwindow => ?_, ?_⟩
  · exact TokenBucket.answers_iff hrate0 hcap rfl hmono hk
  · exact TokenBucket.allowedBetween_le hrate0 hcap0 le_rfl hmono hwindow
  · exact ⟨_, rfl, TokenBucket.run_tokens_mem hrate0 hcap0 le_rfl⟩

/-- Two tokens, one more each second: of three calls at once the last is refused, and one
    second later one call is allowed again. -/
theorem tryAcquireAll_token_bucket_four :
    ((RateLimiter.full 2 1 0).tryAcquireAll [5, 5, 5, 6]).1 = [true, true, false, true] ∧
      ∀ start stop : ℚ, start ≤ stop →
        (TokenBucket.allowedBetween start stop [5, 5, 5, 6]
          ((RateLimiter.full 2 1 0).tryAcquireAll [5, 5, 5, 6]).1 : ℚ) ≤ 2 + 1 * (stop - start) :=
  ⟨by decide +kernel,
    (tryAcquireAll_token_bucket 2 1 0 (by decide +kernel) (by decide +kernel) [5, 5, 5, 6]
      (by decide +kernel)).2.1⟩

end RateLimit
end BrowserHeadless
