/-
  BrowserHeadless.Lib.Float

  IEEE doubles by their bits, with the operations this development evaluates.

  Every finite double is a whole number of *units* of `2 ^ -1074`, so exact sums and
  quotients of doubles are quotients of natural numbers; `ofRatio` rounds such a
  quotient to the nearest double, ties to even.
-/

import Mathlib.Algebra.Order.Ring.Nat
import Mathlib.Data.Nat.Log

namespace BrowserHeadless
namespace Lib

/-- A double, as its bits. -/
structure F64 where
  bits : BitVec 64
deriving DecidableEq, Repr

namespace F64

/-- Neither an infinity nor a NaN: the exponent is not all ones. -/
def isFinite (x : F64) : Bool := x.bits.extractLsb' 52 11 != 0x7ff#11

/-- `n / 2 ^ k`, rounded to nearest, ties to even. -/
def roundShift (n k : Nat) : Nat :=
  let q := n / 2 ^ k
  let r := 2 * (n % 2 ^ k)
  if 2 ^ k < r ∨ (r = 2 ^ k ∧ q % 2 = 1) then q + 1 else q

/-- The magnitude bits of `n as f64`. -/
def magnitude (n : Nat) : Nat :=
  if n = 0 then 0
  else
    let e := n.log2
    let m := if e ≤ 52 then n * 2 ^ (52 - e) else roundShift n (e - 52)
    -- the leading bit of `m` is implicit; a carry out of the rounding adds to the exponent
    (e + 1023) * 2 ^ 52 + (m - 2 ^ 52)

/-- `n as f64` of a 64-bit integer. -/
def ofInt (n : Int) : F64 :=
  ⟨BitVec.ofNat 64 (magnitude n.natAbs) ||| (if n < 0 then 1#64 <<< 63 else 0#64)⟩

/-- Halfway between two doubles the even one is taken. -/
example : ofInt (2 ^ 53 + 1) = ofInt (2 ^ 53) ∧ ofInt (-1) = ⟨0xbff0000000000000#64⟩ := by decide

/-! ## Values -/

/-- What a double stands for; `neg` is its sign, which zeros have too. -/
inductive Value where
  | nan
  | inf (neg : Bool)
  | finite (neg : Bool) (units : Nat)
deriving DecidableEq, Repr

def value (x : F64) : Value :=
  let neg := x.bits.msb
  let e := (x.bits.extractLsb' 52 11).toNat
  let f := (x.bits.extractLsb' 0 52).toNat
  if e = 2047 then if f = 0 then .inf neg else .nan
  -- subnormals have no implicit leading bit
  else if e = 0 then .finite neg f
  else .finite neg ((2 ^ 52 + f) * 2 ^ (e - 1))

/-- A double from its sign and its magnitude bits. -/
def pack (neg : Bool) (magnitude : Nat) : F64 :=
  ⟨BitVec.ofNat 64 (magnitude + if neg then 2 ^ 63 else 0)⟩

def nan : F64 := ⟨0x7ff8000000000000#64⟩

def inf (neg : Bool) : F64 := pack neg (2047 * 2 ^ 52)

/-- `n / d` rounded to nearest, ties to even. -/
def roundDiv (n d : Nat) : Nat :=
  let q := n / d
  let r := 2 * (n % d)
  if d < r ∨ (r = d ∧ q % 2 = 1) then q + 1 else q

/-- The exponent of `n / d`: the largest `e` with `2 ^ e ≤ n / d`. -/
def exponentOf (n d : Nat) : Int :=
  let e : Int := (n.log2 : Int) - d.log2
  if n * 2 ^ (-e).toNat < d * 2 ^ e.toNat then e - 1 else e

/-- The double nearest to `± n / d`. -/
def ofRatio (neg : Bool) (n d : Nat) : F64 :=
  if n = 0 then pack neg 0
  else
    let e := max (exponentOf n d) (-1022)
    let m := roundDiv (n * 2 ^ (52 - e).toNat) (d * 2 ^ (e - 52).toNat)
    -- a normal `m` brings its leading bit along, a subnormal one has none
    let bits := (e + 1022).toNat * 2 ^ 52 + m
    if 2047 * 2 ^ 52 ≤ bits then inf neg else pack neg bits

/-- The units with their sign. -/
def signed (neg : Bool) (units : Nat) : Int := if neg then -units else units

/-! ## Operations -/

/-- `x - y`. -/
def sub (x y : F64) : F64 :=
  match x.value, y.value with
  | .nan, _ | _, .nan => nan
  | .inf s, .inf t => if s = t then nan else inf s
  | .inf s, .finite _ _ => inf s
  | .finite _ _, .inf t => inf !t
  | .finite s a, .finite t b =>
      let d := signed s a - signed t b
      -- an exact zero is positive, except for `-0 - 0`
      if d = 0 then pack (s && !t) 0 else ofRatio (d < 0) d.natAbs (2 ^ 1074)

/-- `x / y`. -/
def div (x y : F64) : F64 :=
  match x.value, y.value with
  | .nan, _ | _, .nan => nan
  | .inf _, .inf _ => nan
  | .inf s, .finite t _ => inf (s != t)
  | .finite s _, .inf t => pack (s != t) 0
  | .finite s a, .finite t b =>
      if b = 0 then if a = 0 then nan else inf (s != t) else ofRatio (s != t) a b

/-- `x < y`; false if either is a NaN. -/
def lt (x y : F64) : Bool :=
  match x.value, y.value with
  | .nan, _ | _, .nan => false
  | .inf s, .inf t => s && !t
  | .inf s, .finite _ _ => s
  | .finite _ _, .inf t => !t
  | .finite s a, .finite t b => signed s a < signed t b

/-- `x <= y`; false if either is a NaN. -/
def le (x y : F64) : Bool := x.value != .nan && y.value != .nan && !y.lt x

/-- `f64::max`: a NaN counts for nothing. -/
def maxNum (x y : F64) : F64 :=
  if x.value = .nan then y else if y.value = .nan then x else if x.lt y then y else x

/-- `x as u64`: towards zero and saturating. -/
def toU64 (x : F64) : Nat :=
  match x.value with
  | .nan => 0
  | .inf neg => if neg then 0 else 2 ^ 64 - 1
  | .finite neg units => if neg then 0 else min (units / 2 ^ 1074) (2 ^ 64 - 1)

/-- `a as f64 / b as f64` of two unsigned integers. -/
def ratio (a b : Nat) : F64 := div (ofInt a) (ofInt b)

/-- One third is rounded; small integers subtract exactly. -/
example : ratio 1 3 = ⟨0x3fd5555555555555#64⟩ ∧ (sub (ofInt 7) (ofInt 3)).toU64 = 4 := by
  decide +kernel

end F64
end Lib
end BrowserHeadless
