/-! # Binary floating point numbers

The values of the 64-bit binary format as exact numbers: a finite value is a sign, a significand and
an exponent, and stands for `± significand * 2 ^ exponent`.  Finite values are kept in the one form
with `significand < 2 ^ 53`, `-1074 ≤ exponent ≤ 971`, and a significand of full length (at least
`2 ^ 52`) unless the exponent is the least one.

`Binary64.ofRatio` rounds a quotient of naturals to the nearest value, a tie to the even
significand; `Binary64.ofDecimal` does it for decimal digits with an exponent.  All arithmetic is
exact and on naturals. -/

namespace Finality.Decimal

/-- A 64-bit binary floating point number. -/
inductive Binary64 where
  | nan
  | infinity (negative : Bool)
  | finite (negative : Bool) (significand : Nat) (exponent : Int)
deriving DecidableEq, Repr

namespace Binary64

/-- Number of significand bits. -/
def precision : Nat := 53

/-- Least exponent of a finite value. -/
def minExponent : Int := -1074

/-- Greatest exponent of a finite value. -/
def maxExponent : Int := 971

/-- The zero of a sign. -/
def zero (negative : Bool) : Binary64 := .finite negative 0 minExponent

/-- `base ^ exponent` as a quotient of naturals. -/
def powRatio (base : Nat) (exponent : Int) : Nat × Nat :=
  (Nat.pow base exponent.toNat, Nat.pow base (-exponent).toNat)

/-- Quotient rounded to the nearest natural, a tie to the even one. -/
def roundDiv (num den : Nat) : Nat :=
  let q := num / den
  let r := num % den
  if 2 * r < den ∨ (2 * r = den ∧ q % 2 = 0) then q else q + 1

/-- Greatest `k` with `2 ^ k ≤ num / den`, for positive arguments. -/
def floorLog2 (num den : Nat) : Int :=
  let k : Int := (Nat.log2 num : Int) - (Nat.log2 den : Int)
  let (p, q) := powRatio 2 k
  if p * den ≤ num * q then k else k - 1

/-- The value nearest to a quotient of naturals. -/
def ofRatio (negative : Bool) (num den : Nat) : Binary64 :=
  if num = 0 then zero negative
  else
    let e := max (floorLog2 num den - 52) minExponent
    let (p, q) := powRatio 2 e
    let m := roundDiv (num * q) (den * p)
    let (m, e) := if m = Nat.pow 2 precision then (Nat.pow 2 (precision - 1), e + 1) else (m, e)
    if maxExponent < e then .infinity negative else .finite negative m e

/-- The value nearest to `digits * 10 ^ exponent`.  Magnitudes far beyond the range are settled by
the number of digits, without computing the power. -/
def ofDecimal (negative : Bool) (digits : Nat) (exponent : Int) : Binary64 :=
  if digits = 0 then zero negative
  else
    let magnitude := exponent + (toString digits).length
    if 310 < magnitude then .infinity negative
    else if magnitude < -330 then zero negative
    else
      let (p, q) := powRatio 10 exponent
      ofRatio negative (digits * p) q

/-- Positive and negative zero. -/
def isZero : Binary64 → Bool
  | .finite _ m _ => m == 0
  | _ => false

/-- The integer that a finite value equals, if it equals one. -/
def toInt? : Binary64 → Option Int
  | .finite negative m e =>
    let (p, q) := powRatio 2 e
    if (m * p) % q = 0 then
      let n : Int := ((m * p / q : Nat) : Int)
      some (if negative then -n else n)
    else none
  | _ => none

end Binary64

end Finality.Decimal
