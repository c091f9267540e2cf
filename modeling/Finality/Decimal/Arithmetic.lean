import Finality.Decimal.Binary64

/-! # Arithmetic on binary floating point numbers

Sum and product, each the exact result rounded once.  An exact sum of zero is the positive zero
unless both terms are negative zeros; a product has the sign that its factors give it. -/

namespace Finality.Decimal.Binary64

/-- Negative numbers, the negative zero included. -/
def isNegative : Binary64 → Bool
  | .nan => false
  | .infinity negative => negative
  | .finite negative .. => negative

/-- The same number with the other sign. -/
def neg : Binary64 → Binary64
  | .nan => .nan
  | .infinity negative => .infinity !negative
  | .finite negative m e => .finite (!negative) m e

/-- Significand with its sign, in units of `2 ^ least`. -/
def scaled (negative : Bool) (m : Nat) (e least : Int) : Int :=
  let n : Int := (m * Nat.pow 2 (e - least).toNat : Nat)
  if negative then -n else n

/-- Nearest value to `n * 2 ^ e`. -/
def ofScaled (negative : Bool) (n : Nat) (e : Int) : Binary64 :=
  let (p, q) := powRatio 2 e
  ofRatio negative (n * p) q

/-- Sum. -/
def add : Binary64 → Binary64 → Binary64
  | .nan, _ => .nan
  | _, .nan => .nan
  | .infinity a, .infinity b => if a = b then .infinity a else .nan
  | .infinity a, _ => .infinity a
  | _, .infinity b => .infinity b
  | .finite a m e, .finite b n f =>
    let least := min e f
    let s := scaled a m e least + scaled b n f least
    if s = 0 then zero (a && b) else ofScaled (s < 0) s.natAbs least

/-- Product. -/
def mul : Binary64 → Binary64 → Binary64
  | .nan, _ => .nan
  | _, .nan => .nan
  | .finite a m e, .finite b n f => ofScaled (a != b) (m * n) (e + f)
  | x, y => if x.isZero || y.isZero then .nan else .infinity (x.isNegative != y.isNegative)

/-- Nearest value to a natural number. -/
def ofNat (n : Nat) : Binary64 := ofRatio false n 1

/-- Greatest integer that is not above the number, if it is finite. -/
def floor? : Binary64 → Option Int
  | .finite negative m e =>
    let (p, q) := powRatio 2 e
    let n : Int := (m * p : Nat)
    some ((if negative then -n else n).fdiv q)
  | _ => none

@[simp] theorem add_nan (x : Binary64) : add x .nan = .nan := by cases x <;> rfl

@[simp] theorem neg_neg (x : Binary64) : neg (neg x) = x := by cases x <;> simp [neg]

end Finality.Decimal.Binary64
