import Finality.Decimal.Binary64

/-! # Decimals as they are written

The decimal digits that identify a binary floating point number: the fewest digits that round back
to it, and among those of equal length the ones nearest to it.

The reals that round to `m * 2 ^ e` form an interval around it, half a unit wide on either side,
except that the lower side is a quarter of a unit wide at a power of two; the ends belong to the
interval when `m` is even.  `Shortest.digits` tries the grids of one to seventeen digits and takes
the first on which one of the two neighbours of the value lies in the interval.  Positions are
compared exactly, in naturals.

How the digits become a text is a matter of the format.  Its decisions are collected in one record,
`Layout`: which exponents are written positionally, what follows an integer, and how the exponent of
the scientific form is spelled. -/

namespace Finality.Decimal

/-- Decimal digits with the place of the point: the value is `0.d₁d₂d₃… * 10 ^ point`. -/
structure Digits where
  digits : List Nat
  point : Int
deriving DecidableEq, Repr

namespace Shortest

open Binary64 (powRatio)

/-- Compares `d * 10 ^ t` with `x * 2 ^ e`. -/
def compareScaled (d : Nat) (t : Int) (x : Nat) (e : Int) : Ordering :=
  let (p, q) := powRatio 10 t
  let (u, v) := powRatio 2 e
  compare (d * p * v) (x * u * q)

/-- The interval of reals that round to a value, in quarters of its unit. -/
structure Interval where
  low : Nat
  high : Nat
  exponent : Int
  closed : Bool

/-- Rounding interval of `m * 2 ^ e`. -/
def interval (m : Nat) (e : Int) : Interval :=
  let narrow := m == Nat.pow 2 (Binary64.precision - 1) && Binary64.minExponent < e
  { low := 4 * m - if narrow then 1 else 2
    high := 4 * m + 2
    exponent := e - 2
    closed := m % 2 == 0 }

/-- Membership of `d * 10 ^ t`. -/
def Interval.contains (i : Interval) (d : Nat) (t : Int) : Bool :=
  match compareScaled d t i.low i.exponent, compareScaled d t i.high i.exponent with
  | .gt, .lt => true
  | .eq, _ => i.closed
  | _, .eq => i.closed
  | _, _ => false

/-- Least `k` with `m * 2 ^ e < 10 ^ k`, for positive `m`. -/
def pointOf (m : Nat) (e : Int) : Int :=
  let estimate := Int.fdiv ((Binary64.floorLog2 m 1 + e) * 30103) 100000
  if compareScaled 1 estimate m e == .gt then estimate
  else if compareScaled 1 (estimate + 1) m e == .gt then estimate + 1
  else estimate + 2

/-- The neighbour of `m * 2 ^ e` on the grid of step `10 ^ t` that lies in its rounding interval;
of two such neighbours the nearer, at equal distance the even one. -/
def onGrid (m : Nat) (e : Int) (t : Int) : Option Nat :=
  let (p, q) := powRatio 10 t
  let (u, v) := powRatio 2 e
  let below := (m * u * q) / (v * p)
  let i := interval m e
  match i.contains below t, i.contains (below + 1) t with
  | true, true =>
    match compareScaled (2 * below + 1) t (2 * m) e with
    | .gt => some below
    | .lt => some (below + 1)
    | .eq => some (if below % 2 = 0 then below else below + 1)
  | true, false => some below
  | false, true => some (below + 1)
  | false, false => none

/-- First hit on the grids of `count` digits and more, up to seventeen. -/
def search (m : Nat) (e : Int) (point : Int) : Nat → Nat → Nat × Int
  | 0, _ => (0, 0)
  | tries + 1, count =>
    let t := point - count
    match onGrid m e t with
    | some d => (d, t)
    | none => search m e point tries (count + 1)

/-- Digits of a natural number, most significant first. -/
def naturalDigits (n : Nat) : List Nat := (Nat.toDigits 10 n).map (·.toNat - 48)

/-- Digits without the zeros at the end. -/
def dropTrailingZeros (ds : List Nat) : List Nat := (ds.reverse.dropWhile (· == 0)).reverse

/-- Shortest digits of `m * 2 ^ e`; zero has the one digit `0` before the point. -/
def digits (m : Nat) (e : Int) : Digits :=
  if m = 0 then { digits := [0], point := 1 }
  else
    let (d, t) := search m e (pointOf m e) 17 1
    let ds := naturalDigits d
    { digits := dropTrailingZeros ds, point := t + ds.length }

end Shortest

/-! ### Layout -/

/-- Decisions of a number format. -/
structure Layout where
  /-- Least exponent of the first digit that is written positionally. -/
  positionalFrom : Int
  /-- Exponents from here on are written in the scientific form. -/
  positionalBelow : Int
  /-- What follows the digits of an integer in the positional form. -/
  integerMark : String
  /-- Mark before the exponent. -/
  exponentMark : String
  /-- Least number of digits of the exponent. -/
  exponentWidth : Nat
  nan : String
  infinity : String
deriving Repr

namespace Layout

/-- Text of a digit sequence. -/
def digitText (ds : List Nat) : String := String.ofList (ds.map fun d => Char.ofNat (48 + d))

/-- Positional form: zeros fill the places that the digits leave open. -/
def positional (f : Layout) (d : Digits) : String :=
  if d.point ≤ 0 then
    "0." ++ digitText (List.replicate (-d.point).toNat 0 ++ d.digits)
  else
    let n := d.point.toNat
    let whole := d.digits.take n ++ List.replicate (n - d.digits.length) 0
    let rest := d.digits.drop n
    if rest.isEmpty then digitText whole ++ f.integerMark
    else digitText whole ++ "." ++ digitText rest

/-- Scientific form: one digit before the point, and a signed exponent. -/
def scientific (f : Layout) (d : Digits) : String :=
  let e := d.point - 1
  let digits := toString e.natAbs
  let zeros := String.ofList (List.replicate (f.exponentWidth - digits.length) '0')
  let fraction := if d.digits.length ≤ 1 then "" else "." ++ digitText (d.digits.drop 1)
  digitText (d.digits.take 1) ++ fraction ++ f.exponentMark
    ++ (if e < 0 then "-" else "+") ++ zeros ++ digits

/-- Text of a binary floating point number. -/
def render (f : Layout) : Binary64 → String
  | .nan => f.nan
  | .infinity negative => (if negative then "-" else "") ++ f.infinity
  | .finite negative m e =>
    let d := Shortest.digits m e
    let exponent := d.point - 1
    (if negative then "-" else "")
      ++ if f.positionalFrom ≤ exponent ∧ exponent < f.positionalBelow then f.positional d
         else f.scientific d

end Layout

end Finality.Decimal
