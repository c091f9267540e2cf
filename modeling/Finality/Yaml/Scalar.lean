import Finality.Decimal.Arithmetic
import Finality.Decimal.Numeral
import Finality.Encoding.Base64
import Finality.Json.Value
import Finality.Text.Lowercase
import Finality.Yaml.Tag

/-! # Scalars

The value of a scalar, which its tag and its text determine.  Underscores in numerals are dropped
wherever they stand.  Numerals with colons are sexagesimal: every place counts sixty times the one
to its right.

Two scalars are the same key (`Scalar.same`) if they are equal as numbers, whatever their types, or
if they are of one type and equal.  The undefined number of the word `.nan` is one key, but a numeral
for it makes a key of its own at every node. -/

namespace Finality.Yaml

open Decimal (Binary64)

/-- Value of a scalar. -/
inductive Scalar where
  | null
  | bool (b : Bool)
  | int (n : Int)
  | float (x : Binary64)
  /-- The undefined number: of the word for it, or of the numeral at a node. -/
  | undefined (node : Option Nat)
  | text (s : String)
  | bytes (bs : List UInt8)
  | timestamp (t : Timestamp)
deriving DecidableEq, Repr

namespace Scalar

/-- Sign and body of a numeral without its underscores. -/
def signAndBody (s : String) : Except Fault (Bool × List Char) :=
  match s.toList.filter (· != '_') with
  | [] => .error .emptyNumeral
  | cs => .ok (Text.Numeral.splitSign cs)

/-- Integer of a numeral in a base. -/
def integerIn (base : Nat) (cs : List Char) : Except Fault Int :=
  (Text.Numeral.read base cs).mapError fun
    | .malformed => .notNumeral base (String.ofList cs)
    | .overlong digits => .overlongNumeral digits

/-- Integer without its sign. -/
def unsignedInteger (cs : List Char) : Except Fault Int :=
  match cs with
  | [] => .error .emptyNumeral
  | ['0'] => .ok 0
  | '0' :: 'b' :: ds => integerIn 2 ds
  | '0' :: 'x' :: ds => integerIn 16 ds
  | '0' :: _ => integerIn 8 cs
  | _ =>
    if cs.contains ':' then do
      let places ← (cs.splitOn ':').mapM (integerIn 10)
      .ok (places.foldl (fun n place => n * 60 + place) 0)
    else integerIn 10 cs

/-- Integer of a text. -/
def integer (s : String) : Except Fault Int := do
  let (negative, cs) ← signAndBody s
  let n ← unsignedInteger cs
  .ok (if negative then -n else n)

/-- Number of a decimal numeral. -/
def decimal (cs : List Char) : Except Fault Binary64 :=
  match Decimal.Numeral.read? cs with
  | some x => .ok x
  | none => .error (.notNumber (String.ofList cs))

/-- Sum of sexagesimal places, the least first, the first of which has a weight.  Every weight must
be in the range of the numbers. -/
def sexagesimal (weight : Nat) (sum : Binary64) : List Binary64 → Except Fault Binary64
  | [] => .ok sum
  | x :: xs =>
    match Binary64.ofNat weight with
    | .infinity _ => .error .weightTooLarge
    | w => sexagesimal (weight * 60) (sum.add (x.mul w)) xs

/-- Fractional number without its sign. -/
def unsignedFraction (cs : List Char) : Except Fault Binary64 :=
  if cs == ['.', 'i', 'n', 'f'] then .ok (.infinity false)
  else if cs.contains ':' then do
    let places ← (cs.splitOn ':').mapM decimal
    sexagesimal 1 (.zero false) places.reverse
  else decimal cs

/-- Fractional number of a text. -/
def fraction (s : String) : Except Fault Scalar := do
  let (negative, cs) ← signAndBody s
  let cs := Text.lower cs
  if cs == ['.', 'n', 'a', 'n'] then .ok (.undefined none)
  else
    let x ← unsignedFraction cs
    .ok (.float (if negative then x.neg else x))

/-- Truth value of a word. -/
def truth (s : String) : Except Fault Bool :=
  let word := String.ofList (Text.lower s.toList)
  if ["yes", "true", "on"].contains word then .ok true
  else if ["no", "false", "off"].contains word then .ok false
  else .error (.notTruthValue word)

/-- Octets of a text, which must be ASCII. -/
def octets (s : String) : Except Fault (List UInt8) :=
  if !s.toList.all (·.toNat < 128) then .error .malformed
  else
    match Encoding.Base64.decode s.toList with
    | some bs => .ok bs
    | none => .error .malformed

/-- Value of a scalar with a tag. -/
def ofTagged (tag : Tag) (s : String) : Except Fault Scalar :=
  match tag with
  | .null => .ok .null
  | .bool => (truth s).map .bool
  | .int => (integer s).map .int
  | .float => fraction s
  | .binary => (octets s).map .bytes
  | .timestamp => (Timestamp.read s.toList).map .timestamp
  | .text => .ok (.text s)
  | _ => .error .malformed

/-- The scalar as that of a node: an undefined number is of that node, unless a word stands for it. -/
def atNode (node : Nat) : Scalar → Scalar
  | .float .nan => .undefined (some node)
  | s => s

/-- Values that say no more than an empty document. -/
def isVoid : Scalar → Bool
  | .null => true
  | .bool b => !b
  | .int n => n == 0
  | .float x => x.isZero
  | .undefined _ => false
  | .text s => s.isEmpty
  | .bytes bs => bs.isEmpty
  | .timestamp _ => false

/-- Exact integer that a scalar equals as a number, if it equals one. -/
def integral? : Scalar → Option Int
  | .bool b => some (if b then 1 else 0)
  | .int n => some n
  | .float x => x.toInt?
  | _ => none

/-- Scalars that are the same key. -/
def same (a b : Scalar) : Bool :=
  match a.integral?, b.integral? with
  | some m, some n => m == n
  | none, none =>
    match a, b with
    | .timestamp t, .timestamp u => t.same u
    | a, b => a == b
  | _, _ => false

/-- Text of an integer in messages, which have no room for the longest ones. -/
def integerText (n : Int) : String :=
  if Nat.pow 10 Text.Numeral.maxDigits ≤ n.natAbs then "<unprintable int object>" else toString n

/-- Text of a scalar in messages. -/
def display : Scalar → String
  | .null => "None"
  | .bool b => if b then "True" else "False"
  | .int n => integerText n
  | .float x => Json.displayLayout.render x
  | .undefined _ => Json.displayLayout.nan
  | .text s => s
  | .bytes bs => Text.quotedOctets bs
  | .timestamp t => t.display

theorem same_refl (s : Scalar) : s.same s := by
  unfold same
  cases s.integral? with
  | some n => simp
  | none =>
    cases s with
    | timestamp t =>
      cases h : t.offset <;> simp [Timestamp.same, h]
    | _ => simp

end Scalar

end Finality.Yaml
