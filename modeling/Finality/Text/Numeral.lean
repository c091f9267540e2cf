import Finality.Text.Character

/-! # Integer numerals

The spellings of an integer in a text: white space at both ends, then an optional sign, then digits
of any script.  Single underscores may stand between two digits.  Bases other than ten also allow
their mark (`0b`, `0o`, `0x`) before the digits, and the letters `a` to `f` of either case.

A decimal numeral of more than `maxDigits` digits is refused whatever its value, leading zeros
included and underscores not counted, because reading it takes time quadratic in its length.  Its
digits are counted first, so this objection wins over what stands behind them.  For the same reason
an integer of more than `maxDigits` digits is not written as a text (`write?`). -/

namespace Finality.Text.Numeral

/-- Largest number of digits of a decimal numeral. -/
def maxDigits : Nat := 4300

/-- Reasons to refuse a numeral. -/
inductive Fault where
  | malformed
  | overlong (digits : Nat)
deriving DecidableEq, Repr

/-- Wording of the refusal of a numeral for its length. -/
def overlongMessage (digits : Nat) : String :=
  "Exceeds the limit (" ++ toString maxDigits
    ++ " digits) for integer string conversion: value has " ++ toString digits
    ++ " digits; use sys.set_int_max_str_digits() to increase the limit"

/-- A number has not too many digits to be read and written. -/
def Short (n : Nat) : Prop := (Nat.toDigits 10 n).length ≤ maxDigits

instance (n : Nat) : Decidable (Short n) := inferInstanceAs (Decidable (_ ≤ _))

/-- Wording of the refusal to write an integer. -/
def unwritableMessage : String :=
  "Exceeds the limit (" ++ toString maxDigits
    ++ " digits) for integer string conversion; use sys.set_int_max_str_digits() to increase the limit"

/-- Decimal form of an integer, unless it has too many digits. -/
def write? (n : Int) : Option String := if Short n.natAbs then some (toString n) else none

/-- Positional value of a digit sequence, most significant digit first. -/
def value (base : Nat) (ds : List Nat) : Nat :=
  ds.foldl (fun n d => n * base + d) 0

/-- Value of a sequence of ASCII digits. -/
def digitsValue (cs : List Char) : Nat := value 10 (cs.map (·.toNat - 48))

/-- Value of a character as a digit in a base. -/
def digitIn? (base : Nat) (c : Char) : Option Nat :=
  let letter :=
    if 'a' ≤ c ∧ c ≤ 'f' then some (c.toNat - 87)
    else if 'A' ≤ c ∧ c ≤ 'F' then some (c.toNat - 55)
    else none
  ((digitValue? c).orElse fun _ => letter).filter (· < base)

/-- Digits of a numeral, most significant first.  Single underscores may stand between digits. -/
def digits? (base : Nat) : List Char → Option (List Nat)
  | [] => none
  | [c] => (digitIn? base c).map ([·])
  | c :: '_' :: rest => do
    let d ← digitIn? base c
    let ds ← digits? base rest
    pure (d :: ds)
  | c :: rest => do
    let d ← digitIn? base c
    let ds ← digits? base rest
    pure (d :: ds)

/-- Sign and body of a numeral: `true` for a minus sign. -/
def splitSign : List Char → Bool × List Char
  | '-' :: rest => (true, rest)
  | '+' :: rest => (false, rest)
  | cs => (false, cs)

/-- Body of a numeral without the mark of its base. -/
def dropBaseMark (base : Nat) : List Char → List Char
  | '0' :: m :: rest =>
    if (base == 2 && (m == 'b' || m == 'B')) || (base == 8 && (m == 'o' || m == 'O'))
        || (base == 16 && (m == 'x' || m == 'X')) then rest
    else '0' :: m :: rest
  | cs => cs

/-- Negates a magnitude on demand. -/
def signed (negative : Bool) (n : Nat) : Int := if negative then -(n : Int) else n

/-- Number of the digits that a text begins with, underscores between them not counted. -/
def leadingDigits (base : Nat) (cs : List Char) : Nat :=
  let places := cs.takeWhile fun c => c == '_' || (digitIn? base c).isSome
  ((digits? base places).map List.length).getD 0

/-- Integer denoted by a numeral in a base. -/
def read (base : Nat) (cs : List Char) : Except Fault Int :=
  let (negative, body) := splitSign (trim cs)
  let body := dropBaseMark base body
  let length := leadingDigits base body
  if base = 10 ∧ maxDigits < length then .error (.overlong length)
  else
    match digits? base body with
    | none => .error .malformed
    | some ds => .ok (signed negative (value base ds))

end Finality.Text.Numeral
