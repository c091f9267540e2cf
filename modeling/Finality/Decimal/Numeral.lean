import Finality.Decimal.Binary64
import Finality.Text.Numeral

/-! # Decimal numerals

The spellings of a binary floating point number in a text: white space at both ends, an optional
sign, and then either digits of any script with an optional point and exponent, or one of the words
for infinity and the undefined value in letters of either case. -/

namespace Finality.Decimal.Numeral

open Text (digitValue? isDigit)

/-- Lower-case form of an ASCII text. -/
def lower (cs : List Char) : List Char := cs.map Char.toLower

/-- Values of digits. -/
def digitValues (cs : List Char) : List Nat := cs.filterMap digitValue?

/-- Exponent at the end of a numeral; zero if there is none. -/
def exponent? : List Char → Option Int
  | [] => some 0
  | e :: rest =>
    if e == 'e' || e == 'E' then
      let (negative, ds) := Text.Numeral.splitSign rest
      if ds.isEmpty || !ds.all isDigit then none
      else some (Text.Numeral.signed negative (Text.Numeral.value 10 (digitValues ds)))
    else none

/-- Number of a text of digits, with an optional point and exponent. -/
def unsigned? (negative : Bool) (cs : List Char) : Option Binary64 := do
  let whole := cs.takeWhile isDigit
  let (fraction, rest) := match cs.dropWhile isDigit with
    | '.' :: rest => (rest.takeWhile isDigit, rest.dropWhile isDigit)
    | rest => ([], rest)
  if whole.isEmpty && fraction.isEmpty then none
  else
    let e ← exponent? rest
    some (.ofDecimal negative (Text.Numeral.value 10 (digitValues (whole ++ fraction)))
      (e - fraction.length))

/-- Number denoted by a numeral. -/
def read? (cs : List Char) : Option Binary64 :=
  let (negative, body) := Text.Numeral.splitSign (Text.trim cs)
  let word := String.ofList (lower body)
  if word == "nan" then some .nan
  else if word == "inf" || word == "infinity" then some (.infinity negative)
  else unsigned? negative body

end Finality.Decimal.Numeral
