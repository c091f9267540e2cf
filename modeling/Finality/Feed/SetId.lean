import Finality.Json.Value
import Finality.Text.Numeral

/-! # Authority set ids

A set id is an integer.  Besides integers the feed may send truth values, which count as one and
zero, integral numbers of at most 63 bits in floating point, and texts.

The plain numeral of an id is its decimal form: an optional minus sign, and either the digit zero or
ASCII digits that begin with another one.  A text may spell an id with more freedom than that:

* white space may surround it, and a plus sign may stand in front of it;
* in front of the first digit other than zero, of a minus sign or of a point there may be zeros,
  underscores among them, so that `007` is seven and `0-7` is minus seven, while `-07` is no id;
* a point with zeros behind it may follow the digits;
* single underscores may stand between two characters.

What is left has to be a plain numeral of at most `Numeral.maxDigits` characters.  A text that
begins with a longer plain numeral is refused for its size, whatever follows.

Readers of ids agree on plain numerals, but not on every sign in front of zeros and underscores.  So
what a message says is defined for any of them (`Message.decodeWith`), and this is the one in use. -/

namespace Finality.Feed.SetId

/-- Objections to a value as a set id. -/
inductive Objection where
  | notFinite
  | fractional
  | tooLarge
  | unreadable
  | notInteger
deriving DecidableEq, Repr

/-- Wording of an objection. -/
def Objection.message : Objection → String
  | .notFinite => "Input should be a finite number"
  | .fractional => "Input should be a valid integer, got a number with a fractional part"
  | .tooLarge => "Unable to parse input string as an integer, exceeded maximum size"
  | .unreadable => "Input should be a valid integer, unable to parse string as an integer"
  | .notInteger => "Input should be a valid integer"

/-- Digits that a plain numeral may begin with, zero apart. -/
def isLeading (c : Char) : Bool := '1' ≤ c && c ≤ '9'

/-- Id of a plain numeral. -/
def plain? (cs : List Char) : Option Int :=
  let (negative, body) := match cs with
    | '-' :: rest => (true, rest)
    | cs => (false, cs)
  let wellFormed := match body with
    | [] => false
    | ['0'] => true
    | c :: rest => isLeading c && rest.all Text.isAsciiDigit
  if wellFormed && cs.length ≤ Text.Numeral.maxDigits then
    some (Text.Numeral.signed negative (Text.Numeral.digitsValue body))
  else none

/-- A plain numeral of too many characters at the beginning of a text. -/
def beginsOverlong (cs : List Char) : Bool :=
  let (sign, body) := cs.span (· == '-')
  match body with
  | c :: rest =>
    sign.length ≤ 1 && isLeading c
      && Text.Numeral.maxDigits < sign.length + 1 + (rest.takeWhile Text.isAsciiDigit).length
  | [] => false

/-- Text from its first significant character on, behind zeros and underscores of which `last` is
the one before it.  In front of a point, and at the end, one of them stays. -/
def significantAfter (last : Char) : List Char → Option (List Char)
  | [] => some [last]
  | c :: rest =>
    if c == '0' || c == '_' then significantAfter c rest
    else if c == '.' then some (last :: c :: rest)
    else if c == '-' || isLeading c then some (c :: rest)
    else none

/-- Text without the zeros that it begins with; `none` if no numeral begins there. -/
def significant? : List Char → Option (List Char)
  | '0' :: rest => significantAfter '0' rest
  | c :: rest => if c == '-' || isLeading c then some (c :: rest) else none
  | [] => none

/-- Text without its plus sign; `none` if a second sign follows. -/
def dropPlus? : List Char → Option (List Char)
  | '+' :: '-' :: _ => none
  | '+' :: rest => some rest
  | cs => some cs

/-- Text without a fraction that is zero. -/
def dropZeroFraction (cs : List Char) : List Char :=
  match cs.dropWhile (· != '.') with
  | _ :: fraction =>
    if !fraction.isEmpty && fraction.all (· == '0') then cs.takeWhile (· != '.') else cs
  | [] => cs

/-- Texts in which every underscore stands alone between two other characters. -/
def underscoresSeparate : List Char → Bool
  | [] => true
  | ['_'] => false
  | '_' :: '_' :: _ => false
  | _ :: rest => underscoresSeparate rest

/-- Text without its underscores, if they all stand alone between two other characters. -/
def dropUnderscores (cs : List Char) : List Char :=
  if cs.head? != some '_' && underscoresSeparate cs then cs.filter (· != '_') else cs

/-- Id that a text spells. -/
def ofText (s : String) : Except Objection Int :=
  let cs := s.toList
  if beginsOverlong cs then .error .tooLarge
  else
    let core := (dropPlus? (Text.trim cs)).bind significant?
    match core.bind fun cs => plain? (dropUnderscores (dropZeroFraction cs)) with
    | some n => .ok n
    | none => .error .unreadable

/-- Integers of at most 63 bits and a sign. -/
def fits (n : Int) : Bool := -9223372036854775808 < n && n < 9223372036854775808

/-- Id that a floating point number equals. -/
def ofFloat (x : Decimal.Binary64) : Except Objection Int :=
  match x, x.toInt? with
  | .finite .., some n => if fits n then .ok n else .error .tooLarge
  | .finite .., none => .error .fractional
  | _, _ => .error .notFinite

/-- Id that a value spells. -/
def ofValue : Json.Value → Except Objection Int
  | .int n => .ok n
  | .bool b => .ok (if b then 1 else 0)
  | .float x => ofFloat x
  | .text s => ofText s
  | _ => .error .notInteger

end Finality.Feed.SetId
