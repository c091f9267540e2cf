import Finality.Yaml.Timestamp

/-! # Tags

The tag of a node says what kind of value it is.  A node without a tag gets one from its form: a
collection by its kind, a quoted or block scalar as a text, and a plain scalar by the first of the
patterns of `Tag.ofPlain` that its whole text fits.

The patterns are those of the YAML 1.1 type repository: `yes` and `off` are truth values, a leading
zero marks an octal numeral, and colons part sexagesimal places.  A line feed at the end of a text,
which only a quoted or a block scalar can have, is overlooked. -/

namespace Finality.Yaml

/-- Kinds of values that a tag can name. -/
inductive Tag where
  | null
  | bool
  | int
  | float
  | binary
  | timestamp
  | omap
  | pairs
  | set
  | text
  | sequence
  | mapping
  | merge
  | value
  | other
deriving DecidableEq, Repr

namespace Tag

/-- Tags of collections. -/
def isCollection (tag : Tag) : Bool := [omap, pairs, set, sequence, mapping].contains tag

/-- Tags of scalars. -/
def isScalar (tag : Tag) : Bool := [null, bool, int, float, binary, timestamp, text].contains tag

/-- What the names of the common tags start with. -/
def commonStem : String := "tag:yaml.org,2002:"

/-- Common tags by the last part of their names. -/
def common : List (String × Tag) := [
  ("null", .null), ("bool", .bool), ("int", .int), ("float", .float), ("binary", .binary),
  ("timestamp", .timestamp), ("omap", .omap), ("pairs", .pairs), ("set", .set), ("str", .text),
  ("seq", .sequence), ("map", .mapping), ("merge", .merge), ("value", .value)]

/-- Tag of a full name. -/
def ofName (name : String) : Tag :=
  ((common.map fun c => (commonStem ++ c.1, c.2)).lookup name).getD .other

/-! ### Patterns of plain scalars -/

open Text (isAsciiDigit)

/-- Words for the truth values. -/
def truthWords : List String := [
  "yes", "Yes", "YES", "no", "No", "NO", "true", "True", "TRUE", "false", "False", "FALSE",
  "on", "On", "ON", "off", "Off", "OFF"]

/-- Indicators, which as scalars have a type of their own that no value belongs to. -/
def indicatorWords : List String := ["!", "&", "*"]

/-- Words for the absent value. -/
def nullWords : List String := ["", "~", "null", "Null", "NULL"]

/-- Digits of a numeral and the underscores that may stand among them. -/
def isPlace (c : Char) : Bool := isAsciiDigit c || c == '_'

/-- A text that is not empty, all of a class. -/
def isRun (p : Char → Bool) (cs : List Char) : Bool := !cs.isEmpty && cs.all p

/-- Text without a sign in front. -/
def unsigned : List Char → List Char
  | c :: rest => if c == '-' || c == '+' then rest else c :: rest
  | [] => []

/-- Text behind sexagesimal places, each a colon and a number below sixty. -/
def sexagesimals : List Char → List Char
  | ':' :: a :: b :: rest =>
    if isAsciiDigit b then
      if '0' ≤ a && a ≤ '5' then sexagesimals rest else ':' :: a :: b :: rest
    else if isAsciiDigit a then sexagesimals (b :: rest)
    else ':' :: a :: b :: rest
  | [':', a] => if isAsciiDigit a then [] else [':', a]
  | cs => cs

/-- Integers: binary, octal and hexadecimal by their marks, decimal, and sexagesimal. -/
def isInt (cs : List Char) : Bool :=
  match unsigned cs with
  | ['0'] => true
  | '0' :: 'b' :: ds => isRun (fun c => c == '0' || c == '1' || c == '_') ds
  | '0' :: 'x' :: ds => isRun (fun c => (Text.hexValue? c).isSome || c == '_') ds
  | '0' :: ds => isRun (fun c => ('0' ≤ c && c ≤ '7') || c == '_') ds
  | c :: rest => isAsciiDigit c && (sexagesimals (rest.dropWhile isPlace)).isEmpty
  | [] => false

/-- Exponent of a fractional number, or nothing.  Its sign is required. -/
def isExponent : List Char → Bool
  | [] => true
  | e :: sign :: ds => (e == 'e' || e == 'E') && (sign == '-' || sign == '+') && isRun isAsciiDigit ds
  | _ => false

/-- Fractional numbers with digits before the point, decimal or sexagesimal. -/
def isPointed : List Char → Bool
  | c :: rest =>
    isAsciiDigit c &&
      match rest.dropWhile isPlace with
      | '.' :: rest => isExponent (rest.dropWhile isPlace)
      | rest =>
        match sexagesimals rest with
        | '.' :: rest => rest.all isPlace
        | _ => false
  | [] => false

/-- Fractional numbers: with a point, infinite, or undefined. -/
def isFloat (cs : List Char) : Bool :=
  isPointed (unsigned cs)
    || (match cs with
      | '.' :: c :: rest => isAsciiDigit c && isExponent (rest.dropWhile isPlace)
      | _ => false)
    || [".inf", ".Inf", ".INF"].contains (String.ofList (unsigned cs))
    || [".nan", ".NaN", ".NAN"].contains (String.ofList cs)

/-- Tag of a plain scalar. -/
def ofPlain (s : String) : Tag :=
  if s == "\n" then .text
  else
    let cs := Timestamp.dropFinalBreak s.toList
    let word := String.ofList cs
    if truthWords.contains word then .bool
    else if isFloat cs then .float
    else if isInt cs then .int
    else if word == "<<" then .merge
    else if nullWords.contains word then .null
    else if Timestamp.isForm cs then .timestamp
    else if word == "=" then .value
    else if indicatorWords.contains word then .other
    else .text

end Tag

end Finality.Yaml
