import Finality.Encoding.TextFile
import Finality.Text.Numeral
import Finality.Text.Quoted

/-! # Faults of YAML documents

Why a text does not yield a document.  Nearly everything is `malformed`; the other faults come from
octets that do not decode, from numbers in escapes and directives, and from scalars that have a type,
from their form or from a tag, but no value of it. -/

namespace Finality.Yaml

/-- Parts of a date or time that can be out of range. -/
inductive DateFault where
  | year (n : Nat)
  | month
  | day
  | hour
  | minute
  | second
  | offset (minutes : Int)
deriving DecidableEq, Repr

/-- Duration in days and seconds, as messages show it. -/
def durationText (minutes : Int) : String :=
  let days := minutes.fdiv 1440
  let seconds := minutes.fmod 1440 * 60
  let parts := (if days = 0 then [] else ["days=" ++ toString days])
    ++ if seconds = 0 then [] else ["seconds=" ++ toString seconds]
  "datetime.timedelta(" ++ (if parts.isEmpty then "0" else ", ".intercalate parts) ++ ")"

/-- Wording of a date fault. -/
def DateFault.message : DateFault → String
  | .year n => "year " ++ toString n ++ " is out of range"
  | .month => "month must be in 1..12"
  | .day => "day is out of range for month"
  | .hour => "hour must be in 0..23"
  | .minute => "minute must be in 0..59"
  | .second => "second must be in 0..59"
  | .offset minutes =>
    "offset must be a timedelta strictly between -timedelta(hours=24) and timedelta(hours=24), not "
      ++ durationText minutes ++ "."

/-- Why a text does not yield a document. -/
inductive Fault where
  /-- The text is not one well-formed document of known types. -/
  | malformed
  /-- The octets of a file do not decode. -/
  | undecodable (u : Encoding.Undecodable)
  /-- An escape names no code point. -/
  | codePoint (n : Nat)
  /-- A text is no numeral of a base. -/
  | notNumeral (base : Nat) (text : String)
  /-- A numeral is too long. -/
  | overlongNumeral (digits : Nat)
  /-- A text is no number. -/
  | notNumber (text : String)
  /-- A sexagesimal place counts more than any number. -/
  | weightTooLarge
  /-- A numeral has nothing where its first digit is looked for. -/
  | emptyNumeral
  /-- A word is no truth value. -/
  | notTruthValue (word : String)
  /-- A text is no date. -/
  | notDate
  /-- A date is asked for where a mapping stands. -/
  | dateOfMapping
  /-- A mapping that stands for one of its values is that value. -/
  | endless
  | date (fault : DateFault)
deriving DecidableEq, Repr

/-- Wording of a fault, where it has one. -/
def Fault.message : Fault → String
  | .malformed => ""
  | .undecodable u => u.message
  | .codePoint n =>
    if n < 2147483648 then "chr() arg not in range(0x110000)"
    else "Python int too large to convert to C int"
  | .notNumeral base text =>
    "invalid literal for int() with base " ++ toString base ++ ": "
      ++ String.ofList ((Text.quoted text).toList.take 200)
  | .overlongNumeral digits => Text.Numeral.overlongMessage digits
  | .notNumber text => "could not convert string to float: " ++ Text.quoted text
  | .weightTooLarge => "int too large to convert to float"
  | .emptyNumeral => "string index out of range"
  | .notTruthValue word => Text.quoted word
  | .notDate => "'NoneType' object has no attribute 'groupdict'"
  | .dateOfMapping => "expected string or bytes-like object, got 'list'"
  | .endless => "maximum recursion depth exceeded"
  | .date fault => fault.message

end Finality.Yaml
