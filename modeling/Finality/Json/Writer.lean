import Finality.Json.Value
import Finality.Decimal.Shortest
import Finality.Text.Quoted

/-! # Writing JSON

A value becomes one text, either compact, with nothing between the tokens, or laid out over lines,
with one field or item on a line.  Characters beyond ASCII stay as they are; the quote, the
backslash and the controls are escaped, the latter by a short form where JSON has one.

An empty array or object is written without a break in both forms. -/

namespace Finality.Json

/-- Spelling of fractional numbers: the shortest digits, positional from `1e-4` up to `1e16`. -/
def numberLayout : Decimal.Layout where
  positionalFrom := -4
  positionalBelow := 16
  integerMark := ".0"
  exponentMark := "e"
  exponentWidth := 2
  nan := "NaN"
  infinity := "Infinity"

namespace Writer

/-- One character of a string. -/
def escape (c : Char) : List Char :=
  if c == '"' then ['\\', '"']
  else if c == '\\' then ['\\', '\\']
  else if c.toNat == 0x08 then ['\\', 'b']
  else if c.toNat == 0x09 then ['\\', 't']
  else if c.toNat == 0x0A then ['\\', 'n']
  else if c.toNat == 0x0C then ['\\', 'f']
  else if c.toNat == 0x0D then ['\\', 'r']
  else if c.toNat < 0x20 then '\\' :: 'u' :: Text.hexDigits 4 c.toNat
  else [c]

/-- A string between its quotes. -/
def string (s : String) : List Char := '"' :: s.toList.flatMap escape ++ ['"']

/-- Breaks between the tokens of an array or object: `none` for the compact form, or the width of
one level of indentation. -/
abbrev Indent := Option Nat

/-- Break before an item at a depth. -/
def newline (indent : Indent) (depth : Nat) : List Char :=
  match indent with
  | none => []
  | some width => '\n' :: List.replicate (width * depth) ' '

/-- Mark between a key and its value. -/
def colon (indent : Indent) : List Char := if indent.isSome then [':', ' '] else [':']

mutual

/-- Text of a value at a depth. -/
def value (indent : Indent) (depth : Nat) : Value → List Char
  | .null => "null".toList
  | .bool b => (if b then "true" else "false").toList
  | .int n => (toString n).toList
  | .float x => (numberLayout.render x).toList
  | .text s => string s
  | .array [] => ['[', ']']
  | .array (v :: vs) =>
    '[' :: newline indent (depth + 1) ++ value indent (depth + 1) v
      ++ items indent (depth + 1) vs ++ newline indent depth ++ [']']
  | .object [] => ['\x7b', '\x7d']
  | .object ((k, v) :: fs) =>
    '\x7b' :: newline indent (depth + 1) ++ string k ++ colon indent ++ value indent (depth + 1) v
      ++ fields indent (depth + 1) fs ++ newline indent depth ++ ['\x7d']

/-- Further items of an array. -/
def items (indent : Indent) (depth : Nat) : List Value → List Char
  | [] => []
  | v :: vs => ',' :: newline indent depth ++ value indent depth v ++ items indent depth vs

/-- Further fields of an object. -/
def fields (indent : Indent) (depth : Nat) : List (String × Value) → List Char
  | [] => []
  | (k, v) :: fs =>
    ',' :: newline indent depth ++ string k ++ colon indent ++ value indent depth v
      ++ fields indent depth fs

end

end Writer

/-- Text of a value, compact or with the given indentation. -/
def Value.render (indent : Option Nat) (v : Value) : String := String.ofList (Writer.value indent 0 v)

end Finality.Json
