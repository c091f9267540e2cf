import Finality.Decimal.Shortest
import Finality.Text.Numeral
import Finality.Text.Quoted

/-! # JSON values

Integers and fractional numbers are told apart by their spelling and kept apart: an integer is exact
whatever its size, a number with a fraction or an exponent is a 64-bit binary value.  Objects keep
the order of their keys.

Messages show a value in the form `Value.display`: the constants as `None`, `True` and `False`, texts
quoted, items and fields separated by a comma and a blank, and no escapes but those of quoted
text.  An integer of too many digits cannot be shown, nor can a value that holds one
(`Value.writable`). -/

namespace Finality.Json

open Finality.Decimal (Binary64)

/-- A JSON value. -/
inductive Value where
  | null
  | bool (b : Bool)
  | int (n : Int)
  | float (x : Binary64)
  | text (s : String)
  | array (items : List Value)
  | object (fields : List (String × Value))
deriving Repr, BEq

namespace Value

instance : Inhabited Value := ⟨.null⟩

/-- Value of a field of an object. -/
def field? (key : String) : Value → Option Value
  | .object fields => fields.lookup key
  | _ => none

/-- Truth value that a value is. -/
def truth? : Value → Option Bool
  | .bool b => some b
  | _ => none

/-- Integer that a value is. -/
def integer? : Value → Option Int
  | .int n => some n
  | _ => none

/-- Text that a value is. -/
def text? : Value → Option String
  | .text s => some s
  | _ => none

/-- Null, or a value that can be read. -/
def nullable? {α : Type} (read : Value → Option α) : Value → Option (Option α)
  | .null => some none
  | v => (read v).map some

/-- Integer that a value equals as a number, if it equals one.  Truth values count as one and zero. -/
def integral? : Value → Option Int
  | .bool b => some (if b then 1 else 0)
  | .int n => some n
  | .float x => x.toInt?
  | _ => none

/-- Array of a list of values of another type. -/
def ofList {α : Type} (f : α → Value) (xs : List α) : Value := .array (xs.map f)

/-- Null, or a value. -/
def ofOption {α : Type} (f : α → Value) : Option α → Value
  | none => .null
  | some a => f a

/-- Non-negative integers. -/
def nat (n : Nat) : Value := .int n

end Value

/-! ### Values in messages -/

/-- Spelling of fractional numbers in messages. -/
def displayLayout : Decimal.Layout where
  positionalFrom := -4
  positionalBelow := 16
  integerMark := ".0"
  exponentMark := "e"
  exponentWidth := 2
  nan := "nan"
  infinity := "inf"

namespace Value

mutual

/-- Shown form of a value. -/
def display : Value → String
  | .null => "None"
  | .bool b => if b then "True" else "False"
  | .int n => toString n
  | .float x => displayLayout.render x
  | .text s => Text.quoted s
  | .array [] => "[]"
  | .array (v :: vs) => "[" ++ v.display ++ displayItems vs ++ "]"
  | .object [] => "\x7b\x7d"
  | .object ((k, v) :: fs) =>
    "\x7b" ++ Text.quoted k ++ ": " ++ v.display ++ displayFields fs ++ "\x7d"

/-- Further items of an array. -/
def displayItems : List Value → String
  | [] => ""
  | v :: vs => ", " ++ v.display ++ displayItems vs

/-- Further fields of an object. -/
def displayFields : List (String × Value) → String
  | [] => ""
  | (k, v) :: fs => ", " ++ Text.quoted k ++ ": " ++ v.display ++ displayFields fs

end

mutual

/-- Values of which every integer can be written. -/
def writable : Value → Bool
  | .int n => Text.Numeral.Short n.natAbs
  | .array vs => writableItems vs
  | .object fs => writableFields fs
  | _ => true

/-- Items of an array that can be written. -/
def writableItems : List Value → Bool
  | [] => true
  | v :: vs => v.writable && writableItems vs

/-- Fields of an object that can be written. -/
def writableFields : List (String × Value) → Bool
  | [] => true
  | (_, v) :: fs => v.writable && writableFields fs

end

@[simp] theorem writable_int (n : Int) :
    (Value.int n).writable = decide (Text.Numeral.Short n.natAbs) := rfl

end Value

end Finality.Json
