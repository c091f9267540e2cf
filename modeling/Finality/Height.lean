import Finality.Fault
import Finality.Text.Numeral

/-! # Block heights

A height is a natural number.  The feed spells it as a JSON number or as a numeral in a text;
`Height.ofValue` accepts a value exactly when it spells a natural number in one of these ways, and
otherwise names the first of four objections: truth values are no heights, a fraction, an infinity
or an undefined number is not integral, anything that spells no integer is not an integer, and a
negative integer is no height. -/

namespace Finality.Height

/-- Objections to a value as a height. -/
inductive Objection where
  | truthValue
  | notIntegral
  | notInteger
  | negative
deriving DecidableEq, Repr

/-- Wording of an objection. -/
def Objection.message : Objection → String
  | .truthValue => "booleans are not heights"
  | .notIntegral => "heights are integral"
  | .notInteger => "not an integer"
  | .negative => "heights are non-negative"

/-- Name of the type in messages. -/
def typeName : String := "BlockNumber"

/-- Integer that a value spells. -/
def integerOf : Json.Value → Except Objection Int
  | .bool _ => .error .truthValue
  | .int n => .ok n
  | .float x => match x.toInt? with
    | some n => .ok n
    | none => .error .notIntegral
  | .text s => match Text.Numeral.read 10 s.toList with
    | .ok n => .ok n
    | .error _ => .error .notInteger
  | _ => .error .notInteger

/-- Nat that a value spells. -/
def ofValue? (v : Json.Value) : Except Objection Nat := do
  match ← integerOf v with
  | .ofNat n => .ok n
  | .negSucc _ => .error .negative

/-- Nat that a value spells, or the fault to report. -/
def ofValue (v : Json.Value) : Except Fault Nat :=
  (ofValue? v).mapError fun o => .value typeName v o.message

/-- Nat as it is shown itself. -/
def display (h : Nat) : String := typeName ++ "(" ++ toString h ++ ")"

end Finality.Height
