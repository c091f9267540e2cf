import Finality.Height

/-! # Schemas

Objects with declared fields, as configurations and snapshots are given.  A declared field has a
name and an alias, and a document may use either spelling, the alias first.  What a document is
blamed for is a list of issues, each with the place of the value at fault.

A key that no declared field owns is unexpected; so is the name of a field whose alias is there
as well. -/

namespace Finality.Schema

/-- A step of the place of an issue: a key, or an index or numeric key. -/
inductive Step where
  | name (s : String)
  | index (n : Int)
deriving DecidableEq, Repr

/-- Step in a dotted path. -/
def Step.text : Step → String
  | .name s => s
  | .index n => toString n

/-- What is wrong with a value. -/
inductive Problem where
  | notObject (title : String)
  | notInteger
  | notTruthValue
  | notText
  | notTuple
  | below (least : Nat)
  | refused (message : String)
  | unexpected
  | keyNotText
deriving DecidableEq, Repr

/-- Identifier of a problem. -/
def Problem.name : Problem → String
  | .notObject _ => "model_type"
  | .notInteger => "int_type"
  | .notTruthValue => "bool_type"
  | .notText => "string_type"
  | .notTuple => "tuple_type"
  | .below _ => "greater_than_equal"
  | .refused _ => "value_error"
  | .unexpected => "extra_forbidden"
  | .keyNotText => "invalid_key"

/-- Wording of a problem. -/
def Problem.message : Problem → String
  | .notObject title => "Input should be a valid dictionary or instance of " ++ title
  | .notInteger => "Input should be a valid integer"
  | .notTruthValue => "Input should be a valid boolean"
  | .notText => "Input should be a valid string"
  | .notTuple => "Input should be a valid tuple"
  | .below least => "Input should be greater than or equal to " ++ toString least
  | .refused message => "Value error, " ++ message
  | .unexpected => "Extra inputs are not permitted"
  | .keyNotText => "Keys should be strings"

/-- A problem at a place. -/
structure Issue where
  place : List Step
  problem : Problem
deriving DecidableEq, Repr

namespace Issue

/-- Problem of a field in the spelling that the document uses. -/
def ofField (spelling : String) (problem : Problem) : Issue := ⟨[.name spelling], problem⟩

/-- The whole document is not an object. -/
def notObject (title : String) : Issue := ⟨[], .notObject title⟩

end Issue

/-- A key of a document: a text, or the place that stands for a key of another type. -/
inductive Key where
  | name (s : String)
  | foreign (place : Step)
deriving DecidableEq, Repr

/-- A value under its key. -/
abbrev Keyed (α : Type) := Key × α

/-- A declared field. -/
structure Field where
  name : String
  aliasName : String
deriving DecidableEq, Repr

namespace Field

/-- Key of the field in one of the spellings. -/
def key (byAlias : Bool) (f : Field) : String := if byAlias then f.aliasName else f.name

/-- Value of the field with the spelling in use. -/
def find? {α : Type} (f : Field) (fields : List (Keyed α)) : Option (String × α) :=
  match fields.lookup (.name f.aliasName) with
  | some a => some (f.aliasName, a)
  | none => (fields.lookup (.name f.name)).map fun a => (f.name, a)

/-- Reads the field; an absent one has its default. -/
def read {α β : Type} (f : Field) (fields : List (Keyed α)) (default : β)
    (reader : α → Except Problem β) : Except Issue β :=
  match f.find? fields with
  | none => .ok default
  | some (spelling, a) => (reader a).mapError (.ofField spelling)

/-- Whether the field is read from a key. -/
def owns {α : Type} (f : Field) (fields : List (Keyed α)) (key : String) : Bool :=
  ((f.find? fields).map (·.1)) == some key

end Field

/-- Issues of the keys that no declared field is read from. -/
def unexpected {α : Type} (declared : List Field) (fields : List (Keyed α)) : List Issue :=
  fields.filterMap fun
    | (.foreign place, _) => some ⟨[place], .keyNotText⟩
    | (.name s, _) =>
      if declared.any (·.owns fields s) then none else some ⟨[.name s], .unexpected⟩

/-- The issue of a field that could not be read. -/
def issues {α : Type} : Except Issue α → List Issue
  | .ok _ => []
  | .error issue => [issue]

/-! ### Readers of fields

The types that a field of an object read from JSON can have.  No value is converted, except that a
height may be spelled in every way that `Height.ofValue` knows. -/

/-- A value that can be read; any other one has a problem. -/
def typed {α : Type} (read : Json.Value → Option α) (problem : Problem) (v : Json.Value) :
    Except Problem α :=
  match read v with
  | some a => .ok a
  | none => .error problem

/-- A truth value. -/
def truth : Json.Value → Except Problem Bool := typed Json.Value.truth? .notTruthValue

/-- A text. -/
def text : Json.Value → Except Problem String := typed Json.Value.text? .notText

/-- An integer or null. -/
def optionalInteger : Json.Value → Except Problem (Option Int) :=
  typed (Json.Value.nullable? Json.Value.integer?) .notInteger

/-- A text or null. -/
def optionalText : Json.Value → Except Problem (Option String) :=
  typed (Json.Value.nullable? Json.Value.text?) .notText

/-- A height or null. -/
def optionalHeight : Json.Value → Except Problem (Option Nat)
  | .null => .ok none
  | v => match Height.ofValue v with
    | .ok h => .ok (some h)
    | .error fault => .error (.refused fault.raised.message)

/-- A sequence that JSON has no notation for. -/
def tuple {α : Type} : Json.Value → Except Problem (List α)
  | _ => .error .notTuple

end Finality.Schema
