import Finality.Feed.Event
import Finality.Feed.SetId

/-! # Payloads

The grammar of the payloads that the tracker consumes.

* A vote is an array of exactly four elements: reporter, height, hash, voter.
* A finalization is an array of exactly three elements: reporter, height, hash.
* An authority set is an array that starts with the set id and the array of the members; whatever
  follows is dropped.
* A best block is an array that starts with the height.
* A chain is a text.

How a set id may be spelled is a matter of the reader of ids that is in use (`IdReader`);
`Payload.setId` is the one of the feed.

What does not fit is blamed on the first place at which it does not; an array that is too long is
blamed as a whole, before its elements are looked at. -/

namespace Finality.Feed.Payload

/-- What is wrong with a part of a payload. -/
inductive Problem where
  | notText
  | notTuple
  | tooLong (most given : Nat)
  | missing
  | notList
  | height (message : String)
  | setId (objection : SetId.Objection)
deriving DecidableEq, Repr

/-- Wording of a problem. -/
def Problem.message : Problem → String
  | .notText => "Input should be a valid string"
  | .notTuple => "Input should be a valid tuple"
  | .tooLong most given =>
    "Tuple should have at most " ++ toString most ++ " items after validation, not " ++ toString given
  | .missing => "Field required"
  | .notList => "Input should be a valid list"
  | .height message => "Value error, " ++ message
  | .setId objection => objection.message

/-- A problem with the indices that lead to its place. -/
structure Objection where
  place : List Nat
  problem : Problem
deriving DecidableEq, Repr

/-- Place in words: the indices between points, or the payload as a whole. -/
def Objection.placeText (o : Objection) : String :=
  if o.place.isEmpty then "payload" else ".".intercalate (o.place.map toString)

/-- Reads a text. -/
def text (v : Json.Value) : Except Problem String :=
  match v.text? with
  | some s => .ok s
  | none => .error .notText

/-- Reads a height. -/
def height (v : Json.Value) : Except Problem Nat :=
  (Height.ofValue v).mapError fun fault => .height fault.raised.message

/-- A reader of set ids. -/
abbrev IdReader := Json.Value → Except Problem Int

/-- Reads a set id. -/
def setId : IdReader := fun v => (SetId.ofValue v).mapError .setId

/-- Reads the element at an index. -/
def element {α : Type} (read : Json.Value → Except Problem α) (items : List Json.Value) (i : Nat) :
    Except Objection α :=
  match items[i]? with
  | none => .error ⟨[i], .missing⟩
  | some v => (read v).mapError (⟨[i], ·⟩)

/-- Elements of an array of a bounded length. -/
def tuple (most : Nat) : Json.Value → Except Objection (List Json.Value)
  | .array items =>
    if most < items.length then .error ⟨[], .tooLong most items.length⟩ else .ok items
  | _ => .error ⟨[], .notTuple⟩

/-- Reads the members from an index on. -/
def members (i : Nat) : List Json.Value → Except Objection (List Address)
  | [] => .ok []
  | v :: vs => do
    let a ← (text v).mapError (⟨[1, i], ·⟩)
    let rest ← members (i + 1) vs
    .ok (a :: rest)

/-- Reads a vote. -/
def vote (v : Vote) (payload : Json.Value) : Except Objection Event := do
  let items ← tuple 4 payload
  let reporter ← element text items 0
  let h ← element height items 1
  let hash ← element text items 2
  let voter ← element text items 3
  .ok (.vote v reporter h hash voter)

/-- Reads a finalization. -/
def finalized (payload : Json.Value) : Except Objection Event := do
  let items ← tuple 3 payload
  let reporter ← element text items 0
  let h ← element height items 1
  let hash ← element text items 2
  .ok (.finalized reporter h hash)

/-- Reads an authority set from its two parts. -/
def authoritySet (readId : IdReader) (id authorities : Json.Value) : Except Objection Event := do
  let id ← (readId id).mapError (⟨[0], ·⟩)
  match authorities with
  | .array items => do
    let addresses ← members 0 items
    .ok (.authoritySet id addresses)
  | _ => .error ⟨[1], .notList⟩

/-- Reads a best block from the height. -/
def bestBlock (v : Json.Value) : Except Objection Event := do
  let h ← (height v).mapError (⟨[], ·⟩)
  .ok (.bestBlock h)

/-- Reads the name of a chain. -/
def chain (event : String → Event) (payload : Json.Value) : Except Objection Event := do
  let s ← (text payload).mapError (⟨[], ·⟩)
  .ok (event s)

end Finality.Feed.Payload
