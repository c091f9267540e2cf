import Finality.Json.Value

/-! # Faults

The errors that the library reports to its callers.  They form one family: every fault is a tracker
fault, faults of the feed are a part of them, and a feed message that does not decode is a part of
those.  A fault has a `kind`, which knows its place in the family, and a `message`.

* `value` refuses a value for a type, with the value shown in the message, cut when it is long.
* `decode` refuses a feed frame, at a message of it if that is known.
* `unknownAction` is a `decode` fault for an action code that the feed does not define.

A fault is raised with its message.  Where a number in the message has too many digits to be written,
something else is raised in its place, which is not of the family (`Fault.raised`). -/

namespace Finality

/-- An error reported to the caller. -/
inductive Fault where
  | tracker (message : String)
  | value (type : String) (value : Json.Value) (detail : String)
  | feed (message : String)
  | decode (detail : String) (index : Option Int)
  | unknownAction (action : Json.Value) (index : Option Int)
deriving Repr

namespace Fault

/-- Members of the family. -/
inductive Kind where
  | tracker
  | value
  | feed
  | decode
  | unknownAction
deriving DecidableEq, Repr

/-- Name of a kind. -/
def Kind.name : Kind → String
  | .tracker => "TrackerError"
  | .value => "TrackerValueError"
  | .feed => "FeedError"
  | .decode => "FeedDecodeError"
  | .unknownAction => "UnknownActionError"

/-- Kinds that a kind is a part of, nearest first. -/
def Kind.ancestors : Kind → List Kind
  | .tracker => []
  | .value => [.tracker]
  | .feed => [.tracker]
  | .decode => [.feed, .tracker]
  | .unknownAction => [.decode, .feed, .tracker]

/-- Kind of a fault. -/
def kind : Fault → Kind
  | .tracker _ => .tracker
  | .value .. => .value
  | .feed _ => .feed
  | .decode .. => .decode
  | .unknownAction .. => .unknownAction

/-- Longest shown value that is not cut. -/
def shownLimit : Nat := 50

/-- Shown form of a value, at most `shownLimit` characters long. -/
def shown (v : Json.Value) : String :=
  let s := v.display
  if shownLimit < s.length then String.ofList (s.toList.take (shownLimit - 3)) ++ "..." else s

/-- What is wrong, without the circumstances; empty for faults that are only a message. -/
def detail : Fault → String
  | .value _ _ detail => detail
  | .decode detail _ => detail
  | .unknownAction action _ => "unknown action " ++ action.display
  | _ => ""

/-- Message of a feed frame that does not decode. -/
def decodeMessage (detail : String) (index : Option Int) : String :=
  "Failed to decode feed frame: " ++ detail
    ++ index.elim "" fun i => " (at message " ++ toString i ++ ")"

/-- Message of a fault. -/
def message : Fault → String
  | .tracker message => message
  | .feed message => message
  | .value type v detail => "Invalid " ++ type ++ " " ++ shown v ++ ": " ++ detail
  | .decode detail index => decodeMessage detail index
  | .unknownAction action index => decodeMessage ("unknown action " ++ action.display) index

/-- Faults whose message can be written. -/
def writable : Fault → Bool
  | .value _ v _ => v.writable
  | .decode _ index => index.all fun i => Text.Numeral.Short i.natAbs
  | .unknownAction action index =>
    action.writable && index.all fun i => Text.Numeral.Short i.natAbs
  | _ => true

/-- What raising a fault comes to. -/
inductive Raised where
  | fault (f : Fault)
  /-- A number of its message has too many digits to be written. -/
  | unwritable
deriving Repr

/-- Raises a fault. -/
def raised (f : Fault) : Raised := if f.writable then .fault f else .unwritable

/-- Message of what is raised. -/
def Raised.message : Raised → String
  | .fault f => f.message
  | .unwritable => Text.Numeral.unwritableMessage

/-- Fault as it is shown itself: its kind and its quoted message. -/
def display (f : Fault) : String := f.kind.name ++ "(" ++ Text.quoted f.message ++ ")"

end Fault

end Finality
