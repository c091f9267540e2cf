import Finality.Encoding.Detect
import Finality.Feed.Message
import Finality.Json.Reader

/-! # Frames

A frame is a batch of messages: a non-empty JSON array in which action codes and payloads take
turns.  It comes as a text, or as octets in one of the encodings of Unicode.

Messages are decoded in order, and the first that is not understood is the one that is reported.
The one thing that is not a fault of the feed is an integer too long to be read at all. -/

namespace Finality.Feed

/-- Why a frame is not understood. -/
inductive Frame.Failure where
  | json (problem : Json.Problem)
  | encoding (fault : Encoding.Fault)
  | shape
  | message (refusal : Message.Refusal)
  | overlongInteger (digits : Nat)
deriving Repr

namespace Frame

/-- Fault to report for a failure, unless it is none of the feed's. -/
def Failure.fault? : Failure → Option Fault
  | .json problem => some (.decode ("invalid JSON: " ++ problem.message) none)
  | .encoding fault =>
    some (.decode ("invalid UTF-8 at byte " ++ toString fault.start ++ ": "
      ++ fault.reason.message) none)
  | .shape => some (.decode "frame must be a non-empty array of action/payload pairs" none)
  | .message refusal => some refusal.fault
  | .overlongInteger _ => none

/-- Failure of a text that is not JSON. -/
def Failure.ofJson (fault : Json.Fault) : Failure :=
  match fault.problem with
  | .overlongInteger digits => .overlongInteger digits
  | problem => .json problem

/-- Pairs of neighbours; `none` for a list of odd length. -/
def pairs? : List Json.Value → Option (List (Json.Value × Json.Value))
  | [] => some []
  | [_] => none
  | a :: b :: rest => (pairs? rest).map ((a, b) :: ·)

/-- Messages of a frame. -/
def messages? : Json.Value → Option (List (Json.Value × Json.Value))
  | .array items => if items.isEmpty then none else pairs? items
  | _ => none

/-- Events of messages, of which the first has a number. -/
def events (index : Nat) : List (Json.Value × Json.Value) → Except Message.Refusal (List Event)
  | [] => .ok []
  | (code, payload) :: rest => do
    let e ← Message.decode code payload index
    let es ← events (index + 1) rest
    .ok (e :: es)

/-- Events of a frame that was read as JSON. -/
def ofJson (v : Json.Value) : Except Failure (List Event) :=
  match messages? v with
  | none => .error .shape
  | some messages => (events 0 messages).mapError .message

/-- Events of a frame in a text. -/
def ofText (cs : List Char) : Except Failure (List Event) :=
  match Json.Value.ofText cs with
  | .error fault => .error (.ofJson fault)
  | .ok v => ofJson v

/-- Events of a frame in octets.  A byte order mark behind the one that tells the encoding is not
dropped. -/
def ofBytes (bs : List UInt8) : Except Failure (List Event) :=
  match Encoding.decode bs with
  | .error fault => .error (.encoding fault)
  | .ok cs =>
    match Json.Reader.document cs with
    | .error fault => .error (.ofJson fault)
    | .ok v => ofJson v

end Frame

end Finality.Feed
