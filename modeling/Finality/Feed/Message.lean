import Finality.Feed.Payload

/-! # Messages

A message is an action code and a payload.  `Message.decode` makes an event of it, or a `Refusal`
with the cause and the number of the message in its frame.

The fault of a refusal shows the action code and the number of the message.  In a frame both can be
written, since the code was read and the messages are counted.  A message on its own comes with any
code and any number, so that `Message.receive` raises what the fault comes to. -/

namespace Finality.Feed

/-- Why a message is not understood. -/
inductive Message.Cause where
  | unknownAction (code : Json.Value)
  | tooFew (action : Action) (least : Nat)
  | payload (action : Action) (objection : Payload.Objection)
deriving Repr

/-- A message that is not understood. -/
structure Message.Refusal where
  cause : Message.Cause
  /-- Number of the message. -/
  index : Int
deriving Repr

namespace Message

/-- Wording of a cause. -/
def Cause.detail : Cause → String
  | .unknownAction code => "unknown action " ++ code.display
  | .tooFew action least =>
    action.name ++ " payload must be a list of at least " ++ toString least ++ " elements"
  | .payload action o =>
    "invalid " ++ action.name ++ " payload at " ++ o.placeText ++ ": " ++ o.problem.message

/-- Fault to report for a refusal. -/
def Refusal.fault (r : Refusal) : Fault :=
  match r.cause with
  | .unknownAction code => .unknownAction code (some r.index)
  | cause => .decode cause.detail (some r.index)

/-- Action of a code, which must be an integer. -/
def action? : Json.Value → Option Action
  | .int n => Action.ofCode? n
  | _ => none

/-- Event of a payload of an action. -/
def event (readId : Payload.IdReader) (action : Action) (payload : Json.Value) :
    Except Cause Event :=
  match action, payload with
  | .afgReceivedPrevote, payload => (Payload.vote .prevote payload).mapError (.payload action)
  | .afgReceivedPrecommit, payload => (Payload.vote .precommit payload).mapError (.payload action)
  | .afgFinalized, payload => (Payload.finalized payload).mapError (.payload action)
  | .afgAuthoritySet, .array (id :: authorities :: _) =>
    (Payload.authoritySet readId id authorities).mapError (.payload action)
  | .afgAuthoritySet, _ => .error (.tooFew action 2)
  | .bestBlock, .array (height :: _) => (Payload.bestBlock height).mapError (.payload action)
  | .bestBlock, _ => .error (.tooFew action 1)
  | .subscribedTo, payload => (Payload.chain .subscribed payload).mapError (.payload action)
  | .removedChain, payload => (Payload.chain .chainRemoved payload).mapError (.payload action)
  | action, payload => .ok (.ignored action payload)

/-- Event of a message, by a reader of set ids. -/
def decodeWith (readId : Payload.IdReader) (code payload : Json.Value) (index : Int) :
    Except Refusal Event :=
  match action? code with
  | none => .error ⟨.unknownAction code, index⟩
  | some action => (event readId action payload).mapError (⟨·, index⟩)

/-- Event of a message. -/
def decode (code payload : Json.Value) (index : Int) : Except Refusal Event :=
  decodeWith Payload.setId code payload index

/-- Event of a message on its own, or what is raised. -/
def receive (readId : Payload.IdReader) (code payload : Json.Value) (index : Int) :
    Except Fault.Raised Event :=
  (decodeWith readId code payload index).mapError (·.fault.raised)

end Message

end Finality.Feed
