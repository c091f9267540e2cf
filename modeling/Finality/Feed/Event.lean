import Finality.Json.Value
import Finality.Tracker.Basic

/-! # Feed events

The feed multiplexes many kinds of messages.  Each is announced by an action code, its place in the
list of all actions.

An `Event` is what a decoded message says.  Most events are calls of the tracker; the others are
about the subscription, or of no concern to the tracker at all. -/

namespace Finality.Feed

/-- Kinds of messages. -/
inductive Action where
  | feedVersion
  | bestBlock
  | bestFinalized
  | addedNode
  | removedNode
  | locatedNode
  | importedBlock
  | finalizedBlock
  | nodeStats
  | nodeHardware
  | timeSync
  | addedChain
  | removedChain
  | subscribedTo
  | unsubscribedFrom
  | pong
  | afgFinalized
  | afgReceivedPrevote
  | afgReceivedPrecommit
  | afgAuthoritySet
  | staleNode
  | nodeIo
deriving DecidableEq, Repr

namespace Action

/-- All actions, in the order of their codes. -/
def all : List Action :=
  [feedVersion, bestBlock, bestFinalized, addedNode, removedNode, locatedNode, importedBlock,
    finalizedBlock, nodeStats, nodeHardware, timeSync, addedChain, removedChain, subscribedTo,
    unsubscribedFrom, pong, afgFinalized, afgReceivedPrevote, afgReceivedPrecommit,
    afgAuthoritySet, staleNode, nodeIo]

/-- Name of an action. -/
def name : Action → String
  | feedVersion => "FEED_VERSION"
  | bestBlock => "BEST_BLOCK"
  | bestFinalized => "BEST_FINALIZED"
  | addedNode => "ADDED_NODE"
  | removedNode => "REMOVED_NODE"
  | locatedNode => "LOCATED_NODE"
  | importedBlock => "IMPORTED_BLOCK"
  | finalizedBlock => "FINALIZED_BLOCK"
  | nodeStats => "NODE_STATS"
  | nodeHardware => "NODE_HARDWARE"
  | timeSync => "TIME_SYNC"
  | addedChain => "ADDED_CHAIN"
  | removedChain => "REMOVED_CHAIN"
  | subscribedTo => "SUBSCRIBED_TO"
  | unsubscribedFrom => "UNSUBSCRIBED_FROM"
  | pong => "PONG"
  | afgFinalized => "AFG_FINALIZED"
  | afgReceivedPrevote => "AFG_RECEIVED_PREVOTE"
  | afgReceivedPrecommit => "AFG_RECEIVED_PRECOMMIT"
  | afgAuthoritySet => "AFG_AUTHORITY_SET"
  | staleNode => "STALE_NODE"
  | nodeIo => "NODE_IO"

/-- Code of an action. -/
def code (a : Action) : Nat := all.idxOf a

/-- Action of a code. -/
def ofCode? : Int → Option Action
  | .ofNat n => all[n]?
  | .negSucc _ => none

/-- Wording for a value that is the code of no action. -/
def unknownCode (v : Json.Value) : String := v.display ++ " is not a valid FeedAction"

theorem ofCode?_code (a : Action) : ofCode? a.code = some a := by cases a <;> rfl

end Action

/-- A decoded message. -/
inductive Event where
  /-- A reporter saw a vote. -/
  | vote (v : Vote) (reporter : Address) (height : Nat) (hash : BlockHash) (voter : Address)
  /-- A reporter finalized a block. -/
  | finalized (reporter : Address) (height : Nat) (hash : BlockHash)
  /-- The authority set was announced. -/
  | authoritySet (setId : Int) (members : List Address)
  /-- The best block advanced. -/
  | bestBlock (height : Nat)
  /-- The feed is now about a chain. -/
  | subscribed (chain : String)
  /-- A chain disappeared from the feed. -/
  | chainRemoved (chain : String)
  /-- A message of another action, with its payload as it came. -/
  | ignored (action : Action) (payload : Json.Value)
deriving Repr, BEq

/-- The call of the tracker that an event stands for. -/
def Event.call? : Event → Option Call
  | .vote v reporter height hash voter => some (.vote v reporter height hash voter)
  | .finalized reporter height hash => some (.finalized reporter height hash)
  | .authoritySet setId members => some (.authoritySet setId members)
  | .bestBlock height => some (.bestBlock height)
  | _ => none

end Finality.Feed
