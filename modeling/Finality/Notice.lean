import Finality.Feed.Frame

/-! # Notices

What the library tells its operator while it works.  A notice is data; its level, the component it
comes from and its wording are functions of it.  `Effect.notices` lists the notices of a tracker
step. -/

namespace Finality

/-- Importance of a notice. -/
inductive Level where
  | debug
  | info
  | error
deriving DecidableEq, Repr

/-- Name of a level. -/
def Level.name : Level → String
  | .debug => "DEBUG"
  | .info => "INFO"
  | .error => "ERROR"

/-- Something that the operator may want to know. -/
inductive Notice where
  | backfilled (trace : Trace)
  | stale (height best : Nat)
  | pruned (rows : Int)
  | setChanged (before : Option Int) (after : Int) (members dropped : Nat)
  | resetting (rows : Nat)
  | frameDecoded (messages : Nat)
  | skipped (action : Feed.Action)
  | chainRemoved (chain : String)
  | malformedLine (line : Nat) (path : String)
  | aborted (reason : String)
  | framesUnreadable (path reason : String)
  | configUnusable (path reason : String)
  | replayed (events rows : Nat)
deriving DecidableEq, Repr

namespace Notice

/-- Level of a notice. -/
def level : Notice → Level
  | .backfilled _ => .debug
  | .stale .. => .debug
  | .pruned _ => .debug
  | .frameDecoded _ => .debug
  | .skipped _ => .debug
  | .setChanged .. => .info
  | .resetting _ => .info
  | .chainRemoved _ => .info
  | .replayed .. => .info
  | .malformedLine .. => .error
  | .aborted _ => .error
  | .framesUnreadable .. => .error
  | .configUnusable .. => .error

/-- Name of the component that a notice comes from. -/
def source : Notice → String
  | .backfilled _ => "telemetry_consensus.subspecs.consensus.backfill"
  | .setChanged .. => "telemetry_consensus.subspecs.consensus.authority"
  | .stale .. => "telemetry_consensus.subspecs.consensus.tracker"
  | .pruned _ => "telemetry_consensus.subspecs.consensus.tracker"
  | .resetting _ => "telemetry_consensus.subspecs.consensus.tracker"
  | .frameDecoded _ => "telemetry_consensus.subspecs.feed.decoder"
  | .skipped _ => "telemetry_consensus.subspecs.feed.dispatcher"
  | .chainRemoved _ => "telemetry_consensus.subspecs.feed.dispatcher"
  | .malformedLine .. => "telemetry_consensus.__main__"
  | .aborted _ => "telemetry_consensus.__main__"
  | .framesUnreadable .. => "telemetry_consensus.__main__"
  | .configUnusable .. => "telemetry_consensus.__main__"
  | .replayed .. => "telemetry_consensus.__main__"

/-- Wording of a notice. -/
def message : Notice → String
  | .backfilled t =>
    "Backfilled " ++ toString t.marked ++ " heights below " ++ toString t.height
      ++ " for reporter " ++ t.reporter ++ " voter " ++ t.voter
  | .stale height best =>
    "Ignoring event for height " ++ toString height ++ ", best block is " ++ toString best
  | .pruned rows => "Pruned " ++ toString rows ++ " old heights from the vote cache"
  | .setChanged before after members dropped =>
    "Authority set changed from " ++ before.elim "None" toString ++ " to " ++ toString after
      ++ " (" ++ toString members ++ " authorities), dropping " ++ toString dropped
      ++ " cached heights"
  | .resetting rows => "Resetting finality tracker (" ++ toString rows ++ " cached heights)"
  | .frameDecoded messages => "Decoded feed frame with " ++ toString messages ++ " messages"
  | .skipped action => "Skipping " ++ action.name ++ " message"
  | .chainRemoved chain => "Subscribed chain " ++ chain ++ " was removed"
  | .malformedLine line path =>
    "Frame on line " ++ toString line ++ " of " ++ path ++ " is malformed"
  | .aborted reason => "Replay aborted: " ++ reason
  | .framesUnreadable path reason => "Failed to read frames from " ++ path ++ ": " ++ reason
  | .configUnusable path reason => "Failed to load configuration from " ++ path ++ ": " ++ reason
  | .replayed events rows =>
    "Replayed " ++ toString events ++ " events into " ++ toString rows ++ " cached heights"

end Notice

/-- Notices of a recorded sighting. -/
def Trace.notices (t : Trace) : List Notice :=
  (if t.marked = 0 then [] else [.backfilled t]) ++ if t.pruned = 0 then [] else [.pruned t.pruned]

/-- Notices of a tracker step. -/
def Effect.notices : Effect → List Notice
  | .voted _ trace => trace.notices
  | .finalized trace => trace.notices
  | .stale height best => [.stale height best]
  | .setChanged before after members dropped => [.setChanged before after members dropped]
  | .setKept => []
  | .bestSet => []
  | .reset dropped => [.resetting dropped]

end Finality
