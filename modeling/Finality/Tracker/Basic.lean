import Finality.Matrix.Backfill
import Finality.Tracker.Config

/-! # The tracker

A tracker reconstructs, for one chain, which votes and finalizations are known at every height.  Its
state is the vote matrix, the best block and the authority set; a `Call` is one thing that can
happen to it, and `Tracker.step` applies a call.  Besides the next state a step yields its `Effect`,
from which counters (`Metrics.record`) and log lines (`Effect.notices`) are made; the state does not
depend on them.

Votes mean something only relative to the set of authorities that cast them.  `Authority` holds the
current set and whether the display still waits for the first votes.

* A vote or finalization that lags too far behind the best block is stale and changes nothing.
* Otherwise it is recorded, the matrix is pruned to its bound, and the display stops waiting.
* A new authority set drops the matrix, `reset` forgets the best block and the set as well. -/

namespace Finality

/-- The current authority set. -/
structure Authority where
  /-- Version of the set; `none` before the first announcement. -/
  setId : Option Int := none
  /-- Members in the announced order. -/
  members : List Address := []
  /-- Nothing has arrived yet that the display could show. -/
  loading : Bool := true
deriving DecidableEq, Repr

namespace Authority

/-- The state before any announcement. -/
def unknown : Authority := {}

/-- Takes over an announced set; `none` if it is the current one.  The first set ever keeps the
display waiting, a later one does not. -/
def announce (setId : Int) (members : List Address) (a : Authority) : Option Authority :=
  if a.setId = some setId then none
  else some { setId := some setId, members := members, loading := a.setId.isNone }

end Authority

/-- What can happen to a tracker. -/
inductive Call where
  | vote (v : Vote) (reporter : Address) (height : Nat) (hash : BlockHash) (voter : Address)
  | finalized (reporter : Address) (height : Nat) (hash : BlockHash)
  | authoritySet (setId : Int) (members : List Address)
  | bestBlock (height : Nat)
  | reset
deriving DecidableEq, Repr

/-- What a recorded sighting did to the matrix. -/
structure Trace where
  reporter : Address
  voter : Address
  height : Nat
  /-- Cells that received an implied mark. -/
  marked : Nat
  /-- Rows that were dropped to keep the bound. -/
  pruned : Int
  /-- Rows afterwards. -/
  size : Nat
deriving DecidableEq, Repr

/-- What a call did. -/
inductive Effect where
  | voted (v : Vote) (trace : Trace)
  | finalized (trace : Trace)
  | stale (height best : Nat)
  | setChanged (before : Option Int) (after : Int) (members dropped : Nat)
  | setKept
  | bestSet
  | reset (dropped : Nat)
deriving DecidableEq, Repr

/-- State of a tracker. -/
structure Tracker where
  matrix : Matrix := .empty
  /-- Best block that was announced. -/
  best : Option Nat := none
  authority : Authority := {}
deriving DecidableEq, Repr

namespace Tracker

/-- The tracker to which nothing has happened. -/
def fresh : Tracker := {}

/-- Keeps the bound on the rows of the matrix. -/
def retain (cfg : Config) (m : Matrix) : Matrix × Int :=
  match cfg.maxHeights with
  | none => (m, 0)
  | some n => m.prune n

/-- State after a sighting that turned the matrix into `recorded`. -/
def settle (cfg : Config) (t : Tracker) (recorded : Matrix) : Tracker × Int :=
  let (kept, pruned) := retain cfg recorded
  ({ t with matrix := kept, authority := { t.authority with loading := false } }, pruned)

/-- Applies a call. -/
def step (cfg : Config) (t : Tracker) : Call → Tracker × Effect
  | .vote v reporter height _ voter =>
    if cfg.isStale t.best height then (t, .stale height (t.best.getD 0))
    else
      let (m, marked) := t.matrix.recordVote cfg.precommitImpliesPrevote reporter height voter v
      let (t, pruned) := t.settle cfg m
      (t, .voted v { reporter, voter, height, marked, pruned, size := t.matrix.size })
  | .finalized reporter height hash =>
    if cfg.isStale t.best height then (t, .stale height (t.best.getD 0))
    else
      let (m, marked) := t.matrix.recordFinalization reporter height hash
      let (t, pruned) := t.settle cfg m
      (t, .finalized { reporter, voter := reporter, height, marked, pruned, size := t.matrix.size })
  | .authoritySet setId members =>
    match t.authority.announce setId members with
    | none => (t, .setKept)
    | some authority =>
      ({ t with matrix := .empty, authority },
        .setChanged t.authority.setId setId members.length t.matrix.size)
  | .bestBlock height => ({ t with best := some height }, .bestSet)
  | .reset => (fresh, .reset t.matrix.size)

/-- State after a call. -/
def apply (cfg : Config) (t : Tracker) (c : Call) : Tracker := (t.step cfg c).1

/-- State after a sequence of calls. -/
def run (cfg : Config) (t : Tracker) (cs : List Call) : Tracker := cs.foldl (apply cfg) t

end Tracker

end Finality
