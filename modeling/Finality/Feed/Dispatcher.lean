import Finality.Notice
import Finality.Tracker.Metrics

/-! # The dispatcher

The dispatcher feeds the events of a subscription to a tracker.  It knows which chain the feed is
about: a switch to another chain, and the removal of the chain, reset the tracker.

A frame is decoded as a whole before any of its events is applied, so that a frame that is not
understood changes nothing. -/

namespace Finality.Feed

/-- A tracker with its counters and the subscription. -/
structure Dispatcher where
  tracker : Tracker := .fresh
  metrics : Metrics := {}
  /-- The chain that the feed is about. -/
  subscribed : Option String := none
deriving DecidableEq, Repr

namespace Dispatcher

/-- Applies a call to the tracker and counts it. -/
def call (cfg : Config) (c : Call) (d : Dispatcher) : Dispatcher × List Notice :=
  let (tracker, effect) := d.tracker.step cfg c
  ({ d with tracker, metrics := d.metrics.record effect }, effect.notices)

/-- Applies an event. -/
def dispatch (cfg : Config) (d : Dispatcher) : Event → Dispatcher × List Notice
  | .vote v reporter height hash voter => d.call cfg (.vote v reporter height hash voter)
  | .finalized reporter height hash => d.call cfg (.finalized reporter height hash)
  | .authoritySet setId members => d.call cfg (.authoritySet setId members)
  | .bestBlock height => d.call cfg (.bestBlock height)
  | .subscribed chain =>
    if d.subscribed.isSome && d.subscribed != some chain then
      let (d, notices) := d.call cfg .reset
      ({ d with subscribed := some chain }, notices)
    else ({ d with subscribed := some chain }, [])
  | .chainRemoved chain =>
    if d.subscribed = some chain then
      let (d, notices) := d.call cfg .reset
      ({ d with subscribed := none }, .chainRemoved chain :: notices)
    else (d, [])
  | .ignored action _ => (d, [.skipped action])

/-- Applies events from left to right. -/
def dispatchAll (cfg : Config) (d : Dispatcher) : List Event → Dispatcher × List Notice
  | [] => (d, [])
  | e :: es =>
    let (d, notices) := d.dispatch cfg e
    let (d, more) := d.dispatchAll cfg es
    (d, notices ++ more)

/-- Applies the events of a decoded frame; also counts them. -/
def dispatchFrame (cfg : Config) (d : Dispatcher) (frame : Except Frame.Failure (List Event)) :
    Except Frame.Failure (Dispatcher × Nat × List Notice) := do
  let events ← frame
  let (d, notices) := d.dispatchAll cfg events
  .ok (d, events.length, .frameDecoded events.length :: notices)

/-! ### Laws -/

theorem tracker_call (cfg : Config) (c : Call) (d : Dispatcher) :
    (d.call cfg c).1.tracker = d.tracker.apply cfg c := rfl

theorem notices_call (cfg : Config) (c : Call) (d : Dispatcher) :
    (d.call cfg c).2 = (d.tracker.step cfg c).2.notices := rfl

theorem dispatchAll_cons (cfg : Config) (d : Dispatcher) (e : Event) (es : List Event) :
    d.dispatchAll cfg (e :: es) =
      (((d.dispatch cfg e).1.dispatchAll cfg es).1,
        (d.dispatch cfg e).2 ++ ((d.dispatch cfg e).1.dispatchAll cfg es).2) := rfl

theorem dispatchAll_append (cfg : Config) (d : Dispatcher) (es more : List Event) :
    d.dispatchAll cfg (es ++ more) =
      (((d.dispatchAll cfg es).1.dispatchAll cfg more).1,
        (d.dispatchAll cfg es).2 ++ ((d.dispatchAll cfg es).1.dispatchAll cfg more).2) := by
  induction es generalizing d with
  | nil => rfl
  | cons e es ih => rw [List.cons_append, dispatchAll_cons, dispatchAll_cons, ih, List.append_assoc]

end Dispatcher

end Finality.Feed
