import Finality.Feed.Dispatcher
import Finality.Proofs.Tracker.Step

/-! # Epochs of a subscription

Some events cut a dispatcher off from its past: the switch to another chain, the removal of the
chain, and the announcement of a new authority set.  `Opens d e f` lists them, with the state `f`
in which the dispatcher is afterwards.  A switch and a removal leave nothing behind; a new set
leaves the best block and the subscription, and whether a set was known at all decides about the
loading screen.

Two dispatchers that agree on the tracker and the subscription go on to agree, whatever each of them
has counted (`Agrees.dispatchAll`).  So what comes after such an event is the same as if `f` were the
start of everything (`agrees_dispatchAll_of_opens`). -/

namespace Finality.Feed.Dispatcher

variable {cfg : Config} {d d' f : Dispatcher} {e : Event} {c : Call}

/-! ### Agreement -/

/-- Two dispatchers are in the same state, whatever they have counted. -/
structure Agrees (d d' : Dispatcher) : Prop where
  tracker : d.tracker = d'.tracker
  subscribed : d.subscribed = d'.subscribed

namespace Agrees

theorem call (hd : Agrees d d') (cfg : Config) (c : Call) :
    Agrees (d.call cfg c).1 (d'.call cfg c).1 ∧ (d.call cfg c).2 = (d'.call cfg c).2 := by
  refine ⟨⟨?_, hd.subscribed⟩, ?_⟩
  · rw [tracker_call, tracker_call, hd.tracker]
  · rw [notices_call, notices_call, hd.tracker]

theorem dispatch (hd : Agrees d d') (cfg : Config) (e : Event) :
    Agrees (d.dispatch cfg e).1 (d'.dispatch cfg e).1 ∧
      (d.dispatch cfg e).2 = (d'.dispatch cfg e).2 := by
  have hreset := hd.call cfg .reset
  cases e with
  | vote v r h hash w => exact hd.call cfg _
  | finalized r h hash => exact hd.call cfg _
  | authoritySet id members => exact hd.call cfg _
  | bestBlock h => exact hd.call cfg _
  | ignored action payload => exact ⟨hd, rfl⟩
  | subscribed chain =>
      simp only [Dispatcher.dispatch, ← hd.subscribed]
      split
      · exact ⟨⟨hreset.1.tracker, rfl⟩, hreset.2⟩
      · exact ⟨⟨hd.tracker, rfl⟩, rfl⟩
  | chainRemoved chain =>
      simp only [Dispatcher.dispatch, ← hd.subscribed]
      split
      · exact ⟨⟨hreset.1.tracker, rfl⟩, by rw [hreset.2]⟩
      · exact ⟨hd, rfl⟩

theorem dispatchAll (hd : Agrees d d') (cfg : Config) (es : List Event) :
    Agrees (d.dispatchAll cfg es).1 (d'.dispatchAll cfg es).1 ∧
      (d.dispatchAll cfg es).2 = (d'.dispatchAll cfg es).2 := by
  induction es generalizing d d' with
  | nil => exact ⟨hd, rfl⟩
  | cons e es ih =>
      obtain ⟨hnext, htold⟩ := hd.dispatch cfg e
      obtain ⟨hlast, hlater⟩ := ih hnext
      rw [dispatchAll_cons, dispatchAll_cons, htold, hlater]
      exact ⟨hlast, rfl⟩

end Agrees

/-! ### Events that open an epoch -/

/-- An event cuts a dispatcher off from its past and leaves it in a state made anew. -/
inductive Opens (d : Dispatcher) : Event → Dispatcher → Prop
  /-- The feed turns from one chain to another. -/
  | switched {chain other : String} :
      d.subscribed = some other → other ≠ chain →
      Opens d (.subscribed chain) { subscribed := some chain }
  /-- The chain of the feed disappears. -/
  | removed {chain : String} :
      d.subscribed = some chain → Opens d (.chainRemoved chain) { subscribed := none }
  /-- A new authority set is announced. -/
  | setChanged {setId : Int} {members : List Address} :
      d.tracker.authority.setId ≠ some setId →
      Opens d (.authoritySet setId members)
        { tracker :=
            { matrix := .empty
              best := d.tracker.best
              authority :=
                { setId := some setId, members, loading := d.tracker.authority.setId.isNone } }
          subscribed := d.subscribed }

/-- The event does leave the dispatcher in that state. -/
theorem Opens.agrees (hopens : Opens d e f) (cfg : Config) : Agrees (d.dispatch cfg e).1 f := by
  cases hopens with
  | @switched chain other hsub hne =>
      have hcond : (d.subscribed.isSome && d.subscribed != some chain) = true := by
        simpa [hsub] using hne
      simp only [dispatch, if_pos hcond]
      exact ⟨rfl, rfl⟩
  | removed hsub =>
      simp only [dispatch, if_pos hsub]
      exact ⟨rfl, rfl⟩
  | setChanged hid =>
      refine ⟨?_, rfl⟩
      show d.tracker.apply cfg (.authoritySet _ _) = _
      rw [Tracker.apply_setChanged hid]
      rfl

/-- **Nothing crosses the boundary of an epoch.**  After an event that opens an epoch, the later
events lead to the state that they lead to from the state made anew, and the same is told about
them, whatever came before. -/
theorem agrees_dispatchAll_of_opens (cfg : Config) (d : Dispatcher) (before after : List Event)
    (e : Event) (f : Dispatcher) (hopens : Opens (d.dispatchAll cfg before).1 e f) :
    Agrees (d.dispatchAll cfg (before ++ e :: after)).1 (f.dispatchAll cfg after).1 ∧
      (d.dispatchAll cfg (before ++ e :: after)).2 =
        (d.dispatchAll cfg (before ++ [e])).2 ++ (f.dispatchAll cfg after).2 := by
  have hsame := (hopens.agrees cfg).dispatchAll cfg after
  have hsplit : before ++ e :: after = (before ++ [e]) ++ after := by simp
  have hopened : (d.dispatchAll cfg (before ++ [e])).1 =
      ((d.dispatchAll cfg before).1.dispatch cfg e).1 := by
    rw [dispatchAll_append]
    rfl
  rw [hsplit, dispatchAll_append, hopened]
  exact ⟨hsame.1, by rw [hsame.2]⟩

/-- Chain `A` has a set, a vote and a best block.  Neither chain `B` nor a second set of `A` sees the
vote; under the second set the late precommit is stale, as the best block is still known, and on
chain `B` it is not. -/
theorem agrees_dispatchAll_of_opens_twoRows :
    let d : Dispatcher := {}
    let before : List Event := [.subscribed "A", .authoritySet 1 ["V"],
      .vote .prevote "R" 60 "0x" "V", .bestBlock 62]
    let after : List Event := [.vote .precommit "R" 4 "0x" "V"]
    let renewed : Tracker :=
      { matrix := .empty
        best := some 62
        authority := { setId := some 2, members := ["W"], loading := false } }
    (d.dispatchAll Tracker.twoRows before).1.tracker.matrix.heights = [60] ∧
      Agrees (d.dispatchAll Tracker.twoRows (before ++ .subscribed "B" :: after)).1
        (dispatchAll Tracker.twoRows { subscribed := some "B" } after).1 ∧
      (dispatchAll Tracker.twoRows { subscribed := some "B" } after).1.tracker.matrix.heights = [4] ∧
      Agrees (d.dispatchAll Tracker.twoRows (before ++ .authoritySet 2 ["W"] :: after)).1
        (dispatchAll Tracker.twoRows { tracker := renewed, subscribed := some "A" } after).1 ∧
      (dispatchAll Tracker.twoRows { tracker := renewed, subscribed := some "A" } after).1.tracker =
        renewed := by
  intro d before after renewed
  refine ⟨by decide, ?_, by decide, ?_, by decide⟩
  · exact (agrees_dispatchAll_of_opens Tracker.twoRows d before after (.subscribed "B") _
      (.switched rfl (by decide))).1
  · exact (agrees_dispatchAll_of_opens Tracker.twoRows d before after (.authoritySet 2 ["W"]) _
      (.setChanged (by decide))).1

end Finality.Feed.Dispatcher
