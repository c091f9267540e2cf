import Finality.Feed.Dispatcher
import Finality.Text.Character

/-! # Recordings

A recording is a file with one frame on each line.  A line ends behind a line feed and nowhere else;
lines of nothing but white space are skipped, but they have a number like all others.

Replaying applies frame after frame and stops at the first that is not understood, with the frames
before it applied. -/

namespace Finality.Replay

open Feed (Dispatcher)

/-- Lines of a file, each with its line feed. -/
def lines : List UInt8 → List (List UInt8)
  | [] => []
  | b :: rest =>
    if b == 0x0A then [b] :: lines rest
    else
      match lines rest with
      | [] => [[b]]
      | line :: more => (b :: line) :: more

/-- Lines that hold no frame. -/
def isBlankLine (line : List UInt8) : Bool := line.all Text.isBlankByte

/-- What a replay leads to. -/
structure Outcome where
  dispatcher : Dispatcher
  /-- Events that were applied. -/
  events : Nat := 0
  notices : List Notice := []
  /-- Why the replay stopped early. -/
  failure : Option Feed.Frame.Failure := none

/-- Notices of a line that is not understood.  A fault that is none of the feed's has none. -/
def lineNotices (path : String) (number : Nat) (failure : Feed.Frame.Failure) : List Notice :=
  if failure.fault?.isSome then [.malformedLine number path] else []

/-- Replays lines, of which the first has a number. -/
def replayFrom (cfg : Config) (path : String) (number : Nat) (d : Dispatcher) :
    List (List UInt8) → Outcome
  | [] => { dispatcher := d }
  | line :: rest =>
    if isBlankLine line then replayFrom cfg path (number + 1) d rest
    else
      match d.dispatchFrame cfg (Feed.Frame.ofBytes line) with
      | .error failure =>
        { dispatcher := d, notices := lineNotices path number failure, failure := some failure }
      | .ok (d, events, notices) =>
        let later := replayFrom cfg path (number + 1) d rest
        { later with events := events + later.events, notices := notices ++ later.notices }

/-- Replays a recording. -/
def replay (cfg : Config) (path : String) (d : Dispatcher) (octets : List UInt8) : Outcome :=
  replayFrom cfg path 1 d (lines octets)

theorem flatten_lines (octets : List UInt8) : (lines octets).flatten = octets := by
  induction octets with
  | nil => rfl
  | cons b rest ih =>
    rw [lines]
    split
    · simp [ih]
    · split
      · next h => rw [h] at ih; simpa using ih
      · next h => rw [h] at ih; simpa using ih

end Finality.Replay
