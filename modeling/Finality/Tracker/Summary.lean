import Finality.Tracker.Snapshot

/-! # Summary

A snapshot as a table for the terminal: a line about the authority set, a heading, and one line for
each height with the numbers of cells that have a prevote, a precommit and a finalization.

A height or a set id of too many digits cannot be written, and then there is no table.  The other
numbers count what is held in memory, which is never so much. -/

namespace Finality.Snapshot

/-- Numbers of a line of the table. -/
structure Tally where
  height : Nat
  prevotes : Nat
  precommits : Nat
  finalized : Nat
deriving DecidableEq, Repr

/-- Numbers of a height. -/
def tally (item : Nat × Row) : Tally where
  height := item.1
  prevotes := item.2.count Cell.hasPrevote
  precommits := item.2.count Cell.hasPrecommit
  finalized := item.2.count Cell.hasFinalization

/-- Right aligned text; one that is wider than its column is written in full. -/
def alignRight (width : Nat) (s : String) : String :=
  String.ofList (List.replicate (width - s.length) ' ') ++ s

/-- Widths of the columns. -/
def columnWidths : List Nat := [10, 9, 11, 10]

/-- Fields in their columns, with a blank between two columns. -/
def tableLine (fields : List String) : String :=
  " ".intercalate ((columnWidths.zip fields).map fun (width, field) => alignRight width field)

/-- Line of a height. -/
def Tally.line? (t : Tally) : Option String :=
  (Text.Numeral.write? t.height).map fun height =>
    tableLine [height, toString t.prevotes, toString t.precommits, toString t.finalized]

/-- Line about the authority set. -/
def authorityLine? (s : Snapshot) : Option String :=
  (s.authoritySetId.elim (some "None") Text.Numeral.write?).map fun id =>
    "authority set: " ++ id ++ " (" ++ toString s.authorities.length ++ " authorities)"

/-- Headings of the columns. -/
def headings : List String := ["height", "prevotes", "precommits", "finalized"]

/-- Lines of the table. -/
def summaryLines? (s : Snapshot) : Option (List String) := do
  let first ← s.authorityLine?
  let lines ← s.items.mapM fun item => (tally item).line?
  some (first :: tableLine headings :: lines)

/-- The table. -/
def summary? (s : Snapshot) : Option String := s.summaryLines?.map "\n".intercalate

end Finality.Snapshot
