import Finality.Height

/-! # Cells of the vote matrix

The matrix has a cell for a height, a reporter and a voter: what the reporter has seen of the voter
at that height.  A cell tells what was **seen** (`prevoted`, `precommitted`, `finalized`) from what
follows from a sighting at a higher block (`impliedPrevote`, `impliedPrecommit`, `impliedFinal`): a
vote on a block is a vote on all its ancestors, and so is a finalization.

`has… ` asks for either, and is what decides whether a cell still needs an implied mark. -/

namespace Finality

/-- Identity of a reporter or a voter. -/
abbrev Address := String

/-- Hash of a block. -/
abbrev BlockHash := String

/-- The two voting rounds. -/
inductive Vote where
  | prevote
  | precommit
deriving DecidableEq, Repr

namespace Vote

/-- Name of a round. -/
def name : Vote → String
  | .prevote => "prevote"
  | .precommit => "precommit"

/-- Round of a name. -/
def ofName? (s : String) : Option Vote :=
  if s == "prevote" then some .prevote
  else if s == "precommit" then some .precommit
  else none

/-- Wording for a name that is not a round. -/
def unknownName (s : String) : String := Text.quoted s ++ " is not a valid VoteKind"

end Vote

/-- What one reporter has seen of one voter at one height. -/
structure Cell where
  /-- A prevote was seen, or follows from a finalization seen here. -/
  prevoted : Bool := false
  /-- A precommit was seen, or follows from a finalization seen here. -/
  precommitted : Bool := false
  /-- A prevote on a higher block implies one here. -/
  impliedPrevote : Bool := false
  /-- A precommit on a higher block implies one here. -/
  impliedPrecommit : Bool := false
  /-- Height of the sighting that the implied marks come from. -/
  impliedBy : Option Nat := none
  /-- The reporter considers the block final. -/
  finalized : Bool := false
  /-- Hash that came with the finalization. -/
  finalHash : Option BlockHash := none
  /-- Height that the finalization is about. -/
  finalHeight : Option Nat := none
  /-- Finalization of a higher block implies finalization here. -/
  impliedFinal : Bool := false
deriving DecidableEq, Repr

namespace Cell

/-- A prevote is known, seen or implied. -/
def hasPrevote (c : Cell) : Bool := c.prevoted || c.impliedPrevote

/-- A precommit is known, seen or implied. -/
def hasPrecommit (c : Cell) : Bool := c.precommitted || c.impliedPrecommit

/-- A finalization is known, seen or implied. -/
def hasFinalization (c : Cell) : Bool := c.finalized || c.impliedFinal

/-- A vote of a round is known. -/
def has (c : Cell) : Vote → Bool
  | .prevote => c.hasPrevote
  | .precommit => c.hasPrecommit

/-- Marks a vote as seen. -/
def see (v : Vote) (c : Cell) : Cell :=
  match v with
  | .prevote => { c with prevoted := true }
  | .precommit => { c with precommitted := true }

/-- Marks a vote as implied by a sighting at a height. -/
def imply (v : Vote) (source : Nat) (c : Cell) : Cell :=
  match v with
  | .prevote => { c with impliedPrevote := true, impliedBy := some source }
  | .precommit => { c with impliedPrecommit := true, impliedBy := some source }

/-- Marks a block as finalized, which takes a prevote and a precommit on it. -/
def finalize (height : Nat) (hash : BlockHash) (c : Cell) : Cell :=
  { c with
    finalized := true
    finalHash := some hash
    finalHeight := some height
    prevoted := true
    precommitted := true }

/-- Marks the block at a height as finalized by a finalization above it. -/
def implyFinal (source height : Nat) (c : Cell) : Cell :=
  { c with
    finalized := true
    finalHeight := some height
    impliedFinal := true
    impliedBy := some source
    prevoted := true
    precommitted := true
    impliedPrevote := true
    impliedPrecommit := true }

@[simp] theorem has_see (v : Vote) (c : Cell) : (c.see v).has v = true := by
  cases v <;> simp [has, see, hasPrevote, hasPrecommit]

@[simp] theorem has_imply (v : Vote) (source : Nat) (c : Cell) :
    (c.imply v source).has v = true := by
  cases v <;> simp [has, imply, hasPrevote, hasPrecommit]

@[simp] theorem has_empty (v : Vote) : ({} : Cell).has v = false := by cases v <;> rfl

end Cell

end Finality
