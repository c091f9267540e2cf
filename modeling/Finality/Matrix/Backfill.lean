import Finality.Matrix.Basic

/-! # Backfill

An observation at a height says something about every row below it: a vote on a block is a vote on
all its ancestors, and a finalization finalizes them.  `Matrix.backfill` walks down the rows below
the height and marks the cell of the observing pair in each, with a pointer to the height.

The walk stops at the first cell that carries the observation already (`Observation.resolves`):
whatever marked that cell also walked the rows that there were below it by then.  A cell points at
the source of the last walk that marked it.

Only rows strictly below the height are touched, and no row is created. -/

namespace Finality

/-- What is propagated to lower heights. -/
inductive Observation where
  /-- A vote. -/
  | vote (v : Vote)
  /-- A precommit that also stands for the prevote it takes. -/
  | precommitAndPrevote
  /-- A finalization, which also stands for both votes. -/
  | finalization
deriving DecidableEq, Repr

namespace Observation

/-- Observation of a vote, when precommits may or may not stand for prevotes. -/
def ofVote (precommitImpliesPrevote : Bool) : Vote → Observation
  | .prevote => .vote .prevote
  | .precommit => if precommitImpliesPrevote then .precommitAndPrevote else .vote .precommit

/-- Whether a cell carries the observation already. -/
def resolves (o : Observation) (c : Cell) : Bool :=
  match o with
  | .vote v => c.has v
  | .precommitAndPrevote => c.hasPrecommit && c.hasPrevote
  | .finalization => c.hasFinalization

/-- Marks the cell at a height as implied by the observation at a height above. -/
def mark (o : Observation) (source height : Nat) (c : Cell) : Cell :=
  match o with
  | .vote v => c.imply v source
  | .precommitAndPrevote => { c.imply .precommit source with impliedPrevote := true }
  | .finalization => c.implyFinal source height

theorem resolves_empty (o : Observation) : o.resolves {} = false := by
  cases o <;> simp [resolves, Cell.hasPrecommit, Cell.hasFinalization]

theorem resolves_mark (o : Observation) (source height : Nat) (c : Cell) :
    o.resolves (o.mark source height c) = true := by
  cases o with
  | vote v => exact Cell.has_imply v source c
  | precommitAndPrevote => simp [resolves, mark, Cell.imply, Cell.hasPrecommit, Cell.hasPrevote]
  | finalization => simp [resolves, mark, Cell.implyFinal, Cell.hasFinalization]

theorem impliedBy_mark (o : Observation) (source height : Nat) (c : Cell) :
    (o.mark source height c).impliedBy = some source := by
  cases o with
  | vote v => cases v <;> rfl
  | precommitAndPrevote => rfl
  | finalization => rfl

end Observation

namespace Matrix

/-- Marks the rows below a height up to the first resolved cell; also counts the marked cells. -/
def backfillRows (o : Observation) (source : Nat) (reporter voter : Address) :
    List (Nat × Row) → List (Nat × Row) × Nat
  | [] => ([], 0)
  | (g, row) :: rest =>
    if g < source then
      if o.resolves (row.cell reporter voter) then ((g, row) :: rest, 0)
      else
        let (rest, n) := backfillRows o source reporter voter rest
        ((g, row.alter reporter voter (o.mark source g)) :: rest, n + 1)
    else
      let (rest, n) := backfillRows o source reporter voter rest
      ((g, row) :: rest, n)

theorem map_fst_backfillRows (o : Observation) (source : Nat) (reporter voter : Address)
    (rows : List (Nat × Row)) :
    (backfillRows o source reporter voter rows).1.map (·.1) = rows.map (·.1) := by
  induction rows with
  | nil => rfl
  | cons r rest ih =>
    obtain ⟨g, row⟩ := r
    simp only [backfillRows]
    split
    · split
      · rfl
      · simp [ih]
    · simp [ih]

theorem descending_iff_heights (rows : List (Nat × Row)) :
    Descending rows ↔ (rows.map (·.1)).Pairwise fun a b => b < a := by
  simp [Descending, List.pairwise_map]

/-- Propagates an observation of a pair downward; also counts the marked cells. -/
def backfill (o : Observation) (source : Nat) (reporter voter : Address) (m : Matrix) :
    Matrix × Nat :=
  ({ rows := (backfillRows o source reporter voter m.rows).1
     descending := by
      rw [descending_iff_heights, map_fst_backfillRows, ← descending_iff_heights]
      exact m.descending },
   (backfillRows o source reporter voter m.rows).2)

/-- Backfill creates and drops no row. -/
theorem heights_backfill (o : Observation) (source : Nat) (reporter voter : Address)
    (m : Matrix) : (m.backfill o source reporter voter).1.heights = m.heights :=
  map_fst_backfillRows o source reporter voter m.rows

/-! ### Recording sightings -/

/-- Records that a reporter saw a vote; also counts the cells that it implies. -/
def recordVote (precommitImpliesPrevote : Bool) (reporter : Address) (height : Nat)
    (voter : Address) (v : Vote) (m : Matrix) : Matrix × Nat :=
  (m.alterCell height reporter voter (·.see v)).backfill (.ofVote precommitImpliesPrevote v) height
    reporter voter

/-- Records that a reporter finalized a block, in its own cell; also counts the cells that it
implies. -/
def recordFinalization (reporter : Address) (height : Nat) (hash : BlockHash) (m : Matrix) :
    Matrix × Nat :=
  (m.alterCell height reporter reporter (·.finalize height hash)).backfill .finalization height
    reporter reporter

end Matrix

end Finality
