import Finality.Proofs.Tracker.Sighting

/-! # Cells only grow

`Cell.Within c d` says that `d` has every mark that `c` has: no flag goes back to false, and no
pointer, hash or height is forgotten.  Every write of the matrix leads to a cell that the old one is
within, so a sighting takes nothing away from any cell (`within_cell_record`). -/

namespace Finality

/-- Every mark of `c` is in `d` as well. -/
structure Cell.Within (c d : Cell) : Prop where
  prevoted : c.prevoted = true → d.prevoted = true
  precommitted : c.precommitted = true → d.precommitted = true
  impliedPrevote : c.impliedPrevote = true → d.impliedPrevote = true
  impliedPrecommit : c.impliedPrecommit = true → d.impliedPrecommit = true
  impliedBy : c.impliedBy.isSome = true → d.impliedBy.isSome = true
  finalized : c.finalized = true → d.finalized = true
  finalHash : c.finalHash.isSome = true → d.finalHash.isSome = true
  finalHeight : c.finalHeight.isSome = true → d.finalHeight.isSome = true
  impliedFinal : c.impliedFinal = true → d.impliedFinal = true

namespace Cell

theorem Within.refl (c : Cell) : c.Within c := ⟨id, id, id, id, id, id, id, id, id⟩

theorem within_see (v : Vote) (c : Cell) : c.Within (c.see v) := by
  cases v <;> constructor <;> simp [see]

theorem within_imply (v : Vote) (source : Nat) (c : Cell) : c.Within (c.imply v source) := by
  cases v <;> constructor <;> simp [imply]

theorem within_finalize (height : Nat) (hash : BlockHash) (c : Cell) :
    c.Within (c.finalize height hash) := by
  constructor <;> simp [finalize]

theorem within_implyFinal (source height : Nat) (c : Cell) :
    c.Within (c.implyFinal source height) := by
  constructor <;> simp [implyFinal]

end Cell

theorem Observation.within_mark (o : Observation) (source height : Nat) (c : Cell) :
    c.Within (o.mark source height c) := by
  cases o with
  | vote v => exact Cell.within_imply v source c
  | precommitAndPrevote => constructor <;> simp [mark, Cell.imply]
  | finalization => exact Cell.within_implyFinal source height c

theorem Sighting.within_see (s : Sighting) (c : Cell) : c.Within (s.see c) := by
  cases s with
  | vote v r h w => exact Cell.within_see v c
  | finalization r h hash => exact Cell.within_finalize h hash c

namespace Matrix

variable {m : Matrix} {g : Nat} {r v : Address}

theorem exists_cell?_record (b : Bool) (s : Sighting) {c : Cell} (hc : m.cell? g r v = some c) :
    ∃ d, (m.record b s).cell? g r v = some d ∧ c.Within d := by
  have hcell := cell_eq_of_cell? hc
  rcases cell?_record_cases b s m g r v with ⟨-, -, -, h⟩ | ⟨-, -, -, h⟩ | ⟨-, h⟩
  · exact ⟨_, h, hcell ▸ s.within_see _⟩
  · exact ⟨_, h, hcell ▸ Observation.within_mark _ _ _ _⟩
  · exact ⟨c, h.trans hc, Cell.Within.refl c⟩

theorem within_cell_record (b : Bool) (s : Sighting) (m : Matrix) (g : Nat) (r v : Address) :
    (m.cell g r v).Within ((m.record b s).cell g r v) := by
  rcases cell_record_cases b s m g r v with ⟨-, -, -, h⟩ | ⟨-, -, -, h⟩ | ⟨-, h⟩
  · rw [h]
    exact s.within_see _
  · rw [h]
    exact Observation.within_mark _ _ _ _
  · rw [h]
    exact Cell.Within.refl _

end Matrix

end Finality
