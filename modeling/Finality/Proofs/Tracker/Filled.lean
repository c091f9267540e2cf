import Finality.Proofs.Matrix.Stepwise
import Finality.Proofs.Matrix.Unique
import Finality.Proofs.Tracker.Rows
import Finality.Tracker.Snapshot

/-! # Nothing is stored in vain

Recording a sighting, and each step of the walk below it, makes sure of a row, of a reporter in it
and of a cell before it is decided whether the cell is written.  Nothing of this is left behind
empty: a walk that goes on marks the cell, and a walk that stops has found a cell that carries the
observation, which an empty cell never does (`Observation.resolves_empty`).

`Row.Filled past h row` says that a row at a height holds a reporter, that its reporters hold a
voter each, and that each of its cells tells of a vote, which comes from a sighting of the pair at
or above the height.  It is kept when a cell is written (`Row.filled_alter`), so recording keeps it
for all rows (`AllFilled.record`), and so does a run (`filled_run`). -/

namespace Finality

/-- A vote is known, seen or implied. -/
def Cell.Voted (c : Cell) : Prop := c.hasPrevote = true ∨ c.hasPrecommit = true

instance (c : Cell) : Decidable c.Voted := inferInstanceAs (Decidable (_ ∨ _))

namespace Ordered

variable {κ α : Type} [BEq κ] {k : κ} {f : Option α → α} {m : List (κ × α)}

theorem alter_ne_nil : alter k f m ≠ [] := by
  cases m with
  | nil => exact List.cons_ne_nil _ _
  | cons e m =>
      rw [alter]
      split <;> exact List.cons_ne_nil _ _

end Ordered

/-! ### Rows -/

/-- Nothing in a row at a height is empty, and a history tells of each of its cells. -/
structure Row.Filled (past : List Sighting) (h : Nat) (row : Row) : Prop where
  reporters : row.reporters ≠ []
  voters : ∀ e ∈ row.reporters, e.2 ≠ []
  voted : ∀ x ∈ row.cells, x.2.2.Voted
  told : ∀ x ∈ row.cells, ∃ s ∈ past, s.reporter = x.1 ∧ s.voter = x.2.1 ∧ h ≤ s.height

namespace Row

variable {past : List Sighting} {h : Nat} {row : Row} {r v : Address} {f : Cell → Cell}

theorem mem_cells_alter {x : Address × Address × Cell} (hx : x ∈ (row.alter r v f).cells) :
    x ∈ row.cells ∨ x = (r, v, f (row.cell r v)) := by
  obtain ⟨e, he, hr, hx⟩ := mem_cells_iff.mp hx
  rcases Ordered.mem_alter he with he | rfl
  · exact Or.inl (mem_cells_iff.mpr ⟨e, he, hr, hx⟩)
  · -- the entry of the reporter was written
    obtain ⟨r', v', c⟩ := x
    obtain rfl : r = r' := hr
    cases hvoters : row.reporters.lookup r with
    | none =>
        rw [hvoters] at hx
        refine Or.inr ?_
        simpa [cell, cell?, hvoters] using hx
    | some voters =>
        rw [hvoters, Option.getD_some] at hx
        rcases Ordered.mem_alter hx with hx | hx
        · refine Or.inl (mem_cells_iff.mpr ⟨(r, voters), ?_, rfl, hx⟩)
          obtain ⟨front, back, hreporters, -⟩ := List.lookup_eq_some_iff.mp hvoters
          rw [hreporters]
          exact List.mem_append_right _ List.mem_cons_self
        · refine Or.inr ?_
          simpa [cell, cell?, hvoters] using hx

theorem voters_alter (hrow : ∀ e ∈ row.reporters, e.2 ≠ []) :
    ∀ e ∈ (row.alter r v f).reporters, e.2 ≠ [] := by
  intro e he
  rcases Ordered.mem_alter he with he | rfl
  · exact hrow e he
  · exact Ordered.alter_ne_nil

/-- Writing a vote of which the history tells leaves nothing empty, also in a row that is new. -/
theorem filled_alter (hrow : row.Filled past h ∨ row = {}) (hvoted : (f (row.cell r v)).Voted)
    (htold : ∃ s ∈ past, s.reporter = r ∧ s.voter = v ∧ h ≤ s.height) :
    (row.alter r v f).Filled past h where
  reporters := Ordered.alter_ne_nil
  voters := by
    refine voters_alter ?_
    rcases hrow with hrow | rfl
    · exact hrow.voters
    · exact fun _ he => absurd he List.not_mem_nil
  voted := by
    intro x hx
    rcases mem_cells_alter hx with hx | rfl
    · rcases hrow with hrow | rfl
      · exact hrow.voted x hx
      · exact absurd hx List.not_mem_nil
    · exact hvoted
  told := by
    intro x hx
    rcases mem_cells_alter hx with hx | rfl
    · rcases hrow with hrow | rfl
      · exact hrow.told x hx
      · exact absurd hx List.not_mem_nil
    · exact htold

theorem Filled.append (hrow : row.Filled past h) (more : List Sighting) :
    row.Filled (past ++ more) h :=
  { hrow with
    told := fun x hx =>
      have ⟨s, hs, hpair⟩ := hrow.told x hx
      ⟨s, List.mem_append_left _ hs, hpair⟩ }

theorem Filled.cells_ne_nil (hrow : row.Filled past h) : row.cells ≠ [] := by
  obtain ⟨e, he⟩ := List.exists_mem_of_ne_nil _ hrow.reporters
  obtain ⟨y, hy⟩ := List.exists_mem_of_ne_nil _ (hrow.voters e he)
  exact List.ne_nil_of_mem (mem_cells_iff.mpr ⟨e, he, rfl, hy⟩ : (e.1, y.1, y.2) ∈ row.cells)

end Row

/-! ### Matrices -/

theorem Sighting.voted_see (s : Sighting) (c : Cell) : (s.see c).Voted := by
  rcases s with ⟨_ | _, -, -, -⟩ | ⟨-, -, -⟩ <;>
    simp [see, Cell.Voted, Cell.see, Cell.finalize, Cell.hasPrevote, Cell.hasPrecommit]

theorem Observation.voted_mark (o : Observation) (source h : Nat) (c : Cell) :
    (o.mark source h c).Voted := by
  rcases o with ⟨_ | _⟩ | _ | _ <;>
    simp [mark, Cell.Voted, Cell.imply, Cell.implyFinal, Cell.hasPrevote, Cell.hasPrecommit]

namespace Matrix

variable {past : List Sighting} {k m : Matrix}

/-- Nothing in a matrix is empty, and a history tells of each of its cells. -/
def AllFilled (past : List Sighting) (m : Matrix) : Prop := ∀ e ∈ m.rows, e.2.Filled past e.1

theorem AllFilled.row? (hm : AllFilled past m) {h : Nat} {row : Row} (hrow : m.row? h = some row) :
    row.Filled past h :=
  hm (h, row) (row?_eq_some_iff.mp hrow)

theorem AllFilled.row?_getD (hm : AllFilled past m) (h : Nat) :
    ((m.row? h).getD {}).Filled past h ∨ (m.row? h).getD {} = {} := by
  cases hrow : m.row? h with
  | none => exact Or.inr rfl
  | some row => exact Or.inl (hm.row? hrow)

/-- Recording a sighting leaves nothing empty: its own cell is seen, and a cell below is created
only where it is marked. -/
theorem AllFilled.record (hm : AllFilled past m) (b : Bool) (s : Sighting) :
    AllFilled (past ++ [s]) (m.record b s) := by
  have hold : AllFilled (past ++ [s]) m := fun e he => (hm e he).append [s]
  have hlast : s ∈ past ++ [s] := List.mem_append_right _ List.mem_cons_self
  have hwritten : AllFilled (past ++ [s])
      (m.alterCell s.height s.reporter s.voter s.see) :=
    forall_rows_alterCell (P := fun h row => row.Filled (past ++ [s]) h) hold
      (Row.filled_alter (hold.row?_getD _) (s.voted_see _) ⟨s, hlast, rfl, rfl, Nat.le_refl _⟩)
  -- the walk goes on from there
  refine forall_rows_backfill (P := fun h row => row.Filled (past ++ [s]) h) hwritten ?_
  intro g row hlt hrow
  exact Row.filled_alter (Or.inl (hwritten.row? hrow)) (Observation.voted_mark _ _ _ _)
    ⟨s, hlast, rfl, rfl, Nat.le_of_lt hlt⟩

theorem AllFilled.front (hf : Front k m) (hm : AllFilled past m) : AllFilled past k :=
  fun e he => hm e (hf.subset he)

end Matrix

/-- Step by step, on a table and an index, nothing is left behind empty either. -/
theorem Indexed.Represents.filled_record {x : Indexed} {m : Matrix} {past : List Sighting}
    (hx : x.Represents m) (hm : m.AllFilled past) (b : Bool) (s : Sighting) :
    ∃ y n rows, x.record b s = .ok (y, n) ∧ y.rows? = some rows ∧
      ∀ e ∈ rows, e.2.Filled (past ++ [s]) e.1 := by
  obtain ⟨y, hrecord, hy⟩ := hx.record b s
  exact ⟨y, _, _, hrecord, hy.rows?_eq, hm.record b s⟩

/-! ### Runs -/

namespace Tracker

open Finality.Matrix (AllFilled)

theorem allFilled_run (cfg : Config) (cs : List Call) :
    AllFilled (applied cfg cs) (run cfg fresh cs).matrix := by
  have hempty : AllFilled [] .empty := fun _ he => absurd he List.not_mem_nil
  refine applied_induction hempty (fun past m s hm => ?_) cs fresh [] hempty
  exact (hm.record _ s).front (front_retain cfg _)

/-- **Nothing is stored in vain.**  After every run:

* every row holds a reporter, every reporter a voter, and every cell a prevote or a precommit;
* so it is when a sighting is recorded next by steps that make sure of each cell before they look;
* a sighting that is stale stores nothing;
* a snapshot shows only heights that were sighted, and no height without cells; each cell that it
  shows has a vote, which comes from a sighting of the pair at or above the height. -/
theorem filled_run (cfg : Config) (cs : List Call) :
    let t := run cfg fresh cs
    let past := applied cfg cs
    (∀ e ∈ t.matrix.rows, e.2.reporters ≠ [] ∧ ∀ r ∈ e.2.reporters, r.2 ≠ [] ∧
      ∀ v ∈ r.2, v.2.hasPrevote = true ∨ v.2.hasPrecommit = true) ∧
    (∀ (x : Indexed) (s : Sighting), x.Represents t.matrix → ∃ y n rows,
      x.record cfg.precommitImpliesPrevote s = .ok (y, n) ∧ y.rows? = some rows ∧
        ∀ e ∈ rows, e.2.Filled (past ++ [s]) e.1) ∧
    (∀ c s, Sighting.ofCall? c = some s → ¬t.Admits cfg s → t.apply cfg c = t) ∧
    (∀ item ∈ t.snapshot.items, (∃ s ∈ past, s.height = item.1) ∧ item.2.cells ≠ [] ∧
      ∀ x ∈ item.2.cells, (x.2.2.hasPrevote = true ∨ x.2.2.hasPrecommit = true) ∧
        ∃ s ∈ past, s.reporter = x.1 ∧ s.voter = x.2.1 ∧ item.1 ≤ s.height) := by
  intro t past
  have hm : AllFilled past t.matrix := allFilled_run cfg cs
  refine ⟨fun e he => ?_, fun x s hx => hx.filled_record hm _ s,
    fun c s hs ha => apply_of_not_admits hs ha, fun item hitem => ?_⟩
  · have hrow := hm e he
    refine ⟨hrow.reporters, fun r hr => ⟨hrow.voters r hr, fun v hv => ?_⟩⟩
    exact hrow.voted (r.1, v.1, v.2) (Row.mem_cells_iff.mpr ⟨r, hr, rfl, hv⟩)
  · have hrow := hm item hitem
    have hheight : item.1 ∈ t.matrix.heights := List.mem_map_of_mem hitem
    refine ⟨?_, hrow.cells_ne_nil, fun x hx => ⟨hrow.voted x hx, hrow.told x hx⟩⟩
    refine (Matrix.mem_heights_recordAll.mp ((front_run cfg cs).mem hheight)).resolve_right ?_
    rw [Matrix.heights_empty]
    exact List.not_mem_nil

/-- Row 7 is marked from row 9, row 3 comes and goes in one call, and the vote of `C` is stale.  A
finalization by `V` would walk over two rows in which it has to make its cell first. -/
theorem filled_run_twoRows :
    let t := run twoRows fresh [.vote .prevote "A" 7 "0x" "V", .vote .precommit "A" 9 "0x" "V",
      .vote .prevote "B" 3 "0x" "V", .bestBlock 60]
    let c : Cell :=
      { prevoted := true, impliedPrevote := true, impliedPrecommit := true, impliedBy := some 9 }
    let row : Row := { reporters := [("A", [("V", c)])] }
    let x : Indexed := { table := t.matrix.rows, index := [7, 9] }
    (7, row) ∈ t.snapshot.items ∧ row.reporters ≠ [] ∧ row.cells ≠ [] ∧
      (∃ y n rows, x.record true (.finalization "V" 60 "0x60") = .ok (y, n) ∧
        y.rows? = some rows ∧ ∀ e ∈ rows, e.2.cells ≠ []) ∧
      t.apply twoRows (.vote .prevote "C" 9 "0x" "V") = t := by
  intro t c row x
  obtain ⟨hstored, hsteps, hstale, hshown⟩ := filled_run twoRows [.vote .prevote "A" 7 "0x" "V",
    .vote .precommit "A" 9 "0x" "V", .vote .prevote "B" 3 "0x" "V", .bestBlock 60]
  have hitem : (7, row) ∈ t.snapshot.items := by decide
  have hx : x.Represents t.matrix := ⟨by decide, fun _ => rfl, .refl _⟩
  obtain ⟨y, n, rows, hrecord, hrows, hfilled⟩ := hsteps x (.finalization "V" 60 "0x60") hx
  refine ⟨hitem, (hstored _ hitem).1, (hshown _ hitem).2.1, ⟨y, n, rows, hrecord, hrows, ?_⟩, ?_⟩
  · exact fun e he => (hfilled e he).cells_ne_nil
  · exact hstale _ (.vote .prevote "C" 9 "V") rfl (by decide)

end Tracker

end Finality
