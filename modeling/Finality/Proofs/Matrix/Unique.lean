import Finality.Proofs.Tracker.Sighting

/-! # Every position occurs once

A row is read as a map of maps, by looking up a reporter and a voter, and also as a list of cells.
Both come to the same if no reporter occurs twice, and no voter of a reporter (`Row.Unique`).  Writing
keeps that, because a key that is there is written in its place (`Row.Unique.alter`), and so does
recording a sighting (`Matrix.AllUnique.record`).

Then the positions of a matrix are listed without repetition, and they are those of the cells that
it has (`Matrix.AllUnique.mem_positions_iff`). -/

namespace Finality

/-! ### Rows -/

/-- The reporters of a row are distinct, and so are the voters of each of them. -/
structure Row.Unique (row : Row) : Prop where
  reporters : (Ordered.keys row.reporters).Nodup
  voters : ∀ e ∈ row.reporters, (Ordered.keys e.2).Nodup

namespace Row

variable {row : Row} {r v : Address} {f : Cell → Cell}

theorem mem_cells_iff {x : Address × Address × Cell} :
    x ∈ row.cells ↔ ∃ e ∈ row.reporters, e.1 = x.1 ∧ (x.2.1, x.2.2) ∈ e.2 := by
  obtain ⟨r, v, c⟩ := x
  simp only [cells, List.mem_flatMap, List.mem_map, Prod.mk.injEq]
  constructor
  · rintro ⟨e, he, y, hy, rfl, rfl, rfl⟩
    exact ⟨e, he, rfl, hy⟩
  · rintro ⟨e, he, rfl, hy⟩
    exact ⟨e, he, (v, c), hy, rfl, rfl, rfl⟩

theorem unique_empty : Unique {} := ⟨List.nodup_nil, fun _ he => absurd he List.not_mem_nil⟩

theorem Unique.alter (hrow : row.Unique) : (row.alter r v f).Unique where
  reporters := Ordered.nodup_keys_alter hrow.reporters
  voters := by
    intro e he
    rcases Ordered.mem_alter he with he | rfl
    · exact hrow.voters e he
    · exact Ordered.nodup_keys_alter (Ordered.getD_lookup_of_forall
        (P := fun _ voters => (Ordered.keys voters).Nodup) hrow.voters fun _ => List.nodup_nil)

theorem Unique.mem_cells_iff (hrow : row.Unique) {c : Cell} :
    (r, v, c) ∈ row.cells ↔ row.cell? r v = some c := by
  rw [Row.mem_cells_iff, cell?, Option.bind_eq_some_iff]
  constructor
  · rintro ⟨e, he, rfl, hc⟩
    exact ⟨e.2, (Ordered.lookup_eq_some_iff_mem hrow.reporters).mpr he,
      (Ordered.lookup_eq_some_iff_mem (hrow.voters e he)).mpr hc⟩
  · rintro ⟨voters, hvoters, hc⟩
    have he := (Ordered.lookup_eq_some_iff_mem hrow.reporters).mp hvoters
    exact ⟨(r, voters), he, rfl, (Ordered.lookup_eq_some_iff_mem (hrow.voters _ he)).mp hc⟩

theorem Unique.nodup_pairs (hrow : row.Unique) : (row.cells.map fun c => (c.1, c.2.1)).Nodup := by
  simp only [cells, List.map_flatMap, List.map_map, List.nodup_flatMap]
  refine ⟨fun e he => ?_, ?_⟩
  · have hvoters := hrow.voters e he
    rw [Ordered.keys, List.Nodup, List.pairwise_map] at hvoters
    rw [List.Nodup, List.pairwise_map]
    exact hvoters.imp fun hne heq => hne (congrArg Prod.snd heq)
  · have hreporters := hrow.reporters
    rw [Ordered.keys, List.Nodup, List.pairwise_map] at hreporters
    refine hreporters.imp fun hne p hp hq => ?_
    obtain ⟨x, -, rfl⟩ := List.mem_map.mp hp
    obtain ⟨y, -, hy⟩ := List.mem_map.mp hq
    exact hne (congrArg Prod.fst hy).symm

end Row

/-! ### Matrices -/

namespace Matrix

variable {k m : Matrix} {h : Nat} {r v : Address}

/-- Positions of the cells that there are. -/
def positions (m : Matrix) : List (Nat × Address × Address) :=
  m.cells.map fun c => (c.1, c.2.1, c.2.2.1)

/-- Reporters and voters are distinct in every row. -/
def AllUnique (m : Matrix) : Prop := ∀ e ∈ m.rows, e.2.Unique

theorem AllUnique.row? (hm : AllUnique m) {h : Nat} {row : Row} (hrow : m.row? h = some row) :
    row.Unique :=
  hm (h, row) (row?_eq_some_iff.mp hrow)

theorem AllUnique.record (hm : AllUnique m) (b : Bool) (s : Sighting) :
    AllUnique (m.record b s) := by
  have hnew : ∀ h, ((m.row? h).getD {}).Unique := by
    intro h
    cases hrow : m.row? h with
    | none => exact Row.unique_empty
    | some row => exact hm.row? hrow
  have hwritten : AllUnique (m.alterCell s.height s.reporter s.voter s.see) :=
    forall_rows_alterCell (P := fun _ row => row.Unique) hm (hnew s.height).alter
  refine forall_rows_backfill (P := fun _ row => row.Unique) hwritten ?_
  intro g row _ hrow
  exact (hwritten.row? hrow).alter

theorem AllUnique.front (hf : Front k m) (hm : AllUnique m) : AllUnique k :=
  fun e he => hm e (hf.subset he)

theorem positions_eq (m : Matrix) :
    m.positions = m.rows.flatMap fun e => e.2.cells.map fun c => (e.1, c.1, c.2.1) := by
  simp only [positions, cells, List.map_flatMap, List.map_map]
  rfl

theorem AllUnique.nodup_positions (hm : m.AllUnique) : m.positions.Nodup := by
  rw [positions_eq, List.nodup_flatMap]
  refine ⟨fun e he => ?_, ?_⟩
  · have hpairs := (hm e he).nodup_pairs
    rw [List.Nodup, List.pairwise_map] at hpairs ⊢
    exact hpairs.imp fun hne heq => hne (congrArg Prod.snd heq)
  · refine m.descending.imp fun hlt p hp hq => ?_
    obtain ⟨x, -, rfl⟩ := List.mem_map.mp hp
    obtain ⟨y, -, hy⟩ := List.mem_map.mp hq
    exact absurd (congrArg Prod.fst hy) (Nat.ne_of_lt hlt)

theorem AllUnique.mem_positions_iff (hm : m.AllUnique) :
    (h, r, v) ∈ m.positions ↔ (m.cell? h r v).isSome := by
  rw [positions_eq, List.mem_flatMap, Option.isSome_iff_exists]
  constructor
  · rintro ⟨⟨g, row⟩, he, hx⟩
    obtain ⟨⟨r', v', c⟩, hc, heq⟩ := List.mem_map.mp hx
    cases heq
    refine ⟨c, ?_⟩
    rw [cell?, row?_eq_some_iff.mpr he]
    exact (hm _ he).mem_cells_iff.mp hc
  · rintro ⟨c, hc⟩
    obtain ⟨row, hrow, hc⟩ := Option.bind_eq_some_iff.mp hc
    have he := row?_eq_some_iff.mp hrow
    exact ⟨(h, row), he, List.mem_map.mpr ⟨(r, v, c), (hm _ he).mem_cells_iff.mpr hc, rfl⟩⟩

end Matrix

end Finality
