import Finality.Matrix.Backfill
import Finality.Proofs.Matrix.View

/-! # What a backfill reaches

`Reached o H r v m g` says declaratively which rows the walk from height `H` marks for a pair: `g`
is a row below `H`, and neither `g` nor any row between `g` and `H` carries the observation already.
The walk writes the mark into exactly these rows of the pair and nothing else
(`cell?_backfill_of_reached`, `cell?_backfill_of_not_reached`, `cell?_backfill_ne`).

What is true of all rows stays true of them if it is true of the row that is written
(`forall_rows_alterCell`), and of the rows that the walk marks (`forall_rows_backfill`). -/

namespace Finality.Matrix

variable {o : Observation} {H g : Nat} {r v : Address}

/-! ### Descending rows -/

/-- No row from `g` up to below the source carries the observation. -/
def OpenFrom (o : Observation) (H : Nat) (r v : Address) (g : Nat) (rows : List (Nat × Row)) :
    Prop :=
  ∀ e ∈ rows, g ≤ e.1 → e.1 < H → o.resolves (e.2.cell r v) = false

theorem OpenFrom.tail {e : Nat × Row} {rest : List (Nat × Row)}
    (h : OpenFrom o H r v g (e :: rest)) : OpenFrom o H r v g rest :=
  fun e' he' => h e' (List.mem_cons_of_mem e he')

theorem openFrom_cons {e : Nat × Row} {rest : List (Nat × Row)}
    (he : g ≤ e.1 → e.1 < H → o.resolves (e.2.cell r v) = false) (h : OpenFrom o H r v g rest) :
    OpenFrom o H r v g (e :: rest) := by
  intro e' he'
  rcases List.mem_cons.mp he' with rfl | he'
  · exact he
  · exact h e' he'

/-- A row with nothing resolved from it up to the source is marked. -/
theorem lookup_backfillRows_of_open {rows : List (Nat × Row)} (hd : Descending rows) {row : Row}
    (hrow : rows.lookup g = some row) (hlt : g < H) (hopen : OpenFrom o H r v g rows) :
    (backfillRows o H r v rows).1.lookup g = some (row.alter r v (o.mark H g)) := by
  induction rows with
  | nil => simp at hrow
  | cons e rest ih =>
      obtain ⟨q, x⟩ := e
      obtain ⟨hbelow, hrest⟩ := List.pairwise_cons.mp hd
      rw [List.lookup_cons] at hrow
      by_cases hgq : g = q
      · -- the row itself is the next one of the walk
        subst hgq
        obtain rfl : x = row := by simpa using hrow
        have hres : o.resolves (x.cell r v) = false :=
          hopen (g, x) List.mem_cons_self (Nat.le_refl g) hlt
        simp only [backfillRows, if_pos hlt, hres, Bool.false_eq_true, if_false,
          List.lookup_cons_self]
      · have hrow' : rest.lookup g = some row := by simpa [beq_false_of_ne hgq] using hrow
        have hgq' : g < q := hbelow _ ((lookup_eq_some_iff_mem hrest).mp hrow')
        have ih' := ih hrest hrow' hopen.tail
        simp only [backfillRows]
        split
        · rename_i hq
          have hres : o.resolves (x.cell r v) = false :=
            hopen (q, x) List.mem_cons_self (Nat.le_of_lt hgq') hq
          simp only [hres, Bool.false_eq_true, if_false, List.lookup_cons, beq_false_of_ne hgq]
          exact ih'
        · simp only [List.lookup_cons, beq_false_of_ne hgq]
          exact ih'

theorem lookup_backfillRows_of_not_open {rows : List (Nat × Row)} (hd : Descending rows)
    (hclosed : ¬(g < H ∧ OpenFrom o H r v g rows)) :
    (backfillRows o H r v rows).1.lookup g = rows.lookup g := by
  induction rows with
  | nil => rfl
  | cons e rest ih =>
      obtain ⟨q, x⟩ := e
      obtain ⟨hbelow, hrest⟩ := List.pairwise_cons.mp hd
      simp only [backfillRows]
      split
      · rename_i hq
        split
        · rfl
        · rename_i hres
          have hres : o.resolves (x.cell r v) = false := by simpa using hres
          have hclosed' : ¬(g < H ∧ OpenFrom o H r v g rest) := by
            rintro ⟨hlt, hopen⟩
            exact hclosed ⟨hlt, openFrom_cons (fun _ _ => hres) hopen⟩
          have hgq : g ≠ q := by
            rintro rfl
            refine hclosed' ⟨hq, fun e he hle _ => ?_⟩
            have := hbelow e he
            omega
          simp only [List.lookup_cons, beq_false_of_ne hgq]
          exact ih hrest hclosed'
      · rename_i hq
        have hclosed' : ¬(g < H ∧ OpenFrom o H r v g rest) := by
          rintro ⟨hlt, hopen⟩
          exact hclosed ⟨hlt, openFrom_cons (fun _ h => absurd h hq) hopen⟩
        rw [List.lookup_cons, List.lookup_cons, ih hrest hclosed']

/-! ### Cells -/

/-- The walk from `H` marks the pair at `g`: a row below `H` such that neither it nor any row
between them carries the observation already. -/
def Reached (o : Observation) (H : Nat) (r v : Address) (m : Matrix) (g : Nat) : Prop :=
  g ∈ m.heights ∧ g < H ∧ ∀ q ∈ m.heights, g ≤ q → q < H → o.resolves (m.cell q r v) = false

instance (o : Observation) (H : Nat) (r v : Address) (m : Matrix) (g : Nat) :
    Decidable (Reached o H r v m g) :=
  inferInstanceAs (Decidable (_ ∧ _ ∧ ∀ q ∈ m.heights, _))

variable {m : Matrix}

theorem openFrom_iff : OpenFrom o H r v g m.rows ↔
    ∀ q ∈ m.heights, g ≤ q → q < H → o.resolves (m.cell q r v) = false := by
  constructor
  · intro h q hq hle hlt
    obtain ⟨row, hrow⟩ := mem_heights_iff.mp hq
    rw [cell_of_row? hrow]
    exact h (q, row) (row?_eq_some_iff.mp hrow) hle hlt
  · rintro h ⟨q, row⟩ he hle hlt
    have hrow : m.row? q = some row := row?_eq_some_iff.mpr he
    have := h q (mem_heights_iff.mpr ⟨row, hrow⟩) hle hlt
    rwa [cell_of_row? hrow] at this

theorem row?_backfill_of_reached (hr : Reached o H r v m g) {row : Row}
    (hrow : m.row? g = some row) :
    (m.backfill o H r v).1.row? g = some (row.alter r v (o.mark H g)) :=
  lookup_backfillRows_of_open m.descending hrow hr.2.1 (openFrom_iff.mpr hr.2.2)

theorem row?_backfill_of_not_reached (hr : ¬Reached o H r v m g) :
    (m.backfill o H r v).1.row? g = m.row? g := by
  by_cases hg : g ∈ m.heights
  · refine lookup_backfillRows_of_not_open m.descending ?_
    rintro ⟨hlt, hopen⟩
    exact hr ⟨hg, hlt, openFrom_iff.mp hopen⟩
  · rw [row?_eq_none_iff.mpr hg, row?_eq_none_iff, heights_backfill]
    exact hg

/-- A reached cell gets the mark, and is created if it is missing. -/
theorem cell?_backfill_of_reached (hr : Reached o H r v m g) :
    (m.backfill o H r v).1.cell? g r v = some (o.mark H g (m.cell g r v)) := by
  obtain ⟨row, hrow⟩ := mem_heights_iff.mp hr.1
  rw [cell?, row?_backfill_of_reached hr hrow, Option.bind_some, Row.cell?_alter_self,
    cell_of_row? hrow]

theorem cell?_backfill_of_not_reached (hr : ¬Reached o H r v m g) (r' v' : Address) :
    (m.backfill o H r v).1.cell? g r' v' = m.cell? g r' v' := by
  rw [cell?, row?_backfill_of_not_reached hr, cell?]

theorem cell?_backfill_ne {r' v' : Address} (hne : ¬(r' = r ∧ v' = v)) :
    (m.backfill o H r v).1.cell? g r' v' = m.cell? g r' v' := by
  by_cases hr : Reached o H r v m g
  · obtain ⟨row, hrow⟩ := mem_heights_iff.mp hr.1
    rw [cell?, row?_backfill_of_reached hr hrow, Option.bind_some, Row.cell?_alter_ne hne, cell?,
      hrow, Option.bind_some]
  · exact cell?_backfill_of_not_reached hr r' v'

/-! ### What is true of all rows -/

section rows
variable {P : Nat → Row → Prop} (hm : ∀ e ∈ m.rows, P e.1 e.2)
include hm

theorem forall_rows_alterCell {h : Nat} {f : Cell → Cell}
    (hwrite : P h (((m.row? h).getD {}).alter r v f)) :
    ∀ e ∈ (m.alterCell h r v f).rows, P e.1 e.2 := by
  rintro ⟨g, row⟩ he
  have hrow := row?_eq_some_iff.mpr he
  by_cases hg : g = h
  · subst hg
    rw [alterCell, row?_alter_self, Option.some.injEq] at hrow
    rwa [← hrow]
  · rw [alterCell, row?_alter_ne m hg] at hrow
    exact hm (g, row) (row?_eq_some_iff.mp hrow)

theorem forall_rows_backfill
    (hmark : ∀ g row, g < H → m.row? g = some row → P g (row.alter r v (o.mark H g))) :
    ∀ e ∈ (m.backfill o H r v).1.rows, P e.1 e.2 := by
  rintro ⟨g, row⟩ he
  have hrow := row?_eq_some_iff.mpr he
  by_cases hr : Reached o H r v m g
  · obtain ⟨old, hold⟩ := mem_heights_iff.mp hr.1
    rw [row?_backfill_of_reached hr hold, Option.some.injEq] at hrow
    rw [← hrow]
    exact hmark g old hr.2.1 hold
  · rw [row?_backfill_of_not_reached hr] at hrow
    exact hm (g, row) (row?_eq_some_iff.mp hrow)

end rows

end Finality.Matrix
