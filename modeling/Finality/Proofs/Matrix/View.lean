import Mathlib.Data.List.Sort
import Mathlib.Tactic.Common
import Finality.Matrix.Basic
import Finality.Proofs.Ordered

/-! # The matrix as a finite map

`Matrix.row?` and `Matrix.cell?` are the views through which the other modules read a matrix.  This
module says what writing and dropping rows do to them:

* `row?_eq_some_iff` : as heights strictly descend, the row at a height is the one stored with it;
* `cell?_alterCell_self`, `cell?_alterCell_ne`, `mem_heights_alterCell` : writing a cell;
* `Front k m` : `k` holds the newest rows of `m`.  Such a part is closed upward
  (`Front.mem_of_lt`) and reads like the whole at the heights it keeps (`Front.cell?`). -/

namespace Finality.Matrix

variable {m k : Matrix} {g h q : Nat} {r v : Address}

/-! ### Look-up in descending rows -/

theorem lookup_eq_some_iff_mem {rows : List (Nat × Row)} (hd : Descending rows) {row : Row} :
    rows.lookup h = some row ↔ (h, row) ∈ rows := by
  refine Ordered.lookup_eq_some_iff_mem ?_
  rw [Ordered.keys, List.Nodup, List.pairwise_map]
  exact hd.imp Nat.ne_of_gt

theorem lookup_alterRows_self {rows : List (Nat × Row)} (hd : Descending rows) (f : Row → Row) :
    (alterRows h f rows).lookup h = some (f ((rows.lookup h).getD {})) := by
  induction rows with
  | nil => simp [alterRows]
  | cons e rest ih =>
      obtain ⟨g, x⟩ := e
      obtain ⟨hlt, hrest⟩ := List.pairwise_cons.mp hd
      simp only [alterRows]
      split
      · -- the height is above all rows, so nothing was stored there
        rename_i hgh
        have hnone : List.lookup h ((g, x) :: rest) = none := by
          rw [List.lookup_eq_none_iff]
          intro e he
          have : e.1 ≤ g := by
            rcases List.mem_cons.mp he with rfl | he
            · exact Nat.le_refl _
            · exact Nat.le_of_lt (hlt e he)
          rw [bne_iff_ne]
          omega
        rw [hnone, List.lookup_cons_self]
        rfl
      · split
        · rename_i hgh
          subst hgh
          simp
        · rename_i hgh
          have hne : (h == g) = false := by rw [beq_eq_false_iff_ne]; omega
          rw [List.lookup_cons, List.lookup_cons, hne]
          exact ih hrest

theorem lookup_alterRows_ne (hg : g ≠ h) (f : Row → Row) (rows : List (Nat × Row)) :
    (alterRows h f rows).lookup g = rows.lookup g := by
  have hgh : (g == h) = false := beq_false_of_ne hg
  induction rows with
  | nil => simp [alterRows, hg]
  | cons e rest ih =>
      obtain ⟨q, x⟩ := e
      simp only [alterRows]
      split
      · rw [List.lookup_cons, hgh]
      · split
        · rename_i hq
          subst hq
          rw [List.lookup_cons, List.lookup_cons, hgh]
        · rw [List.lookup_cons, List.lookup_cons, ih]

/-! ### Rows and cells -/

theorem eq_of_rows (h : m.rows = k.rows) : m = k := by
  cases m
  cases k
  cases h
  rfl

theorem heights_descending (m : Matrix) : m.heights.Pairwise fun a b => b < a := by
  rw [heights, List.pairwise_map]
  exact m.descending

/-- As heights strictly descend, they are determined by which heights there are. -/
theorem heights_eq_of_mem_iff (h : ∀ g, g ∈ m.heights ↔ g ∈ k.heights) : m.heights = k.heights :=
  m.heights_descending.eq_of_mem_iff k.heights_descending h

theorem row?_eq_some_iff {row : Row} : m.row? h = some row ↔ (h, row) ∈ m.rows :=
  lookup_eq_some_iff_mem m.descending

theorem mem_heights_iff : h ∈ m.heights ↔ ∃ row, m.row? h = some row := by
  simp only [heights, List.mem_map, row?_eq_some_iff]
  constructor
  · rintro ⟨⟨g, row⟩, hm, rfl⟩
    exact ⟨row, hm⟩
  · rintro ⟨row, hm⟩
    exact ⟨(h, row), hm, rfl⟩

theorem row?_eq_none_iff : m.row? h = none ↔ h ∉ m.heights := by
  rw [mem_heights_iff, Option.eq_none_iff_forall_ne_some, not_exists]

theorem cell?_eq_none (hh : h ∉ m.heights) : m.cell? h r v = none := by
  rw [cell?, row?_eq_none_iff.mpr hh]
  rfl

theorem cell_eq_of_cell? {c : Cell} (hc : m.cell? h r v = some c) : m.cell h r v = c := by
  rw [cell, hc]
  rfl

theorem cell_eq_empty (hh : h ∉ m.heights) : m.cell h r v = {} := by
  rw [cell, cell?_eq_none hh]
  rfl

theorem cell_of_row? {row : Row} (hrow : m.row? h = some row) :
    m.cell h r v = row.cell r v := by
  rw [cell, cell?, hrow]
  rfl

theorem cell_getD_row? (m : Matrix) (h : Nat) (r v : Address) :
    ((m.row? h).getD {}).cell r v = m.cell h r v := by
  cases hrow : m.row? h with
  | none => rw [cell, cell?, hrow]; rfl
  | some row => rw [cell_of_row? hrow]; rfl

/-! ### Writing a cell -/

section writing
variable (f : Cell → Cell) (m)

theorem row?_alter_self (F : Row → Row) : (m.alter h F).row? h = some (F ((m.row? h).getD {})) :=
  lookup_alterRows_self m.descending F

theorem row?_alter_ne (hg : g ≠ h) (F : Row → Row) : (m.alter h F).row? g = m.row? g :=
  lookup_alterRows_ne hg F m.rows

theorem mem_heights_alter (F : Row → Row) : g ∈ (m.alter h F).heights ↔ g = h ∨ g ∈ m.heights := by
  by_cases hg : g = h
  · subst hg
    simp only [true_or, iff_true]
    exact mem_heights_iff.mpr ⟨_, row?_alter_self m F⟩
  · simp only [hg, false_or, mem_heights_iff, row?_alter_ne m hg]

theorem cell_ensureRow : (m.ensureRow h).cell g r v = m.cell g r v := by
  by_cases hg : g = h
  · subst hg
    rw [ensureRow, cell_of_row? (row?_alter_self m id), id, cell_getD_row?]
  · rw [cell, cell?, ensureRow, row?_alter_ne m hg, ← cell?, ← cell]

theorem mem_heights_alterCell : g ∈ (m.alterCell h r v f).heights ↔ g = h ∨ g ∈ m.heights :=
  mem_heights_alter m _

theorem cell?_alterCell_self : (m.alterCell h r v f).cell? h r v = some (f (m.cell h r v)) := by
  rw [alterCell, cell?, row?_alter_self, Option.bind_some, Row.cell?_alter_self, cell_getD_row?]

theorem cell?_alterCell_ne {r' v' : Address} (hne : ¬(g = h ∧ r' = r ∧ v' = v)) :
    (m.alterCell h r v f).cell? g r' v' = m.cell? g r' v' := by
  by_cases hg : g = h
  · subst hg
    have hpair : ¬(r' = r ∧ v' = v) := fun hp => hne ⟨rfl, hp⟩
    rw [alterCell, cell?, row?_alter_self, Option.bind_some, Row.cell?_alter_ne hpair, cell?]
    cases m.row? g <;> rfl
  · rw [alterCell, cell?, row?_alter_ne m hg, cell?]

end writing

/-! ### The newest rows -/

/-- `k` holds the newest rows of `m`. -/
def Front (k m : Matrix) : Prop := k.rows <+: m.rows

namespace Front

theorem heights_prefix (hf : Front k m) : k.heights <+: m.heights := List.IsPrefix.map _ hf

theorem mem (hf : Front k m) (hg : g ∈ k.heights) : g ∈ m.heights :=
  (hf.heights_prefix.subset) hg

theorem row? (hf : Front k m) (hg : g ∈ k.heights) : k.row? g = m.row? g := by
  obtain ⟨row, hrow⟩ := mem_heights_iff.mp hg
  rw [hrow, row?_eq_some_iff.mpr (hf.subset (row?_eq_some_iff.mp hrow))]

theorem cell? (hf : Front k m) (hg : g ∈ k.heights) : k.cell? g r v = m.cell? g r v := by
  rw [Matrix.cell?, Matrix.cell?, hf.row? hg]

theorem cell (hf : Front k m) (hg : g ∈ k.heights) : k.cell g r v = m.cell g r v := by
  rw [Matrix.cell, Matrix.cell, hf.cell? hg]

/-- Rows are dropped from the bottom. -/
theorem mem_of_lt (hf : Front k m) (hg : g ∈ k.heights) (hq : q ∈ m.heights) (hlt : g < q) :
    q ∈ k.heights := by
  obtain ⟨rest, hrest⟩ := hf.heights_prefix
  have hd := m.heights_descending
  rw [← hrest] at hq hd
  rcases List.mem_append.mp hq with hq | hq
  · exact hq
  · have := (List.pairwise_append.mp hd).2.2 g hg q hq
    omega

/-- A part that has any row has one at or above every row of the whole. -/
theorem exists_le (hf : Front k m) (hk : k.rows ≠ []) (hg : g ∈ m.heights) :
    ∃ q ∈ k.heights, g ≤ q := by
  obtain ⟨e, he⟩ := List.exists_mem_of_ne_nil _ hk
  have hq : e.1 ∈ k.heights := List.mem_map_of_mem he
  rcases Nat.lt_or_ge e.1 g with hlt | hle
  · exact ⟨g, hf.mem_of_lt hq hg hlt, Nat.le_refl g⟩
  · exact ⟨e.1, hq, hle⟩

end Front

end Finality.Matrix
