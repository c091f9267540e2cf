import Finality.Proofs.Matrix.Walk

/-! # Counting cells

`Matrix.count p m` is the number of cells with a property.  A cell is written three maps deep, in
its row, under its reporter, under its voter; at each depth a new value takes the place of an old
one, or of none at all, which weighs nothing (`Ordered.total_alter`).  So writing a cell changes the
count by what it changes at this cell (`Row.count_alter`).

A walk marks one cell after the other.  How much the count grows by is thus bounded from below and
from above by the number of marked cells (`count_backfill`), and that number is the number of rows
that the walk reaches (`marked_backfill`). -/

namespace Finality

/-! ### Weights -/

namespace Ordered

variable {κ α : Type} {w : α → Nat}

/-- What the values of a map weigh together. -/
def total (w : α → Nat) : List (κ × α) → Nat
  | [] => 0
  | e :: m => w e.2 + total w m

@[simp] theorem total_nil : total w ([] : List (κ × α)) = 0 := rfl

@[simp] theorem total_cons (e : κ × α) (m : List (κ × α)) : total w (e :: m) = w e.2 + total w m :=
  rfl

/-- A written value takes the place of the old one, or of a default that weighs nothing. -/
theorem total_alter [BEq κ] [LawfulBEq κ] {d : α} (hd : w d = 0) (k : κ) (f : α → α)
    (m : List (κ × α)) :
    total w (alter k (fun a => f (a.getD d)) m) + w ((m.lookup k).getD d) =
      total w m + w (f ((m.lookup k).getD d)) := by
  induction m with
  | nil => simp [hd]
  | cons e m ih =>
      obtain ⟨j, a⟩ := e
      by_cases hk : k == j
      · simp only [alter, hk, if_true, total_cons, List.lookup_cons, Option.getD_some]
        omega
      · simp only [alter, hk, Bool.false_eq_true, if_false, total_cons, List.lookup_cons]
        omega

theorem countP_flatMap_eq_total {β : Type} {p : β → Bool} {list : κ × α → List β}
    (hw : ∀ e, (list e).countP p = w e.2) (m : List (κ × α)) :
    (m.flatMap list).countP p = total w m := by
  induction m with
  | nil => rfl
  | cons e m ih => rw [List.flatMap_cons, List.countP_append, hw, ih, total_cons]

theorem countP_eq_total (p : α → Bool) (m : List (κ × α)) :
    m.countP (fun e => p e.2) = total (fun a => (p a).toNat) m := by
  induction m with
  | nil => rfl
  | cons e m ih =>
      rw [List.countP_cons, ih, total_cons]
      cases p e.2 <;> simp [Nat.add_comm]

end Ordered

open Ordered (total total_cons total_alter)

variable {p : Cell → Bool} {f : Cell → Cell} {r v : Address}

/-! ### Rows -/

namespace Row

theorem count_eq_total (p : Cell → Bool) (row : Row) :
    row.count p = total (total fun c => (p c).toNat) row.reporters := by
  refine Ordered.countP_flatMap_eq_total (fun r => ?_) row.reporters
  rw [List.countP_map]
  exact Ordered.countP_eq_total p r.2

theorem cell_eq_lookup (r v : Address) (row : Row) :
    row.cell r v = (((row.reporters.lookup r).getD []).lookup v).getD {} := by
  rw [cell, cell?]
  cases row.reporters.lookup r <;> rfl

/-- Writing a cell changes the count by what it changes at the cell.  A missing cell counts as the
empty one, which lacks the property. -/
theorem count_alter (hp : p {} = false) (r v : Address) (f : Cell → Cell) (row : Row) :
    (row.alter r v f).count p + (p (row.cell r v)).toNat =
      row.count p + (p (f (row.cell r v))).toNat := by
  have hvoters := total_alter (w := fun c => (p c).toNat) (d := {}) (by simp [hp]) v f
    ((row.reporters.lookup r).getD [])
  have hreporters := total_alter (w := total fun c => (p c).toNat) (d := []) rfl r
    (Ordered.alter v fun c => f (c.getD {})) row.reporters
  simp only [count_eq_total, cell_eq_lookup, alter]
  omega

theorem count_alter_of_eq (hp : p {} = false) (hf : ∀ c, p (f c) = p c) (row : Row) :
    (row.alter r v f).count p = row.count p := by
  have halter := count_alter hp r v f row
  rw [hf] at halter
  omega

end Row

/-! ### Matrices -/

/-- From one cell to another the indicator of a property grows by at least `a` and by at most
`b`. -/
def Cell.Gains (p : Cell → Bool) (a b : Nat) (c d : Cell) : Prop :=
  (p c).toNat + a ≤ (p d).toNat ∧ (p d).toNat ≤ (p c).toNat + b

namespace Matrix

variable {o : Observation} {H g h : Nat} {a b : Nat} {m : Matrix}

/-- Number of cells with a property. -/
def count (p : Cell → Bool) (m : Matrix) : Nat := m.cells.countP fun c => p c.2.2.2

theorem count_eq_total (p : Cell → Bool) (m : Matrix) :
    m.count p = total (Row.count · p) m.rows :=
  Ordered.countP_flatMap_eq_total (fun _ => List.countP_map) m.rows

theorem total_alterRows {w : Row → Nat} {F : Row → Row} (hempty : w {} = 0)
    (hF : ∀ row, w (F row) = w row) (h : Nat) (rows : List (Nat × Row)) :
    total w (alterRows h F rows) = total w rows := by
  induction rows with
  | nil => simp [alterRows, hF, hempty]
  | cons e rest ih =>
      obtain ⟨g, row⟩ := e
      simp only [alterRows]
      split
      · simp [hF, hempty]
      · split
        · simp [hF]
        · simp [ih]

theorem count_alterCell_of_eq (hp : p {} = false) (hf : ∀ c, p (f c) = p c) :
    (m.alterCell h r v f).count p = m.count p := by
  rw [count_eq_total, count_eq_total]
  exact total_alterRows rfl (Row.count_alter_of_eq hp hf) h m.rows

/-! ### Walks -/

instance (g : Nat) (rows : List (Nat × Row)) : Decidable (OpenFrom o H r v g rows) :=
  inferInstanceAs (Decidable (∀ e ∈ rows, _))

theorem marked_backfillRows {rows : List (Nat × Row)} (hd : Descending rows) :
    (backfillRows o H r v rows).2 =
      rows.countP fun e => e.1 < H ∧ OpenFrom o H r v e.1 rows := by
  induction rows with
  | nil => rfl
  | cons e rest ih =>
      obtain ⟨q, x⟩ := e
      obtain ⟨hbelow, hrest⟩ := List.pairwise_cons.mp hd
      by_cases hres : q < H → o.resolves (x.cell r v) = false
      · -- the row does not stop the walk, so the rows below may leave it out of account
        have hcons : ∀ g, OpenFrom o H r v g ((q, x) :: rest) ↔ OpenFrom o H r v g rest :=
          fun _ => ⟨OpenFrom.tail, openFrom_cons fun _ => hres⟩
        have hopen : OpenFrom o H r v q rest :=
          fun e he hle _ => absurd (hbelow e he) (Nat.not_lt.mpr hle)
        by_cases hlt : q < H
        · simp [backfillRows, hlt, hres hlt, hcons, hopen, ih hrest]
        · simp [backfillRows, hlt, hcons, ih hrest]
      · obtain ⟨hlt, hres⟩ := Classical.not_imp.mp hres
        have hstop : o.resolves (x.cell r v) = true := Bool.eq_true_of_not_eq_false hres
        simp only [backfillRows, if_pos hlt, if_pos hstop]
        rw [eq_comm, List.countP_eq_zero]
        intro e he
        have hle : e.1 ≤ q := by
          rcases List.mem_cons.mp he with rfl | he
          · exact Nat.le_refl _
          · exact Nat.le_of_lt (hbelow e he)
        simp only [decide_eq_true_eq, not_and]
        exact fun _ hopen => hres (hopen (q, x) List.mem_cons_self hle hlt)

theorem marked_backfill (o : Observation) (H : Nat) (r v : Address) (m : Matrix) :
    (m.backfill o H r v).2 = m.heights.countP fun g => Reached o H r v m g := by
  rw [heights, List.countP_map]
  refine (marked_backfillRows m.descending).trans (List.countP_congr fun e he => ?_)
  have hmem : e.1 ∈ m.heights := List.mem_map_of_mem he
  simp [Reached, openFrom_iff, hmem]

/-- Each row that is marked adds between `a` and `b`. -/
theorem total_backfillRows (hp : p {} = false) {rows : List (Nat × Row)}
    (hgain : ∀ e ∈ rows, e.1 < H → o.resolves (e.2.cell r v) = false →
      (e.2.cell r v).Gains p a b (o.mark H e.1 (e.2.cell r v))) :
    let walked := backfillRows o H r v rows
    total (Row.count · p) rows + a * walked.2 ≤ total (Row.count · p) walked.1 ∧
      total (Row.count · p) walked.1 ≤ total (Row.count · p) rows + b * walked.2 := by
  induction rows with
  | nil => simp [backfillRows]
  | cons e rest ih =>
      obtain ⟨g, row⟩ := e
      obtain ⟨hhead, hrest⟩ := List.forall_mem_cons.mp hgain
      obtain ⟨hlower, hupper⟩ := ih hrest
      simp only [backfillRows]
      split
      · rename_i hlt
        split
        · simp
        · rename_i hres
          obtain ⟨ha, hb⟩ := hhead hlt (Bool.eq_false_iff.mpr hres)
          have halter := Row.count_alter hp r v (o.mark H g) row
          simp only [total_cons, Nat.mul_succ] at *
          omega
      · simp only [total_cons]
        omega

/-- **What a walk adds to a count** lies between `a` and `b` times the number of marked cells, if it
does at each cell that the walk may mark. -/
theorem count_backfill (hp : p {} = false)
    (hgain : ∀ e ∈ m.rows, e.1 < H → o.resolves (e.2.cell r v) = false →
      (e.2.cell r v).Gains p a b (o.mark H e.1 (e.2.cell r v))) :
    let walked := m.backfill o H r v
    m.count p + a * walked.2 ≤ walked.1.count p ∧
      walked.1.count p ≤ m.count p + b * walked.2 := by
  simp only [count_eq_total]
  exact total_backfillRows hp hgain

end Matrix

end Finality
