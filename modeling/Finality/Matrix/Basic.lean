import Finality.Matrix.Row

/-! # The vote matrix

The matrix keeps a row for every block height that an event has referred to, newest first: the rows
strictly descend by height, which is part of the type.  Rows come into being when they are written
(`Matrix.alter`) and go from the bottom (`Matrix.prune`) or all at once (`Matrix.empty`).

`Matrix.row?` is the view of the matrix as a finite map from heights to rows, `Matrix.heights` lists
its keys. -/

namespace Finality

/-- Rows strictly descend by height. -/
def Descending (rows : List (Nat × Row)) : Prop := rows.Pairwise fun a b => b.1 < a.1

instance (rows : List (Nat × Row)) : Decidable (Descending rows) :=
  inferInstanceAs (Decidable (rows.Pairwise _))

/-- The vote matrix. -/
structure Matrix where
  /-- Rows, newest first. -/
  rows : List (Nat × Row) := []
  descending : Descending rows := by simp [Descending]
deriving DecidableEq, Repr

namespace Matrix

/-- The matrix without rows. -/
def empty : Matrix := {}

/-- Heights of the rows, newest first. -/
def heights (m : Matrix) : List Nat := m.rows.map (·.1)

@[simp] theorem heights_empty : empty.heights = [] := rfl

/-- Number of rows. -/
def size (m : Matrix) : Nat := m.rows.length

/-- Whether there is no row. -/
def isEmpty (m : Matrix) : Bool := m.rows.isEmpty

/-- Row at a height. -/
def row? (m : Matrix) (h : Nat) : Option Row := m.rows.lookup h

/-- Whether there is a row at a height. -/
def contains (m : Matrix) (h : Nat) : Bool := (m.row? h).isSome

/-- Greatest height. -/
def highest (m : Matrix) : Option Nat := m.heights.head?

/-- Least height. -/
def lowest (m : Matrix) : Option Nat := m.heights.getLast?

/-- Row at a height with its place, counted from the newest row. -/
def find? (m : Matrix) (h : Nat) : Option (Row × Nat) :=
  (m.row? h).map fun row => (row, m.heights.idxOf h)

/-- Heights below a height, highest first. -/
def below (m : Matrix) (h : Nat) : List Nat := m.heights.filter (· < h)

/-- Cell at a height, if there is one. -/
def cell? (m : Matrix) (h : Nat) (reporter voter : Address) : Option Cell :=
  (m.row? h).bind (·.cell? reporter voter)

/-- Cell at a height, empty if there is none. -/
def cell (m : Matrix) (h : Nat) (reporter voter : Address) : Cell :=
  (m.cell? h reporter voter).getD {}

/-- All cells, newest row first. -/
def cells (m : Matrix) : List (Nat × Address × Address × Cell) :=
  m.rows.flatMap fun r => r.2.cells.map fun c => (r.1, c)

/-! ### Writing -/

/-- Changes the row at a height in a descending list of rows. -/
def alterRows (h : Nat) (f : Row → Row) : List (Nat × Row) → List (Nat × Row)
  | [] => [(h, f {})]
  | (g, row) :: rest =>
    if g < h then (h, f {}) :: (g, row) :: rest
    else if g = h then (g, f row) :: rest
    else (g, row) :: alterRows h f rest

theorem mem_alterRows {h : Nat} {f : Row → Row} {rows : List (Nat × Row)} {e : Nat × Row}
    (he : e ∈ alterRows h f rows) : e.1 = h ∨ ∃ e' ∈ rows, e'.1 = e.1 := by
  induction rows with
  | nil => simp_all [alterRows]
  | cons r rest ih =>
    obtain ⟨g, row⟩ := r
    simp only [alterRows] at he
    split at he
    · rcases List.mem_cons.1 he with rfl | he
      · exact Or.inl rfl
      · exact Or.inr ⟨e, he, rfl⟩
    · split at he
      · rcases List.mem_cons.1 he with rfl | he
        · exact Or.inl (by assumption)
        · exact Or.inr ⟨e, List.mem_cons_of_mem _ he, rfl⟩
      · rcases List.mem_cons.1 he with rfl | he
        · exact Or.inr ⟨_, List.mem_cons_self, rfl⟩
        · rcases ih he with h' | ⟨e', h1, h2⟩
          · exact Or.inl h'
          · exact Or.inr ⟨e', List.mem_cons_of_mem _ h1, h2⟩

theorem descending_alterRows {h : Nat} {f : Row → Row} {rows : List (Nat × Row)}
    (hd : Descending rows) : Descending (alterRows h f rows) := by
  induction rows with
  | nil => simp [alterRows, Descending]
  | cons r rest ih =>
    obtain ⟨g, row⟩ := r
    obtain ⟨h1, h2⟩ := List.pairwise_cons.1 hd
    simp only [alterRows]
    split
    · rename_i hlt
      refine List.pairwise_cons.2 ⟨fun e he => ?_, hd⟩
      rcases List.mem_cons.1 he with rfl | he
      · exact hlt
      · exact Nat.lt_trans (h1 e he) hlt
    · split
      · exact List.pairwise_cons.2 ⟨h1, h2⟩
      · refine List.pairwise_cons.2 ⟨fun e he => ?_, ih h2⟩
        rcases mem_alterRows he with h' | ⟨e', h', hh⟩
        · have : h < g := by omega
          exact h' ▸ this
        · exact hh ▸ h1 e' h'

/-- Changes the row at a height, which is created if it is missing. -/
def alter (h : Nat) (f : Row → Row) (m : Matrix) : Matrix where
  rows := alterRows h f m.rows
  descending := descending_alterRows m.descending

/-- Makes sure that there is a row at a height. -/
def ensureRow (h : Nat) (m : Matrix) : Matrix := m.alter h id

/-- Changes a cell, which is created if it is missing, with its row. -/
def alterCell (h : Nat) (reporter voter : Address) (f : Cell → Cell) (m : Matrix) : Matrix :=
  m.alter h fun row => row.alter reporter voter f

/-- Makes sure that there is a cell. -/
def ensureCell (h : Nat) (reporter voter : Address) (m : Matrix) : Matrix :=
  m.alterCell h reporter voter id

/-! ### Dropping rows -/

/-- Keeps the newest rows, and tells by how many the rows exceeded their number.  A negative number
keeps nothing. -/
def prune (limit : Int) (m : Matrix) : Matrix × Int :=
  let excess := (m.size : Int) - limit
  if excess ≤ 0 then (m, 0)
  else
    ({ rows := m.rows.take limit.toNat
       descending := m.descending.sublist (List.take_sublist _ _) }, excess)

@[simp] theorem rows_alter (h : Nat) (f : Row → Row) (m : Matrix) :
    (m.alter h f).rows = alterRows h f m.rows := rfl

theorem rows_prune (n : Nat) (m : Matrix) : (m.prune n).1.rows = m.rows.take n := by
  by_cases h : (m.rows.length : Int) - n ≤ 0
  · simp only [prune, size, h, if_true]
    rw [List.take_of_length_le (by omega)]
  · simp [prune, size, h]

end Matrix

end Finality
