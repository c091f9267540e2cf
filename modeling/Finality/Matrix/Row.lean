import Finality.Matrix.Cell
import Finality.Ordered

/-! # Rows of the vote matrix

The cells of one height, by reporter and voter.  Reporters stand in the order in which they first
appeared, and so do the voters of a reporter.

A cell comes into being when it is written (`Row.alter`); a missing cell reads as the empty one. -/

namespace Finality

/-- The cells of one height. -/
structure Row where
  /-- Reporters, each with the cells of its voters. -/
  reporters : List (Address × List (Address × Cell)) := []
deriving DecidableEq, Repr

namespace Row

/-- Cell of a reporter and a voter, if there is one. -/
def cell? (row : Row) (reporter voter : Address) : Option Cell :=
  (row.reporters.lookup reporter).bind fun voters => voters.lookup voter

/-- Cell of a reporter and a voter, empty if there is none. -/
def cell (row : Row) (reporter voter : Address) : Cell := (row.cell? reporter voter).getD {}

/-- Whether there is a cell. -/
def contains (row : Row) (reporter voter : Address) : Bool := (row.cell? reporter voter).isSome

/-- Changes a cell, which is created if it is missing. -/
def alter (reporter voter : Address) (f : Cell → Cell) (row : Row) : Row where
  reporters := Ordered.alter reporter
    (fun voters => Ordered.alter voter (fun c => f (c.getD {})) (voters.getD [])) row.reporters

/-- Makes sure that there is a cell. -/
def ensure (reporter voter : Address) (row : Row) : Row := row.alter reporter voter id

/-- All cells, reporter by reporter. -/
def cells (row : Row) : List (Address × Address × Cell) :=
  row.reporters.flatMap fun r => r.2.map fun v => (r.1, v.1, v.2)

/-- Number of cells with a property. -/
def count (row : Row) (p : Cell → Bool) : Nat := row.cells.countP fun c => p c.2.2

theorem cell?_alter_self (reporter voter : Address) (f : Cell → Cell) (row : Row) :
    (row.alter reporter voter f).cell? reporter voter = some (f (row.cell reporter voter)) := by
  simp only [cell?, cell, alter, Ordered.lookup_alter_self, Option.bind_some]
  cases row.reporters.lookup reporter <;> simp

theorem cell?_alter_ne {reporter voter r v : Address} (h : ¬(r = reporter ∧ v = voter))
    (f : Cell → Cell) (row : Row) : (row.alter reporter voter f).cell? r v = row.cell? r v := by
  simp only [cell?, alter]
  by_cases hr : r = reporter
  · subst hr
    have hv : (v == voter) = false := by
      simp only [beq_eq_false_iff_ne, ne_eq]
      exact fun e => h ⟨rfl, e⟩
    rw [Ordered.lookup_alter_self, Option.bind_some, Ordered.lookup_alter_ne hv]
    cases row.reporters.lookup r <;> simp
  · rw [Ordered.lookup_alter_ne (by simpa using hr)]

theorem alter_alter_self (reporter voter : Address) (f g : Cell → Cell) (row : Row) :
    (row.alter reporter voter f).alter reporter voter g =
      row.alter reporter voter fun c => g (f c) := by
  simp only [alter, Ordered.alter_alter_self, Option.getD_some]

theorem alter_eq_self {reporter voter : Address} {f : Cell → Cell} {row : Row} {c : Cell}
    (h : row.cell? reporter voter = some c) (hf : f c = c) : row.alter reporter voter f = row := by
  obtain ⟨voters, hvoters, hc⟩ := Option.bind_eq_some_iff.1 h
  have hsame : Ordered.alter voter (fun c => f (c.getD {})) voters = voters :=
    Ordered.alter_eq_self hc hf
  simp only [alter]
  rw [Ordered.alter_eq_self hvoters hsame]

theorem ensure_of_cell? {reporter voter : Address} {row : Row} {c : Cell}
    (h : row.cell? reporter voter = some c) : row.ensure reporter voter = row :=
  alter_eq_self h rfl

end Row

end Finality
