import Finality.Tracker.Metrics
import Finality.Proofs.Matrix.Walk

/-! # Sightings

To the matrix a vote and a finalization are the same kind of thing: a reporter saw a voter at a
height, one cell is written there, and an observation is propagated downward.  A `Sighting` is that
common form, `Matrix.record` what a matrix does with it (`recordVote_eq_record`,
`recordFinalization_eq_record`).

The view of a recorded matrix is given cell by cell: the pair's cell at the height is `seen`, the
reached cells of the pair below are marked, every other cell is as before (`cell?_record_cases`). -/

namespace Finality

/-- A vote that a reporter saw a voter cast, or a finalization that a reporter announced. -/
inductive Sighting where
  | vote (v : Vote) (reporter : Address) (height : Nat) (voter : Address)
  | finalization (reporter : Address) (height : Nat) (hash : BlockHash)
deriving DecidableEq, Repr

namespace Sighting

/-- Sighting that a call brings; the hash of a vote is not recorded. -/
def ofCall? : Call → Option Sighting
  | .vote v reporter height _ voter => some (.vote v reporter height voter)
  | .finalized reporter height hash => some (.finalization reporter height hash)
  | _ => none

def reporter : Sighting → Address
  | vote _ r _ _ => r
  | finalization r _ _ => r

/-- Voter of the pair; a finalization is about the reporter's own cells. -/
def voter : Sighting → Address
  | vote _ _ _ w => w
  | finalization r _ _ => r

def height : Sighting → Nat
  | vote _ _ h _ => h
  | finalization _ h _ => h

/-- What is sighted. -/
def kind : Sighting → MarkKind
  | vote v _ _ _ => .vote v
  | finalization _ _ _ => .finalization

/-- What is propagated to lower heights. -/
def observation (precommitImpliesPrevote : Bool) : Sighting → Observation
  | vote v _ _ _ => .ofVote precommitImpliesPrevote v
  | finalization _ _ _ => .finalization

/-- What is written into the cell of the sighting. -/
def see : Sighting → Cell → Cell
  | vote v _ _ _ => Cell.see v
  | finalization _ h hash => Cell.finalize h hash

end Sighting

namespace Matrix

/-- Records a sighting. -/
def record (precommitImpliesPrevote : Bool) (s : Sighting) (m : Matrix) : Matrix :=
  ((m.alterCell s.height s.reporter s.voter s.see).backfill (s.observation precommitImpliesPrevote)
    s.height s.reporter s.voter).1

theorem recordVote_eq_record (b : Bool) (r : Address) (h : Nat) (w : Address) (v : Vote)
    (m : Matrix) : (m.recordVote b r h w v).1 = m.record b (.vote v r h w) := rfl

theorem recordFinalization_eq_record (b : Bool) (r : Address) (h : Nat) (hash : BlockHash)
    (m : Matrix) : (m.recordFinalization r h hash).1 = m.record b (.finalization r h hash) := rfl

/-- The pair of a sighting is marked at `g` when the sighting is recorded. -/
abbrev Implied (b : Bool) (s : Sighting) (m : Matrix) (g : Nat) : Prop :=
  Reached (s.observation b) s.height s.reporter s.voter m g

variable {b : Bool} {s : Sighting} {m : Matrix} {g : Nat} {r v : Address}

/-! ### The view of a recorded matrix -/

/-- Writing at the source does not change what the walk meets below it. -/
theorem reached_alterCell_iff {o : Observation} {H : Nat} {f : Cell → Cell} :
    Reached o H r v (m.alterCell H r v f) g ↔ Reached o H r v m g := by
  have hcell : ∀ q, q < H → (m.alterCell H r v f).cell q r v = m.cell q r v := by
    intro q hq
    rw [cell, cell?_alterCell_ne m f (fun h => Nat.ne_of_lt hq h.1), cell]
  constructor
  · rintro ⟨hg, hlt, hopen⟩
    refine ⟨?_, hlt, fun q hq hle hqH => ?_⟩
    · exact ((mem_heights_alterCell m f).mp hg).resolve_left (Nat.ne_of_lt hlt)
    · rw [← hcell q hqH]
      exact hopen q ((mem_heights_alterCell m f).mpr (Or.inr hq)) hle hqH
  · rintro ⟨hg, hlt, hopen⟩
    refine ⟨(mem_heights_alterCell m f).mpr (Or.inr hg), hlt, fun q hq hle hqH => ?_⟩
    rw [hcell q hqH]
    exact hopen q (((mem_heights_alterCell m f).mp hq).resolve_left (Nat.ne_of_lt hqH)) hle hqH

theorem mem_heights_record : g ∈ (m.record b s).heights ↔ g = s.height ∨ g ∈ m.heights := by
  rw [record, heights_backfill, mem_heights_alterCell]

/-- Which rows there are afterwards depends on the heights only. -/
theorem heights_record_eq {k : Matrix} {s' : Sighting} (hm : m.heights = k.heights)
    (hs : s.height = s'.height) (b b' : Bool) :
    (m.record b s).heights = (k.record b' s').heights := by
  refine heights_eq_of_mem_iff fun g => ?_
  rw [mem_heights_record, mem_heights_record, hm, hs]

theorem cell?_record_self :
    (m.record b s).cell? s.height s.reporter s.voter
      = some (s.see (m.cell s.height s.reporter s.voter)) := by
  rw [record, cell?_backfill_of_not_reached (fun h => Nat.lt_irrefl _ h.2.1), cell?_alterCell_self]

theorem cell?_record_of_implied (hi : Implied b s m g) :
    (m.record b s).cell? g s.reporter s.voter
      = some ((s.observation b).mark s.height g (m.cell g s.reporter s.voter)) := by
  have hne : g ≠ s.height := Nat.ne_of_lt hi.2.1
  rw [record, cell?_backfill_of_reached (reached_alterCell_iff.mpr hi), cell,
    cell?_alterCell_ne m s.see (fun h => hne h.1), cell]

theorem cell?_record_of_not_implied (hne : g ≠ s.height) (hi : ¬Implied b s m g) :
    (m.record b s).cell? g s.reporter s.voter = m.cell? g s.reporter s.voter := by
  rw [record, cell?_backfill_of_not_reached (fun h => hi (reached_alterCell_iff.mp h)),
    cell?_alterCell_ne m s.see (fun h => hne h.1)]

theorem cell?_record_ne (hne : ¬(r = s.reporter ∧ v = s.voter)) :
    (m.record b s).cell? g r v = m.cell? g r v := by
  rw [record, cell?_backfill_ne hne, cell?_alterCell_ne m s.see (fun h => hne h.2)]

/-- **All that recording a sighting does to a cell.** -/
theorem cell?_record_cases (b : Bool) (s : Sighting) (m : Matrix) (g : Nat) (r v : Address) :
    (r = s.reporter ∧ v = s.voter ∧ g = s.height ∧
      (m.record b s).cell? g r v = some (s.see (m.cell g r v))) ∨
    (r = s.reporter ∧ v = s.voter ∧ Implied b s m g ∧
      (m.record b s).cell? g r v = some ((s.observation b).mark s.height g (m.cell g r v))) ∨
    (¬(r = s.reporter ∧ v = s.voter ∧ (g = s.height ∨ Implied b s m g)) ∧
      (m.record b s).cell? g r v = m.cell? g r v) := by
  by_cases hp : r = s.reporter ∧ v = s.voter
  · obtain ⟨rfl, rfl⟩ := hp
    by_cases hg : g = s.height
    · subst hg
      exact Or.inl ⟨rfl, rfl, rfl, cell?_record_self⟩
    · by_cases hi : Implied b s m g
      · exact Or.inr (Or.inl ⟨rfl, rfl, hi, cell?_record_of_implied hi⟩)
      · refine Or.inr (Or.inr ⟨?_, cell?_record_of_not_implied hg hi⟩)
        rintro ⟨-, -, h⟩
        exact h.elim hg hi
  · refine Or.inr (Or.inr ⟨?_, cell?_record_ne hp⟩)
    rintro ⟨hr, hv, -⟩
    exact hp ⟨hr, hv⟩

/-- The same for cells that may be missing and then read as the empty one. -/
theorem cell_record_cases (b : Bool) (s : Sighting) (m : Matrix) (g : Nat) (r v : Address) :
    (r = s.reporter ∧ v = s.voter ∧ g = s.height ∧
      (m.record b s).cell g r v = s.see (m.cell g r v)) ∨
    (r = s.reporter ∧ v = s.voter ∧ Implied b s m g ∧
      (m.record b s).cell g r v = (s.observation b).mark s.height g (m.cell g r v)) ∨
    (¬(r = s.reporter ∧ v = s.voter ∧ (g = s.height ∨ Implied b s m g)) ∧
      (m.record b s).cell g r v = m.cell g r v) := by
  rcases cell?_record_cases b s m g r v with ⟨hr, hv, hg, hc⟩ | ⟨hr, hv, hi, hc⟩ | ⟨hne, hc⟩
  · exact Or.inl ⟨hr, hv, hg, cell_eq_of_cell? hc⟩
  · exact Or.inr (Or.inl ⟨hr, hv, hi, cell_eq_of_cell? hc⟩)
  · exact Or.inr (Or.inr ⟨hne, by rw [cell, hc, cell]⟩)

/-- A property of cells at their places survives recording if it survives being seen and being
marked from above. -/
theorem forall_cell_record {P : Nat → Address → Address → Cell → Prop}
    (hsee : ∀ c, P s.height s.reporter s.voter c → P s.height s.reporter s.voter (s.see c))
    (hmark : ∀ g c, g < s.height → P g s.reporter s.voter c →
      P g s.reporter s.voter ((s.observation b).mark s.height g c))
    (hm : ∀ h r v, P h r v (m.cell h r v)) (h : Nat) (r v : Address) :
    P h r v ((m.record b s).cell h r v) := by
  rcases cell_record_cases b s m h r v with ⟨rfl, rfl, rfl, hc⟩ | ⟨rfl, rfl, hi, hc⟩ | ⟨-, hc⟩
  · rw [hc]
    exact hsee _ (hm _ _ _)
  · rw [hc]
    exact hmark h _ hi.2.1 (hm _ _ _)
  · rw [hc]
    exact hm h r v

end Matrix

end Finality
