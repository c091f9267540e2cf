import Finality.Proofs.Matrix.Index
import Finality.Proofs.Tracker.Sighting

/-! # Recording, place by place

A sighting is recorded in a table and an index in many small steps, and the oldest rows are dropped
one at a time.  Two kinds of steps depend on table and index being in step with each other: reading
a place of the index, and deleting a row from the table.  Here both can fail (`Indexed.Gap`).

From a table and an index that represent a matrix none of them does, and the steps lead to what the
matrix becomes as a whole: `Represents.backfill` for the walk down from a height,
`Represents.record` for a sighting, `Represents.evict` for the rows that are dropped. -/

namespace Finality

open Finality.Matrix (backfillRows)

variable {o : Observation} {source h : Nat} {r v : Address} {row : Row}

/-! ### Rows -/

theorem Row.cell_ensure (r v : Address) (row : Row) : (row.ensure r v).cell r v = row.cell r v := by
  rw [Row.cell, Row.ensure, Row.cell?_alter_self]
  rfl

theorem Row.ensure_of_resolves (hres : o.resolves (row.cell r v) = true) :
    row.ensure r v = row := by
  cases hc : row.cell? r v with
  | none =>
      rw [Row.cell, hc, Option.getD_none, o.resolves_empty] at hres
      cases hres
  | some c => exact Row.ensure_of_cell? hc

theorem Row.alter_ensure (f : Cell → Cell) : (row.ensure r v).alter r v f = row.alter r v f :=
  Row.alter_alter_self r v id f row

namespace Matrix

theorem alterRows_append {above rest : List (Nat × Row)}
    (hd : Descending (above ++ (h, row) :: rest)) (F : Row → Row) :
    alterRows h F (above ++ (h, row) :: rest) = above ++ (h, F row) :: rest := by
  induction above with
  | nil => simp [alterRows]
  | cons e above ih =>
      obtain ⟨g, x⟩ := e
      obtain ⟨hbelow, hd⟩ := List.pairwise_cons.mp hd
      have hlt : h < g := hbelow (h, row) (by simp)
      simp only [List.cons_append, alterRows, if_neg (Nat.lt_asymm hlt), if_neg (Nat.ne_of_gt hlt),
        ih hd]

theorem exists_split {rows : List (Nat × Row)} (hd : Descending rows) (source : Nat) :
    ∃ above under, rows = above ++ under ∧ (∀ e ∈ above, source ≤ e.1) ∧
      ∀ e ∈ under, e.1 < source := by
  induction rows with
  | nil => exact ⟨[], [], rfl, by simp, by simp⟩
  | cons e rest ih =>
      obtain ⟨hbelow, hrest⟩ := List.pairwise_cons.mp hd
      by_cases hlt : e.1 < source
      · refine ⟨[], e :: rest, rfl, by simp, fun e' he' => ?_⟩
        rcases List.mem_cons.mp he' with rfl | he'
        · exact hlt
        · exact Nat.lt_trans (hbelow e' he') hlt
      · obtain ⟨above, under, rfl, habove, hunder⟩ := ih hrest
        refine ⟨e :: above, under, rfl, fun e' he' => ?_, hunder⟩
        rcases List.mem_cons.mp he' with rfl | he'
        · exact Nat.le_of_not_lt hlt
        · exact habove e' he'

/-- The walk leaves what is not below its source. -/
theorem backfillRows_append {above under : List (Nat × Row)} (habove : ∀ e ∈ above, source ≤ e.1) :
    backfillRows o source r v (above ++ under) =
      (above ++ (backfillRows o source r v under).1, (backfillRows o source r v under).2) := by
  induction above with
  | nil => rfl
  | cons e above ih =>
      obtain ⟨hhead, hrest⟩ := List.forall_mem_cons.mp habove
      rw [List.cons_append, backfillRows, if_neg (Nat.not_lt.mpr hhead), ih hrest]
      rfl

end Matrix

namespace Indexed

variable {x : Indexed} {m : Matrix} {above under : List (Nat × Row)}

/-- Why a step on a table and an index cannot go on. -/
inductive Gap where
  /-- The table lacks a height of the index. -/
  | row (h : Nat)
  /-- The index ends in front of a place. -/
  | place (i : Nat)
deriving DecidableEq, Repr

/-! ### The walk -/

/-- Walks down the index from below a place.  In each row the cell of the pair is made sure of; it
is marked, unless it carries the observation already, which ends the walk.  Also counts the marked
cells. -/
def walk (o : Observation) (source : Nat) (r v : Address) :
    Nat → Indexed → Except Gap (Indexed × Nat)
  | 0, x => .ok (x, 0)
  | i + 1, x =>
    match x.index[i]? with
    | none => .error (.place i)
    | some h =>
      let ensured := x.alter h fun row => row.ensure r v
      if o.resolves (((ensured.row? h).getD {}).cell r v) then .ok (ensured, 0)
      else do
        let marked := ensured.alter h fun row => row.alter r v (o.mark source h)
        let (walked, n) ← walk o source r v i marked
        .ok (walked, n + 1)

/-- Writes a sighting and walks down from it. -/
def record (precommitImpliesPrevote : Bool) (s : Sighting) (x : Indexed) :
    Except Gap (Indexed × Nat) :=
  let written := x.alter s.height fun row => row.alter s.reporter s.voter s.see
  walk (s.observation precommitImpliesPrevote) s.height s.reporter s.voter
    (bisectLeft s.height written.index) written

theorem exists_represents (m : Matrix) : ∃ x : Indexed, x.Represents m :=
  ⟨⟨m.rows, m.heights.reverse⟩, rfl, fun _ => rfl, .refl _⟩

namespace Represents

theorem index_eq_append (hx : x.Represents m) (hrows : m.rows = above ++ under) :
    x.index = (under.map (·.1)).reverse ++ (above.map (·.1)).reverse := by
  rw [hx.index_eq, Matrix.heights, hrows, List.map_append, List.reverse_append]

theorem getElem?_index (hx : x.Represents m) (hrows : m.rows = above ++ (h, row) :: under) :
    x.index[under.length]? = some h := by
  rw [hx.index_eq_append hrows, List.map_cons, List.reverse_cons, List.append_assoc,
    List.getElem?_append_right (by simp)]
  simp

theorem row?_eq_of_rows (hx : x.Represents m) (hrows : m.rows = above ++ (h, row) :: under) :
    x.row? h = some row := by
  rw [hx.row?_eq, Matrix.row?_eq_some_iff, hrows]
  simp

theorem rows_alter_of_rows (hrows : m.rows = above ++ (h, row) :: under) (F : Row → Row) :
    (m.alter h F).rows = above ++ (h, F row) :: under := by
  have hd := m.descending
  rw [hrows] at hd
  rw [Matrix.rows_alter, hrows, Matrix.alterRows_append hd]

/-- The walk comes by the rows behind a place, and does to them what a backfill does. -/
theorem walk (hx : x.Represents m) (hrows : m.rows = above ++ under)
    (hlt : ∀ e ∈ under, e.1 < source) : ∃ y k,
      x.walk o source r v under.length = .ok (y, (backfillRows o source r v under).2) ∧
      y.Represents k ∧ k.rows = above ++ (backfillRows o source r v under).1 := by
  induction under generalizing x m above with
  | nil => exact ⟨x, m, rfl, hx, hrows⟩
  | cons e under ih =>
      obtain ⟨h, row⟩ := e
      obtain ⟨hhead, hlt⟩ := List.forall_mem_cons.mp hlt
      -- the cell is made sure of
      have hensured := hx.alter h fun row => row.ensure r v
      have hrows' := rows_alter_of_rows hrows fun row => row.ensure r v
      have hcell : (((x.alter h fun row => row.ensure r v).row? h).getD {}).cell r v =
          row.cell r v := by
        rw [hensured.row?_eq_of_rows hrows', Option.getD_some, Row.cell_ensure]
      simp only [List.length_cons, Indexed.walk, hx.getElem?_index hrows, hcell, backfillRows,
        if_pos hhead]
      by_cases hres : o.resolves (row.cell r v) = true
      · -- it is found resolved, and was not created then
        rw [if_pos hres, if_pos hres]
        rw [Row.ensure_of_resolves hres] at hrows'
        exact ⟨_, _, rfl, hensured, hrows'⟩
      · -- it is marked, and the walk goes on below
        have hmarked := hensured.alter h fun row => row.alter r v (o.mark source h)
        have hrows'' := rows_alter_of_rows hrows' fun row => row.alter r v (o.mark source h)
        rw [Row.alter_ensure, List.append_cons] at hrows''
        obtain ⟨y, k, hwalk, hy, hk⟩ := ih hmarked hrows'' hlt
        rw [if_neg hres, if_neg hres, hwalk]
        refine ⟨y, k, rfl, hy, ?_⟩
        rw [hk, ← List.append_cons]

theorem bisectLeft_eq (hx : x.Represents m) (hrows : m.rows = above ++ under)
    (habove : ∀ e ∈ above, source ≤ e.1) (hunder : ∀ e ∈ under, e.1 < source) :
    bisectLeft source x.index = under.length := by
  have hbelow : (under.map (·.1)).filter (· < source) = under.map (·.1) := by
    rw [List.filter_eq_self]
    simpa using fun g row he => hunder (g, row) he
  have hrest : (above.map (·.1)).filter (· < source) = [] := by
    rw [List.filter_eq_nil_iff]
    simpa using fun g row he => habove (g, row) he
  rw [bisectLeft, (split_lt hx.ascending source).bisect_eq, hx.index_eq_append hrows,
    List.filter_append, List.filter_reverse, List.filter_reverse, hbelow, hrest]
  simp

theorem backfill (hx : x.Represents m) (o : Observation) (source : Nat) (r v : Address) : ∃ y,
    x.walk o source r v (bisectLeft source x.index) = .ok (y, (m.backfill o source r v).2) ∧
      y.Represents (m.backfill o source r v).1 := by
  obtain ⟨above, under, hrows, habove, hunder⟩ := Matrix.exists_split m.descending source
  obtain ⟨y, k, hwalk, hy, hk⟩ := walk (o := o) (r := r) (v := v) hx hrows hunder
  have hwhole : backfillRows o source r v m.rows =
      (above ++ (backfillRows o source r v under).1, (backfillRows o source r v under).2) := by
    rw [hrows, Matrix.backfillRows_append habove]
  have hbackfill : (m.backfill o source r v).1.rows = k.rows := hk ▸ congrArg Prod.fst hwhole
  refine ⟨y, ?_, ?_⟩
  · rw [hx.bisectLeft_eq hrows habove hunder, hwalk]
    simp only [Matrix.backfill, hwhole]
  · obtain rfl : k = (m.backfill o source r v).1 := Matrix.eq_of_rows hbackfill.symm
    exact hy

/-- **A sighting is recorded.**  No step on the way fails. -/
theorem record (hx : x.Represents m) (b : Bool) (s : Sighting) : ∃ y,
    x.record b s = .ok (y, ((m.alterCell s.height s.reporter s.voter s.see).backfill
      (s.observation b) s.height s.reporter s.voter).2) ∧ y.Represents (m.record b s) :=
  (hx.alter s.height fun row => row.alter s.reporter s.voter s.see).backfill _ _ _ _

end Represents

/-! ### Dropping rows -/

/-- Deletes the row at a height. -/
def delete (x : Indexed) (h : Nat) : Except Gap Indexed :=
  if x.contains h then .ok { x with table := x.table.filter fun e => e.1 != h } else .error (.row h)

/-- Deletes the rows at some heights, one after the other. -/
def deleteAll (x : Indexed) (hs : List Nat) : Except Gap Indexed := hs.foldlM delete x

/-- Drops the lowest heights until a number is left, row by row, and tells by how many they exceeded
it. -/
def evict (limit : Int) (x : Indexed) : Except Gap (Indexed × Int) :=
  let excess := (x.index.length : Int) - limit
  if excess ≤ 0 then .ok (x, 0)
  else do
    let kept ← x.deleteAll (x.index.take excess.toNat)
    .ok ({ kept with index := kept.index.drop excess.toNat }, excess)

theorem deleteAll_eq {hs : List Nat} (hnodup : hs.Nodup) (hhs : ∀ h ∈ hs, x.contains h = true) :
    x.deleteAll hs = .ok { x with table := x.table.filter fun e => !hs.contains e.1 } := by
  induction hs generalizing x with
  | nil =>
      have hall : x.table.filter (fun e => !([] : List Nat).contains e.1) = x.table := by simp
      rw [hall]
      rfl
  | cons h hs ih =>
      obtain ⟨hnot, hnodup⟩ := List.nodup_cons.mp hnodup
      obtain ⟨hhead, hhs⟩ := List.forall_mem_cons.mp hhs
      have hdelete : x.delete h = .ok { x with table := x.table.filter fun e => e.1 != h } :=
        if_pos hhead
      -- the other heights are still there
      have hrest : ∀ g ∈ hs,
          contains { x with table := x.table.filter fun e => e.1 != h } g = true := by
        intro g hg
        have hne : (g != h) = true := by
          rw [bne_iff_ne]
          exact fun heq => hnot (heq ▸ hg)
        rw [contains, row?, Ordered.lookup_filter (fun k => k != h), if_pos hne]
        exact hhs g hg
      rw [deleteAll, List.foldlM_cons, hdelete]
      show deleteAll _ hs = _
      rw [ih hnodup hrest, List.filter_filter]
      congr 3
      funext e
      rw [List.contains_cons, Bool.not_or, Bool.and_comm]
      rfl

/-- **The lowest heights are dropped.**  None of them lacks its row. -/
theorem Represents.evict (hx : x.Represents m) (n : Nat) : x.evict n = .ok (x.prune n) := by
  have hnodup : x.index.Nodup := hx.ascending.imp Nat.ne_of_lt
  have hthere : ∀ k, ∀ h ∈ x.index.take k, x.contains h = true := fun k h hh =>
    hx.contains_iff.mpr (hx.mem_index.mp (List.mem_of_mem_take hh))
  simp only [Indexed.evict, Indexed.prune]
  split
  · rfl
  · rw [deleteAll_eq (hnodup.sublist (List.take_sublist _ _)) (hthere _)]
    rfl

end Indexed

end Finality
