import Finality.Proofs.Matrix.Map
import Finality.Proofs.Tracker.EarlyStop
import Finality.Proofs.Tracker.Rows

/-! # Repeated calls

A walk has nothing to do when the next row below its source carries the observation already: it
stops there (`Settled.backfill`).  Otherwise it marks at least that row (`marked_backfill_iff`).
Every walk leaves the matrix settled for its observation, and dropping rows from the bottom keeps it
so (`settled_record`, `Settled.front`).

Hence a call that comes twice in a row does nothing the second time (`apply_apply_eq`), whatever is
still there of the first time.  A sighting below all rows that are kept is recorded and dropped
again; as recording commutes with keeping the newest rows, it is as if it met its own row. -/

namespace Finality

/-- Number of cells that a call marked; only votes and finalizations mark any. -/
def Effect.marked : Effect → Nat
  | .voted _ trace => trace.marked
  | .finalized trace => trace.marked
  | _ => 0

theorem Sighting.see_see (s : Sighting) (c : Cell) : s.see (s.see c) = s.see c := by
  rcases s with ⟨_ | _, -, -, -⟩ | ⟨-, -, -⟩ <;> rfl

namespace Matrix

variable {o : Observation} {H g h : Nat} {r v : Address} {b : Bool} {s : Sighting} {k m : Matrix}
  {f : Cell → Cell}

/-! ### Walks that have nothing to do -/

/-- The next row below a height, if there is one, carries the observation of a pair. -/
def Settled (o : Observation) (H : Nat) (r v : Address) (m : Matrix) : Prop :=
  ∀ g ∈ (m.below H).head?, o.resolves (m.cell g r v) = true

instance (o : Observation) (H : Nat) (r v : Address) (m : Matrix) : Decidable (Settled o H r v m) :=
  inferInstanceAs (Decidable (∀ g ∈ (m.below H).head?, _))

theorem head?_below_eq_some_iff : (m.below H).head? = some g ↔
    (g ∈ m.heights ∧ g < H) ∧ ∀ q ∈ m.heights, q < H → q ≤ g := by
  have hd : (m.below H).Pairwise fun a b => b < a := m.heights_descending.filter _
  have hmem : ∀ q, q ∈ m.below H ↔ q ∈ m.heights ∧ q < H := fun q => by
    simp only [below, List.mem_filter, decide_eq_true_eq]
  rw [head?_eq_some_iff (fun _ _ => Nat.lt_asymm) hd, hmem]
  refine and_congr_right fun _ => ⟨fun hfirst q hq hlt => ?_, fun hfirst q hq => ?_⟩
  · exact Nat.le_iff_lt_or_eq.mpr (hfirst q ((hmem q).mpr ⟨hq, hlt⟩)).symm
  · obtain ⟨hq, hlt⟩ := (hmem q).mp hq
    exact (Nat.le_iff_lt_or_eq.mp (hfirst q hq hlt)).symm

theorem settled_iff_rows : Settled o H r v m ↔
    ∀ e ∈ m.rows.find? (·.1 < H), o.resolves (e.2.cell r v) = true := by
  have hnext : (m.below H).head? = (m.rows.find? (·.1 < H)).map (·.1) := by
    rw [below, heights, List.head?_filter, List.find?_map]
    rfl
  rw [Settled, hnext]
  cases hrow : m.rows.find? (·.1 < H) with
  | none => simp
  | some e =>
      have hcell : m.cell e.1 r v = e.2.cell r v :=
        cell_of_row? (row?_eq_some_iff.mpr (List.mem_of_find?_eq_some hrow))
      simp [hcell]

/-- A walk that meets a row below its source either stops there or marks it. -/
theorem backfillRows_of_find? {rows : List (Nat × Row)}
    (hnext : ∀ e ∈ rows.find? (·.1 < H), o.resolves (e.2.cell r v) = true) :
    backfillRows o H r v rows = (rows, 0) := by
  induction rows with
  | nil => rfl
  | cons e rest ih =>
      obtain ⟨g, row⟩ := e
      by_cases hlt : g < H
      · have hres : o.resolves (row.cell r v) = true := hnext (g, row) (by simp [hlt])
        simp only [backfillRows, if_pos hlt, if_pos hres]
      · have hrest := ih fun e he => hnext e (by simpa [hlt] using he)
        simp only [backfillRows, if_neg hlt, hrest]

theorem marked_backfillRows_pos {rows : List (Nat × Row)} {e : Nat × Row}
    (hnext : rows.find? (·.1 < H) = some e) (hres : o.resolves (e.2.cell r v) = false) :
    0 < (backfillRows o H r v rows).2 := by
  induction rows with
  | nil => cases hnext
  | cons e' rest ih =>
      obtain ⟨g, row⟩ := e'
      by_cases hlt : g < H
      · obtain rfl : (g, row) = e := by simpa [hlt] using hnext
        simp only [backfillRows, if_pos hlt, hres, Bool.false_eq_true, if_false]
        omega
      · have hrest := ih (by simpa [hlt] using hnext)
        simpa only [backfillRows, if_neg hlt] using hrest

/-- Where the next row carries the observation, the walk changes nothing. -/
theorem Settled.backfill (hm : Settled o H r v m) : m.backfill o H r v = (m, 0) := by
  have hrows := backfillRows_of_find? (settled_iff_rows.mp hm)
  have hkept : (m.backfill o H r v).1 = m := eq_of_rows (by simp only [Matrix.backfill, hrows])
  have hcount : (m.backfill o H r v).2 = 0 := by simp only [Matrix.backfill, hrows]
  exact Prod.ext hkept hcount

/-- A walk marks no cell exactly if the next row carries the observation. -/
theorem marked_backfill_iff : (m.backfill o H r v).2 = 0 ↔ Settled o H r v m := by
  constructor
  · intro hzero
    rw [settled_iff_rows]
    intro e he
    by_contra hres
    have hpos := marked_backfillRows_pos he (Bool.eq_false_iff.mpr hres)
    exact absurd hzero (Nat.ne_of_gt hpos)
  · intro hm
    rw [hm.backfill]

/-! ### Writing what is there already -/

theorem alterRows_eq_self {rows : List (Nat × Row)} (hd : Descending rows) {F : Row → Row}
    {row : Row} (hrow : (h, row) ∈ rows) (hF : F row = row) : alterRows h F rows = rows := by
  induction rows with
  | nil => cases hrow
  | cons e rest ih =>
      obtain ⟨g, x⟩ := e
      obtain ⟨hbelow, hrest⟩ := List.pairwise_cons.mp hd
      rcases List.mem_cons.mp hrow with heq | hrow
      · obtain ⟨rfl, rfl⟩ := Prod.mk.inj heq
        simp [alterRows, hF]
      · have hlt : h < g := hbelow _ hrow
        simp only [alterRows, if_neg (Nat.lt_asymm hlt), if_neg (Nat.ne_of_gt hlt), ih hrest hrow]

theorem alterCell_eq_self {c : Cell} (hc : m.cell? h r v = some c) (hf : f c = c) :
    m.alterCell h r v f = m := by
  obtain ⟨row, hrow, hcell⟩ := Option.bind_eq_some_iff.mp hc
  exact eq_of_rows (alterRows_eq_self m.descending (row?_eq_some_iff.mp hrow)
    (Row.alter_eq_self hcell hf))

theorem settled_alterCell_iff : Settled o H r v (m.alterCell H r v f) ↔ Settled o H r v m := by
  have hnext : ((m.alterCell H r v f).below H).head? = (m.below H).head? := by
    refine Option.ext fun g => ?_
    rw [head?_below_eq_some_iff, head?_below_eq_some_iff]
    simp only [mem_heights_alterCell]
    have hne : ∀ q, q < H → (q = H ∨ q ∈ m.heights ↔ q ∈ m.heights) :=
      fun q hq => or_iff_right (Nat.ne_of_lt hq)
    grind
  rw [Settled, Settled, hnext]
  refine forall₂_congr fun g hg => ?_
  have hlt : g < H := (head?_below_eq_some_iff.mp hg).1.2
  rw [cell, cell?_alterCell_ne m f fun h => Nat.ne_of_lt hlt h.1, cell]

/-! ### Recording again -/

theorem Settled.recordBy (hm : Settled (s.observation b) s.height s.reporter s.voter m) :
    m.recordBy Matrix.backfill b s = (m.alterCell s.height s.reporter s.voter s.see, 0) :=
  (settled_alterCell_iff.mpr hm).backfill

theorem marked_recordBy_iff : (m.recordBy Matrix.backfill b s).2 = 0 ↔
    Settled (s.observation b) s.height s.reporter s.voter m := by
  rw [recordBy, marked_backfill_iff, settled_alterCell_iff]

/-- After a sighting the next row below it carries the observation: it was marked, or else it has
stopped the walk. -/
theorem settled_record (b : Bool) (s : Sighting) (m : Matrix) :
    Settled (s.observation b) s.height s.reporter s.voter (m.record b s) := by
  intro g hg
  obtain ⟨⟨hmem, hlt⟩, hfirst⟩ := head?_below_eq_some_iff.mp hg
  have hgm : g ∈ m.heights := (mem_heights_record.mp hmem).resolve_left (Nat.ne_of_lt hlt)
  by_cases hi : Implied b s m g
  · rw [cell_eq_of_cell? (cell?_record_of_implied hi)]
    exact Observation.resolves_mark _ _ _ _
  · obtain ⟨q, hq, hle, hqH, hres⟩ := exists_resolves_of_not_implied hgm hlt hi
    obtain rfl : g = q := Nat.le_antisymm hle (hfirst q (mem_heights_record.mpr (Or.inr hq)) hqH)
    rw [cell, cell?_record_of_not_implied (Nat.ne_of_lt hlt) hi]
    exact hres

theorem Settled.front (hf : Front k m) (hm : Settled o H r v m) : Settled o H r v k := by
  intro g hg
  obtain ⟨⟨hmem, hlt⟩, hfirst⟩ := head?_below_eq_some_iff.mp hg
  have hnext : (m.below H).head? = some g := by
    refine head?_below_eq_some_iff.mpr ⟨⟨hf.mem hmem, hlt⟩, fun q hq hqH => ?_⟩
    by_contra hgq
    have hqk : q ∈ k.heights := hf.mem_of_lt hmem hq (Nat.lt_of_not_le hgq)
    exact hgq (hfirst q hqk hqH)
  rw [hf.cell hmem]
  exact hm g hnext

/-- Recording a sighting twice is recording it once. -/
theorem record_record (b : Bool) (s : Sighting) (m : Matrix) :
    (m.record b s).record b s = m.record b s := by
  have hsecond := (settled_record b s m).recordBy
  calc (m.record b s).record b s
      = (m.record b s).alterCell s.height s.reporter s.voter s.see := congrArg Prod.fst hsecond
    _ = m.record b s := alterCell_eq_self cell?_record_self (s.see_see _)

end Matrix

namespace Tracker

open Finality.Matrix (Settled)

variable {cfg : Config} {t : Tracker} {c : Call} {s : Sighting}

theorem marked_step (hs : Sighting.ofCall? c = some s) (ha : t.Admits cfg s) :
    (t.step cfg c).2.marked =
      (t.matrix.recordBy Matrix.backfill cfg.precommitImpliesPrevote s).2 := by
  have hfresh : cfg.isStale t.best s.height = false := ha
  rw [← stepBy_backfill]
  simp only [stepBy, hs, hfresh, Bool.false_eq_true, if_false]
  cases s <;> rfl

theorem marked_step_of_not_admits (hs : Sighting.ofCall? c = some s) (ha : ¬t.Admits cfg s) :
    (t.step cfg c).2.marked = 0 := by
  have hstale : cfg.isStale t.best s.height = true := by simpa [Admits] using ha
  rw [← stepBy_backfill]
  simp only [stepBy, hs, hstale, if_true]
  rfl

theorem marked_step_of_none (hs : Sighting.ofCall? c = none) (t : Tracker) :
    (t.step cfg c).2.marked = 0 := by
  cases c with
  | vote => cases hs
  | finalized => cases hs
  | bestBlock h => rfl
  | reset => rfl
  | authoritySet id members =>
      simp only [step]
      split <;> rfl

theorem observe_observe (cfg : Config) (t : Tracker) (s : Sighting) :
    (t.observe cfg s).observe cfg s = t.observe cfg s := by
  have hkept : (t.observe cfg s).matrix.rows =
      keepFirst cfg.maxHeights (t.matrix.record cfg.precommitImpliesPrevote s).rows :=
    rows_retain cfg _
  have hrows : ((t.observe cfg s).observe cfg s).matrix.rows = (t.observe cfg s).matrix.rows := by
    calc ((t.observe cfg s).observe cfg s).matrix.rows
        = keepFirst cfg.maxHeights
            ((t.observe cfg s).matrix.record cfg.precommitImpliesPrevote s).rows :=
          rows_retain cfg _
      _ = keepFirst cfg.maxHeights
            ((t.matrix.record cfg.precommitImpliesPrevote s).record
              cfg.precommitImpliesPrevote s).rows := Matrix.keepFirst_rows_record hkept _ s
      _ = (t.observe cfg s).matrix.rows := by rw [Matrix.record_record, hkept]
  have hmatrix := Matrix.eq_of_rows hrows
  calc (t.observe cfg s).observe cfg s
      = { t.observe cfg s with matrix := ((t.observe cfg s).observe cfg s).matrix } := rfl
    _ = t.observe cfg s := by rw [hmatrix]

theorem marked_step_observe (hs : Sighting.ofCall? c = some s) (ha : t.Admits cfg s) :
    ((t.observe cfg s).step cfg c).2.marked = 0 := by
  have ha' : (t.observe cfg s).Admits cfg s := ha
  rw [marked_step hs ha', Matrix.marked_recordBy_iff]
  exact (Matrix.settled_record _ s t.matrix).front (front_observe cfg t s)

/-- **A repeated call changes nothing.**  In whatever state a call comes in, a second time in a row
it leaves everything as it is after the first: the rows, the cells with their order and all their
fields, the best block, the authority set and the display.  No vote or finalization marks a cell the
second time. -/
theorem apply_apply_eq (cfg : Config) (t : Tracker) (c : Call) :
    (t.apply cfg c).apply cfg c = t.apply cfg c ∧ ((t.apply cfg c).step cfg c).2.marked = 0 := by
  cases hs : Sighting.ofCall? c with
  | some s =>
      by_cases ha : t.Admits cfg s
      · have ha' : (t.observe cfg s).Admits cfg s := ha
        rw [apply_of_admits hs ha, apply_of_admits hs ha', observe_observe]
        exact ⟨rfl, marked_step_observe hs ha⟩
      · rw [apply_of_not_admits hs ha, apply_of_not_admits hs ha]
        exact ⟨rfl, marked_step_of_not_admits hs ha⟩
  | none =>
      refine ⟨?_, marked_step_of_none hs _⟩
      cases c with
      | vote => cases hs
      | finalized => cases hs
      | bestBlock h => rfl
      | reset => rfl
      | authoritySet id members =>
          -- by now the announced set is the current one
          have hid : (t.apply cfg (.authoritySet id members)).authority.setId = some id := by
            by_cases hid : t.authority.setId = some id
            · rw [apply_setKept hid, hid]
            · rw [apply_setChanged hid, adopt]
          exact apply_setKept hid

end Tracker

end Finality
