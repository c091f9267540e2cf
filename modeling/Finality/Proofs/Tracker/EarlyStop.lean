import Finality.Proofs.Tracker.Completeness

/-! # The early stop

A walk stops at the first row that carries the observation already.  The plain walk does not: it
comes by every row below the source, marks the rows that lack the observation and skips the others
(`Matrix.sweep`).  Where what is known at a row is known at all rows below, nothing is left to mark
behind the stop, and the two walks do the same (`Closed.recordBy_sweep`).

So the early stop is an optimisation that nobody can observe, as long as rows are only opened on
top: run with either walk, a tracker goes through the same states, row by row and cell by cell, and
reports the same numbers of marked cells (`steps_sweep_eq_steps`). -/

namespace Finality

namespace Matrix

/-- A way to propagate an observation of a pair from a height downward; also counts the marked
cells. -/
abbrev Walk := Observation → Nat → Address → Address → Matrix → Matrix × Nat

section sweep
variable (o : Observation) (source : Nat) (r v : Address)

/-- A row below the source lacks the observation. -/
def pending (e : Nat × Row) : Bool := e.1 < source && !o.resolves (e.2.cell r v)

/-- Marks a row that lacks the observation. -/
def markPending (e : Nat × Row) : Nat × Row :=
  if pending o source r v e then (e.1, e.2.alter r v (o.mark source e.1)) else e

theorem markPending_fst (e : Nat × Row) : (markPending o source r v e).1 = e.1 := by
  unfold markPending
  split <;> rfl

/-- The plain walk decides about every row on its own. -/
def sweep (m : Matrix) : Matrix × Nat :=
  ({ rows := m.rows.map (markPending o source r v)
     descending := by
      refine List.pairwise_map.mpr (m.descending.imp fun hlt => ?_)
      simpa only [markPending_fst] using hlt },
   m.rows.countP (pending o source r v))

end sweep

variable {o : Observation} {source : Nat} {r v : Address} {m : Matrix} {s : Sighting}

/-- Behind a row that carries the observation the plain walk finds nothing to do, if all rows below
carry it as well. -/
theorem not_pending_of_resolves (source : Nat) {rows : List (Nat × Row)}
    (hrows : ∀ e ∈ rows, o.resolves (e.2.cell r v) = true) :
    rows.map (markPending o source r v) = rows ∧ rows.countP (pending o source r v) = 0 := by
  have hnone : ∀ e ∈ rows, pending o source r v e = false := by
    intro e he
    simp [pending, hrows e he]
  constructor
  · calc rows.map (markPending o source r v) = rows.map id :=
          List.map_congr_left fun e he => by simp [markPending, hnone e he]
      _ = rows := List.map_id rows
  · rw [List.countP_eq_zero]
    intro e he
    simp [hnone e he]

/-- The walk that stops does the same as the plain one if each row that stops it speaks for the rows
below. -/
theorem backfillRows_eq_sweep {rows : List (Nat × Row)}
    (hdown : rows.Pairwise fun e e' => e.1 < source →
      o.resolves (e.2.cell r v) = true → o.resolves (e'.2.cell r v) = true) :
    backfillRows o source r v rows =
      (rows.map (markPending o source r v), rows.countP (pending o source r v)) := by
  induction rows with
  | nil => rfl
  | cons e rest ih =>
      obtain ⟨g, row⟩ := e
      obtain ⟨hhead, hrest⟩ := List.pairwise_cons.mp hdown
      have ih := ih hrest
      simp only [backfillRows, ih, List.map_cons, List.countP_cons]
      by_cases hlt : g < source
      · by_cases hres : o.resolves (row.cell r v) = true
        · obtain ⟨hmap, hcount⟩ :=
            not_pending_of_resolves source (fun e he => hhead e he hlt hres)
          simp [hlt, hres, hmap, hcount, markPending, pending]
        · simp [hlt, hres, markPending, pending]
      · simp [hlt, markPending, pending]

/-! ### Recording with either walk -/

/-- Records a sighting with a walk; also counts the cells that it implies. -/
def recordBy (walk : Walk) (b : Bool) (s : Sighting) (m : Matrix) : Matrix × Nat :=
  walk (s.observation b) s.height s.reporter s.voter (m.alterCell s.height s.reporter s.voter s.see)

theorem Closed.resolves_down (hm : Closed m) {g h : Nat} (hg : g ∈ m.heights) (hh : h ∈ m.heights)
    (hgh : g ≤ h) (hres : o.resolves (m.cell h r v) = true) : o.resolves (m.cell g r v) = true := by
  cases o with
  | vote w => exact hm.down (f := .vote w) hg hh hgh hres
  | finalization => exact hm.down (f := .finalization) hg hh hgh hres
  | precommitAndPrevote =>
      obtain ⟨hprecommit, hprevote⟩ := Bool.and_eq_true_iff.mp hres
      exact Bool.and_eq_true_iff.mpr ⟨hm.down (f := .vote .precommit) hg hh hgh hprecommit,
        hm.down (f := .vote .prevote) hg hh hgh hprevote⟩

/-- Writing at a height leaves the other rows as they are. -/
theorem cell_of_mem_rows_alterCell {h : Nat} {f : Cell → Cell} {e : Nat × Row}
    (he : e ∈ (m.alterCell h r v f).rows) (hne : e.1 ≠ h) :
    e.1 ∈ m.heights ∧ e.2.cell r v = m.cell e.1 r v := by
  have hrow : m.row? e.1 = some e.2 := by
    rw [← row?_alter_ne m hne]
    exact row?_eq_some_iff.mpr he
  exact ⟨mem_heights_iff.mpr ⟨e.2, hrow⟩, (cell_of_row? hrow).symm⟩

/-- When a sighting has been written into a closed matrix, each row below it that carries the
observation speaks for the rows below. -/
theorem Closed.pairwise_rows_alterCell (hm : Closed m) (o : Observation) (h : Nat) (r v : Address)
    (f : Cell → Cell) : (m.alterCell h r v f).rows.Pairwise fun e e' => e.1 < h →
      o.resolves (e.2.cell r v) = true → o.resolves (e'.2.cell r v) = true := by
  refine (m.alterCell h r v f).descending.imp_of_mem ?_
  intro e e' he he' hlt hh hres
  obtain ⟨hmem, hcell⟩ := cell_of_mem_rows_alterCell he (Nat.ne_of_lt hh)
  obtain ⟨hmem', hcell'⟩ := cell_of_mem_rows_alterCell he' (Nat.ne_of_lt (Nat.lt_trans hlt hh))
  rw [hcell] at hres
  rw [hcell']
  exact hm.resolves_down hmem' hmem (Nat.le_of_lt hlt) hres

/-- In a closed matrix the two walks record the same. -/
theorem Closed.recordBy_sweep (hm : Closed m) (b : Bool) (s : Sighting) :
    m.recordBy sweep b s = m.recordBy backfill b s := by
  have hdown := hm.pairwise_rows_alterCell (s.observation b) s.height s.reporter s.voter s.see
  have heq := backfillRows_eq_sweep hdown
  unfold recordBy sweep backfill
  simp only [heq]

end Matrix

namespace Tracker

open Finality.Matrix (Walk Closed Explained)

variable {cfg : Config} {t : Tracker} {c : Call}

/-- What a sighting that was recorded did. -/
def effectOf (s : Sighting) (trace : Trace) : Effect :=
  match s with
  | .vote v _ _ _ => .voted v trace
  | .finalization _ _ _ => .finalized trace

/-- Applies a call, where sightings are propagated by a walk. -/
def stepBy (walk : Walk) (cfg : Config) (t : Tracker) (c : Call) : Tracker × Effect :=
  match Sighting.ofCall? c with
  | none => t.step cfg c
  | some s =>
    if cfg.isStale t.best s.height then (t, .stale s.height (t.best.getD 0))
    else
      let (m, marked) := t.matrix.recordBy walk cfg.precommitImpliesPrevote s
      let (t, pruned) := t.settle cfg m
      (t, effectOf s { reporter := s.reporter, voter := s.voter, height := s.height, marked, pruned,
                       size := t.matrix.size })

theorem stepBy_backfill (cfg : Config) (t : Tracker) (c : Call) :
    t.stepBy Matrix.backfill cfg c = t.step cfg c := by
  cases c <;> rfl

theorem stepBy_sweep (ht : Closed t.matrix) (cfg : Config) (c : Call) :
    t.stepBy Matrix.sweep cfg c = t.step cfg c := by
  rw [← stepBy_backfill]
  unfold stepBy
  cases Sighting.ofCall? c with
  | none => rfl
  | some s => simp only [ht.recordBy_sweep]

/-- States and effects of a run, call by call. -/
def steps (step : Tracker → Call → Tracker × Effect) : Tracker → List Call → List (Tracker × Effect)
  | _, [] => []
  | t, c :: cs => step t c :: steps step (step t c).1 cs

theorem steps_sweep_of_explained {cs : List Call} {past : List Sighting}
    (ht : Explained cfg.precommitImpliesPrevote past t.matrix) (hup : GrowsUpward cfg t cs) :
    steps (stepBy Matrix.sweep cfg) t cs = steps (step cfg) t cs := by
  induction cs generalizing t past with
  | nil => rfl
  | cons c cs ih =>
      obtain ⟨htop, hrest⟩ := hup
      have hnext : Explained cfg.precommitImpliesPrevote (t.note cfg past c)
          (t.apply cfg c).matrix := ht.apply htop
      simp only [steps, stepBy_sweep ht.closed]
      rw [List.cons_inj_right]
      exact ih hnext hrest

/-- **The early stop cannot be observed.**  In a run that grows upward, the walk that stops and the
plain walk lead after every call to the same state, with the same rows and the same cells in the
same order, and to the same effect, with the same number of marked cells. -/
theorem steps_sweep_eq_steps (cfg : Config) (cs : List Call) (hup : GrowsUpward cfg fresh cs) :
    steps (stepBy Matrix.sweep cfg) fresh cs = steps (step cfg) fresh cs :=
  steps_sweep_of_explained (Explained.empty _) hup

/-- The prevote at 7 marks row 5, which `B` has opened, and stops at row 3; the finalization marks
three rows. -/
theorem steps_sweep_eq_steps_standard :
    let cs : List Call := [.vote .prevote "A" 3 "0x" "V", .vote .prevote "B" 5 "0x" "V",
      .vote .prevote "A" 7 "0x" "V", .finalized "V" 9 "0x09"]
    let plain := steps (stepBy Matrix.sweep .standard) fresh cs
    GrowsUpward .standard fresh cs ∧
      (plain[2]?.map (·.2)) = some (.voted .prevote
        { reporter := "A", voter := "V", height := 7, marked := 1, pruned := 0, size := 3 }) ∧
      (plain[3]?.map (·.2)) = some (.finalized
        { reporter := "V", voter := "V", height := 9, marked := 3, pruned := 0, size := 4 }) := by
  intro cs plain
  have hup : GrowsUpward .standard fresh cs := by decide
  have hplain : plain = steps (step .standard) fresh cs := steps_sweep_eq_steps .standard cs hup
  rw [hplain]
  exact ⟨hup, by decide, by decide⟩

/-- The late row is marked by the plain walk only. -/
example :
    steps (stepBy Matrix.sweep .standard) fresh (lateRow ++ [.vote .prevote "A" 12 "0x" "V"]) ≠
      steps (step .standard) fresh (lateRow ++ [.vote .prevote "A" 12 "0x" "V"]) := by decide

end Tracker

end Finality
