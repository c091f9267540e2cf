import Mathlib.Data.List.Induction
import Finality.Proofs.Tracker.History
import Finality.Proofs.Tracker.Retention

/-! # The rows of a history

`Matrix.recordAll b past m` records the sightings of a history in a matrix one after the other and
drops no row.  A tracker starts from the matrix without rows, drops rows after every single sighting,
and records the next one in what is left.  The rows that it ends up with are nevertheless the newest
rows of what its whole history records (`rows_run`), because recording commutes with keeping the
newest rows.

So what a tracker holds is a function of the sightings that it applied.  A statement about the
cells of a reachable matrix follows from one about `recordAll` (`front_run`), where no row is ever
lost and the induction is on the history alone. -/

namespace Finality

namespace Matrix

open Finality.Tracker (keepFirst)

variable {b : Bool} {past : List Sighting} {m : Matrix} {h : Nat}

/-- Records sightings one after the other and drops no row. -/
def recordAll (b : Bool) (past : List Sighting) (m : Matrix) : Matrix :=
  past.foldl (fun m s => m.record b s) m

@[simp] theorem recordAll_nil (b : Bool) (m : Matrix) : m.recordAll b [] = m := rfl

@[simp] theorem recordAll_concat (b : Bool) (past : List Sighting) (s : Sighting) (m : Matrix) :
    m.recordAll b (past ++ [s]) = (m.recordAll b past).record b s := by
  simp [recordAll]

/-- There is a row for every height that was sighted, besides the rows at the start. -/
theorem mem_heights_recordAll :
    h ∈ (m.recordAll b past).heights ↔ (∃ s ∈ past, s.height = h) ∨ h ∈ m.heights := by
  induction past using List.reverseRecOn with
  | nil => simp
  | append_singleton past s ih =>
      rw [recordAll_concat, mem_heights_record, ih, or_left_comm, ← or_assoc]
      simp [or_and_right, exists_or, eq_comm, or_comm]

theorem keepFirst_rows_record {k m : Matrix} {bound : Option Nat}
    (hk : k.rows = keepFirst bound m.rows) (b : Bool) (s : Sighting) :
    keepFirst bound (k.record b s).rows = keepFirst bound (m.record b s).rows := by
  cases bound with
  | none =>
      have hrows : k.rows = m.rows := hk
      show (k.record b s).rows = (m.record b s).rows
      rw [rows_record, rows_record, hrows]
  | some n => exact take_rows_record hk b s

end Matrix

namespace Tracker

open Finality.Matrix (Front)

/-- **A run keeps the newest rows of its history.** -/
theorem rows_run (cfg : Config) (cs : List Call) :
    (run cfg fresh cs).matrix.rows =
      keepFirst cfg.maxHeights
        (Matrix.empty.recordAll cfg.precommitImpliesPrevote (applied cfg cs)).rows := by
  have hempty : Matrix.empty.rows =
      keepFirst cfg.maxHeights (Matrix.empty.recordAll cfg.precommitImpliesPrevote []).rows := by
    cases cfg.maxHeights with
    | none => rfl
    | some n => exact List.take_nil.symm
  refine applied_induction
    (P := fun past m => m.rows =
      keepFirst cfg.maxHeights (Matrix.empty.recordAll cfg.precommitImpliesPrevote past).rows)
    hempty (fun past m s hm => ?_) cs fresh [] hempty
  rw [rows_retain, Matrix.recordAll_concat]
  exact Matrix.keepFirst_rows_record hm _ s

theorem front_run (cfg : Config) (cs : List Call) :
    Front (run cfg fresh cs).matrix
      (Matrix.empty.recordAll cfg.precommitImpliesPrevote (applied cfg cs)) := by
  rw [Front, rows_run]
  exact keepFirst_prefix _ _

end Tracker

end Finality
