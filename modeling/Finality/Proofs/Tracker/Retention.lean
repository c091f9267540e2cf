import Finality.Proofs.Tracker.Parallel

/-! # Retention

A tracker with a bound `n` on its rows is compared with one without, on the same calls.
`Keeps n b u` says that `b` holds the newest `n` rows of `u`, cell for cell and in the same order,
and agrees with it on everything else; every call keeps this relation (`Keeps.apply`).

Both writing a row and backfilling go from the newest row downward and decide about a row from the
rows above it only.  So they commute with cutting the rows off at the bottom (`take_alterRows`,
`take_backfillRows`): the walk of the bounded tracker is a front part of the other's walk, and a
sighting below all kept rows is written and dropped again without a trace. -/

namespace Finality

namespace Matrix

variable {o : Observation} {H : Nat} {r v : Address}

/-! ### Cutting rows off at the bottom -/

/-- What writing a row does to the newest rows depends on the newest rows only. -/
theorem take_alterRows (h : Nat) (f : Row → Row) (rows : List (Nat × Row)) (n : Nat) :
    (alterRows h f (rows.take n)).take n = (alterRows h f rows).take n := by
  induction rows generalizing n with
  | nil => rw [List.take_nil]
  | cons e rest ih =>
      obtain ⟨g, x⟩ := e
      cases n with
      | zero => rw [List.take_zero, List.take_zero]
      | succ n =>
          rw [List.take_succ_cons]
          simp only [alterRows]
          split
          · -- the new row pushes the last of the kept rows out
            show ((h, f {}) :: ((g, x) :: rest).take (n + 1)).take (n + 1) = _
            rw [List.take_succ_cons, List.take_take, Nat.min_eq_left (Nat.le_succ n),
              List.take_succ_cons]
          · split
            · rw [List.take_succ_cons, List.take_succ_cons, List.take_take, Nat.min_self]
            · rw [List.take_succ_cons, List.take_succ_cons, ih]

/-- A walk over the newest rows is the front part of the walk over all rows. -/
theorem take_backfillRows (rows : List (Nat × Row)) (n : Nat) :
    (backfillRows o H r v (rows.take n)).1 = (backfillRows o H r v rows).1.take n := by
  induction rows generalizing n with
  | nil => simp only [List.take_nil, backfillRows]
  | cons e rest ih =>
      obtain ⟨g, x⟩ := e
      cases n with
      | zero => rw [List.take_zero, List.take_zero]; rfl
      | succ n =>
          rw [List.take_succ_cons]
          simp only [backfillRows]
          split
          · split
            · rw [List.take_succ_cons]
            · rw [List.take_succ_cons, ih]
          · rw [List.take_succ_cons, ih]

theorem rows_record (b : Bool) (s : Sighting) (m : Matrix) :
    (m.record b s).rows =
      (backfillRows (s.observation b) s.height s.reporter s.voter
        (alterRows s.height (fun row => row.alter s.reporter s.voter s.see) m.rows)).1 := rfl

theorem take_rows_record {k m : Matrix} {n : Nat} (hk : k.rows = m.rows.take n) (b : Bool)
    (s : Sighting) : (k.record b s).rows.take n = (m.record b s).rows.take n := by
  rw [rows_record, rows_record, hk, ← take_backfillRows, ← take_backfillRows, take_alterRows]

end Matrix

theorem Config.pos_of_mem_none : ∀ n ∈ (none : Option Nat), 0 < n :=
  fun _ hn => absurd hn (Option.not_mem_none _)

/-- The same configuration without a bound on the rows. -/
def Config.unbounded (cfg : Config) : Config where
  maxHeights := none
  staleWindow := cfg.staleWindow
  precommitImpliesPrevote := cfg.precommitImpliesPrevote
  maxHeights_pos := pos_of_mem_none

namespace Tracker

variable {cfg : Config} {n : Nat} {b u : Tracker}

/-- `b` holds the newest `n` rows of `u` and agrees with it on all else. -/
structure Keeps (n : Nat) (b u : Tracker) : Prop where
  rows : b.matrix.rows = u.matrix.rows.take n
  best : b.best = u.best
  authority : b.authority = u.authority

namespace Keeps

theorem fresh (n : Nat) : Keeps n .fresh .fresh := ⟨List.take_nil.symm, rfl, rfl⟩

theorem apply (hn : cfg.maxHeights = some n) (hk : Keeps n b u) (c : Call) :
    Keeps n (b.apply cfg c) (u.apply cfg.unbounded c) := by
  have hp : Parallel (fun m k => m.rows = k.rows.take n) b u := ⟨hk.rows, hk.best, hk.authority⟩
  have hobserve : ∀ s ∈ Sighting.ofCall? c, b.Admits cfg s →
      (b.observe cfg s).matrix.rows = (u.observe cfg.unbounded s).matrix.rows.take n := by
    intro s _ _
    show (retain cfg _).1.rows = _
    rw [rows_retain, hn]
    exact Matrix.take_rows_record hk.rows _ s
  have hp' : Parallel (fun m k => m.rows = k.rows.take n) (b.apply cfg c)
      (u.apply cfg.unbounded c) := hp.apply rfl List.take_nil.symm hobserve
  exact ⟨hp'.matrix, hp'.best, hp'.authority⟩

theorem run (hn : cfg.maxHeights = some n) (cs : List Call) {b u : Tracker} (hk : Keeps n b u) :
    Keeps n (run cfg b cs) (run cfg.unbounded u cs) := by
  induction cs generalizing b u with
  | nil => exact hk
  | cons c cs ih => exact ih (hk.apply hn c)

end Keeps

/-- **Retention is unobservable on the rows it keeps.**  After every run a tracker with a bound
holds exactly the newest rows of the tracker without one, and the same best block and authority
set. -/
theorem rows_run_eq_take (cfg : Config) (n : Nat) (hn : cfg.maxHeights = some n) (cs : List Call) :
    (run cfg fresh cs).matrix.rows = (run cfg.unbounded fresh cs).matrix.rows.take n ∧
      (run cfg fresh cs).best = (run cfg.unbounded fresh cs).best ∧
      (run cfg fresh cs).authority = (run cfg.unbounded fresh cs).authority :=
  have hk := (Keeps.fresh n).run hn cs
  ⟨hk.rows, hk.best, hk.authority⟩

/-- Row 5 is dropped when row 9 is opened, and row 4 comes and goes in one call. -/
theorem rows_run_eq_take_twoRows :
    let cs : List Call := [.authoritySet 1 ["V"], .vote .precommit "A" 5 "0x" "V",
      .vote .prevote "B" 7 "0x" "V", .finalized "V" 7 "0x", .vote .precommit "A" 9 "0x" "V",
      .vote .prevote "A" 4 "0x" "V", .bestBlock 9]
    (run twoRows fresh cs).matrix.heights = [9, 7] ∧
      (run twoRows.unbounded fresh cs).matrix.heights = [9, 7, 5, 4] ∧
      (run twoRows fresh cs).matrix.rows = (run twoRows.unbounded fresh cs).matrix.rows.take 2 ∧
      (run twoRows fresh cs).best = (run twoRows.unbounded fresh cs).best ∧
      (run twoRows fresh cs).authority = (run twoRows.unbounded fresh cs).authority := by
  refine ⟨by decide, by decide, ?_⟩
  exact rows_run_eq_take twoRows 2 rfl _

end Tracker

end Finality
