import Finality.Proofs.Except
import Finality.Proofs.Matrix.Index
import Finality.Proofs.Matrix.Unique
import Finality.Proofs.Tracker.History
import Finality.Tracker.Capture

/-! # A snapshot can always be taken

Copying a cell by its fields yields the cell (`Cell.copy_eq`).  A row in which every position occurs
once is copied as it is (`Row.Unique.copy_eq`), and taken for itself when the copy is checked
(`Snapshot.checkRow_eq`).  Every reachable matrix has only such rows (`allUnique_run`).

So no step of `Tracker.capture` fails, and it comes to `Tracker.snapshot`.  What this snapshot says is
what the tracker says (`Snapshot.Copies`, `capture_run`). -/

namespace Finality

open Schema (Checked both checked elements entries found within)

/-! ### Copies -/

theorem Cell.ofJson_toJson (byAlias : Bool) (c : Cell) :
    Cell.ofJson (c.toJson byAlias) = .ok c := by
  obtain ⟨_, _, _, _, impliedBy, _, finalHash, finalHeight, _⟩ := c
  -- what a reader does with a field depends on whether it is present; the truth values only pass
  cases byAlias <;> cases impliedBy <;> cases finalHash <;> cases finalHeight <;> rfl

theorem Cell.copy_eq (c : Cell) : c.copy = .ok c := c.ofJson_toJson false

theorem Row.Unique.copy_eq {row : Row} (hrow : row.Unique) : row.copy = .ok row.reporters := by
  have hcell : ∀ v : Address × Cell,
      (do let c ← v.2.copy; pure (v.1, c) : Checked (Address × Cell)) = .ok v := by
    intro v
    rw [Cell.copy_eq]
    rfl
  have hreporter : ∀ e ∈ row.reporters,
      (do
        let voters ← e.2.mapM fun v => do
          let c ← v.2.copy
          pure (v.1, c)
        pure (e.1, Ordered.ofList voters) : Checked _) = .ok e := by
    intro e he
    rw [List.mapM_eq_pure_map (g := id) fun v _ => hcell v, List.map_id, pure_bind,
      Ordered.ofList_eq_self (hrow.voters e he)]
    rfl
  rw [Row.copy, List.mapM_eq_pure_map (g := id) hreporter, List.map_id, pure_bind,
    Ordered.ofList_eq_self hrow.reporters]
  rfl

/-! ### Checks -/

namespace Schema

variable {α β : Type}

theorem optionalInteger_ofOption (n : Option Int) : optionalInteger (.ofOption .int n) = .ok n := by
  cases n <;> rfl

theorem optionalHeight_ofOption (h : Option Nat) : optionalHeight (.ofOption .nat h) = .ok h := by
  cases h <;> rfl

theorem elements_map {check : β → Checked α} {g : α → β} {as : List α}
    (h : ∀ a ∈ as, check (g a) = .ok a) (i : Nat) : elements check i (as.map g) = .ok as := by
  induction as generalizing i with
  | nil => rfl
  | cons a as ih =>
      obtain ⟨ha, has⟩ := List.forall_mem_cons.mp h
      rw [List.map_cons, elements, ha, ih has]
      rfl

theorem entries_eq_ok {check : α → Checked α} {m : List (String × α)}
    (h : ∀ e ∈ m, check e.2 = .ok e.2) : entries check m = .ok m := by
  induction m with
  | nil => rfl
  | cons e m ih =>
      obtain ⟨ha, has⟩ := List.forall_mem_cons.mp h
      rw [entries, ha, ih has]
      rfl

end Schema

namespace Snapshot

theorem checkRow_eq {row : Row} (hrow : row.Unique) : checkRow row.reporters = .ok row := by
  have hvoters : ∀ e ∈ row.reporters,
      (entries (α := Cell) .ok e.2).map Ordered.ofList = .ok e.2 := by
    intro e he
    rw [Schema.entries_eq_ok fun _ _ => rfl, Except.map, Ordered.ofList_eq_self (hrow.voters e he)]
  rw [checkRow, Schema.entries_eq_ok hvoters, Except.map, Ordered.ofList_eq_self hrow.reporters]

theorem capture_eq {rows : List (Nat × Row)} (hrows : ∀ e ∈ rows, e.2.Unique)
    (authority : Authority) (best : Option Nat) :
    capture rows authority best = .ok {
      items := rows
      authoritySetId := authority.setId
      authorities := authority.members
      loading := authority.loading
      best } := by
  have hcopies : rows.mapM (fun r => do
      let reporters ← r.2.copy
      pure (Json.Value.nat r.1, reporters)) =
        (.ok (rows.map fun r => (Json.Value.nat r.1, r.2.reporters)) : Checked _) := by
    refine List.mapM_eq_pure_map fun e he => ?_
    rw [(hrows e he).copy_eq]
    rfl
  have hitems : elements checkItem 0 (rows.map fun r => (Json.Value.nat r.1, r.2.reporters)) =
      .ok rows := by
    refine Schema.elements_map (fun e he => ?_) 0
    rw [checkItem, checkRow_eq (hrows e he)]
    rfl
  have hauthorities : elements (fun v => checked (Schema.text v)) 0 (authority.members.map .text) =
      .ok authority.members := by
    refine Schema.elements_map (fun _ _ => ?_) 0
    rfl
  rw [capture, hcopies]
  simp only [bind, Except.bind, Arguments.check, hitems, hauthorities,
    Schema.optionalInteger_ofOption, Schema.optionalHeight_ofOption]
  rfl

end Snapshot

/-! ### What a snapshot holds -/

/-- Positions of the cells that a snapshot holds. -/
def Snapshot.positions (s : Snapshot) : List (Nat × Address × Address) :=
  s.items.flatMap fun item => item.2.cells.map fun c => (item.1, c.1, c.2.1)

/-- A snapshot says what a tracker says.  A cell is the one that is stored, or the empty one if none
is, also below zero. -/
structure Snapshot.Copies (s : Snapshot) (t : Tracker) : Prop where
  heights : s.heights = t.matrix.heights
  descending : s.heights.Pairwise fun a b => b < a
  stored : ∀ (h : Nat) r v c, t.matrix.cell? h r v = some c → s.cell h r v = c
  missing : ∀ (h : Int) r v, (∀ g : Nat, g = h → t.matrix.cell? g r v = none) → s.cell h r v = {}
  positions : s.positions = t.matrix.positions
  distinct : s.positions.Nodup
  mem_positions : ∀ h r v, (h, r, v) ∈ s.positions ↔ (t.matrix.cell? h r v).isSome
  authoritySetId : s.authoritySetId = t.authority.setId
  authorities : s.authorities = t.authority.members
  loading : s.loading = t.authority.loading
  best : s.best = t.best

namespace Tracker

open Finality.Matrix (AllUnique)

variable {t : Tracker} {h : Nat} {r v : Address}

theorem positions_snapshot (t : Tracker) : t.snapshot.positions = t.matrix.positions :=
  t.matrix.positions_eq.symm

/-- The search for a height comes to its row. -/
theorem find?_items (rows : List (Nat × Row)) (h : Nat) :
    rows.find? (fun item => (item.1 : Int) == h) = (rows.lookup h).map fun row => (h, row) := by
  induction rows with
  | nil => rfl
  | cons e rows ih =>
      obtain ⟨g, row⟩ := e
      rw [List.find?_cons, List.lookup_cons]
      by_cases hg : h = g
      · subst hg
        simp
      · have hne : ((g : Int) == h) = false := by
          rw [beq_eq_false_iff_ne]
          exact fun heq => hg (Int.ofNat_inj.mp heq).symm
        rw [hne, beq_false_of_ne hg]
        exact ih

theorem cell_snapshot (t : Tracker) (h : Nat) (r v : Address) :
    t.snapshot.cell h r v = t.matrix.cell h r v := by
  rw [Snapshot.cell, snapshot, find?_items, ← Matrix.row?]
  cases hrow : t.matrix.row? h with
  | none => rw [Matrix.cell, Matrix.cell?, hrow]; rfl
  | some row => rw [Matrix.cell_of_row? hrow]; rfl

/-- No height is below zero. -/
theorem cell_snapshot_neg (t : Tracker) {h : Int} (hneg : h < 0) (r v : Address) :
    t.snapshot.cell h r v = {} := by
  have hnone : t.snapshot.items.find? (fun item => (item.1 : Int) == h) = none := by
    refine List.find?_eq_none.mpr fun item _ => ?_
    rw [beq_iff_eq]
    omega
  rw [Snapshot.cell, hnone]

theorem capture_eq_snapshot (ht : t.matrix.AllUnique) : t.capture = .ok t.snapshot :=
  Snapshot.capture_eq ht t.authority t.best

theorem copies_snapshot (ht : t.matrix.AllUnique) : t.snapshot.Copies t where
  heights := rfl
  descending := t.matrix.heights_descending
  stored h r v c hc := by rw [cell_snapshot, Matrix.cell_eq_of_cell? hc]
  missing h r v hnone := by
    cases h with
    | ofNat g =>
        have hg : t.matrix.cell? g r v = none := hnone g rfl
        exact (cell_snapshot t g r v).trans (by rw [Matrix.cell, hg]; rfl)
    | negSucc n => exact cell_snapshot_neg t (Int.negSucc_lt_zero n) r v
  positions := positions_snapshot t
  distinct := positions_snapshot t ▸ ht.nodup_positions
  mem_positions h r v := by rw [positions_snapshot, ht.mem_positions_iff]
  authoritySetId := rfl
  authorities := rfl
  loading := rfl
  best := rfl

theorem allUnique_run (cfg : Config) (cs : List Call) : (run cfg fresh cs).matrix.AllUnique :=
  run_matrix_induction (fun _ he => absurd he List.not_mem_nil) (fun s _ hm => hm.record _ s)
    (fun _ _ hf hm => hm.front hf) cs (fun _ he => absurd he List.not_mem_nil)

/-- **A snapshot can always be taken, and it is a faithful copy.**  After every run nothing is wrong
with the arguments of a snapshot, and the snapshot says what the tracker says.  The same snapshot is
taken from a table of the rows and an index of their heights, and the table lacks none of them. -/
theorem capture_run (cfg : Config) (cs : List Call) :
    let t := run cfg fresh cs
    ∃ s, t.capture = .ok s ∧ s.Copies t ∧
      ∀ x : Indexed, x.Represents t.matrix → ∃ rows, x.rows? = some rows ∧
        Snapshot.capture rows t.authority t.best = .ok s := by
  intro t
  have ht : t.matrix.AllUnique := allUnique_run cfg cs
  refine ⟨t.snapshot, capture_eq_snapshot ht, copies_snapshot ht, fun x hx => ?_⟩
  exact ⟨t.matrix.rows, hx.rows?_eq, capture_eq_snapshot ht⟩

/-- Two reporters at height 7, one of them marked from height 9, in a chain without a set. -/
theorem capture_run_twoRows :
    let t := run twoRows fresh [.vote .prevote "A" 7 "0x" "V", .vote .prevote "B" 7 "0x" "W",
      .finalized "A" 9 "0x9", .vote .precommit "A" 9 "0x" "V", .bestBlock 10]
    let c : Cell :=
      { prevoted := true, impliedPrevote := true, impliedPrecommit := true, impliedBy := some 9 }
    ∃ s, t.capture = .ok s ∧ s.heights = [9, 7] ∧ s.cell 7 "A" "V" = c ∧ s.cell 7 "V" "A" = {} ∧
      s.cell (-7) "A" "V" = {} ∧ s.authoritySetId = none ∧ s.best = some 10 ∧
      s.positions = [(9, "A", "A"), (9, "A", "V"), (7, "A", "V"), (7, "A", "A"), (7, "B", "W")] := by
  intro t c
  obtain ⟨s, hcapture, hs, -⟩ := capture_run twoRows [.vote .prevote "A" 7 "0x" "V",
    .vote .prevote "B" 7 "0x" "W", .finalized "A" 9 "0x9", .vote .precommit "A" 9 "0x" "V",
    .bestBlock 10]
  refine ⟨s, hcapture, hs.heights.trans (by decide), hs.stored 7 "A" "V" c (by decide), ?_, ?_,
    hs.authoritySetId.trans (by decide), hs.best.trans (by decide), hs.positions.trans (by decide)⟩
  · refine hs.missing 7 "V" "A" fun g hg => ?_
    obtain rfl : g = 7 := Int.ofNat_inj.mp hg
    decide
  · refine hs.missing (-7) "A" "V" fun g hg => ?_
    omega

end Tracker

end Finality
