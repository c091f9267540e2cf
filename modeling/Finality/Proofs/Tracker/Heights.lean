import Finality.Proofs.Matrix.Map
import Finality.Proofs.Tracker.Rows

/-! # Which heights are kept

The rows of a tracker come and go: a sighting opens a row, the bound drops the oldest one, and a
late sighting may open a row that is dropped in the same call.  Over a whole run this amounts to a
plain law.  The heights of the rows are the greatest of all heights that were applied since the
matrix was last emptied, as many as the bound allows (`heights_run`).

A height is among the greatest exactly if fewer heights than the bound lie above it
(`mem_greatest_iff`).  More heights only make that harder (`greatest_of_subset`), which is why a row
that is gone stays away. -/

namespace Finality

/-! ### The greatest numbers of a set -/

section greatest

open Finality.Tracker (keepFirst)

variable {bound : Option Nat} {hs hs' : Finset Nat} {h : Nat}

/-- The greatest numbers of a set, greatest first: all of them, or as many as a bound allows. -/
def greatest (bound : Option Nat) (hs : Finset Nat) : List Nat :=
  keepFirst bound (hs.sort (· ≥ ·))

theorem mem_greatest_iff :
    h ∈ greatest bound hs ↔ h ∈ hs ∧ ∀ n ∈ bound, (hs.filter (h < ·)).card < n := by
  cases bound with
  | none => simp [greatest, keepFirst]
  | some n =>
      have hl : (hs.sort (· ≥ ·)).Pairwise fun a b => b < a := (Finset.sortedGT_sort hs).pairwise
      rw [card_filter_eq_countP, greatest, keepFirst, mem_take_iff_countP hl, Finset.mem_sort]
      simp

/-- What is not among the greatest of a set is not among the greatest of a larger set. -/
theorem greatest_of_subset (hsub : hs ⊆ hs') (hh : h ∈ hs) (hg : h ∈ greatest bound hs') :
    h ∈ greatest bound hs := by
  rw [mem_greatest_iff] at hg ⊢
  refine ⟨hh, fun n hn => ?_⟩
  have hle := Finset.card_le_card (Finset.filter_subset_filter (h < ·) hsub)
  exact Nat.lt_of_le_of_lt hle (hg.2 n hn)

end greatest

/-! ### Heights of a history -/

namespace Matrix

theorem heights_recordAll (b : Bool) (past : List Sighting) :
    (Matrix.empty.recordAll b past).heights =
      ((past.map Sighting.height).toFinset).sort (· ≥ ·) := by
  refine eq_sort_of_mem_iff (Matrix.empty.recordAll b past).heights_descending fun h => ?_
  simp [mem_heights_recordAll]

end Matrix

namespace Tracker

/-- Heights that were applied since the matrix was last emptied. -/
def appliedHeights (cfg : Config) (cs : List Call) : Finset Nat :=
  ((applied cfg cs).map Sighting.height).toFinset

theorem heights_run (cfg : Config) (cs : List Call) :
    (run cfg fresh cs).matrix.heights = greatest cfg.maxHeights (appliedHeights cfg cs) := by
  rw [Matrix.heights, rows_run, map_keepFirst, greatest, appliedHeights,
    ← Matrix.heights_recordAll cfg.precommitImpliesPrevote]
  rfl

theorem appliedHeights_subset_append {cfg : Config} {cs more : List Call}
    (hmore : NeverEmptied cfg (run cfg fresh cs) more) :
    appliedHeights cfg cs ⊆ appliedHeights cfg (cs ++ more) := by
  have hpast : applied cfg cs <+: applied cfg (cs ++ more) := by
    rw [applied, applied, appliedFrom_append]
    exact prefix_appliedFrom _ hmore
  intro h hh
  rw [appliedHeights, List.mem_toFinset] at hh ⊢
  exact (hpast.map Sighting.height).subset hh

theorem highest_run {cfg : Config} {cs : List Call} {h : Nat} (hh : h ∈ appliedHeights cfg cs)
    (hmax : ∀ g ∈ appliedHeights cfg cs, g ≤ h) : (run cfg fresh cs).matrix.highest = some h := by
  have hnone : (appliedHeights cfg cs).filter (h < ·) = ∅ := by
    rw [Finset.filter_eq_empty_iff]
    exact fun g hg => Nat.not_lt.mpr (hmax g hg)
  have hkept : h ∈ (run cfg fresh cs).matrix.heights := by
    rw [heights_run, mem_greatest_iff, hnone]
    exact ⟨hh, fun n hn => cfg.maxHeights_pos n hn⟩
  refine Matrix.highest_eq_some_iff.mpr ⟨hkept, fun g hg => ?_⟩
  rw [heights_run, mem_greatest_iff] at hg
  exact hmax g hg.1

/-- A call gives a row to no height but that of its own sighting. -/
theorem mem_heights_of_mem_apply {cfg : Config} {t : Tracker} {c : Call} {h : Nat}
    (hh : h ∈ (t.apply cfg c).matrix.heights) :
    h ∈ t.matrix.heights ∨ ∃ s, Sighting.ofCall? c = some s ∧ t.Admits cfg s ∧ h = s.height := by
  generalize ht' : t.apply cfg c = t' at hh
  have hm : Moves cfg t c t' := ht' ▸ moves_apply cfg t c
  cases hm with
  | stale => exact Or.inl hh
  | observed hs ha =>
      rcases Matrix.mem_heights_record.mp ((front_observe cfg t _).mem hh) with rfl | hh
      · exact Or.inr ⟨_, hs, ha, rfl⟩
      · exact Or.inl hh
  | setKept => exact Or.inl hh
  | setChanged => exact absurd hh List.not_mem_nil
  | bestSet => exact Or.inl hh
  | forgot => exact absurd hh List.not_mem_nil

/-- **The kept heights over a run.**  After every run the heights strictly descend, and they are the
greatest of the heights that were applied since the matrix was last emptied, as many as the bound
allows.  In particular:

* a walk adds no height, and a call none but that of its own sighting;
* the highest applied height is always kept, on top;
* an applied height that has lost its row has none again before the matrix is emptied. -/
theorem heights_eq_greatest_applied (cfg : Config) (cs : List Call) :
    let t := run cfg fresh cs
    t.matrix.heights.Pairwise (fun a b => b < a) ∧
    t.matrix.heights = greatest cfg.maxHeights (appliedHeights cfg cs) ∧
    (∀ (m : Matrix) o source r v, (m.backfill o source r v).1.heights = m.heights) ∧
    (∀ c, ∀ h ∈ (t.apply cfg c).matrix.heights, h ∈ t.matrix.heights ∨
      ∃ s, Sighting.ofCall? c = some s ∧ t.Admits cfg s ∧ h = s.height) ∧
    (∀ h ∈ appliedHeights cfg cs, (∀ g ∈ appliedHeights cfg cs, g ≤ h) →
      t.matrix.highest = some h) ∧
    (∀ h ∈ appliedHeights cfg cs, h ∉ t.matrix.heights → ∀ more, NeverEmptied cfg t more →
      h ∉ (run cfg t more).matrix.heights) := by
  intro t
  refine ⟨t.matrix.heights_descending, heights_run cfg cs, ?_, ?_, ?_, ?_⟩
  · exact fun m o source r v => Matrix.heights_backfill o source r v m
  · exact fun c h hh => mem_heights_of_mem_apply hh
  · exact fun h hh hmax => highest_run hh hmax
  · intro h hh hgone more hmore hback
    rw [← run_append, heights_run] at hback
    refine hgone ?_
    rw [heights_run]
    exact greatest_of_subset (appliedHeights_subset_append hmore) hh hback

/-- Row 5 is dropped for row 9, row 5 comes and goes in one call, and the announced set is not a new
one: height 9 stays on top, and height 5 stays away. -/
theorem heights_eq_greatest_applied_twoRows :
    let cs : List Call := [.authoritySet 1 ["V"], .vote .prevote "A" 5 "0x" "V",
      .vote .prevote "B" 7 "0x" "V", .finalized "V" 9 "0x"]
    let more : List Call := [.authoritySet 1 ["V"], .vote .precommit "A" 5 "0x" "V",
      .vote .precommit "A" 8 "0x" "V"]
    (run twoRows fresh cs).matrix.highest = some 9 ∧
      5 ∉ (run twoRows (run twoRows fresh cs) more).matrix.heights := by
  intro cs more
  obtain ⟨-, -, -, -, htop, hgone⟩ := heights_eq_greatest_applied twoRows cs
  exact ⟨htop 9 (by decide) (by decide), hgone 5 (by decide) (by decide) more (by decide)⟩

end Tracker

end Finality
