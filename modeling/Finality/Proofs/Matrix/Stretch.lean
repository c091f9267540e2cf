import Finality.Proofs.Matrix.Count
import Finality.Proofs.Matrix.Stepwise

/-! # The stretch that a backfill marks

The rows below a height stand in the order in which the walk from the height comes by them.  The
walk marks a front part of them, up to the first row whose cell of the pair carries the observation
already, a missing cell counting as an empty one.  `stop o H r v m` is the number of rows in this
part.

`Stretched o H r v m k n` says all that happens from `m` to `k`: `n` is that number, these rows hold
the mark in the cell of the pair, no other cell is changed or created, and no row is.  A backfill
does just that (`stretched_backfill`), also when it is done place by place on a table with an index, and
whatever was done to the matrix before (`stretched_walk`). -/

namespace Finality

/-- In a descending list, the entries in front of the first with a property are those from which
upward no entry has it. -/
theorem mem_take_findIdx_iff {l : List Nat} (hl : l.Pairwise fun a b => b < a) (p : Nat → Bool)
    {g : Nat} : g ∈ l.take (l.findIdx p) ↔ g ∈ l ∧ ∀ q ∈ l, g ≤ q → p q = false := by
  induction l with
  | nil => simp
  | cons a l ih =>
      obtain ⟨hbelow, hl⟩ := List.pairwise_cons.mp hl
      cases ha : p a with
      | true =>
          -- the head stops the search, and it lies above all others
          have hhead : g ∈ a :: l → g ≤ a := by
            intro hg
            rcases List.mem_cons.mp hg with rfl | hg
            · exact Nat.le_refl g
            · exact Nat.le_of_lt (hbelow g hg)
          refine iff_of_false (by simp [List.findIdx_cons, ha]) ?_
          rintro ⟨hg, hnone⟩
          have := hnone a List.mem_cons_self (hhead hg)
          rw [ha] at this
          cases this
      | false =>
          rw [List.findIdx_cons, ha, cond_false, List.take_succ_cons, List.mem_cons, List.mem_cons,
            ih hl, List.forall_mem_cons]
          constructor
          · rintro (rfl | ⟨hg, hnone⟩)
            · refine ⟨Or.inl rfl, fun _ => ha, fun q hq hle => ?_⟩
              exact absurd (hbelow q hq) (Nat.not_lt.mpr hle)
            · exact ⟨Or.inr hg, fun _ => ha, hnone⟩
          · rintro ⟨hg, -, hnone⟩
            exact hg.imp id fun hg => ⟨hg, hnone⟩

namespace Matrix

variable {o : Observation} {H g : Nat} {r v : Address} {m k : Matrix}

/-- Number of rows below a height in front of the first that carries the observation for the pair,
or of all if none does. -/
def stop (o : Observation) (H : Nat) (r v : Address) (m : Matrix) : Nat :=
  (m.below H).findIdx fun g => o.resolves (m.cell g r v)

/-- From `m` to `k` the stretch of `n` rows below `H` was marked for the pair, and nothing else
happened. -/
structure Stretched (o : Observation) (H : Nat) (r v : Address) (m k : Matrix) (n : Nat) :
    Prop where
  stops : n = m.stop o H r v
  marked : ∀ g ∈ (m.below H).take n, k.cell? g r v = some (o.mark H g (m.cell g r v))
  pointer : ∀ g ∈ (m.below H).take n, (k.cell g r v).impliedBy = some H
  elsewhere : ∀ g r' v', ¬(g ∈ (m.below H).take n ∧ r' = r ∧ v' = v) →
    k.cell? g r' v' = m.cell? g r' v'
  heights : k.heights = m.heights

theorem below_descending (m : Matrix) (H : Nat) : (m.below H).Pairwise fun a b => b < a :=
  m.heights_descending.filter _

theorem mem_below_iff : g ∈ m.below H ↔ g ∈ m.heights ∧ g < H := by
  rw [below, List.mem_filter, decide_eq_true_iff]

/-- The walk reaches the rows of the stretch. -/
theorem reached_iff_mem_stretch : Reached o H r v m g ↔ g ∈ (m.below H).take (m.stop o H r v) := by
  rw [stop, mem_take_findIdx_iff (m.below_descending H), mem_below_iff, Reached, and_assoc]
  refine and_congr_right fun _ => and_congr_right fun _ => ?_
  simp only [mem_below_iff, and_imp]
  exact forall_congr' fun q => forall_congr' fun _ => forall_comm

theorem marked_backfill_eq_stop (o : Observation) (H : Nat) (r v : Address) (m : Matrix) :
    (m.backfill o H r v).2 = m.stop o H r v := by
  have hreached : m.heights.filter (fun g => Reached o H r v m g) =
      (m.below H).take (m.stop o H r v) := by
    refine (m.heights_descending.filter _).eq_of_mem_iff
      ((m.below_descending H).sublist (List.take_sublist _ _)) fun g => ?_
    rw [List.mem_filter, decide_eq_true_iff, ← reached_iff_mem_stretch]
    exact and_iff_right_of_imp fun hg => hg.1
  calc (m.backfill o H r v).2
      = m.heights.countP fun g => Reached o H r v m g := marked_backfill o H r v m
    _ = ((m.below H).take (m.stop o H r v)).length := by rw [List.countP_eq_length_filter, hreached]
    _ = m.stop o H r v := by
        rw [List.length_take]
        exact Nat.min_eq_left List.findIdx_le_length

theorem stretched_backfill (o : Observation) (H : Nat) (r v : Address) (m : Matrix) :
    Stretched o H r v m (m.backfill o H r v).1 (m.backfill o H r v).2 := by
  have hcount := marked_backfill_eq_stop o H r v m
  have hreached : ∀ g, g ∈ (m.below H).take (m.backfill o H r v).2 ↔ Reached o H r v m g := by
    intro g
    rw [hcount, reached_iff_mem_stretch]
  refine ⟨hcount, fun g hg => ?_, fun g hg => ?_, fun g r' v' hne => ?_, ?_⟩
  · exact cell?_backfill_of_reached ((hreached g).mp hg)
  · rw [cell_eq_of_cell? (cell?_backfill_of_reached ((hreached g).mp hg)),
      Observation.impliedBy_mark]
  · rw [hreached] at hne
    by_cases hg : Reached o H r v m g
    · exact cell?_backfill_ne fun hpair => hne ⟨hg, hpair⟩
    · exact cell?_backfill_of_not_reached hg r' v'
  · exact heights_backfill o H r v m

/-- **What one backfill does, exactly.**  After any edits, a walk from any height marks the rows
below it in front of the first that carries the observation for the pair, and tells their number.
Each of them holds the old cell of the pair with the mark, which points at the height.  Every other
cell is as before, or still missing, and the heights are the same.  Place by place on a table with
an index, where cells are made sure of before they are looked at, the walk comes to the same. -/
theorem stretched_walk (es : List Edit) (o : Observation) (H : Nat) (r v : Address) :
    let m := edits es
    let x := Indexed.edits es
    let walked := m.backfill o H r v
    Stretched o H r v m walked.1 walked.2 ∧
      ∃ y, x.walk o H r v (bisectLeft H x.index) = .ok (y, walked.2) ∧ y.Represents walked.1 := by
  intro m x walked
  have hx : x.Represents m := Indexed.represents_edits es
  exact ⟨stretched_backfill o H r v m, hx.backfill o H r v⟩

/-- Below 8 the walk makes a cell of the pair in rows 7 and 6, and stops at the prevote in row 4. -/
example :
    let m := edits [.ensureRow 9, .ensureRow 7, .writeCell 6 "A" "W" (·.see .precommit),
      .writeCell 4 "A" "V" (·.see .prevote), .ensureRow 2]
    let k := (m.backfill (.vote .prevote) 8 "A" "V").1
    m.stop (.vote .prevote) 8 "A" "V" = 2 ∧ k.heights = [9, 7, 6, 4, 2] ∧
      (k.cell 7 "A" "V").impliedBy = some 8 ∧ (k.cell 6 "A" "V").impliedBy = some 8 ∧
      k.cell? 2 "A" "V" = none := by
  decide

end Matrix

end Finality
