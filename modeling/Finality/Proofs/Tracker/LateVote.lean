import Finality.Proofs.Tracker.Repetition

/-! # Late votes

A vote may come for a cell that has it already, seen or implied: the same vote once more, or the
vote on an old block after one on a newer block.  One would have it that such a late vote is seen in
its own cell and changes nothing else (`OnlySees`), because the rows below are resolved.

The vote is propagated downward like any other, so this holds exactly if the walk has nothing to
do: the next row below carries the observation (`onlySees_step_iff`).  In runs that grow upward it
always does (`onlySees_step_of_growsUpward`).  A row that was opened below the cell in between does
not, and a late vote marks it (`not_onlySees_step`). -/

namespace Finality

namespace Matrix

variable {v : Vote} {h : Nat} {r w : Address} {b : Bool} {m : Matrix} {past : List Sighting}

/-- From `m` to `k`, with a number of marked cells, a vote was seen in one cell and nothing else
happened. -/
structure OnlySees (v : Vote) (r : Address) (h : Nat) (w : Address) (m k : Matrix) (marked : Nat) :
    Prop where
  seen : k.cell? h r w = some ((m.cell h r w).see v)
  others : ∀ g r' w', ¬(g = h ∧ r' = r ∧ w' = w) → k.cell? g r' w' = m.cell? g r' w'
  heights : k.heights = m.heights
  unmarked : marked = 0

theorem mem_heights_of_has (hknown : (m.cell h r w).has v = true) : h ∈ m.heights := by
  by_contra hh
  rw [cell_eq_empty hh, Cell.has_empty] at hknown
  cases hknown

theorem onlySees_alterCell (hh : h ∈ m.heights) :
    OnlySees v r h w m (m.alterCell h r w (·.see v)) 0 where
  seen := cell?_alterCell_self m _
  others := fun _ _ _ hne => cell?_alterCell_ne m _ hne
  heights := by
    refine heights_eq_of_mem_iff fun g => ?_
    rw [mem_heights_alterCell]
    exact or_iff_right_of_imp fun hg => hg ▸ hh
  unmarked := rfl

/-- In an explained matrix the rows below a cell that has a vote carry all that the vote would mark
there. -/
theorem Explained.resolves_below (hm : Explained b past m) (hknown : (m.cell h r w).has v = true)
    {g : Nat} (hg : g ∈ m.heights) (hlt : g < h) :
    (Observation.ofVote b v).resolves (m.cell g r w) = true := by
  have hh := mem_heights_of_has hknown
  obtain ⟨s, hs, ht⟩ := (hm.knows_iff h hh r w (.vote v)).mp hknown
  have hvote : (m.cell g r w).has v = true :=
    (hm.knows_iff g hg r w (.vote v)).mpr ⟨s, hs, ht.down (Nat.le_of_lt hlt)⟩
  cases v with
  | prevote => exact hvote
  | precommit =>
      cases b with
      | false => exact hvote
      | true =>
          -- whatever told of the precommit at `h` also tells of the prevotes strictly below
          have hprevote : s.Tells true (.vote .prevote) r w g := by
            obtain ⟨hr, hw, ⟨hk | hk, hle⟩ | ⟨-, hf, -⟩⟩ := ht
            · exact ⟨hr, hw, Or.inr ⟨rfl, rfl, hk, Nat.lt_of_lt_of_le hlt hle⟩⟩
            · exact ⟨hr, hw, Or.inl ⟨Or.inr hk, Nat.le_trans (Nat.le_of_lt hlt) hle⟩⟩
            · cases hf
          have hprevote := (hm.knows_iff g hg r w _).mpr ⟨s, hs, hprevote⟩
          exact Bool.and_eq_true_iff.mpr ⟨hvote, hprevote⟩

end Matrix

namespace Tracker

open Finality.Matrix (OnlySees Settled)

variable {cfg : Config} {v : Vote} {r w : Address} {h : Nat}

theorem matrix_observe_of_unbounded (hbound : cfg.maxHeights = none) (t : Tracker) (s : Sighting) :
    (t.observe cfg s).matrix = t.matrix.record cfg.precommitImpliesPrevote s := by
  refine Matrix.eq_of_rows ?_
  show (retain cfg _).1.rows = _
  rw [rows_retain, hbound, keepFirst]

/-- If the next row below carries what the vote would mark, the vote is only seen. -/
theorem onlySees_step_of_settled (hbound : cfg.maxHeights = none) {t : Tracker} (hash : BlockHash)
    (ha : t.Admits cfg (.vote v r h w)) (hknown : (t.matrix.cell h r w).has v = true)
    (hsettled : Settled (.ofVote cfg.precommitImpliesPrevote v) h r w t.matrix) :
    OnlySees v r h w t.matrix (t.step cfg (.vote v r h hash w)).1.matrix
      (t.step cfg (.vote v r h hash w)).2.marked := by
  have hs : Sighting.ofCall? (.vote v r h hash w) = some (.vote v r h w) := rfl
  have hrecord : t.matrix.recordBy Matrix.backfill cfg.precommitImpliesPrevote (.vote v r h w) =
      (t.matrix.alterCell h r w (·.see v), 0) := Settled.recordBy hsettled
  have hstate : (t.step cfg (.vote v r h hash w)).1.matrix =
      (t.matrix.recordBy Matrix.backfill cfg.precommitImpliesPrevote (.vote v r h w)).1 := by
    rw [← apply, apply_of_admits hs ha, matrix_observe_of_unbounded hbound]
    rfl
  rw [hstate, marked_step hs ha, hrecord]
  exact Matrix.onlySees_alterCell (Matrix.mem_heights_of_has hknown)

/-- **Late votes.**  Without a bound on the rows, a vote for a cell that has it already is seen
there and changes nothing else, exactly if the next row below carries in the pair's cell what the
vote would mark. -/
theorem onlySees_step_iff (cfg : Config) (hbound : cfg.maxHeights = none) (t : Tracker) (v : Vote)
    (r : Address) (h : Nat) (hash : BlockHash) (w : Address) (ha : t.Admits cfg (.vote v r h w))
    (hknown : (t.matrix.cell h r w).has v = true) :
    OnlySees v r h w t.matrix (t.step cfg (.vote v r h hash w)).1.matrix
        (t.step cfg (.vote v r h hash w)).2.marked ↔
      Settled (.ofVote cfg.precommitImpliesPrevote v) h r w t.matrix := by
  constructor
  · intro honly
    have hzero := honly.unmarked
    rw [marked_step rfl ha] at hzero
    exact Matrix.marked_recordBy_iff.mp hzero
  · exact onlySees_step_of_settled hbound hash ha hknown

/-- No bound on the rows, and precommits that stand for prevotes. -/
def unboundedRule : Config where
  maxHeights := none
  precommitImpliesPrevote := true
  maxHeights_pos := Config.pos_of_mem_none

/-- Row 8 was opened late, below the prevote at 10 that `A` saw, so the same prevote marks it when
it comes again.  The precommit at 10 that `C` saw found row 8: it may come again, and so may the
prevote at 8 that it implied. -/
theorem onlySees_step_lateRow :
    let t := run unboundedRule fresh (lateRow ++ [.vote .precommit "C" 10 "0x" "V"])
    let votes (v : Vote) (r : Address) (h : Nat) :=
      OnlySees v r h "V" t.matrix (t.step unboundedRule (.vote v r h "0x" "V")).1.matrix
        (t.step unboundedRule (.vote v r h "0x" "V")).2.marked
    ¬votes .prevote "A" 10 ∧ votes .precommit "C" 10 ∧ votes .prevote "C" 8 := by
  intro t votes
  refine ⟨fun honly => ?_, ?_, ?_⟩
  · have hsettled := (onlySees_step_iff unboundedRule rfl t .prevote "A" 10 "0x" "V" (by decide)
      (by decide)).mp honly
    exact absurd hsettled (by decide)
  · exact (onlySees_step_iff unboundedRule rfl t .precommit "C" 10 "0x" "V" (by decide)
      (by decide)).mpr (by decide)
  · exact (onlySees_step_iff unboundedRule rfl t .prevote "C" 8 "0x" "V" (by decide)
      (by decide)).mpr (by decide)

/-- Not every late vote changes its own cell only, even in a reachable tracker without a bound. -/
theorem not_onlySees_step :
    ¬∀ (cfg : Config) (cs : List Call) (v : Vote) (r : Address) (h : Nat) (hash : BlockHash)
      (w : Address), cfg.maxHeights = none → (run cfg fresh cs).Admits cfg (.vote v r h w) →
      ((run cfg fresh cs).matrix.cell h r w).has v = true →
      OnlySees v r h w (run cfg fresh cs).matrix
        ((run cfg fresh cs).step cfg (.vote v r h hash w)).1.matrix
        ((run cfg fresh cs).step cfg (.vote v r h hash w)).2.marked := by
  intro hall
  have honly := hall unboundedRule lateRow .prevote "A" 10 "0x" "V" rfl (by decide) (by decide)
  exact absurd honly.unmarked (by decide)

/-- After a run that grows upward, a late vote always changes its own cell only. -/
theorem onlySees_step_of_growsUpward (hbound : cfg.maxHeights = none) {cs : List Call}
    (hup : GrowsUpward cfg fresh cs) (hash : BlockHash)
    (ha : (run cfg fresh cs).Admits cfg (.vote v r h w))
    (hknown : ((run cfg fresh cs).matrix.cell h r w).has v = true) :
    OnlySees v r h w (run cfg fresh cs).matrix
      ((run cfg fresh cs).step cfg (.vote v r h hash w)).1.matrix
      ((run cfg fresh cs).step cfg (.vote v r h hash w)).2.marked := by
  refine onlySees_step_of_settled hbound hash ha hknown fun g hg => ?_
  obtain ⟨⟨hmem, hlt⟩, -⟩ := Matrix.head?_below_eq_some_iff.mp hg
  exact (explained_run cfg cs hup).resolves_below hknown hmem hlt

end Tracker

end Finality
