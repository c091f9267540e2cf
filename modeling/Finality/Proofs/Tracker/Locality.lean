import Finality.Proofs.Tracker.Growth
import Finality.Proofs.Tracker.Step

/-! # What a sighting touches

A vote or a finalization touches the cells of its own pair, at its own height and below, and there
it only adds.  `Confined cfg s t t'` says so of the states before and after a call: rows go only
when the bound is reached, and from the bottom; one row may come; every cell elsewhere is as it was;
the cells of the pair keep all marks; and a vote leaves alone all that finalizations write.

Stale sightings are confined as they change nothing (`Confined.refl`), all others by what is known
of recording and of dropping rows (`confined_observe`). -/

namespace Finality

/-- All that finalizations write and votes do not: the two flags, the hash and the height. -/
def Cell.finality (c : Cell) : Bool × Bool × Option BlockHash × Option Nat :=
  (c.finalized, c.impliedFinal, c.finalHash, c.finalHeight)

namespace Sighting

variable {b : Bool} {s : Sighting} {w : Vote}

theorem finality_see (hs : s.kind = .vote w) (c : Cell) : (s.see c).finality = c.finality := by
  cases s with
  | vote v r h v' => cases v <;> rfl
  | finalization => cases hs

theorem finality_mark (hs : s.kind = .vote w) (H g : Nat) (c : Cell) :
    ((s.observation b).mark H g c).finality = c.finality := by
  cases s with
  | vote v r h v' => cases v <;> cases b <;> rfl
  | finalization => cases hs

end Sighting

namespace Matrix

/-- Votes change nothing that finalizations write. -/
theorem finality_cell_record {s : Sighting} {w : Vote} (hs : s.kind = .vote w) (b : Bool)
    (m : Matrix) (h : Nat) (r v : Address) :
    ((m.record b s).cell h r v).finality = (m.cell h r v).finality := by
  refine forall_cell_record (P := fun h r v c => c.finality = (m.cell h r v).finality) ?_ ?_
    (fun _ _ _ => rfl) h r v
  · intro c hc
    rw [Sighting.finality_see hs, hc]
  · intro g c _ hc
    rw [Sighting.finality_mark hs, hc]

theorem cell?_record_elsewhere {s : Sighting} {h : Nat} {r v : Address}
    (hne : ¬(r = s.reporter ∧ v = s.voter ∧ h ≤ s.height)) (b : Bool) (m : Matrix) :
    (m.record b s).cell? h r v = m.cell? h r v := by
  rcases cell?_record_cases b s m h r v with ⟨hr, hv, rfl, -⟩ | ⟨hr, hv, hi, -⟩ | ⟨-, hc⟩
  · exact absurd ⟨hr, hv, Nat.le_refl _⟩ hne
  · exact absurd ⟨hr, hv, Nat.le_of_lt hi.2.1⟩ hne
  · exact hc

end Matrix

namespace Tracker

variable {cfg : Config} {t t' : Tracker} {c : Call} {s : Sighting}

/-! ### Rows that go -/

/-- As many rows as the bound allows are there, and the height lies below them all. -/
def Outdated (cfg : Config) (m : Matrix) (h : Nat) : Prop :=
  cfg.maxHeights = some m.size ∧ ∀ g ∈ m.heights, h < g

instance (cfg : Config) (m : Matrix) (h : Nat) : Decidable (Outdated cfg m h) :=
  inferInstanceAs (Decidable (_ ∧ _))

theorem maxHeights_eq_size_retain {m : Matrix} {h : Nat} (hh : h ∈ m.heights)
    (hgone : h ∉ (retain cfg m).1.heights) : cfg.maxHeights = some (retain cfg m).1.size := by
  rw [Matrix.heights, rows_retain] at hgone
  rw [Matrix.size, rows_retain]
  cases hbound : cfg.maxHeights with
  | none =>
      rw [hbound] at hgone
      exact absurd hh hgone
  | some n =>
      rw [hbound, keepFirst] at hgone
      have hmore : n < m.rows.length := by
        refine Nat.lt_of_not_le fun hle => hgone ?_
        rw [List.take_of_length_le hle]
        exact hh
      rw [keepFirst, List.length_take, Nat.min_eq_left (Nat.le_of_lt hmore)]

theorem mem_heights_retain_or {m : Matrix} {h : Nat} (hh : h ∈ m.heights) :
    h ∈ (retain cfg m).1.heights ∨ Outdated cfg (retain cfg m).1 h := by
  by_cases hk : h ∈ (retain cfg m).1.heights
  · exact Or.inl hk
  · refine Or.inr ⟨maxHeights_eq_size_retain hh hk, fun g hg => ?_⟩
    refine Nat.lt_of_le_of_ne (Nat.le_of_not_lt fun hlt => ?_) (fun heq => hk (heq ▸ hg))
    exact hk ((front_retain cfg m).mem_of_lt hg hh hlt)

/-! ### Confined calls -/

/-- From `t` to `t'` nothing changed but what the sighting may touch. -/
structure Confined (cfg : Config) (s : Sighting) (t t' : Tracker) : Prop where
  kept : ∀ h ∈ t.matrix.heights, h ∈ t'.matrix.heights ∨ Outdated cfg t'.matrix h
  opened : ∀ h ∈ t'.matrix.heights, h ∈ t.matrix.heights ∨ h = s.height
  elsewhere : ∀ h ∈ t'.matrix.heights, ∀ r v, ¬(r = s.reporter ∧ v = s.voter ∧ h ≤ s.height) →
    t'.matrix.cell? h r v = t.matrix.cell? h r v
  grows : ∀ h ∈ t'.matrix.heights, ∀ r v c, t.matrix.cell? h r v = some c →
    ∃ d, t'.matrix.cell? h r v = some d ∧ c.Within d
  finality : ∀ w, s.kind = .vote w → ∀ h ∈ t'.matrix.heights, ∀ r v,
    (t'.matrix.cell h r v).finality = (t.matrix.cell h r v).finality
  best : t'.best = t.best
  setId : t'.authority.setId = t.authority.setId
  members : t'.authority.members = t.authority.members

theorem Confined.refl (cfg : Config) (s : Sighting) (t : Tracker) : Confined cfg s t t where
  kept := fun _ hh => Or.inl hh
  opened := fun _ hh => Or.inl hh
  elsewhere := fun _ _ _ _ _ => rfl
  grows := fun _ _ _ _ c hc => ⟨c, hc, Cell.Within.refl c⟩
  finality := fun _ _ _ _ _ _ => rfl
  best := rfl
  setId := rfl
  members := rfl

theorem confined_observe (cfg : Config) (s : Sighting) (t : Tracker) :
    Confined cfg s t (t.observe cfg s) where
  kept := fun _ hh => mem_heights_retain_or (Matrix.mem_heights_record.mpr (Or.inr hh))
  opened := fun _ hh => (Matrix.mem_heights_record.mp ((front_observe cfg t s).mem hh)).symm
  elsewhere := by
    intro h hh r v hne
    rw [(front_observe cfg t s).cell? hh, Matrix.cell?_record_elsewhere hne]
  grows := by
    intro h hh r v c hc
    rw [(front_observe cfg t s).cell? hh]
    exact Matrix.exists_cell?_record _ s hc
  finality := by
    intro w hw h hh r v
    rw [(front_observe cfg t s).cell hh, Matrix.finality_cell_record hw]
  best := rfl
  setId := rfl
  members := rfl

/-- **Each call is local and takes nothing away.**  In whatever state a vote or a finalization comes
in, it drops rows only to keep the bound, changes and creates only cells of its own pair at its
height and below, and takes no mark, hash, height or pointer away from them.  A vote leaves alone
what finalizations write, and neither touches the best block or the authority set. -/
theorem confined_apply (cfg : Config) (t : Tracker) (c : Call) (s : Sighting)
    (hs : Sighting.ofCall? c = some s) : Confined cfg s t (t.apply cfg c) := by
  by_cases ha : t.Admits cfg s
  · rw [apply_of_admits hs ha]
    exact confined_observe cfg s t
  · rw [apply_of_not_admits hs ha]
    exact Confined.refl cfg s t

/-- A precommit at 11 drops row 5 to keep the bound, marks row 7 for its own pair, and leaves the
cell of `B` there alone. -/
theorem confined_apply_twoRows :
    let t := run twoRows fresh [.authoritySet 1 ["V"], .vote .prevote "A" 5 "0x" "V",
      .vote .prevote "B" 7 "0x" "V"]
    let t' := t.apply twoRows (.vote .precommit "A" 11 "0x" "V")
    (5 ∈ t.matrix.heights ∧ 5 ∉ t'.matrix.heights ∧ Outdated twoRows t'.matrix 5) ∧
      (t'.matrix.cell? 7 "A" "V").isSome ∧ ¬(t.matrix.cell? 7 "A" "V").isSome ∧
      t'.matrix.cell? 7 "B" "V" = t.matrix.cell? 7 "B" "V" ∧
      t'.authority.members = ["V"] := by
  intro t t'
  have hc : Confined twoRows (.vote .precommit "A" 11 "V") t t' :=
    confined_apply twoRows t (.vote .precommit "A" 11 "0x" "V") _ rfl
  have hgone : 5 ∉ t'.matrix.heights := by decide
  have houtdated : Outdated twoRows t'.matrix 5 := (hc.kept 5 (by decide)).resolve_left hgone
  refine ⟨⟨by decide, hgone, houtdated⟩, by decide, by decide, ?_, ?_⟩
  · exact hc.elsewhere 7 (by decide) "B" "V" (by decide)
  · exact hc.members

end Tracker

end Finality
