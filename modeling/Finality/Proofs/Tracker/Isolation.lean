import Mathlib.Data.List.Forall2
import Finality.Proofs.Tracker.History
import Finality.Proofs.Tracker.Parallel

/-! # Isolation of pairs

A reporter and a voter learn of the other pairs through one channel only: which rows there are.
`SameFor r v m k` says that the pair cannot tell two matrices apart, for they have the same heights
and the same cells of the pair, whatever else they hold.

Recording keeps two matrices the same for a pair if they record the same sighting, or two sightings
of other pairs at the same height (`SameFor.record`): the walk of the pair looks at the heights and
at its own cells, and the walks of others never write there.  Dropping rows goes by heights alone
(`SameFor.retain`).  So two runs of `Alike` calls stay the same for the pair (`pair_eq_of_alike`).
-/

namespace Finality

/-- The sighting is about the cells of a reporter and a voter. -/
def Sighting.About (r v : Address) (s : Sighting) : Prop := r = s.reporter ∧ v = s.voter

instance (r v : Address) (s : Sighting) : Decidable (s.About r v) :=
  inferInstanceAs (Decidable (_ ∧ _))

/-- Two calls of which a pair sees the same: the same call, or two sightings of other pairs at the
same height, whatever their kinds and hashes. -/
inductive Call.Alike (r v : Address) : Call → Call → Prop
  | same (c : Call) : Alike r v c c
  | elsewhere {c d : Call} {s s' : Sighting} :
      Sighting.ofCall? c = some s → Sighting.ofCall? d = some s' →
      ¬s.About r v → ¬s'.About r v → s.height = s'.height → Alike r v c d

namespace Matrix

variable {b : Bool} {m k : Matrix} {r v : Address} {s s' : Sighting} {o : Observation} {H g : Nat}

/-- A pair cannot tell two matrices apart. -/
structure SameFor (r v : Address) (m k : Matrix) : Prop where
  heights : m.heights = k.heights
  stored : ∀ h, m.cell? h r v = k.cell? h r v

namespace SameFor

theorem refl (r v : Address) (m : Matrix) : SameFor r v m m := ⟨rfl, fun _ => rfl⟩

theorem cell (hm : SameFor r v m k) (h : Nat) : m.cell h r v = k.cell h r v := by
  rw [Matrix.cell, Matrix.cell, hm.stored]

/-- A walk of the pair reaches the same rows. -/
theorem reached_iff (hm : SameFor r v m k) : Reached o H r v m g ↔ Reached o H r v k g := by
  unfold Reached
  simp only [hm.heights, hm.cell]

theorem record_about (hm : SameFor s.reporter s.voter m k) (h : Nat) :
    (m.record b s).cell? h s.reporter s.voter = (k.record b s).cell? h s.reporter s.voter := by
  by_cases hh : h = s.height
  · subst hh
    rw [cell?_record_self, cell?_record_self, hm.cell]
  · by_cases hi : Implied b s m h
    · have hi' : Implied b s k h := hm.reached_iff.mp hi
      rw [cell?_record_of_implied hi, cell?_record_of_implied hi', hm.cell]
    · have hi' : ¬Implied b s k h := mt hm.reached_iff.mpr hi
      rw [cell?_record_of_not_implied hh hi, cell?_record_of_not_implied hh hi', hm.stored]

theorem record (hm : SameFor r v m k)
    (hs : s = s' ∨ ¬s.About r v ∧ ¬s'.About r v ∧ s.height = s'.height) :
    SameFor r v (m.record b s) (k.record b s') where
  heights := by
    have hheight : s.height = s'.height := by
      rcases hs with rfl | ⟨-, -, hheight⟩
      · rfl
      · exact hheight
    exact heights_record_eq hm.heights hheight b b
  stored := by
    intro h
    by_cases ha : s.About r v
    · obtain rfl : s = s' := hs.resolve_right fun hne => hne.1 ha
      obtain ⟨rfl, rfl⟩ := ha
      exact hm.record_about h
    · have ha' : ¬s'.About r v := by
        rcases hs with rfl | ⟨-, ha', -⟩
        · exact ha
        · exact ha'
      rw [cell?_record_ne ha, cell?_record_ne ha', hm.stored]

theorem retain (cfg : Config) (hm : SameFor r v m k) :
    SameFor r v (Tracker.retain cfg m).1 (Tracker.retain cfg k).1 := by
  have hheights : (Tracker.retain cfg m).1.heights = (Tracker.retain cfg k).1.heights :=
    Tracker.heights_retain_eq rfl hm.heights
  refine ⟨hheights, fun h => ?_⟩
  by_cases hh : h ∈ (Tracker.retain cfg m).1.heights
  · rw [(Tracker.front_retain cfg m).cell? hh, (Tracker.front_retain cfg k).cell? (hheights ▸ hh),
      hm.stored]
  · rw [cell?_eq_none hh, cell?_eq_none (hheights ▸ hh)]

end SameFor

end Matrix

namespace Tracker

open Finality.Matrix (SameFor)

variable {cfg : Config} {r v : Address} {t u : Tracker} {c d : Call}

theorem Parallel.apply_alike (hcd : Call.Alike r v c d) (hp : Parallel (SameFor r v) t u) :
    Parallel (SameFor r v) (t.apply cfg c) (u.apply cfg d) := by
  cases hcd with
  | same =>
      refine hp.apply rfl (SameFor.refl r v _) fun s _ _ => ?_
      exact (hp.matrix.record (Or.inl rfl)).retain cfg
  | elsewhere hs hs' hne hne' hheight =>
      refine hp.apply_sightings rfl hs hs' hheight fun _ => ?_
      exact (hp.matrix.record (Or.inr ⟨hne, hne', hheight⟩)).retain cfg

/-- **Pairs are isolated from each other.**  Two runs of calls that are alike for a pair have, after
every call, the same heights and the same cell of the pair at every height, or none in both. -/
theorem pair_eq_of_alike (cfg : Config) (r v : Address) {cs ds : List Call}
    (halike : List.Forall₂ (Call.Alike r v) cs ds) (n : Nat) :
    let m := (run cfg fresh (cs.take n)).matrix
    let k := (run cfg fresh (ds.take n)).matrix
    m.heights = k.heights ∧ ∀ h, m.cell? h r v = k.cell? h r v := by
  intro m k
  have hfresh : Parallel (SameFor r v) fresh fresh := ⟨SameFor.refl r v _, rfl, rfl⟩
  have hp : Parallel (SameFor r v) (run cfg fresh (cs.take n)) (run cfg fresh (ds.take n)) :=
    hfresh.run Parallel.apply_alike (List.forall₂_take n halike)
  exact ⟨hp.matrix.heights, hp.matrix.stored⟩

/-- What `B` and `V` bring differs in all calls but one, and so do the matrices.  Row 7 is opened by
`B`, and both runs mark it for the pair of `A` and `V` from row 9. -/
theorem pair_eq_of_alike_twoRows :
    let cs : List Call := [.vote .prevote "B" 7 "0x" "V", .vote .precommit "A" 9 "0x" "V",
      .finalized "V" 8 "0x08"]
    let ds : List Call := [.finalized "B" 7 "0x07", .vote .precommit "A" 9 "0x" "V",
      .vote .precommit "V" 8 "0x" "A"]
    let c : Cell := { impliedPrevote := true, impliedPrecommit := true, impliedBy := some 9 }
    List.Forall₂ (Call.Alike "A" "V") cs ds ∧
      (run twoRows fresh (cs.take 2)).matrix ≠ (run twoRows fresh (ds.take 2)).matrix ∧
      (run twoRows fresh (cs.take 2)).matrix.cell? 7 "A" "V" = some c ∧
      (run twoRows fresh (ds.take 2)).matrix.cell? 7 "A" "V" = some c ∧
      (run twoRows fresh (ds.take 3)).matrix.heights = [9, 8] := by
  intro cs ds c
  have halike : List.Forall₂ (Call.Alike "A" "V") cs ds := by
    refine .cons ?_ (.cons (.same _) (.cons ?_ .nil))
    · exact .elsewhere rfl rfl (by decide) (by decide) rfl
    · exact .elsewhere rfl rfl (by decide) (by decide) rfl
  have hcell : (run twoRows fresh (cs.take 2)).matrix.cell? 7 "A" "V" = some c := by decide
  have hheights : (run twoRows fresh (cs.take 3)).matrix.heights = [9, 8] := by decide
  refine ⟨halike, by decide, hcell, ?_, ?_⟩
  · exact ((pair_eq_of_alike twoRows "A" "V" halike 2).2 7).symm.trans hcell
  · exact (pair_eq_of_alike twoRows "A" "V" halike 3).1.symm.trans hheights

end Tracker

end Finality
