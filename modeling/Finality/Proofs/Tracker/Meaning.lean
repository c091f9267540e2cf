import Finality.Proofs.Tracker.Closure
import Finality.Proofs.Tracker.History

/-! # What the matrix means

In a run that grows upward the matrix is computed by early-stopping walks, yet what its cells know
has a declarative meaning in terms of the history: a fact is known at a row exactly when some
sighting that was applied tells it (`Explained.knows_iff`).  `Explained` is inductive because the
facts that a history tells are closed downward, which is what makes the early stop right
(`Explained.closed`).

`known_iff_applied` spells the three facts out. -/

namespace Finality

namespace Matrix

variable {b : Bool} {past : List Sighting} {m : Matrix} {s : Sighting}

/-- What the cells of a matrix know is what a history tells, and the history lies at or below the
highest row. -/
structure Explained (b : Bool) (past : List Sighting) (m : Matrix) : Prop where
  covered : ∀ s ∈ past, ∃ g ∈ m.heights, s.height ≤ g
  knows_iff : ∀ h ∈ m.heights, ∀ r v f,
    (m.cell h r v).knows f = true ↔ ∃ s ∈ past, s.Tells b f r v h

theorem Explained.empty (b : Bool) : Explained b [] .empty :=
  ⟨fun _ hs => absurd hs List.not_mem_nil, fun _ hh => absurd hh List.not_mem_nil⟩

theorem exists_tells_iff {f : MarkKind} {r v : Address} {h : Nat} :
    (∃ s ∈ past, s.Tells b f r v h) ↔
      (∃ w p, f = .vote w ∧ h ≤ p ∧ Sighting.vote w r p v ∈ past) ∨
        (r = v ∧ ∃ p hash, h ≤ p ∧ Sighting.finalization r p hash ∈ past) ∨
          (b = true ∧ f = .vote .prevote ∧ ∃ p, h < p ∧ Sighting.vote .precommit r p v ∈ past) := by
  constructor
  · rintro ⟨s, hs, rfl, rfl, ht⟩
    cases s with
    | vote w r p v =>
        rcases ht with ⟨hk, hle⟩ | ⟨hb, hf, hk, hlt⟩
        · exact Or.inl ⟨w, p, (hk.resolve_right nofun).symm, hle, hs⟩
        · cases hk
          exact Or.inr (Or.inr ⟨hb, hf, p, hlt, hs⟩)
    | finalization r p hash =>
        rcases ht with ⟨-, hle⟩ | ⟨-, -, hk, -⟩
        · exact Or.inr (Or.inl ⟨rfl, p, hash, hle, hs⟩)
        · cases hk
  · rintro (⟨w, p, rfl, hle, hs⟩ | ⟨rfl, p, hash, hle, hs⟩ | ⟨hb, rfl, p, hlt, hs⟩)
    · exact ⟨_, hs, rfl, rfl, Or.inl ⟨Or.inl rfl, hle⟩⟩
    · exact ⟨_, hs, rfl, rfl, Or.inl ⟨Or.inr rfl, hle⟩⟩
    · exact ⟨_, hs, rfl, rfl, Or.inr ⟨hb, rfl, rfl, hlt⟩⟩

/-- An explained matrix is closed downward, as histories are. -/
theorem Explained.closed (hm : Explained b past m) : Closed m where
  down := by
    intro g h hg hh hgh r v f hk
    obtain ⟨s, hs, ht⟩ := (hm.knows_iff h hh r v f).mp hk
    exact (hm.knows_iff g hg r v f).mpr ⟨s, hs, ht.down hgh⟩
  final := by
    intro h r v hh hk f
    obtain ⟨s, hs, ht⟩ := (hm.knows_iff h hh r v _).mp hk
    exact (hm.knows_iff h hh r v f).mpr ⟨s, hs, ht.of_final f⟩

/-- A height on top is explained even before it has a row: nothing was told of it. -/
theorem Explained.knows_iff_of_onTop (hm : Explained b past m) {h : Nat} (htop : m.OnTop h)
    (r v : Address) (f : MarkKind) :
    (m.cell h r v).knows f = true ↔ ∃ s ∈ past, s.Tells b f r v h := by
  by_cases hh : h ∈ m.heights
  · exact hm.knows_iff h hh r v f
  · have habove := htop.resolve_left hh
    rw [cell_eq_empty hh, Cell.knows_empty]
    constructor
    · intro hk
      cases hk
    · rintro ⟨s, hs, ht⟩
      obtain ⟨g, hg, hle⟩ := hm.covered s hs
      have := habove g hg
      have := ht.le
      omega

theorem Explained.record (hm : Explained b past m) (htop : m.OnTop s.height) :
    Explained b (past ++ [s]) (m.record b s) where
  covered := by
    intro s' hs'
    rcases List.mem_append.mp hs' with hs' | hs'
    · obtain ⟨g, hg, hle⟩ := hm.covered s' hs'
      exact ⟨g, mem_heights_record.mpr (Or.inr hg), hle⟩
    · obtain rfl := List.mem_singleton.mp hs'
      exact ⟨s'.height, mem_heights_record.mpr (Or.inl rfl), Nat.le_refl _⟩
  knows_iff := by
    intro h hh r v f
    have hmem := mem_heights_record.mp hh
    have htop' : m.OnTop h := by
      rcases hmem with rfl | hmem
      · exact htop
      · exact Or.inl hmem
    have hold := hm.knows_iff_of_onTop htop' r v f
    have hsplit : (∃ s' ∈ past ++ [s], s'.Tells b f r v h) ↔
        (∃ s' ∈ past, s'.Tells b f r v h) ∨ s.Tells b f r v h := by
      simp only [List.mem_append, List.mem_singleton, or_and_right, exists_or, exists_eq_left]
    rw [hsplit, ← hold]
    constructor
    · exact tells_of_knows_record
    · rintro (hk | ht)
      · exact (within_cell_record b s m h r v).knows hk
      · rcases hmem with rfl | hmem
        · obtain ⟨rfl, rfl, -⟩ := id ht
          exact knows_record_self ht
        · exact hm.closed.knows_record hmem ht

/-- Dropping the oldest rows changes nothing as long as the newest row stays. -/
theorem Explained.front {k : Matrix} (hm : Explained b past m) (hf : Front k m)
    (hne : m.rows ≠ [] → k.rows ≠ []) : Explained b past k where
  covered := by
    intro s hs
    obtain ⟨g, hg, hle⟩ := hm.covered s hs
    have hk : k.rows ≠ [] := hne fun h => by simp [heights, h] at hg
    obtain ⟨q, hq, hgq⟩ := hf.exists_le hk hg
    exact ⟨q, hq, Nat.le_trans hle hgq⟩
  knows_iff := by
    intro h hh r v f
    rw [hf.cell hh]
    exact hm.knows_iff h (hf.mem hh) r v f

theorem Explained.apply {cfg : Config} {t : Tracker} {c : Call}
    (ht : Explained cfg.precommitImpliesPrevote past t.matrix)
    (htop : ∀ s ∈ Sighting.ofCall? c, t.Admits cfg s → t.matrix.OnTop s.height) :
    Explained cfg.precommitImpliesPrevote (t.note cfg past c) (t.apply cfg c).matrix := by
  refine Tracker.history_step past (.empty _) (fun s hs ha => ?_) ht
  exact (ht.record (htop s hs ha)).front (Tracker.front_retain cfg _) Tracker.rows_retain_ne_nil

/-- A run that grows upward keeps the matrix explained. -/
theorem Explained.run {cfg : Config} {t : Tracker} {cs : List Call}
    (ht : Explained cfg.precommitImpliesPrevote past t.matrix)
    (hup : Tracker.GrowsUpward cfg t cs) :
    Explained cfg.precommitImpliesPrevote (Tracker.appliedFrom cfg t past cs)
      (Tracker.run cfg t cs).matrix := by
  induction cs generalizing t past with
  | nil => exact ht
  | cons c cs ih =>
      obtain ⟨htop, hrest⟩ := hup
      exact ih (ht.apply htop) hrest

end Matrix

namespace Tracker

open Finality.Matrix (Explained)

theorem explained_run (cfg : Config) (cs : List Call) (hup : GrowsUpward cfg fresh cs) :
    Explained cfg.precommitImpliesPrevote (applied cfg cs) (run cfg fresh cs).matrix :=
  (Explained.empty _).run hup

/-- **Meaning of the matrix.**  After a run that grows upward, and for every row that is there: a
precommit is known exactly if one was applied at or above the row, or a finalization by the voter
itself; a prevote likewise, or if precommits stand for prevotes and one was applied strictly above;
a finalization is known of the reporter only, and exactly if one was applied at or above. -/
theorem known_iff_applied (cfg : Config) (cs : List Call) (hup : GrowsUpward cfg fresh cs) {h : Nat}
    (hh : h ∈ (run cfg fresh cs).matrix.heights) (r v : Address) :
    (((run cfg fresh cs).matrix.cell h r v).hasPrecommit = true ↔
      (∃ p, h ≤ p ∧ Sighting.vote .precommit r p v ∈ applied cfg cs) ∨
        (r = v ∧ ∃ p hash, h ≤ p ∧ Sighting.finalization r p hash ∈ applied cfg cs)) ∧
    (((run cfg fresh cs).matrix.cell h r v).hasPrevote = true ↔
      (∃ p, h ≤ p ∧ Sighting.vote .prevote r p v ∈ applied cfg cs) ∨
        (r = v ∧ ∃ p hash, h ≤ p ∧ Sighting.finalization r p hash ∈ applied cfg cs) ∨
        (cfg.precommitImpliesPrevote = true ∧
          ∃ p, h < p ∧ Sighting.vote .precommit r p v ∈ applied cfg cs)) ∧
    (((run cfg fresh cs).matrix.cell h r v).hasFinalization = true ↔
      r = v ∧ ∃ p hash, h ≤ p ∧ Sighting.finalization r p hash ∈ applied cfg cs) := by
  have hm := explained_run cfg cs hup
  refine ⟨?_, ?_, ?_⟩
  · refine (hm.knows_iff h hh r v (.vote .precommit)).trans (Matrix.exists_tells_iff.trans ?_)
    simp
  · refine (hm.knows_iff h hh r v (.vote .prevote)).trans (Matrix.exists_tells_iff.trans ?_)
    simp
  · refine (hm.knows_iff h hh r v .finalization).trans (Matrix.exists_tells_iff.trans ?_)
    simp

/-- The change of the set forgets the prevote at 3, and row 5 is dropped for row 9.  Row 7 knows a
precommit of `A` for `V` from above, a prevote in its place, and the finalization by `V` itself. -/
theorem known_iff_applied_twoRows :
    let cs : List Call := [.vote .prevote "A" 3 "0x" "V", .authoritySet 1 ["V"],
      .vote .precommit "A" 5 "0x" "V", .vote .prevote "V" 7 "0x" "V", .finalized "V" 9 "0x",
      .vote .precommit "A" 9 "0x" "V"]
    GrowsUpward twoRows fresh cs ∧
      7 ∈ (run twoRows fresh cs).matrix.heights ∧
      ((run twoRows fresh cs).matrix.cell 7 "A" "V").hasPrecommit = true ∧
      ((run twoRows fresh cs).matrix.cell 7 "A" "V").hasPrevote = true ∧
      ((run twoRows fresh cs).matrix.cell 7 "V" "V").hasFinalization = true := by
  intro cs
  have hup : GrowsUpward twoRows fresh cs := by decide
  have hh : 7 ∈ (run twoRows fresh cs).matrix.heights := by decide
  refine ⟨hup, hh, ?_, ?_, ?_⟩
  · exact (known_iff_applied twoRows cs hup hh "A" "V").1.mpr (Or.inl ⟨9, by decide, by decide⟩)
  · exact (known_iff_applied twoRows cs hup hh "A" "V").2.1.mpr
      (Or.inr (Or.inr ⟨rfl, 9, by decide, by decide⟩))
  · exact (known_iff_applied twoRows cs hup hh "V" "V").2.2.mpr ⟨rfl, 9, "0x", by decide, by decide⟩

end Tracker

end Finality
