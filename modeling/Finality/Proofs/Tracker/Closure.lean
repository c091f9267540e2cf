import Finality.Proofs.Tracker.Growth

/-! # What cells know, and matrices that are closed downward

`Cell.knows` asks a cell for one of three facts about its pair: a prevote, a precommit, a
finalization.  `Sighting.Tells` says which facts a sighting tells of which heights, without any
reference to how they are propagated.  Recording a sighting adds no other fact to any cell
(`tells_of_knows_record`), and it adds every one of them when the matrix is `Closed`: a fact that
is known at a row is known at all rows below it (`Closed.knows_record`).  For then a cell that
stops the walk speaks for all cells below. -/

namespace Finality

/-- Whether a fact is known, seen or implied. -/
def Cell.knows (c : Cell) : MarkKind → Bool
  | .vote v => c.has v
  | .finalization => c.hasFinalization

theorem Cell.knows_empty (f : MarkKind) : ({} : Cell).knows f = false := by
  cases f with
  | vote v => exact Cell.has_empty v
  | finalization => rfl

theorem Cell.Within.knows {c d : Cell} (hw : c.Within d) {f : MarkKind} (hk : c.knows f = true) :
    d.knows f = true := by
  rcases f with ⟨_ | _⟩ | _
  · exact Bool.or_eq_true_iff.mpr
      ((Bool.or_eq_true_iff.mp hk).imp hw.prevoted hw.impliedPrevote)
  · exact Bool.or_eq_true_iff.mpr
      ((Bool.or_eq_true_iff.mp hk).imp hw.precommitted hw.impliedPrecommit)
  · exact Bool.or_eq_true_iff.mpr
      ((Bool.or_eq_true_iff.mp hk).imp hw.finalized hw.impliedFinal)

namespace Sighting

/-- A sighting tells its own fact of the pair at its height and at every height below.  A
finalization tells all facts, and a precommit may tell of the prevotes strictly below. -/
def Tells (b : Bool) (f : MarkKind) (r v : Address) (h : Nat) (s : Sighting) : Prop :=
  r = s.reporter ∧ v = s.voter ∧
    ((s.kind = f ∨ s.kind = .finalization) ∧ h ≤ s.height ∨
      b = true ∧ f = .vote .prevote ∧ s.kind = .vote .precommit ∧ h < s.height)

variable {b : Bool} {f : MarkKind} {r v : Address} {g h : Nat} {s : Sighting} {c : Cell}

theorem Tells.le (ht : s.Tells b f r v h) : h ≤ s.height := by
  obtain ⟨-, -, ⟨-, hle⟩ | ⟨-, -, -, hlt⟩⟩ := ht
  · exact hle
  · exact Nat.le_of_lt hlt

theorem Tells.down (ht : s.Tells b f r v h) (hgh : g ≤ h) : s.Tells b f r v g := by
  obtain ⟨hr, hv, ⟨hk, hle⟩ | ⟨hb, hf, hk, hlt⟩⟩ := ht
  · exact ⟨hr, hv, Or.inl ⟨hk, Nat.le_trans hgh hle⟩⟩
  · exact ⟨hr, hv, Or.inr ⟨hb, hf, hk, Nat.lt_of_le_of_lt hgh hlt⟩⟩

/-- Only a finalization tells of a finalization, and it tells all else as well. -/
theorem Tells.of_final (ht : s.Tells b .finalization r v h) (f : MarkKind) : s.Tells b f r v h := by
  obtain ⟨hr, hv, ⟨hk, hle⟩ | ⟨-, hf, -⟩⟩ := ht
  · exact ⟨hr, hv, Or.inl ⟨Or.inr (hk.elim id id), hle⟩⟩
  · cases hf

theorem knows_see : (s.see c).knows f = true ↔
    c.knows f = true ∨ s.kind = f ∨ s.kind = .finalization := by
  rcases s with ⟨_ | _, -, -, -⟩ | ⟨-, -, -⟩ <;> rcases f with ⟨_ | _⟩ | _ <;>
    simp [see, kind, Cell.knows, Cell.see, Cell.finalize, Cell.has, Cell.hasPrevote,
      Cell.hasPrecommit, Cell.hasFinalization]

theorem knows_mark (H g : Nat) : ((s.observation b).mark H g c).knows f = true ↔
    c.knows f = true ∨ (s.kind = f ∨ s.kind = .finalization) ∨
      b = true ∧ f = .vote .prevote ∧ s.kind = .vote .precommit := by
  rcases s with ⟨_ | _, -, -, -⟩ | ⟨-, -, -⟩ <;> rcases f with ⟨_ | _⟩ | _ <;> cases b <;>
    simp [observation, Observation.ofVote, Observation.mark, kind, Cell.knows, Cell.imply,
      Cell.implyFinal, Cell.has, Cell.hasPrevote, Cell.hasPrecommit, Cell.hasFinalization]

/-- A cell that stops the walk of a vote knows all that the vote would mark. -/
theorem knows_of_resolves (hres : (s.observation b).resolves c = true)
    (hk : s.kind ≠ .finalization) (ht : s.Tells b f r v h) : c.knows f = true := by
  obtain ⟨-, -, ht⟩ := ht
  cases s with
  | finalization r' h' hash => exact absurd rfl hk
  | vote w r' h' v' =>
      cases w with
      | prevote =>
          obtain ⟨hf, -⟩ | ⟨-, -, hf, -⟩ := ht
          · obtain rfl := hf.resolve_right hk
            exact hres
          · cases hf
      | precommit =>
          cases b with
          | false =>
              obtain ⟨hf, -⟩ | ⟨hb, -⟩ := ht
              · obtain rfl := hf.resolve_right hk
                exact hres
              · cases hb
          | true =>
              have hboth : c.hasPrecommit = true ∧ c.hasPrevote = true := by
                simpa [observation, Observation.ofVote, Observation.resolves] using hres
              obtain ⟨hf, -⟩ | ⟨-, rfl, -⟩ := ht
              · obtain rfl := hf.resolve_right hk
                exact hboth.1
              · exact hboth.2

theorem knows_final_of_resolves (hres : (s.observation b).resolves c = true)
    (hk : s.kind = .finalization) : c.knows .finalization = true := by
  cases s with
  | vote => cases hk
  | finalization => exact hres

end Sighting

namespace Matrix

variable {b : Bool} {f : MarkKind} {m : Matrix} {r v : Address} {h : Nat} {s : Sighting}

theorem tells_of_knows_record (hk : ((m.record b s).cell h r v).knows f = true) :
    (m.cell h r v).knows f = true ∨ s.Tells b f r v h := by
  rcases cell_record_cases b s m h r v with ⟨rfl, rfl, rfl, hc⟩ | ⟨rfl, rfl, hi, hc⟩ | ⟨-, hc⟩
  · rw [hc, Sighting.knows_see] at hk
    exact hk.imp id fun hk => ⟨rfl, rfl, Or.inl ⟨hk, Nat.le_refl _⟩⟩
  · rw [hc, Sighting.knows_mark] at hk
    refine hk.imp id fun hk => ⟨rfl, rfl, ?_⟩
    rcases hk with hk | ⟨hb, hf, hk⟩
    · exact Or.inl ⟨hk, Nat.le_of_lt hi.2.1⟩
    · exact Or.inr ⟨hb, hf, hk, hi.2.1⟩
  · rw [hc] at hk
    exact Or.inl hk

/-- At its own height a sighting is known. -/
theorem knows_record_self (ht : s.Tells b f s.reporter s.voter s.height) :
    ((m.record b s).cell s.height s.reporter s.voter).knows f = true := by
  rw [cell_eq_of_cell? cell?_record_self, Sighting.knows_see]
  obtain ⟨-, -, ⟨hk, -⟩ | ⟨-, -, -, hlt⟩⟩ := ht
  · exact Or.inr hk
  · exact absurd hlt (Nat.lt_irrefl _)

theorem knows_record_of_implied (hi : Implied b s m h)
    (ht : s.Tells b f s.reporter s.voter h) :
    ((m.record b s).cell h s.reporter s.voter).knows f = true := by
  rw [cell_eq_of_cell? (cell?_record_of_implied hi), Sighting.knows_mark]
  obtain ⟨-, -, ⟨hk, -⟩ | ⟨hb, hf, hk, -⟩⟩ := ht
  · exact Or.inr (Or.inl hk)
  · exact Or.inr (Or.inr ⟨hb, hf, hk⟩)

/-- A row below the sighting that the walk does not reach has a row between that stops the walk, or
stops it itself. -/
theorem exists_resolves_of_not_implied (hh : h ∈ m.heights) (hlt : h < s.height)
    (hi : ¬Implied b s m h) : ∃ q ∈ m.heights, h ≤ q ∧ q < s.height ∧
      (s.observation b).resolves (m.cell q s.reporter s.voter) = true := by
  by_contra hno
  refine hi ⟨hh, hlt, fun q hq hle hqH => ?_⟩
  rw [Bool.eq_false_iff]
  exact fun hres => hno ⟨q, hq, hle, hqH, hres⟩

/-! ### Closed matrices -/

/-- What is known at a row is known at all rows below, and a finalized cell knows all facts. -/
structure Closed (m : Matrix) : Prop where
  down : ∀ {g h}, g ∈ m.heights → h ∈ m.heights → g ≤ h → ∀ {r v f},
    (m.cell h r v).knows f = true → (m.cell g r v).knows f = true
  final : ∀ {h r v}, h ∈ m.heights → (m.cell h r v).knows .finalization = true →
    ∀ f, (m.cell h r v).knows f = true

/-- In a closed matrix recording adds all that the sighting tells. -/
theorem Closed.knows_record (hm : Closed m) (hh : h ∈ m.heights) (ht : s.Tells b f r v h) :
    ((m.record b s).cell h r v).knows f = true := by
  obtain ⟨rfl, rfl, -⟩ := id ht
  rcases Nat.lt_or_eq_of_le ht.le with hlt | rfl
  · by_cases hi : Implied b s m h
    · exact knows_record_of_implied hi ht
    · obtain ⟨q, hq, hle, hqH, hres⟩ := exists_resolves_of_not_implied hh hlt hi
      rw [cell, cell?_record_of_not_implied (Nat.ne_of_lt hlt) hi]
      by_cases hk : s.kind = .finalization
      · exact hm.final hh (hm.down hh hq hle (Sighting.knows_final_of_resolves hres hk)) f
      · exact hm.down hh hq hle (Sighting.knows_of_resolves hres hk ht)
  · exact knows_record_self ht

end Matrix

end Finality
