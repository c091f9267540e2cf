import Finality.Proofs.Tracker.Meaning

/-! # Which rows a sighting misses

A vote on a block is a vote on its ancestors, so every row below a sighting ought to know what was
sighted (`KnowsBelow`).  The walk stops at the first row that carries the observation already, which
is right as long as such a row speaks for all rows below it.  It does not speak for a row that was
opened below it later: that row is `Shadowed`, and the shadowed rows are exactly the ones that a
sighting misses (`knowsBelow_apply_iff`).  Runs that grow upward open no such rows
(`knowsBelow_apply_of_growsUpward`), other runs may (`not_knowsBelow_apply`). -/

namespace Finality

namespace Sighting

variable {b : Bool} {s : Sighting} {c : Cell} {g : Nat}

/-- A sighting tells its own fact of its pair at every height up to its own. -/
theorem tells_kind (b : Bool) (hle : g ≤ s.height) : s.Tells b s.kind s.reporter s.voter g :=
  ⟨rfl, rfl, Or.inl ⟨Or.inl rfl, hle⟩⟩

theorem knows_kind_of_resolves (hres : (s.observation b).resolves c = true) :
    c.knows s.kind = true := by
  by_cases hk : s.kind = .finalization
  · rw [hk]
    exact knows_final_of_resolves hres hk
  · exact knows_of_resolves hres hk (tells_kind b (Nat.le_refl _))

end Sighting

namespace Matrix

variable {b : Bool} {s : Sighting} {k m : Matrix} {g : Nat}

/-- Every row below a sighting knows what was sighted of the pair. -/
def KnowsBelow (m : Matrix) (s : Sighting) : Prop :=
  ∀ g ∈ m.heights, g < s.height → (m.cell g s.reporter s.voter).knows s.kind = true

instance (m : Matrix) (s : Sighting) : Decidable (m.KnowsBelow s) :=
  inferInstanceAs (Decidable (∀ g ∈ m.heights, _))

/-- The row does not know what was sighted, and a row between it and the sighting stops the walk. -/
def Shadowed (b : Bool) (s : Sighting) (m : Matrix) (g : Nat) : Prop :=
  (m.cell g s.reporter s.voter).knows s.kind = false ∧
    ∃ q ∈ m.heights, g < q ∧ q < s.height ∧
      (s.observation b).resolves (m.cell q s.reporter s.voter) = true

instance (b : Bool) (s : Sighting) (m : Matrix) (g : Nat) : Decidable (Shadowed b s m g) :=
  inferInstanceAs (Decidable (_ ∧ ∃ q ∈ m.heights, _))

/-- Recording a sighting misses exactly the shadowed rows below it. -/
theorem knows_record_iff (hg : g ∈ m.heights) (hlt : g < s.height) :
    ((m.record b s).cell g s.reporter s.voter).knows s.kind = true ↔ ¬Shadowed b s m g := by
  by_cases hi : Implied b s m g
  · -- the walk comes by, so that no row between stops it
    have hk := knows_record_of_implied hi (Sighting.tells_kind b (Nat.le_of_lt hlt))
    refine iff_of_true hk ?_
    rintro ⟨-, q, hq, hgq, hqH, hres⟩
    rw [hi.2.2 q hq (Nat.le_of_lt hgq) hqH] at hres
    cases hres
  · -- the walk stops before, so that the cell is as it was
    rw [cell, cell?_record_of_not_implied (Nat.ne_of_lt hlt) hi, ← cell]
    constructor
    · intro hk hs
      rw [hs.1] at hk
      cases hk
    · intro hs
      obtain ⟨q, hq, hle, hqH, hres⟩ := exists_resolves_of_not_implied hg hlt hi
      rcases Nat.eq_or_lt_of_le hle with rfl | hgq
      · exact Sighting.knows_kind_of_resolves hres
      · rw [← Bool.not_eq_false]
        exact fun hk => hs ⟨hk, q, hq, hgq, hqH, hres⟩

/-- In a closed matrix a row that stops the walk speaks for the rows below it. -/
theorem Closed.not_shadowed (hm : Closed m) (hg : g ∈ m.heights) : ¬Shadowed b s m g := by
  rintro ⟨hk, q, hq, hgq, -, hres⟩
  have hk' := hm.down hg hq (Nat.le_of_lt hgq) (Sighting.knows_kind_of_resolves hres)
  rw [hk] at hk'
  cases hk'

end Matrix

namespace Tracker

open Finality.Matrix (KnowsBelow Shadowed)

variable {cfg : Config} {t : Tracker} {s : Sighting} {g : Nat}

theorem mem_heights_of_mem_observe (hg : g ∈ (t.observe cfg s).matrix.heights)
    (hlt : g < s.height) : g ∈ t.matrix.heights := by
  have hg' := (front_observe cfg t s).mem hg
  exact (Matrix.mem_heights_record.mp hg').resolve_left (Nat.ne_of_lt hlt)

theorem knows_observe_iff (hg : g ∈ (t.observe cfg s).matrix.heights) (hlt : g < s.height) :
    ((t.observe cfg s).matrix.cell g s.reporter s.voter).knows s.kind = true ↔
      ¬Shadowed cfg.precommitImpliesPrevote s t.matrix g := by
  rw [(front_observe cfg t s).cell hg]
  exact Matrix.knows_record_iff (mem_heights_of_mem_observe hg hlt) hlt

/-- **Completeness of the walk.**  After a sighting that is not stale, the rows below it all know
what was sighted exactly if none of them was shadowed before. -/
theorem knowsBelow_apply_iff (cfg : Config) (t : Tracker) (c : Call) (s : Sighting)
    (hs : Sighting.ofCall? c = some s) (ha : t.Admits cfg s) :
    (t.apply cfg c).matrix.KnowsBelow s ↔
      ∀ g ∈ (t.apply cfg c).matrix.heights, g < s.height →
        ¬Shadowed cfg.precommitImpliesPrevote s t.matrix g := by
  rw [apply_of_admits hs ha]
  exact forall₃_congr fun _ hg hlt => knows_observe_iff hg hlt

/-- Reporter `A` sees a prevote at 10, and afterwards reporter `B` opens row 8. -/
def lateRow : List Call := [.vote .prevote "A" 10 "0x" "V", .vote .prevote "B" 8 "0x" "V"]

/-- The late row is shadowed for prevotes seen by `A`, but neither for finalizations nor for `B`. -/
theorem knowsBelow_apply_lateRow :
    let t := run .standard fresh lateRow
    ¬(t.apply .standard (.vote .prevote "A" 12 "0x" "V")).matrix.KnowsBelow
        (.vote .prevote "A" 12 "V") ∧
      (t.apply .standard (.finalized "A" 12 "0x")).matrix.KnowsBelow
        (.finalization "A" 12 "0x") ∧
      (t.apply .standard (.vote .prevote "B" 12 "0x" "V")).matrix.KnowsBelow
        (.vote .prevote "B" 12 "V") := by
  refine ⟨fun h => ?_, ?_, ?_⟩
  · exact absurd ((knowsBelow_apply_iff _ _ _ _ rfl (by decide)).mp h) (by decide)
  · exact (knowsBelow_apply_iff _ _ _ _ rfl (by decide)).mpr (by decide)
  · exact (knowsBelow_apply_iff _ _ _ _ rfl (by decide)).mpr (by decide)

/-- Not every sighting that a reachable tracker takes in reaches all rows below it. -/
theorem not_knowsBelow_apply :
    ¬∀ (cfg : Config) (cs : List Call) (c : Call) (s : Sighting), Sighting.ofCall? c = some s →
      (run cfg fresh cs).Admits cfg s → ((run cfg fresh cs).apply cfg c).matrix.KnowsBelow s := by
  intro h
  have hlate := h .standard lateRow (.vote .prevote "A" 12 "0x" "V") (.vote .prevote "A" 12 "V")
    rfl (by decide)
  exact absurd hlate (by decide)

/-- In a run that grows upward no sighting misses a row, wherever the next one comes in. -/
theorem knowsBelow_apply_of_growsUpward {cs : List Call} {c : Call}
    (hup : GrowsUpward cfg fresh cs) (hs : Sighting.ofCall? c = some s)
    (ha : (run cfg fresh cs).Admits cfg s) :
    ((run cfg fresh cs).apply cfg c).matrix.KnowsBelow s := by
  rw [apply_of_admits hs ha]
  intro g hg hlt
  have hclosed := (explained_run cfg cs hup).closed
  exact (knows_observe_iff hg hlt).mpr (hclosed.not_shadowed (mem_heights_of_mem_observe hg hlt))

end Tracker

end Finality
