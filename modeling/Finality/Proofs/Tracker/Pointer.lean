import Finality.Proofs.Tracker.Provenance

/-! # Pointers that go down

The pointer of a cell names the height that its implied marks come from.  One would have it only
rise, from a sighting to a higher one (`PointersRise`).  The early stop of the walk sees to that for
cells that carry the observation already: they are not marked again, and so they keep their pointer
(`not_pointsPast_of_resolves`).

But all observations share one pointer.  A cell may point far up for one vote and lack the other;
a walk that brings the other vote from further down then marks it, and its pointer goes down.  Such
a row is `PointsPast` the sighting, and pointers rise exactly if no kept row is
(`pointersRise_apply_iff`).  Sightings at or above all rows meet no such row
(`pointersRise_apply_of_newest`), others may (`not_pointersRise_apply`). -/

namespace Finality

theorem Sighting.impliedBy_see (s : Sighting) (c : Cell) : (s.see c).impliedBy = c.impliedBy := by
  rcases s with ⟨_ | _, -, -, -⟩ | ⟨-, -, -⟩ <;> rfl

namespace Matrix

variable {b : Bool} {s : Sighting} {k m : Matrix} {g : Nat}

/-- No pointer of a stored cell is lower in `k` than in `m`. -/
def PointersRise (m k : Matrix) : Prop :=
  ∀ h r v c d, m.cell? h r v = some c → k.cell? h r v = some d →
    ∀ p ∈ c.impliedBy, ∃ q ∈ d.impliedBy, p ≤ q

theorem PointersRise.refl (m : Matrix) : PointersRise m m := by
  intro h r v c d hc hd p hp
  obtain rfl := Option.some.inj (hc.symm.trans hd)
  exact ⟨p, hp, Nat.le_refl p⟩

/-- The walk marks the row, although its cell points to a height above the sighting. -/
def PointsPast (b : Bool) (s : Sighting) (m : Matrix) (g : Nat) : Prop :=
  Implied b s m g ∧ ∃ p ∈ (m.cell g s.reporter s.voter).impliedBy, s.height < p

instance (b : Bool) (s : Sighting) (m : Matrix) (g : Nat) : Decidable (PointsPast b s m g) :=
  inferInstanceAs (Decidable (_ ∧ _))

theorem not_pointsPast_of_resolves
    (hres : (s.observation b).resolves (m.cell g s.reporter s.voter) = true) :
    ¬PointsPast b s m g := by
  rintro ⟨⟨hg, hlt, hopen⟩, -⟩
  rw [hopen g hg (Nat.le_refl g) hlt] at hres
  cases hres

theorem exists_cell?_of_mem_impliedBy {r v : Address} {p : Nat}
    (hp : p ∈ (m.cell g r v).impliedBy) : ∃ c, m.cell? g r v = some c ∧ p ∈ c.impliedBy := by
  cases hc : m.cell? g r v with
  | none =>
      rw [cell, hc] at hp
      cases hp
  | some c =>
      rw [cell_eq_of_cell? hc] at hp
      exact ⟨c, rfl, hp⟩

/-- Recording a sighting lowers the pointers of the rows that point past it, and no others. -/
theorem pointersRise_iff (hf : Front k (m.record b s)) :
    PointersRise m k ↔ ∀ g ∈ k.heights, ¬PointsPast b s m g := by
  constructor
  · rintro hrise g hg ⟨hi, p, hp, hlt⟩
    obtain ⟨c, hc, hpc⟩ := exists_cell?_of_mem_impliedBy hp
    have hd := (hf.cell? hg).trans (cell?_record_of_implied hi)
    obtain ⟨q, hq, hle⟩ := hrise g _ _ c _ hc hd p hpc
    rw [Observation.impliedBy_mark] at hq
    obtain rfl : s.height = q := Option.some.inj hq
    omega
  · intro hpast h r v c d hc hd p hp
    have hh : h ∈ k.heights := by
      by_contra hh
      rw [cell?_eq_none hh] at hd
      cases hd
    have hcell := cell_eq_of_cell? hc
    rw [hf.cell? hh] at hd
    rcases cell?_record_cases b s m h r v with ⟨rfl, rfl, rfl, hs⟩ | ⟨rfl, rfl, hi, hs⟩ | ⟨-, hs⟩
    · -- what is seen leaves the pointer alone
      obtain rfl := Option.some.inj (hs.symm.trans hd)
      rw [Sighting.impliedBy_see, hcell]
      exact ⟨p, hp, Nat.le_refl p⟩
    · -- a marked cell points to the sighting, and did not point past it
      obtain rfl := Option.some.inj (hs.symm.trans hd)
      rw [Observation.impliedBy_mark]
      refine ⟨s.height, rfl, Nat.le_of_not_lt fun hlt => ?_⟩
      exact hpast h hh ⟨hi, p, hcell ▸ hp, hlt⟩
    · obtain rfl := Option.some.inj (hc.symm.trans (hs.symm.trans hd))
      exact ⟨p, hp, Nat.le_refl p⟩

end Matrix

namespace Tracker

open Finality.Matrix (PointersRise PointsPast)

variable {cfg : Config} {s : Sighting}

/-- **Pointers across a call.**  A vote or a finalization lowers no pointer exactly if it is stale or
none of the rows that are kept points past it. -/
theorem pointersRise_apply_iff (cfg : Config) (t : Tracker) (c : Call) (s : Sighting)
    (hs : Sighting.ofCall? c = some s) :
    t.matrix.PointersRise (t.apply cfg c).matrix ↔
      (t.Admits cfg s → ∀ g ∈ (t.apply cfg c).matrix.heights,
        ¬PointsPast cfg.precommitImpliesPrevote s t.matrix g) := by
  by_cases ha : t.Admits cfg s
  · rw [apply_of_admits hs ha, Matrix.pointersRise_iff (front_observe cfg t s)]
    exact ⟨fun h _ => h, fun h => h ha⟩
  · rw [apply_of_not_admits hs ha]
    exact iff_of_true (PointersRise.refl _) fun h => absurd h ha

/-- Reporter `A` sees a precommit at 10, which marks row 3 from there. -/
def precommitAbove : List Call := [.vote .prevote "B" 3 "0x" "V", .vote .precommit "A" 10 "0x" "V"]

/-- At height 5, a prevote seen by `A` lowers the pointer of row 3.  Another precommit does not, for
row 3 carries it already, and neither does a prevote seen by `B`, whose cell has no pointer. -/
theorem pointersRise_apply_precommitAbove :
    let t := run .standard fresh precommitAbove
    ¬t.matrix.PointersRise (t.apply .standard (.vote .prevote "A" 5 "0x" "V")).matrix ∧
      t.matrix.PointersRise (t.apply .standard (.vote .precommit "A" 5 "0x" "V")).matrix ∧
      t.matrix.PointersRise (t.apply .standard (.vote .prevote "B" 5 "0x" "V")).matrix := by
  refine ⟨fun h => ?_, ?_, ?_⟩
  · exact absurd ((pointersRise_apply_iff _ _ _ _ rfl).mp h) (by decide)
  · exact (pointersRise_apply_iff _ _ _ _ rfl).mpr (by decide)
  · exact (pointersRise_apply_iff _ _ _ _ rfl).mpr (by decide)

/-- Not every vote or finalization leaves the pointers of a reachable tracker where they are or
raises them. -/
theorem not_pointersRise_apply :
    ¬∀ (cfg : Config) (cs : List Call) (c : Call) (s : Sighting), Sighting.ofCall? c = some s →
      (run cfg fresh cs).matrix.PointersRise ((run cfg fresh cs).apply cfg c).matrix := by
  intro h
  have hrise := h .standard precommitAbove (.vote .prevote "A" 5 "0x" "V") _ rfl
  obtain ⟨q, hq, hle⟩ := hrise 3 "A" "V"
    { impliedPrecommit := true, impliedBy := some 10 }
    { impliedPrevote := true, impliedPrecommit := true, impliedBy := some 5 }
    (by decide) (by decide) 10 rfl
  obtain rfl : 5 = q := Option.some.inj hq
  omega

/-- In a reachable tracker pointers lead to rows, so a sighting at or above all rows lowers none. -/
theorem pointersRise_apply_of_newest {cs : List Call} {c : Call}
    (hs : Sighting.ofCall? c = some s)
    (hnewest : ∀ g ∈ (run cfg fresh cs).matrix.heights, g ≤ s.height) :
    (run cfg fresh cs).matrix.PointersRise ((run cfg fresh cs).apply cfg c).matrix := by
  by_cases ha : (run cfg fresh cs).Admits cfg s
  · rw [apply_of_admits hs ha, Matrix.pointersRise_iff (front_observe cfg _ s)]
    rintro g - ⟨-, p, hp, hlt⟩
    have hrow := ((allGrounded_run cfg cs g s.reporter s.voter).pointer p hp).2.1
    have := hnewest p hrow
    omega
  · rw [apply_of_not_admits hs ha]
    exact PointersRise.refl _

end Tracker

end Finality
