import Finality.Proofs.Tracker.Growth
import Finality.Proofs.Tracker.History

/-! # Provenance of implied marks

Every implied mark has a source: a higher row that is still there and whose cell of the same pair
was seen to carry what the mark says.  `Grounded b m h r v c` states this for a cell `c` of a pair
at a height `h`.  It survives the two things that happen to a matrix: a sighting writes its own
cell before it marks cells below, and takes no mark away (`AllGrounded.record`); rows are dropped
from the bottom only, so that no row outlives its sources (`Grounded.front`). -/

namespace Finality

namespace Matrix

variable {b : Bool} {k m : Matrix} {g h : Nat} {r v : Address} {c : Cell} {s : Sighting}
  {P : Cell → Prop}

/-! ### Sources -/

/-- Some higher row has a cell of the pair with a property. -/
def SeenAbove (m : Matrix) (h : Nat) (r v : Address) (P : Cell → Prop) : Prop :=
  ∃ p ∈ m.heights, h < p ∧ P (m.cell p r v)

/-- What a sighting takes from no cell stays visible from below. -/
theorem SeenAbove.record (hP : ∀ c d : Cell, c.Within d → P c → P d) (hs : SeenAbove m h r v P)
    (b : Bool) (s : Sighting) : SeenAbove (m.record b s) h r v P := by
  obtain ⟨p, hp, hlt, hseen⟩ := hs
  exact ⟨p, mem_heights_record.mpr (Or.inr hp), hlt, hP _ _ (within_cell_record b s m p r v) hseen⟩

theorem SeenAbove.front (hf : Front k m) (hh : h ∈ k.heights) (hs : SeenAbove m h r v P) :
    SeenAbove k h r v P := by
  obtain ⟨p, hp, hlt, hseen⟩ := hs
  have hk := hf.mem_of_lt hh hp hlt
  exact ⟨p, hk, hlt, hf.cell hk ▸ hseen⟩

/-- The cell of the sighting itself is visible from below. -/
theorem seenAbove_source (hlt : g < s.height) (hP : ∀ c : Cell, P (s.see c)) (b : Bool)
    (m : Matrix) : SeenAbove (m.record b s) g s.reporter s.voter P := by
  refine ⟨s.height, mem_heights_record.mpr (Or.inl rfl), hlt, ?_⟩
  rw [cell_eq_of_cell? cell?_record_self]
  exact hP _

/-- The implied marks of a cell `c` of a pair at a height come from higher rows of the matrix.  `b`
tells whether precommits stand for prevotes. -/
structure Grounded (b : Bool) (m : Matrix) (h : Nat) (r v : Address) (c : Cell) : Prop where
  pointer : ∀ q, c.impliedBy = some q → h < q ∧ q ∈ m.heights ∧
    ∃ d, m.cell? q r v = some d ∧ (d.prevoted = true ∨ d.precommitted = true)
  precommit : c.impliedPrecommit = true → SeenAbove m h r v (·.precommitted = true)
  prevote : c.impliedPrevote = true → SeenAbove m h r v (·.prevoted = true) ∨
    b = true ∧ SeenAbove m h r v (·.precommitted = true)
  final : c.impliedFinal = true → r = v ∧
    SeenAbove m h r r fun d => d.finalized = true ∧ d.finalHash.isSome = true

namespace Grounded

theorem empty (b : Bool) (m : Matrix) (h : Nat) (r v : Address) : Grounded b m h r v {} := by
  constructor <;> intros <;> contradiction

theorem record (hc : Grounded b m h r v c) (s : Sighting) :
    Grounded b (m.record b s) h r v c where
  pointer := by
    intro q hq
    obtain ⟨hlt, hmem, d, hd, hseen⟩ := hc.pointer q hq
    obtain ⟨d', hd', hw⟩ := exists_cell?_record b s hd
    exact ⟨hlt, mem_heights_record.mpr (Or.inr hmem), d', hd',
      hseen.imp hw.prevoted hw.precommitted⟩
  precommit := fun hi => (hc.precommit hi).record (fun _ _ hw => hw.precommitted) b s
  prevote := fun hi =>
    (hc.prevote hi).imp (fun hs => hs.record (fun _ _ hw => hw.prevoted) b s)
      (fun hs => ⟨hs.1, hs.2.record (fun _ _ hw => hw.precommitted) b s⟩)
  final := fun hi =>
    ⟨(hc.final hi).1,
      (hc.final hi).2.record (fun _ _ hw hs => ⟨hw.finalized hs.1, hw.finalHash hs.2⟩) b s⟩

/-- A row that is kept keeps its sources: they are above it. -/
theorem front (hf : Front k m) (hh : h ∈ k.heights) (hc : Grounded b m h r v c) :
    Grounded b k h r v c where
  pointer := by
    intro q hq
    obtain ⟨hlt, hmem, d, hd, hseen⟩ := hc.pointer q hq
    have hk := hf.mem_of_lt hh hmem hlt
    exact ⟨hlt, hk, d, (hf.cell? hk).trans hd, hseen⟩
  precommit := fun hi => (hc.precommit hi).front hf hh
  prevote := fun hi =>
    (hc.prevote hi).imp (fun hs => hs.front hf hh) (fun hs => ⟨hs.1, hs.2.front hf hh⟩)
  final := fun hi => ⟨(hc.final hi).1, (hc.final hi).2.front hf hh⟩

theorem see (hc : Grounded b m h r v c) (s : Sighting) : Grounded b m h r v (s.see c) := by
  cases s with
  | vote w r' h' v' => cases w <;> exact ⟨hc.pointer, hc.precommit, hc.prevote, hc.final⟩
  | finalization r' h' hash => exact ⟨hc.pointer, hc.precommit, hc.prevote, hc.final⟩

theorem mark (hlt : g < s.height) (hc : Grounded b (m.record b s) g s.reporter s.voter c) :
    Grounded b (m.record b s) g s.reporter s.voter ((s.observation b).mark s.height g c) := by
  have hpointer : ∀ q, some s.height = some q → g < q ∧ q ∈ (m.record b s).heights ∧
      ∃ d, (m.record b s).cell? q s.reporter s.voter = some d ∧
        (d.prevoted = true ∨ d.precommitted = true) := by
    rintro q ⟨⟩
    refine ⟨hlt, mem_heights_record.mpr (Or.inl rfl), _, cell?_record_self, ?_⟩
    cases s with
    | vote w r' h' v' => cases w <;> simp [Sighting.see, Cell.see]
    | finalization r' h' hash => exact Or.inl rfl
  cases s with
  | vote w r' h' v' =>
      cases w with
      | prevote =>
          refine ⟨hpointer, hc.precommit, fun _ => Or.inl ?_, hc.final⟩
          exact seenAbove_source hlt (fun _ => rfl) b m
      | precommit =>
          have hsource : SeenAbove (m.record b (.vote .precommit r' h' v')) g r' v'
              (·.precommitted = true) := seenAbove_source hlt (fun _ => rfl) b m
          cases b with
          | false => exact ⟨hpointer, fun _ => hsource, hc.prevote, hc.final⟩
          | true => exact ⟨hpointer, fun _ => hsource, fun _ => Or.inr ⟨rfl, hsource⟩, hc.final⟩
  | finalization r' h' hash =>
      refine ⟨hpointer, fun _ => ?_, fun _ => Or.inl ?_, fun _ => ⟨rfl, ?_⟩⟩
      · exact seenAbove_source hlt (fun _ => rfl) b m
      · exact seenAbove_source hlt (fun _ => rfl) b m
      · exact seenAbove_source (s := .finalization r' h' hash) hlt (fun _ => ⟨rfl, rfl⟩) b m

end Grounded

/-! ### Matrices and runs -/

/-- All cells are grounded; a missing cell reads as the empty one. -/
def AllGrounded (b : Bool) (m : Matrix) : Prop := ∀ h r v, Grounded b m h r v (m.cell h r v)

theorem AllGrounded.record (hm : AllGrounded b m) (s : Sighting) :
    AllGrounded b (m.record b s) := by
  have hold : ∀ h r v, Grounded b (m.record b s) h r v (m.cell h r v) :=
    fun h r v => (hm h r v).record s
  exact forall_cell_record (fun _ hc => hc.see s) (fun _ _ hlt hc => hc.mark hlt) hold

theorem AllGrounded.front (hf : Front k m) (hm : AllGrounded b m) : AllGrounded b k := by
  intro h r v
  by_cases hh : h ∈ k.heights
  · rw [hf.cell hh]
    exact (hm h r v).front hf hh
  · rw [cell_eq_empty hh]
    exact Grounded.empty b k h r v

end Matrix

namespace Tracker

open Finality.Matrix (Grounded AllGrounded)

theorem allGrounded_run (cfg : Config) (cs : List Call) :
    AllGrounded cfg.precommitImpliesPrevote (run cfg fresh cs).matrix :=
  have hempty : AllGrounded cfg.precommitImpliesPrevote .empty := fun h r v => .empty _ _ h r v
  run_matrix_induction hempty (fun s _ hm => hm.record s) (fun _ _ hf hm => hm.front hf) cs hempty

/-- **Provenance.**  After every run, the implied marks of every stored cell come from higher rows
that the matrix still has. -/
theorem grounded_of_stored (cfg : Config) (cs : List Call) {h : Nat} {r v : Address} {c : Cell}
    (hc : (run cfg fresh cs).matrix.cell? h r v = some c) :
    Grounded cfg.precommitImpliesPrevote (run cfg fresh cs).matrix h r v c := by
  have hg := allGrounded_run cfg cs h r v
  rwa [Matrix.cell_eq_of_cell? hc] at hg

/-- All marks of row 7 but the prevote come from row 9; a late vote below both rows is dropped at
once. -/
theorem grounded_of_stored_twoRows :
    let m := (run twoRows fresh [.vote .prevote "V" 7 "0x" "V", .vote .precommit "V" 9 "0x" "V",
      .finalized "V" 9 "0x", .vote .prevote "A" 3 "0x" "V"]).matrix
    let c : Cell :=
      { prevoted := true, precommitted := true, impliedPrevote := true, impliedPrecommit := true,
        impliedBy := some 9, finalized := true, finalHeight := some 7, impliedFinal := true }
    m.heights = [9, 7] ∧ m.cell? 7 "V" "V" = some c ∧ Grounded true m 7 "V" "V" c := by
  refine ⟨by decide, by decide, ?_⟩
  exact grounded_of_stored twoRows _ (by decide)

end Tracker

end Finality
