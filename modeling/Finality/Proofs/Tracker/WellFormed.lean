import Finality.Proofs.Tracker.History

/-! # Well-formed cells

The fields of a cell are written at five places: a vote is seen or implied, an implied precommit
stands for a prevote, a finalization is seen or implied.  Each place writes some of the fields only,
and they hit a cell in any order.  `Cell.WellFormed b h r v c` says how the fields of a cell of a
pair at a height agree all the same.

The empty cell is well formed, what is seen keeps a cell well formed (`WellFormed.see`), and so does
a mark from above (`WellFormed.mark`).  Hence all stored cells are (`wellFormed_of_stored`). -/

namespace Finality

/-- The fields of a cell of a pair at a height agree with each other.  `b` tells whether precommits
stand for prevotes. -/
structure Cell.WellFormed (b : Bool) (h : Nat) (r v : Address) (c : Cell) : Prop where
  /-- A reporter finalizes on its own account, and takes both votes for it. -/
  votes_of_finalized : c.finalized = true → c.prevoted = true ∧ c.precommitted = true ∧ r = v
  finalHeight_eq : c.finalHeight = if c.finalized then some h else none
  finalized_of_hash : c.finalHash.isSome = true → c.finalized = true
  /-- A finalization that does not follow from one above was seen, and came with a hash. -/
  hash_of_finalized : c.finalized = true → c.impliedFinal = false → c.finalHash.isSome = true
  all_of_impliedFinal : c.impliedFinal = true →
    c.finalized = true ∧ c.impliedPrevote = true ∧ c.impliedPrecommit = true
  impliedBy_iff : c.impliedBy.isSome = true ↔ c.impliedPrevote = true ∨ c.impliedPrecommit = true
  impliedBy_above : ∀ q ∈ c.impliedBy, h < q
  prevote_of_precommit : b = true → c.impliedPrecommit = true → c.impliedPrevote = true

namespace Cell.WellFormed

variable {b : Bool} {g h : Nat} {r v : Address} {c : Cell} {s : Sighting}

theorem empty (b : Bool) (h : Nat) (r v : Address) : WellFormed b h r v {} := by
  constructor <;> simp

theorem see (hc : WellFormed b s.height s.reporter s.voter c) :
    WellFormed b s.height s.reporter s.voter (s.see c) := by
  cases s with
  | vote w r h v =>
      cases w with
      | prevote =>
          refine { hc with votes_of_finalized := fun hf => ?_ }
          exact ⟨rfl, (hc.votes_of_finalized hf).2⟩
      | precommit =>
          refine { hc with votes_of_finalized := fun hf => ?_ }
          exact ⟨(hc.votes_of_finalized hf).1, rfl, (hc.votes_of_finalized hf).2.2⟩
  | finalization r h hash =>
      exact { hc with
        votes_of_finalized := fun _ => ⟨rfl, rfl, rfl⟩
        finalHeight_eq := rfl
        finalized_of_hash := fun _ => rfl
        hash_of_finalized := fun _ _ => rfl
        all_of_impliedFinal := fun hi => ⟨rfl, (hc.all_of_impliedFinal hi).2⟩ }

/-- Implied votes may be added, with a pointer upward. -/
theorem imply {q : Nat} {prevote precommit : Bool} (hlt : h < q)
    (hprevote : c.impliedPrevote = true → prevote = true)
    (hprecommit : c.impliedPrecommit = true → precommit = true)
    (hany : prevote = true ∨ precommit = true)
    (hboth : b = true → precommit = true → prevote = true) (hc : WellFormed b h r v c) :
    WellFormed b h r v { c with
      impliedPrevote := prevote, impliedPrecommit := precommit, impliedBy := some q } :=
  { hc with
    all_of_impliedFinal := fun hi =>
      have ⟨hf, hp, hq⟩ := hc.all_of_impliedFinal hi
      ⟨hf, hprevote hp, hprecommit hq⟩
    impliedBy_iff := iff_of_true rfl hany
    impliedBy_above := by
      rintro _ ⟨⟩
      exact hlt
    prevote_of_precommit := hboth }

theorem mark (hlt : g < s.height) (hc : WellFormed b g s.reporter s.voter c) :
    WellFormed b g s.reporter s.voter ((s.observation b).mark s.height g c) := by
  cases s with
  | vote w r q v =>
      cases w with
      | prevote => exact hc.imply hlt (fun _ => rfl) id (Or.inl rfl) (fun _ _ => rfl)
      | precommit =>
          cases b with
          | false => exact hc.imply hlt id (fun _ => rfl) (Or.inr rfl) nofun
          | true =>
              exact imply (c := c) hlt (fun _ => rfl) (fun _ => rfl) (Or.inl rfl) (fun _ _ => rfl) hc
  | finalization r q hash =>
      have hall := hc.imply hlt (fun _ => rfl) (fun _ => rfl) (Or.inl rfl) (fun _ _ => rfl)
      exact { hall with
        votes_of_finalized := fun _ => ⟨rfl, rfl, rfl⟩
        finalHeight_eq := rfl
        finalized_of_hash := fun _ => rfl
        hash_of_finalized := nofun
        all_of_impliedFinal := fun _ => ⟨rfl, rfl, rfl⟩ }

end Cell.WellFormed

namespace Tracker

theorem wellFormed_run (cfg : Config) (cs : List Call) (h : Nat) (r v : Address) :
    ((run cfg fresh cs).matrix.cell h r v).WellFormed cfg.precommitImpliesPrevote h r v :=
  run_cell_induction (.empty _) (fun _ _ hc => hc.see) (fun _ _ _ hlt hc => hc.mark hlt) cs h r v

/-- **Stored cells are well formed.**  After every run, the fields of every stored cell agree. -/
theorem wellFormed_of_stored (cfg : Config) (cs : List Call) {h : Nat} {r v : Address} {c : Cell}
    (hc : (run cfg fresh cs).matrix.cell? h r v = some c) :
    c.WellFormed cfg.precommitImpliesPrevote h r v := by
  have hw := wellFormed_run cfg cs h r v
  rwa [Matrix.cell_eq_of_cell? hc] at hw

/-- A cell that is written at three places: a prevote is seen, a precommit above implies both votes,
and the finalization of the block itself comes last. -/
theorem wellFormed_of_stored_twoRows :
    let cs : List Call := [.vote .prevote "V" 7 "0x" "V", .vote .precommit "V" 9 "0x" "V",
      .finalized "V" 7 "0x07"]
    let c : Cell :=
      { prevoted := true, precommitted := true, impliedPrevote := true, impliedPrecommit := true,
        impliedBy := some 9, finalized := true, finalHash := some "0x07", finalHeight := some 7 }
    (run twoRows fresh cs).matrix.cell? 7 "V" "V" = some c ∧ c.WellFormed true 7 "V" "V" := by
  intro cs c
  have hc : (run twoRows fresh cs).matrix.cell? 7 "V" "V" = some c := by decide
  exact ⟨hc, wellFormed_of_stored twoRows cs hc⟩

end Tracker

end Finality
