import Finality.Proofs.Tracker.Rows
import Finality.Proofs.Tracker.WellFormed

/-! # What was seen

The marks of a cell that are not implied, and the hash of its finalization, record the history at
exactly the cell's height, whatever the order in which sightings come in.  Walks write such marks
only where they finalize, and they never write a hash.

`Cell.Records past h r v c` states this for a cell of a pair at a height and a history.  It is
inductive along `Matrix.recordAll` (`records_recordAll`).  The bound does not disturb it: a row that
is kept was never dropped since its height was first sighted (`front_run`). -/

namespace Finality

/-- Whether a vote of a round was seen, or taken with a finalization. -/
def Cell.saw (c : Cell) : Vote → Bool
  | .prevote => c.prevoted
  | .precommit => c.precommitted

namespace Sighting

variable {b : Bool} {s : Sighting} {c : Cell} {r v : Address} {g h : Nat} {w : Vote}
  {past : List Sighting}

/-- Hash that a reporter announced for a height. -/
def hashAt? (r : Address) (h : Nat) : Sighting → Option BlockHash
  | .vote .. => none
  | .finalization r' h' hash => if r' = r ∧ h' = h then some hash else none

/-- The last hash that a reporter announced for a height. -/
def latestHash (r : Address) (h : Nat) (past : List Sighting) : Option BlockHash :=
  (past.filterMap (hashAt? r h)).getLast?

theorem latestHash_concat (r : Address) (h : Nat) (past : List Sighting) (s : Sighting) :
    latestHash r h (past ++ [s]) = (s.hashAt? r h).or (latestHash r h past) := by
  rw [latestHash, latestHash, List.filterMap_append, List.getLast?_append]
  cases hs : s.hashAt? r h <;> simp [hs]

theorem hashAt?_eq_none (hne : ¬(r = s.reporter ∧ r = s.voter ∧ h = s.height)) :
    s.hashAt? r h = none := by
  cases s with
  | vote => rfl
  | finalization r' h' hash =>
      refine if_neg ?_
      rintro ⟨rfl, rfl⟩
      exact hne ⟨rfl, rfl, rfl⟩

theorem vote_eq_iff :
    Sighting.vote w r h v = s ↔
      s.kind = .vote w ∧ r = s.reporter ∧ v = s.voter ∧ h = s.height := by
  cases s with
  | vote w' r' h' v' =>
      simp only [Sighting.vote.injEq, kind, MarkKind.vote.injEq, reporter, voter, height]
      grind
  | finalization => simp [kind]

/-! ### What the two writes do to the record -/

theorem saw_see : (s.see c).saw w = true ↔
    c.saw w = true ∨ s.kind = .vote w ∨ s.kind = .finalization := by
  rcases s with ⟨_ | _, -, -, -⟩ | ⟨-, -, -⟩ <;> cases w <;>
    simp [see, kind, Cell.saw, Cell.see, Cell.finalize]

theorem saw_mark (H g : Nat) : ((s.observation b).mark H g c).saw w = true ↔
    c.saw w = true ∨ s.kind = .finalization := by
  rcases s with ⟨_ | _, -, -, -⟩ | ⟨-, -, -⟩ <;> cases w <;> cases b <;>
    simp [observation, Observation.ofVote, Observation.mark, kind, Cell.saw, Cell.imply,
      Cell.implyFinal]

theorem finalized_see : (s.see c).finalized = true ↔
    c.finalized = true ∨ s.kind = .finalization := by
  rcases s with ⟨_ | _, -, -, -⟩ | ⟨-, -, -⟩ <;> simp [see, kind, Cell.see, Cell.finalize]

theorem finalized_mark (H g : Nat) : ((s.observation b).mark H g c).finalized = true ↔
    c.finalized = true ∨ s.kind = .finalization := by
  rcases s with ⟨_ | _, -, -, -⟩ | ⟨-, -, -⟩ <;> cases b <;>
    simp [observation, Observation.ofVote, Observation.mark, kind, Cell.imply, Cell.implyFinal]

theorem finalHash_see :
    (s.see c).finalHash = (s.hashAt? s.reporter s.height).or c.finalHash := by
  rcases s with ⟨_ | _, -, -, -⟩ | ⟨r, h, hash⟩ <;>
    simp [see, hashAt?, Cell.see, Cell.finalize, reporter, height]

theorem finalHash_mark (H g : Nat) :
    ((s.observation b).mark H g c).finalHash = c.finalHash := by
  rcases s with ⟨_ | _, -, -, -⟩ | ⟨-, -, -⟩ <;> cases b <;> rfl

end Sighting

/-! ### The record of a history -/

/-- The marks of a cell that are not implied are the sightings of a history at the cell's pair and
height; those of a finalization, seen or implied, come on top. -/
structure Cell.Records (past : List Sighting) (h : Nat) (r v : Address) (c : Cell) : Prop where
  saw_iff : ∀ w, c.saw w = true ↔ Sighting.vote w r h v ∈ past ∨ c.finalized = true
  finalHash_eq : r = v → c.finalHash = Sighting.latestHash r h past

namespace Cell.Records

variable {b : Bool} {s : Sighting} {c : Cell} {r v : Address} {g h : Nat} {past : List Sighting}

theorem empty (h : Nat) (r v : Address) : Records [] h r v {} where
  saw_iff := by
    intro w
    cases w <;> simp [saw]
  finalHash_eq := fun _ => rfl

theorem see (hc : Records past s.height s.reporter s.voter c) :
    Records (past ++ [s]) s.height s.reporter s.voter (s.see c) where
  saw_iff := by
    intro w
    have hlast : Sighting.vote w s.reporter s.height s.voter = s ↔ s.kind = .vote w := by
      simp [Sighting.vote_eq_iff]
    rw [Sighting.saw_see, Sighting.finalized_see, hc.saw_iff w, List.mem_append,
      List.mem_singleton, hlast]
    tauto
  finalHash_eq := by
    intro hrv
    rw [Sighting.finalHash_see, Sighting.latestHash_concat, hc.finalHash_eq hrv]

theorem elsewhere (hne : ¬(r = s.reporter ∧ v = s.voter ∧ h = s.height))
    (hc : Records past h r v c) : Records (past ++ [s]) h r v c where
  saw_iff := by
    intro w
    have hlast : ¬Sighting.vote w r h v = s := fun hs => hne (Sighting.vote_eq_iff.mp hs).2
    rw [hc.saw_iff w, List.mem_append, List.mem_singleton, or_iff_left hlast]
  finalHash_eq := by
    rintro rfl
    rw [Sighting.latestHash_concat, Sighting.hashAt?_eq_none hne, Option.none_or,
      hc.finalHash_eq rfl]

/-- A mark from above adds nothing to the record but a finalization. -/
theorem mark (H : Nat) (hc : Records past g r v c) :
    Records past g r v ((s.observation b).mark H g c) where
  saw_iff := by
    intro w
    rw [Sighting.saw_mark, Sighting.finalized_mark, hc.saw_iff w, or_assoc]
  finalHash_eq := by
    intro hrv
    rw [Sighting.finalHash_mark, hc.finalHash_eq hrv]

end Cell.Records

namespace Matrix

/-- A matrix that has seen nothing yet comes to record the history. -/
theorem records_recordAll {m : Matrix} (hm : ∀ h r v, (m.cell h r v).Records [] h r v) (b : Bool)
    (past : List Sighting) (h : Nat) (r v : Address) :
    ((m.recordAll b past).cell h r v).Records past h r v := by
  induction past using List.reverseRecOn generalizing h r v with
  | nil => exact hm h r v
  | append_singleton past s ih =>
      rw [recordAll_concat]
      rcases cell_record_cases b s (m.recordAll b past) h r v with
        ⟨rfl, rfl, rfl, hc⟩ | ⟨rfl, rfl, hi, hc⟩ | ⟨hne, hc⟩
      · rw [hc]
        exact (ih _ _ _).see
      · -- a marked cell lies below the sighting, which is thus not recorded in it
        rw [hc]
        refine Cell.Records.mark _ ((ih _ _ _).elsewhere ?_)
        exact fun he => Nat.ne_of_lt hi.2.1 he.2.2
      · rw [hc]
        refine (ih h r v).elsewhere ?_
        exact fun he => hne ⟨he.1, he.2.1, Or.inl he.2.2⟩

end Matrix

namespace Tracker

theorem records_run (cfg : Config) (cs : List Call) {h : Nat}
    (hh : h ∈ (run cfg fresh cs).matrix.heights) (r v : Address) :
    ((run cfg fresh cs).matrix.cell h r v).Records (applied cfg cs) h r v := by
  rw [(front_run cfg cs).cell hh]
  exact Matrix.records_recordAll (m := .empty) Cell.Records.empty _ _ h r v

/-- **What was seen is what was applied.**  After every run, and for every row that is there: a vote
between two parties is marked as seen exactly if it was applied at this very height; a vote of a
reporter of its own also if the reporter's cell is finalized; and the hash of a reporter's cell is
the one of the last finalization that the reporter announced for this height. -/
theorem seen_iff_applied (cfg : Config) (cs : List Call) {h : Nat}
    (hh : h ∈ (run cfg fresh cs).matrix.heights) (r v : Address) :
    let m := (run cfg fresh cs).matrix
    (r ≠ v →
      ((m.cell h r v).prevoted = true ↔ Sighting.vote .prevote r h v ∈ applied cfg cs) ∧
      ((m.cell h r v).precommitted = true ↔ Sighting.vote .precommit r h v ∈ applied cfg cs)) ∧
    ((m.cell h r r).prevoted = true ↔
      Sighting.vote .prevote r h r ∈ applied cfg cs ∨ (m.cell h r r).finalized = true) ∧
    ((m.cell h r r).precommitted = true ↔
      Sighting.vote .precommit r h r ∈ applied cfg cs ∨ (m.cell h r r).finalized = true) ∧
    (m.cell h r r).finalHash = Sighting.latestHash r h (applied cfg cs) := by
  intro m
  have hpair := records_run cfg cs hh r v
  have hself := records_run cfg cs hh r r
  refine ⟨fun hrv => ?_, hself.saw_iff .prevote, hself.saw_iff .precommit, hself.finalHash_eq rfl⟩
  have hfinal : ¬(m.cell h r v).finalized = true :=
    fun hf => hrv ((wellFormed_run cfg cs h r v).votes_of_finalized hf).2.2
  exact ⟨(hpair.saw_iff .prevote).trans (or_iff_left hfinal),
    (hpair.saw_iff .precommit).trans (or_iff_left hfinal)⟩

/-- Row 7 is opened late, below a row that a walk has come from.  `V` announces two hashes for it,
and `A` sees one vote of `V` there. -/
theorem seen_iff_applied_twoRows :
    let cs : List Call := [.vote .precommit "A" 9 "0x" "V", .finalized "V" 7 "0x07",
      .finalized "V" 7 "0x7b", .vote .prevote "A" 7 "0x" "V"]
    let m := (run twoRows fresh cs).matrix
    7 ∈ m.heights ∧ (m.cell 7 "A" "V").prevoted = true ∧
      ¬(m.cell 7 "A" "V").precommitted = true ∧ (m.cell 7 "V" "V").finalHash = some "0x7b" := by
  intro cs m
  have hh : 7 ∈ m.heights := by decide
  obtain ⟨hpair, -, -, -⟩ := seen_iff_applied twoRows cs hh "A" "V"
  obtain ⟨-, -, -, hhash⟩ := seen_iff_applied twoRows cs hh "V" "V"
  refine ⟨hh, ?_, ?_, hhash.trans (by decide)⟩
  · exact (hpair (by decide)).1.mpr (by decide)
  · exact mt (hpair (by decide)).2.mp (by decide)

end Tracker

end Finality
