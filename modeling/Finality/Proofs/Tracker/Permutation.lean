import Finality.Proofs.Tracker.Meaning
import Finality.Proofs.Tracker.Seen

/-! # Sightings in any order

What a cell holds depends on the order of the sightings: a walk stops at what earlier walks left,
the last walk that marks a cell leaves its pointer, and the last finalization its hash.  As long as
no row is opened on the way, all the rest of a cell does not.  `Cell.Reflects b past h r v c` lists
this rest, in terms of which sightings there are in a history, and never of their order:

* what the cell knows is what the history tells (`Explained.knows_iff`);
* what it saw is what the history has at its very height (`Cell.Records.saw_iff`);
* it is finalized exactly if it knows of a finalization, and then holds its own height
  (`Cell.WellFormed`).

So two recordings of permuted sightings agree in it (`observed_recordAll_of_perm`). -/

namespace Finality

namespace Matrix

variable {b : Bool} {past : List Sighting} {m : Matrix} {g h : Nat} {hs : List Nat}
  {r v : Address}

/-! ### A matrix of empty rows -/

/-- The matrix with an empty row at each of some heights. -/
def blank (hs : List Nat) : Matrix := hs.foldl (fun m h => m.ensureRow h) .empty

theorem blank_concat (hs : List Nat) (h : Nat) : blank (hs ++ [h]) = (blank hs).ensureRow h := by
  simp [blank]

theorem mem_heights_blank : g ∈ (blank hs).heights ↔ g ∈ hs := by
  induction hs using List.reverseRecOn with
  | nil => rfl
  | append_singleton hs h ih =>
      rw [blank_concat, ensureRow, mem_heights_alter, ih, List.mem_append, List.mem_singleton,
        or_comm]

theorem cell_blank (hs : List Nat) (h : Nat) (r v : Address) : (blank hs).cell h r v = {} := by
  induction hs using List.reverseRecOn with
  | nil => rfl
  | append_singleton hs g ih => rw [blank_concat, cell_ensureRow, ih]

/-! ### Recording into rows that are there -/

/-- Sightings into rows that are there come in on top, in whatever order. -/
theorem Explained.recordAll (hm : Explained b [] m) (hin : ∀ s ∈ past, s.height ∈ m.heights) :
    Explained b past (m.recordAll b past) := by
  induction past using List.reverseRecOn with
  | nil => exact hm
  | append_singleton past s ih =>
      rw [recordAll_concat]
      have hpast : ∀ s' ∈ past, s'.height ∈ m.heights :=
        fun s' hs' => hin s' (List.mem_append_left _ hs')
      have hs : s.height ∈ m.heights := hin s (List.mem_append_right _ (List.mem_singleton_self s))
      exact (ih hpast).record (Or.inl (mem_heights_recordAll.mpr (Or.inr hs)))

theorem explained_blank (b : Bool) (hs : List Nat) : Explained b [] (blank hs) where
  covered := fun _ hs => absurd hs List.not_mem_nil
  knows_iff := by
    intro h _ r v f
    rw [cell_blank, Cell.knows_empty]
    simp

theorem wellFormed_recordAll (hm : ∀ h r v, (m.cell h r v).WellFormed b h r v)
    (past : List Sighting) (h : Nat) (r v : Address) :
    ((m.recordAll b past).cell h r v).WellFormed b h r v := by
  induction past using List.reverseRecOn generalizing h r v with
  | nil => exact hm h r v
  | append_singleton past s ih =>
      rw [recordAll_concat]
      exact forall_cell_record (fun _ hc => hc.see) (fun _ _ hlt hc => hc.mark hlt) ih h r v

end Matrix

/-! ### What does not depend on the order -/

/-- What a cell of a pair at a height holds of a history in whatever order it was recorded. -/
structure Cell.Reflects (b : Bool) (past : List Sighting) (h : Nat) (r v : Address) (c : Cell) :
    Prop where
  knows_iff : ∀ f, c.knows f = true ↔ ∃ s ∈ past, s.Tells b f r v h
  saw_iff : ∀ w, c.saw w = true ↔ Sighting.vote w r h v ∈ past ∨ c.finalized = true
  finalized_eq : c.finalized = c.knows .finalization
  finalHeight_eq : c.finalHeight = if c.finalized then some h else none

namespace Cell

variable {b : Bool} {past past' : List Sighting} {h : Nat} {r v : Address} {c d : Cell}

theorem WellFormed.finalized_eq (hc : c.WellFormed b h r v) :
    c.finalized = c.knows .finalization := by
  rw [Bool.eq_iff_iff]
  constructor
  · exact fun hf => Bool.or_eq_true_iff.mpr (Or.inl hf)
  · intro hk
    rcases Bool.or_eq_true_iff.mp hk with hf | hi
    · exact hf
    · exact (hc.all_of_impliedFinal hi).1

theorem Reflects.knows_eq (hc : c.Reflects b past h r v) (hd : d.Reflects b past' h r v)
    (hsame : ∀ s, s ∈ past ↔ s ∈ past') (f : MarkKind) : c.knows f = d.knows f := by
  rw [Bool.eq_iff_iff, hc.knows_iff, hd.knows_iff]
  simp only [hsame]

theorem Reflects.finalized_eq_finalized (hc : c.Reflects b past h r v)
    (hd : d.Reflects b past' h r v) (hsame : ∀ s, s ∈ past ↔ s ∈ past') :
    c.finalized = d.finalized := by
  rw [hc.finalized_eq, hd.finalized_eq, hc.knows_eq hd hsame]

theorem Reflects.saw_eq (hc : c.Reflects b past h r v) (hd : d.Reflects b past' h r v)
    (hsame : ∀ s, s ∈ past ↔ s ∈ past') (w : Vote) : c.saw w = d.saw w := by
  rw [Bool.eq_iff_iff, hc.saw_iff, hd.saw_iff, hsame, hc.finalized_eq_finalized hd hsame]

end Cell

namespace Matrix

variable {b : Bool} {past : List Sighting} {h : Nat} {hs : List Nat}

/-- Recorded into rows that are there, a history is reflected by every cell of these rows. -/
theorem reflects_recordAll (hin : ∀ s ∈ past, s.height ∈ hs) (hh : h ∈ hs) (r v : Address) :
    (((blank hs).recordAll b past).cell h r v).Reflects b past h r v := by
  have hin' : ∀ s ∈ past, s.height ∈ (blank hs).heights :=
    fun s hs => mem_heights_blank.mpr (hin s hs)
  have hexplained := (explained_blank b hs).recordAll hin'
  have hrecords := records_recordAll (m := blank hs)
    (fun h r v => (cell_blank hs h r v) ▸ Cell.Records.empty h r v) b past h r v
  have hwell := wellFormed_recordAll (m := blank hs) (b := b)
    (fun h r v => (cell_blank hs h r v) ▸ Cell.WellFormed.empty b h r v) past h r v
  have hh' : h ∈ ((blank hs).recordAll b past).heights :=
    mem_heights_recordAll.mpr (Or.inr (mem_heights_blank.mpr hh))
  exact ⟨hexplained.knows_iff h hh' r v, hrecords.saw_iff, hwell.finalized_eq, hwell.finalHeight_eq⟩

/-- **The order of sightings does not matter to what is observed.**  Some heights get empty rows,
and all sightings are about these heights.  However the sightings are permuted, every position of
the matrix ends up the same in what was seen, in what is known and in its finalization but for the
hash. -/
theorem observed_recordAll_of_perm (b : Bool) (hs : List Nat) {past past' : List Sighting}
    (hperm : past.Perm past') (hin : ∀ s ∈ past, s.height ∈ hs) (h : Nat) (r v : Address) :
    let c := ((blank hs).recordAll b past).cell h r v
    let d := ((blank hs).recordAll b past').cell h r v
    c.prevoted = d.prevoted ∧ c.precommitted = d.precommitted ∧
      c.finalized = d.finalized ∧ c.finalHeight = d.finalHeight ∧
      c.hasPrevote = d.hasPrevote ∧ c.hasPrecommit = d.hasPrecommit ∧
      c.hasFinalization = d.hasFinalization := by
  intro c d
  have hin' : ∀ s ∈ past', s.height ∈ hs := fun s hs => hin s (hperm.mem_iff.mpr hs)
  by_cases hh : h ∈ hs
  · have hc : c.Reflects b past h r v := reflects_recordAll hin hh r v
    have hd : d.Reflects b past' h r v := reflects_recordAll hin' hh r v
    have hsame : ∀ s, s ∈ past ↔ s ∈ past' := fun s => hperm.mem_iff
    have hfinal : c.finalized = d.finalized := hc.finalized_eq_finalized hd hsame
    refine ⟨hc.saw_eq hd hsame .prevote, hc.saw_eq hd hsame .precommit, hfinal, ?_,
      hc.knows_eq hd hsame (.vote .prevote), hc.knows_eq hd hsame (.vote .precommit),
      hc.knows_eq hd hsame .finalization⟩
    rw [hc.finalHeight_eq, hd.finalHeight_eq, hfinal]
  · -- there is no row at all, as no sighting opens one
    have hnone : ∀ past : List Sighting, (∀ s ∈ past, s.height ∈ hs) →
        h ∉ ((blank hs).recordAll b past).heights := by
      intro past hin hmem
      rcases mem_heights_recordAll.mp hmem with ⟨s, hs, rfl⟩ | hmem
      · exact hh (hin s hs)
      · exact hh (mem_heights_blank.mp hmem)
    have hc : c = {} := cell_eq_empty (hnone past hin)
    have hd : d = {} := cell_eq_empty (hnone past' hin')
    rw [hc, hd]
    exact ⟨rfl, rfl, rfl, rfl, rfl, rfl, rfl⟩

/-- A precommit at 7 marks row 5 if it comes before the finalization of row 5, and stops there if it
comes after.  The two cells differ in their implied marks, but in nothing that is observed. -/
theorem observed_recordAll_of_perm_swap :
    let past : List Sighting := [.finalization "V" 5 "0x05", .vote .precommit "V" 7 "V"]
    let past' : List Sighting := [.vote .precommit "V" 7 "V", .finalization "V" 5 "0x05"]
    let c := ((blank [3, 7, 5]).recordAll false past).cell 5 "V" "V"
    let d := ((blank [3, 7, 5]).recordAll false past').cell 5 "V" "V"
    past.Perm past' ∧ (∀ s ∈ past, s.height ∈ [3, 7, 5]) ∧ c ≠ d ∧
      c.precommitted = d.precommitted ∧ c.finalHeight = d.finalHeight ∧
      c.hasPrecommit = d.hasPrecommit := by
  intro past past' c d
  have hperm : past.Perm past' := .swap _ _ []
  have hin : ∀ s ∈ past, s.height ∈ [3, 7, 5] := by decide
  obtain ⟨-, hprecommitted, -, hheight, -, hknown, -⟩ :=
    observed_recordAll_of_perm false [3, 7, 5] hperm hin 5 "V" "V"
  exact ⟨hperm, hin, by decide, hprecommitted, hheight, hknown⟩

end Matrix

end Finality
