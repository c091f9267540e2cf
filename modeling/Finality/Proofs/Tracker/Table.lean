import Mathlib.Data.Set.Card
import Finality.Proofs.Text.Words
import Finality.Proofs.Tracker.Capture
import Finality.Proofs.Tracker.Heights
import Finality.Proofs.Tracker.WellFormed
import Finality.Tracker.Summary

/-! # The summary reports the matrix

The summary is a table: two head lines, then a line of four numbers for every height.  What a line
should say is a matter of the stored cells, `Matrix.Reports`: how many pairs have a prevote, a
precommit, a finalization at the height.

A row in which every position occurs once counts cells as it should (`Matrix.ncard_pairsWith`),
and well-formed cells order the numbers: a finalization comes with both votes, and only on the
reporter's own account.  The lines are taken apart again by the laws of words
(`Snapshot.numbers?_line`), whatever the width of the numbers.

There is a table as long as the heights and the set id have not too many digits to be written
(`Snapshot.Writable`); the result is `summary_run`. -/

namespace Finality

open Text (words numbers? IsWord)
open Text.Numeral (Short maxDigits write? write?_eq_none write?_eq_some)

/-! ### What is stored at a height -/

namespace Matrix

/-- Pairs whose stored cell at a height has a property. -/
def pairsWith (m : Matrix) (h : Nat) (p : Cell → Bool) : Set (Address × Address) :=
  {x | ∃ c ∈ m.cell? h x.1 x.2, p c = true}

/-- Reporters that a cell is stored for at a height. -/
def reportersAt (m : Matrix) (h : Nat) : Set Address := {r | ∃ v, (m.cell? h r v).isSome}

/-- A line consists of four numbers: a height, and how many pairs have a prevote, a precommit and a
finalization there.  No more pairs are finalized than have either vote, nor than there are
reporters. -/
structure Reports (m : Matrix) (h : Nat) (line : List Char) : Prop where
  numbers : numbers? line = some [h, (m.pairsWith h Cell.hasPrevote).ncard,
    (m.pairsWith h Cell.hasPrecommit).ncard, (m.pairsWith h Cell.hasFinalization).ncard]
  finalized_le_prevotes :
    (m.pairsWith h Cell.hasFinalization).ncard ≤ (m.pairsWith h Cell.hasPrevote).ncard
  finalized_le_precommits :
    (m.pairsWith h Cell.hasFinalization).ncard ≤ (m.pairsWith h Cell.hasPrecommit).ncard
  finalized_le_reporters :
    (m.pairsWith h Cell.hasFinalization).ncard ≤ (m.reportersAt h).ncard

variable {m : Matrix} {h : Nat} {p q : Cell → Bool}

theorem pairsWith_eq {row : Row} (hrow : m.row? h = some row) (hu : row.Unique) :
    m.pairsWith h p = (((row.cells.filter fun c => p c.2.2).map fun c => (c.1, c.2.1)).toFinset :
      Set (Address × Address)) := by
  ext ⟨r, v⟩
  have hcell : m.cell? h r v = row.cell? r v := by rw [cell?, hrow]; rfl
  simp only [pairsWith, Set.mem_ofPred_eq, hcell, List.coe_toFinset, List.mem_map, List.mem_filter,
    Option.mem_def, ← hu.mem_cells_iff]
  constructor
  · rintro ⟨c, hc, hp⟩
    exact ⟨(r, v, c), ⟨hc, hp⟩, rfl⟩
  · rintro ⟨⟨_, _, c⟩, ⟨hc, hp⟩, heq⟩
    cases heq
    exact ⟨c, hc, hp⟩

theorem ncard_pairsWith {row : Row} (hrow : m.row? h = some row) (hu : row.Unique) :
    (m.pairsWith h p).ncard = row.count p := by
  have hnodup : ((row.cells.filter fun c => p c.2.2).map fun c => (c.1, c.2.1)).Nodup :=
    hu.nodup_pairs.sublist (List.filter_sublist.map _)
  rw [pairsWith_eq hrow hu, Set.ncard_coe_finset, List.toFinset_card_of_nodup hnodup,
    List.length_map, Row.count, List.countP_eq_length_filter]

section bounds
variable (hm : m.AllUnique)
include hm

theorem finite_pairsWith (h : Nat) (p : Cell → Bool) : (m.pairsWith h p).Finite := by
  cases hrow : m.row? h with
  | none =>
      have hempty : m.pairsWith h p = ∅ := by simp [pairsWith, cell?, hrow]
      exact hempty ▸ Set.finite_empty
  | some row =>
      rw [pairsWith_eq hrow (hm.row? hrow)]
      exact Finset.finite_toSet _

theorem finite_reportersAt (h : Nat) : (m.reportersAt h).Finite := by
  refine ((finite_pairsWith hm h fun _ => true).image Prod.fst).subset ?_
  rintro r ⟨v, hv⟩
  obtain ⟨c, hc⟩ := Option.isSome_iff_exists.mp hv
  exact ⟨(r, v), ⟨c, hc, rfl⟩, rfl⟩

theorem ncard_pairsWith_le (hpq : ∀ r v c, m.cell? h r v = some c → p c = true → q c = true) :
    (m.pairsWith h p).ncard ≤ (m.pairsWith h q).ncard := by
  refine Set.ncard_le_ncard ?_ (finite_pairsWith hm h q)
  rintro ⟨r, v⟩ ⟨c, hc, hp⟩
  exact ⟨c, hc, hpq r v c hc hp⟩

/-- Reporters have a property at most once each if they have it on their own account only. -/
theorem ncard_pairsWith_le_reporters
    (hown : ∀ r v c, m.cell? h r v = some c → p c = true → r = v) :
    (m.pairsWith h p).ncard ≤ (m.reportersAt h).ncard := by
  refine Set.ncard_le_ncard_of_injOn Prod.fst ?_ ?_ (finite_reportersAt hm h)
  · rintro ⟨r, v⟩ ⟨c, hc, -⟩
    exact ⟨v, hc ▸ rfl⟩
  · rintro ⟨r, v⟩ ⟨c, hc, hp⟩ ⟨r', v'⟩ ⟨c', hc', hp'⟩ (rfl : r = r')
    rw [← hown r v c hc hp, ← hown r v' c' hc' hp']

end bounds

end Matrix

/-! ### Lines of the table -/

namespace Snapshot

theorem words_alignRight (width : Nat) (s : String) :
    words (alignRight width s).toList = words s.toList := by
  rw [alignRight, String.toList_append, String.toList_ofList]
  refine Text.words_spaces_append (fun c hc => ?_) s.toList
  rw [List.eq_of_mem_replicate hc]
  decide

theorem mem_alignRight {width : Nat} {s : String} {c : Char}
    (hc : c ∈ (alignRight width s).toList) : c = ' ' ∨ c ∈ s.toList := by
  rw [alignRight, String.toList_append, String.toList_ofList, List.mem_append] at hc
  exact hc.imp_left List.eq_of_mem_replicate

section tableLine
variable {fields : List String} (hfields : ∀ field ∈ fields, IsWord field.toList)
include hfields

theorem words_tableLine (hwidth : fields.length ≤ columnWidths.length) :
    words (tableLine fields).toList = fields.map String.toList := by
  have hcolumns : ((columnWidths.zip fields).map (·.2)).map String.toList =
      fields.map String.toList := by
    rw [List.map_snd_zip hwidth]
  rw [tableLine, String.toList_intercalate, ← hcolumns, List.map_map, List.map_map]
  have hblank : " ".toList = [' '] := rfl
  rw [hblank, Text.words_intercalate, List.flatMap_map, ← List.flatMap_pure_eq_map]
  refine List.flatMap_congr fun x hx => ?_
  rw [Function.comp_apply, words_alignRight]
  exact (hfields x.2 (List.of_mem_zip hx).2).words_eq

theorem lineFeed_not_mem_tableLine : '\n' ∉ (tableLine fields).toList := by
  intro hmem
  rw [tableLine, String.toList_intercalate] at hmem
  rcases Text.mem_intercalate hmem with hmem | ⟨column, hcolumn, hmem⟩
  · exact absurd hmem (by decide)
  · simp only [List.map_map, List.mem_map] at hcolumn
    obtain ⟨x, hx, rfl⟩ := hcolumn
    rcases mem_alignRight hmem with hblank | hmem
    · exact absurd hblank (by decide)
    · exact absurd ((hfields x.2 (List.of_mem_zip hx).2).not_space _ hmem) (by decide)

end tableLine

/-- Numbers of the line of a height, from left to right. -/
def Tally.numbers (t : Tally) : List Nat := [t.height, t.prevotes, t.precommits, t.finalized]

/-- The line of a height, if it can be written. -/
def Tally.line (t : Tally) : String := tableLine (t.numbers.map toString)

theorem Tally.line?_eq_some {t : Tally} (h : Short t.height) : t.line? = some t.line := by
  rw [line?, write?_eq_some (n := (t.height : Int)) h]
  rfl

theorem Tally.line?_eq_none {t : Tally} (h : ¬Short t.height) : t.line? = none := by
  rw [line?, write?_eq_none (n := (t.height : Int)) h]
  rfl

theorem isWord_of_mem_numbers {ns : List Nat} :
    ∀ field ∈ ns.map (toString : Nat → String), IsWord field.toList := by
  intro field hfield
  obtain ⟨n, -, rfl⟩ := List.mem_map.mp hfield
  rw [Nat.toString_eq_repr, Nat.toList_repr]
  exact Text.isWord_toDigits n

/-- The numbers of a line are read back from it. -/
theorem numbers?_line (t : Tally) : numbers? t.line.toList = some t.numbers := by
  refine Text.numbers?_eq_some ?_
  rw [Tally.line, words_tableLine isWord_of_mem_numbers (Nat.le_refl _), List.map_map]
  refine List.map_congr_left fun n _ => ?_
  rw [Function.comp_apply, Nat.toString_eq_repr, Nat.toList_repr]

theorem lineFeed_not_mem_toDigits (n : Nat) : '\n' ∉ Nat.toDigits 10 n := by
  intro hmem
  exact absurd (Text.Numeral.isAsciiDigit_of_mem_toDigits hmem) (by decide)

theorem lineFeed_not_mem_toString (n : Int) : '\n' ∉ (toString n).toList := by
  cases n with
  | ofNat n =>
      have hdigits : (toString (Int.ofNat n)).toList = Nat.toDigits 10 n := Nat.toList_repr
      exact hdigits ▸ lineFeed_not_mem_toDigits n
  | negSucc n =>
      have hdigits : (toString (Int.negSucc n)).toList = "-".toList ++ Nat.toDigits 10 (n + 1) := by
        rw [← Nat.toList_repr, ← String.toList_append]
        rfl
      rw [hdigits, List.mem_append, not_or]
      exact ⟨by decide, lineFeed_not_mem_toDigits _⟩

/-! ### The table -/

/-- The heights and the set id have not too many digits to be written. -/
structure Writable (s : Snapshot) : Prop where
  heights : ∀ h ∈ s.heights, Short h
  setId : ∀ id ∈ s.authoritySetId, Short id.natAbs

variable {s : Snapshot} {first : String}

theorem exists_authorityLine (h : ∀ id ∈ s.authoritySetId, Short id.natAbs) :
    ∃ first, s.authorityLine? = some first := by
  rw [authorityLine?]
  cases hset : s.authoritySetId with
  | none => exact ⟨_, rfl⟩
  | some id =>
      exact ⟨_, by rw [Option.elim_some, write?_eq_some (h id hset), Option.map_some]⟩

theorem authorityLine?_eq_none {id : Int} (hset : s.authoritySetId = some id)
    (h : ¬Short id.natAbs) : s.authorityLine? = none := by
  rw [authorityLine?, hset, Option.elim_some, write?_eq_none h, Option.map_none]

theorem lineFeed_not_mem_authorityLine (h : s.authorityLine? = some first) :
    '\n' ∉ first.toList := by
  obtain ⟨id, hid, rfl⟩ := Option.map_eq_some_iff.mp h
  have hset : '\n' ∉ id.toList := by
    cases hset : s.authoritySetId with
    | none =>
        rw [hset] at hid
        cases hid
        decide
    | some n =>
        rw [hset, Option.elim_some, write?] at hid
        split at hid
        · cases hid
          exact lineFeed_not_mem_toString n
        · cases hid
  have hmembers : '\n' ∉ (toString s.authorities.length).toList := by
    rw [Nat.toString_eq_repr, Nat.toList_repr]
    exact lineFeed_not_mem_toDigits _
  have happend : ∀ {a b : String}, '\n' ∉ a.toList → '\n' ∉ b.toList → '\n' ∉ (a ++ b).toList := by
    intro a b ha hb
    rw [String.toList_append]
    exact List.not_mem_append ha hb
  exact happend (happend (happend (happend (by decide) hset) (by decide)) hmembers)
    (by decide)

theorem isWord_of_mem_headings : ∀ field ∈ headings, IsWord field.toList := by decide

theorem summaryLines?_eq_some (hheights : ∀ h ∈ s.heights, Short h)
    (hfirst : s.authorityLine? = some first) : s.summaryLines? =
      some (first :: tableLine headings :: s.items.map fun item => (tally item).line) := by
  have hlines : s.items.mapM (fun item => (tally item).line?) =
      some (s.items.map fun item => (tally item).line) :=
    List.mapM_eq_pure_map fun item hitem =>
      Tally.line?_eq_some (hheights item.1 (List.mem_map_of_mem hitem))
  rw [summaryLines?, hfirst, hlines]
  rfl

/-- A number that cannot be written leaves no table. -/
theorem summary?_eq_none (h : ¬s.Writable) : s.summary? = none := by
  rw [summary?, Option.map_eq_none_iff, summaryLines?]
  by_cases hset : ∀ id ∈ s.authoritySetId, Short id.natAbs
  · obtain ⟨first, hfirst⟩ := exists_authorityLine hset
    have hheights : ∃ item ∈ s.items, ¬Short item.1 := by
      by_contra hall
      simp only [not_exists, not_and, not_not] at hall
      refine h ⟨fun g hg => ?_, hset⟩
      obtain ⟨item, hitem, rfl⟩ := List.mem_map.mp hg
      exact hall item hitem
    obtain ⟨item, hitem, hlong⟩ := hheights
    have hline : (tally item).line? = none := Tally.line?_eq_none hlong
    rw [hfirst, List.mapM_eq_none hitem hline]
    rfl
  · simp only [not_forall, exists_prop] at hset
    obtain ⟨id, hid, hlong⟩ := hset
    rw [authorityLine?_eq_none hid hlong]
    rfl

/-- The lines of the table are those that it was put together from. -/
theorem splitOn_summary (hheights : ∀ h ∈ s.heights, Short h)
    (hfirst : s.authorityLine? = some first) : ∃ text, s.summary? = some text ∧
      text.toList.splitOn '\n' =
        first.toList :: (tableLine headings).toList :: s.items.map fun item =>
          (tally item).line.toList := by
  refine ⟨_, by rw [summary?, summaryLines?_eq_some hheights hfirst, Option.map_some], ?_⟩
  have hfeed : "\n".toList = ['\n'] := rfl
  rw [String.toList_intercalate, hfeed, List.splitOn_intercalate '\n' ?_ (by simp)]
  · simp only [List.map_cons, List.map_map]
    rfl
  · intro line hline
    simp only [List.map_cons, List.map_map, List.mem_cons, List.mem_map] at hline
    rcases hline with rfl | rfl | ⟨item, -, rfl⟩
    · exact lineFeed_not_mem_authorityLine hfirst
    · exact lineFeed_not_mem_tableLine isWord_of_mem_headings
    · exact lineFeed_not_mem_tableLine isWord_of_mem_numbers

end Snapshot

/-! ### The table of a run -/

namespace Tracker

theorem reports_line {t : Tracker} {b : Bool} {item : Nat × Row}
    (hu : t.matrix.AllUnique)
    (hwell : ∀ h r v, (t.matrix.cell h r v).WellFormed b h r v)
    (hitem : item ∈ t.matrix.rows) :
    t.matrix.Reports item.1 (Snapshot.tally item).line.toList := by
  have hrow : t.matrix.row? item.1 = some item.2 := Matrix.row?_eq_some_iff.mpr hitem
  have hfinal : ∀ r v c, t.matrix.cell? item.1 r v = some c → c.hasFinalization = true →
      c.hasPrevote = true ∧ c.hasPrecommit = true ∧ r = v := by
    intro r v c hc hp
    have hc := Matrix.cell_eq_of_cell? hc ▸ hwell item.1 r v
    have hseen : c.finalized = true := by
      rcases (Bool.or_eq_true _ _).mp hp with hf | hi
      · exact hf
      · exact (hc.all_of_impliedFinal hi).1
    obtain ⟨hprevote, hprecommit, hown⟩ := hc.votes_of_finalized hseen
    exact ⟨by simp [Cell.hasPrevote, hprevote], by simp [Cell.hasPrecommit, hprecommit], hown⟩
  exact {
    numbers := by
      rw [Snapshot.numbers?_line]
      simp only [Matrix.ncard_pairsWith hrow (hu.row? hrow)]
      rfl
    finalized_le_prevotes := Matrix.ncard_pairsWith_le hu fun r v c hc hp => (hfinal r v c hc hp).1
    finalized_le_precommits :=
      Matrix.ncard_pairsWith_le hu fun r v c hc hp => (hfinal r v c hc hp).2.1
    finalized_le_reporters :=
      Matrix.ncard_pairsWith_le_reporters hu fun r v c hc hp => (hfinal r v c hc hp).2.2 }

/-- **The summary reports the matrix.**  After every run that leaves no number with too many digits
there is a summary, and its lines are the line of the authorities, the headings and a report for
each stored height, the highest first.  Otherwise there is none. -/
theorem summary_run (cfg : Config) (cs : List Call) :
    let t := run cfg fresh cs
    ∃ s, t.capture = .ok s ∧ (¬s.Writable → s.summary? = none) ∧
      (s.Writable → ∃ text first columns reports,
        s.summary? = some text ∧ s.authorityLine? = some first ∧
        text.toList.splitOn '\n' = first.toList :: columns :: reports ∧
        words columns = Snapshot.headings.map String.toList ∧
        t.matrix.heights.Pairwise (fun a b => b < a) ∧
        List.Forall₂ t.matrix.Reports t.matrix.heights reports) := by
  intro t
  have hu : t.matrix.AllUnique := allUnique_run cfg cs
  refine ⟨t.snapshot, capture_eq_snapshot hu, Snapshot.summary?_eq_none,
    fun hshort => ?_⟩
  obtain ⟨first, hfirst⟩ := Snapshot.exists_authorityLine hshort.setId
  obtain ⟨text, htext, hlines⟩ := Snapshot.splitOn_summary hshort.heights hfirst
  refine ⟨text, first, (Snapshot.tableLine Snapshot.headings).toList,
    t.matrix.rows.map fun item => (Snapshot.tally item).line.toList, htext, hfirst, hlines, ?_,
    t.matrix.heights_descending, ?_⟩
  · exact Snapshot.words_tableLine Snapshot.isWord_of_mem_headings (by decide)
  · rw [Matrix.heights, List.forall₂_map_left_iff, List.forall₂_map_right_iff,
      List.forall₂_same]
    exact fun item hitem =>
      reports_line hu (wellFormed_run cfg cs) hitem

/-- A vote at a height of too many digits: there is a snapshot, but no table. -/
theorem not_summary_overlong :
    let t := run .standard fresh [.vote .prevote "A" (10 ^ maxDigits) "0x" "V"]
    ∃ s, t.capture = .ok s ∧ s.summary? = none := by
  intro t
  have happlied : ∀ h, appliedHeights .standard [.vote .prevote "A" h "0x" "V"] = {h} := fun _ => rfl
  have htop : t.matrix.highest = some (10 ^ maxDigits) := by
    refine highest_run (by rw [happlied, Finset.mem_singleton]) fun g hg => ?_
    rw [happlied, Finset.mem_singleton] at hg
    exact hg.le
  have hkept := (Matrix.highest_eq_some_iff.mp htop).1
  refine ⟨t.snapshot, capture_eq_snapshot (allUnique_run _ _), Snapshot.summary?_eq_none fun h => ?_⟩
  rw [← Snapshot.heights_snapshot] at hkept
  exact Text.Numeral.not_short_pow (h.heights _ hkept)

end Tracker

end Finality
