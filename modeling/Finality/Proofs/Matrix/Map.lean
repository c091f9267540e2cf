import Mathlib.Data.Finmap
import Mathlib.Data.Finset.Sort
import Finality.Proofs.Matrix.View

/-! # The matrix refines a finite map

From outside a matrix is edited in four ways: a row is made sure of, a cell is made sure of and
written, the oldest rows are dropped, or all rows are.  `RowMap` is the plain account of these
edits, a finite map from heights to rows that knows nothing of an order: an edit inserts an entry,
keeps the entries of the greatest heights (`RowMap.newest`), or starts over.

`Matrix.Refines m s` lists what every query of a matrix says about the map.  All of it follows from
one fact, that look-up in the matrix is look-up in the map (`refines_of_row?_eq`), and that fact is
kept by every edit (`row?_edit_eq`). -/

namespace Finality

variable {g h n : Nat}

/-! ### The first of a descending list -/

/-- In a descending list the first `n` are those with fewer than `n` above them. -/
theorem mem_take_iff_countP {l : List Nat} (hl : l.Pairwise fun a b => b < a) {n : Nat} :
    h ∈ l.take n ↔ h ∈ l ∧ l.countP (fun g => h < g) < n := by
  induction l generalizing n with
  | nil => simp
  | cons a l ih =>
      obtain ⟨habove, hl⟩ := List.pairwise_cons.mp hl
      cases n with
      | zero => simp
      | succ n =>
          rw [List.take_succ_cons, List.mem_cons, List.mem_cons, ih hl]
          rcases eq_or_ne h a with rfl | hne
          · -- nothing lies above the head, and it is among the first
            have hnone : (h :: l).countP (fun g => h < g) = 0 := by
              rw [List.countP_eq_zero]
              intro g hg
              rcases List.mem_cons.mp hg with rfl | hg
              · simp
              · simpa using Nat.le_of_lt (habove g hg)
            rw [hnone]
            simp
          · -- the head lies above everything else, which leaves one place less
            simp only [hne, false_or]
            refine and_congr_right fun hh => ?_
            rw [List.countP_cons_of_pos (by simpa using habove h hh)]
            exact (Nat.add_lt_add_iff_right).symm

theorem card_filter_eq_countP (hs : Finset Nat) (p : Nat → Prop) [DecidablePred p] :
    (hs.filter p).card = (hs.sort (· ≥ ·)).countP (fun g => p g) := by
  calc (hs.filter p).card = hs.val.countP p := (Multiset.countP_eq_card_filter p hs.val).symm
    _ = Multiset.countP p (hs.sort (· ≥ ·)) := by rw [Finset.sort_eq]
    _ = (hs.sort (· ≥ ·)).countP (fun g => p g) := Multiset.coe_countP p _

theorem eq_sort_of_mem_iff {l : List Nat} (hl : l.Pairwise fun a b => b < a) {hs : Finset Nat}
    (hmem : ∀ h, h ∈ l ↔ h ∈ hs) : l = hs.sort (· ≥ ·) := by
  have hset : hs = l.toFinset := by
    ext h
    rw [List.mem_toFinset, hmem]
  rw [hset, eq_comm, List.toFinset_sort _ (hl.imp Nat.ne_of_gt)]
  exact hl.imp Nat.le_of_lt

/-! ### Maps from heights to rows -/

/-- A finite map from heights to rows. -/
abbrev RowMap := Finmap fun _ : Nat => Row

namespace RowMap

variable {s : RowMap}

/-- Fewer than `n` heights of the map lie above the height. -/
def AmongGreatest (s : RowMap) (n h : Nat) : Prop := (s.keys.filter (h < ·)).card < n

instance (s : RowMap) (n : Nat) : DecidablePred (s.AmongGreatest n) :=
  fun _ => inferInstanceAs (Decidable (_ < _))

/-- The entries of the greatest `n` heights. -/
def newest (n : Nat) (s : RowMap) : RowMap :=
  Finmap.keysLookupEquiv.symm
    ⟨(s.keys.filter (s.AmongGreatest n),
      fun h => if s.AmongGreatest n h then s.lookup h else none), by
      intro h
      by_cases hh : s.AmongGreatest n h <;> simp [hh, Finmap.lookup_isSome, Finmap.mem_keys]⟩

theorem lookup_newest (n : Nat) (s : RowMap) (h : Nat) :
    (s.newest n).lookup h = if s.AmongGreatest n h then s.lookup h else none := by
  rw [newest, Finmap.keysLookupEquiv_symm_apply_lookup]

end RowMap

/-! ### Edits -/

/-- What is done to a matrix from outside. -/
inductive Matrix.Edit where
  /-- Makes sure that there is a row. -/
  | ensureRow (h : Nat)
  /-- Makes sure that there is a cell. -/
  | ensureCell (h : Nat) (reporter voter : Address)
  /-- Makes sure that there is a cell, and writes it. -/
  | writeCell (h : Nat) (reporter voter : Address) (f : Cell → Cell)
  /-- Keeps the newest rows. -/
  | prune (n : Nat)
  /-- Drops all rows. -/
  | clear

open Finality.Matrix (Edit)

namespace Matrix

variable {m : Matrix} {s : RowMap}

/-- The matrix after an edit. -/
def edit (m : Matrix) : Edit → Matrix
  | .ensureRow h => m.ensureRow h
  | .ensureCell h reporter voter => m.ensureCell h reporter voter
  | .writeCell h reporter voter f => m.alterCell h reporter voter f
  | .prune n => (m.prune n).1
  | .clear => .empty

/-- The matrix after some edits of the empty one. -/
def edits (es : List Edit) : Matrix := es.foldl edit .empty

end Matrix

namespace RowMap

/-- Row at a height, without cells if there is none. -/
def rowAt (s : RowMap) (h : Nat) : Row := (s.lookup h).getD {}

/-- The map after an edit. -/
def edit (s : RowMap) : Edit → RowMap
  | .ensureRow h => s.insert h (s.rowAt h)
  | .ensureCell h reporter voter => s.insert h ((s.rowAt h).ensure reporter voter)
  | .writeCell h reporter voter f => s.insert h ((s.rowAt h).alter reporter voter f)
  | .prune n => s.newest n
  | .clear => ∅

/-- The map after some edits of the empty one. -/
def edits (es : List Edit) : RowMap := es.foldl edit ∅

end RowMap

namespace Matrix

variable {m : Matrix} {s : RowMap}

/-! ### Look-up after an edit -/

theorem mem_heights_iff_mem (hs : ∀ h, m.row? h = s.lookup h) : h ∈ m.heights ↔ h ∈ s := by
  rw [mem_heights_iff, Finmap.mem_iff]
  simp only [hs]

theorem heights_eq_sort (hs : ∀ h, m.row? h = s.lookup h) :
    m.heights = s.keys.sort (· ≥ ·) := by
  refine eq_sort_of_mem_iff m.heights_descending fun h => ?_
  rw [Finmap.mem_keys, mem_heights_iff_mem hs]

theorem row?_alter_eq (hs : ∀ h, m.row? h = s.lookup h) (F : Row → Row) (g : Nat) :
    (m.alter h F).row? g = (s.insert h (F (s.rowAt h))).lookup g := by
  by_cases hg : g = h
  · subst hg
    rw [row?_alter_self, Finmap.lookup_insert, hs, RowMap.rowAt]
  · rw [row?_alter_ne m hg, Finmap.lookup_insert_of_ne s hg, hs]

theorem heights_prune (n : Nat) (m : Matrix) : (m.prune n).1.heights = m.heights.take n := by
  rw [heights, rows_prune, List.map_take, ← heights]

theorem mem_heights_prune (hs : ∀ h, m.row? h = s.lookup h) :
    h ∈ (m.prune n).1.heights ↔ h ∈ m.heights ∧ s.AmongGreatest n h := by
  rw [heights_prune, mem_take_iff_countP m.heights_descending, RowMap.AmongGreatest,
    card_filter_eq_countP, heights_eq_sort hs]

theorem front_prune (n : Nat) (m : Matrix) : Front (m.prune n).1 m := by
  rw [Front, rows_prune]
  exact List.take_prefix n m.rows

theorem row?_prune_eq (hs : ∀ h, m.row? h = s.lookup h) (h : Nat) :
    (m.prune n).1.row? h = (s.newest n).lookup h := by
  rw [RowMap.lookup_newest]
  by_cases hh : h ∈ (m.prune n).1.heights
  · rw [(front_prune n m).row? hh, if_pos ((mem_heights_prune hs).mp hh).2, hs]
  · rw [row?_eq_none_iff.mpr hh]
    by_cases htop : s.AmongGreatest n h
    · -- a height that is great enough is missing only if it was missing before
      have hgone : h ∉ m.heights := fun hm => hh ((mem_heights_prune hs).mpr ⟨hm, htop⟩)
      rw [if_pos htop, ← hs, row?_eq_none_iff.mpr hgone]
    · rw [if_neg htop]

theorem row?_edit_eq (hs : ∀ h, m.row? h = s.lookup h) (e : Edit) (g : Nat) :
    (m.edit e).row? g = (s.edit e).lookup g := by
  cases e with
  | ensureRow h => exact row?_alter_eq hs id g
  | ensureCell h r v => exact row?_alter_eq hs (fun row => row.ensure r v) g
  | writeCell h r v f => exact row?_alter_eq hs (fun row => row.alter r v f) g
  | prune n => exact row?_prune_eq hs g
  | clear => rfl

theorem row?_edits_eq (es : List Edit) (h : Nat) :
    (edits es).row? h = (RowMap.edits es).lookup h := by
  have hrun : ∀ (m : Matrix) (s : RowMap), (∀ h, m.row? h = s.lookup h) →
      ∀ h, (es.foldl edit m).row? h = (es.foldl RowMap.edit s).lookup h := by
    induction es with
    | nil => exact fun _ _ hs => hs
    | cons e es ih => exact fun m s hs => ih _ _ (row?_edit_eq hs e)
  exact hrun .empty ∅ (fun _ => rfl) h

/-! ### Queries -/

/-- What the queries of a matrix say about a finite map. -/
structure Refines (m : Matrix) (s : RowMap) : Prop where
  mem_heights_iff : ∀ h, h ∈ m.heights ↔ h ∈ s
  heights_descending : m.heights.Pairwise fun a b => b < a
  mem_rows_iff : ∀ h row, (h, row) ∈ m.rows ↔ s.lookup h = some row
  size_eq : m.size = s.keys.card
  contains_iff : ∀ h, m.contains h = true ↔ h ∈ s
  isEmpty_iff : m.isEmpty = true ↔ s = ∅
  highest_iff : ∀ h, m.highest = some h ↔ h ∈ s ∧ ∀ g ∈ s, g ≤ h
  lowest_iff : ∀ h, m.lowest = some h ↔ h ∈ s ∧ ∀ g ∈ s, h ≤ g
  find?_eq_none_iff : ∀ h, m.find? h = none ↔ h ∉ s
  /-- The place of a row is its index in the list of all rows, newest first. -/
  find?_eq_some_iff : ∀ h row i,
    m.find? h = some (row, i) ↔ s.lookup h = some row ∧ m.rows[i]? = some (h, row)
  below_eq : ∀ h, m.below h = (s.keys.filter (· < h)).sort (· ≥ ·)

/-- The head of an ordered list is what precedes all else in it. -/
theorem head?_eq_some_iff {R : Nat → Nat → Prop} (hR : ∀ a b, R a b → ¬R b a) {l : List Nat}
    (hl : l.Pairwise R) : l.head? = some h ↔ h ∈ l ∧ ∀ g ∈ l, g = h ∨ R h g := by
  cases l with
  | nil => simp
  | cons a l =>
      have hbehind := (List.pairwise_cons.mp hl).1
      rw [List.head?_cons, Option.some_inj]
      constructor
      · rintro rfl
        refine ⟨List.mem_cons_self, fun g hg => ?_⟩
        exact (List.mem_cons.mp hg).imp_right (hbehind g)
      · rintro ⟨hh, hfirst⟩
        rcases List.mem_cons.mp hh with rfl | hh
        · rfl
        · rcases hfirst a List.mem_cons_self with heq | hlt
          · exact heq
          · exact absurd (hbehind h hh) (hR h a hlt)

theorem highest_eq_some_iff : m.highest = some h ↔ h ∈ m.heights ∧ ∀ g ∈ m.heights, g ≤ h := by
  rw [highest, head?_eq_some_iff (fun _ _ => Nat.lt_asymm) m.heights_descending]
  simp only [Nat.le_iff_lt_or_eq, or_comm]

theorem lowest_eq_some_iff : m.lowest = some h ↔ h ∈ m.heights ∧ ∀ g ∈ m.heights, h ≤ g := by
  have hascending : m.heights.reverse.Pairwise (· < ·) :=
    List.pairwise_reverse.mpr m.heights_descending
  rw [lowest, List.getLast?_eq_head?_reverse,
    head?_eq_some_iff (fun _ _ => Nat.lt_asymm) hascending]
  simp only [List.mem_reverse, Nat.le_iff_lt_or_eq, or_comm, eq_comm]

theorem nodup_heights (m : Matrix) : m.heights.Nodup := m.heights_descending.imp Nat.ne_of_gt

theorem size_eq_length_heights (m : Matrix) : m.size = m.heights.length := by
  rw [size, heights, List.length_map]

theorem find?_eq_some_iff {row : Row} {i : Nat} :
    m.find? h = some (row, i) ↔ m.row? h = some row ∧ m.rows[i]? = some (h, row) := by
  rw [find?, Option.map_eq_some_iff]
  constructor
  · rintro ⟨row', hrow, heq⟩
    obtain ⟨rfl, rfl⟩ := Prod.mk.inj heq
    refine ⟨hrow, ?_⟩
    -- the row that stands at the place of the height is the one found by look-up
    have hplace : m.heights[m.heights.idxOf h]? = some h :=
      List.getElem?_idxOf (mem_heights_iff.mpr ⟨_, hrow⟩)
    rw [heights, List.getElem?_map, Option.map_eq_some_iff] at hplace
    obtain ⟨⟨g, row⟩, hget, rfl⟩ := hplace
    have hstored : m.row? g = some row := row?_eq_some_iff.mpr (List.mem_of_getElem? hget)
    obtain rfl : row = row' := Option.some_inj.mp (hstored.symm.trans hrow)
    exact hget
  · rintro ⟨hrow, hplace⟩
    refine ⟨row, hrow, ?_⟩
    have hheight : m.heights[i]? = some h := by rw [heights, List.getElem?_map, hplace]; rfl
    obtain ⟨hlt, hget⟩ := List.getElem?_eq_some_iff.mp hheight
    rw [← hget, m.nodup_heights.idxOf_getElem]

theorem isEmpty_iff_heights : m.isEmpty = true ↔ m.heights = [] := by
  rw [isEmpty, List.isEmpty_iff, heights, List.map_eq_nil_iff]

/-- A matrix refines the map in which look-up gives the same. -/
theorem refines_of_row?_eq (hs : ∀ h, m.row? h = s.lookup h) : Refines m s where
  mem_heights_iff := fun h => mem_heights_iff_mem hs
  heights_descending := m.heights_descending
  mem_rows_iff := fun h row => by rw [← row?_eq_some_iff, hs]
  size_eq := by rw [size_eq_length_heights, heights_eq_sort hs, Finset.length_sort]
  contains_iff := fun h => by rw [contains, hs, Finmap.lookup_isSome]
  isEmpty_iff := by
    rw [isEmpty_iff_heights, List.eq_nil_iff_forall_not_mem]
    simp only [mem_heights_iff_mem hs]
    constructor
    · intro hnone
      exact Finmap.ext_lookup fun h => by
        rw [Finmap.lookup_eq_none.mpr (hnone h), Finmap.lookup_empty]
    · rintro rfl h
      exact Finmap.notMem_empty
  highest_iff := fun h => by simp only [highest_eq_some_iff, mem_heights_iff_mem hs]
  lowest_iff := fun h => by simp only [lowest_eq_some_iff, mem_heights_iff_mem hs]
  find?_eq_none_iff := fun h => by
    rw [find?, Option.map_eq_none_iff, hs, Finmap.lookup_eq_none]
  find?_eq_some_iff := fun h row i => by rw [find?_eq_some_iff, hs]
  below_eq := fun h => by
    refine eq_sort_of_mem_iff (m.heights_descending.filter _) fun g => ?_
    rw [Finset.mem_filter, Finmap.mem_keys, ← mem_heights_iff_mem hs, List.mem_filter,
      decide_eq_true_iff]

end Matrix

end Finality
