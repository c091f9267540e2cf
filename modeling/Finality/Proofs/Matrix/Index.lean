import Finality.Proofs.Except
import Finality.Proofs.Matrix.Map

/-! # A matrix as a table and an index

A matrix can also be kept in two parts: a table of the rows by height, in the order in which they
were created, and an ascending index of the heights.  `Indexed` is that form.  Look-up reads the
table; whatever depends on the order finds its place in the index by bisection and counts from
there: the place of a row, the walk down from a height, the place of a new height, the heights to
drop.

`Indexed.Represents x m` says that the two parts are in step with each other and hold what `m`
holds.  Every edit keeps that (`Represents.edit`), and under it every query has the same answer
(`Represents.answers`). -/

namespace Finality

variable {g h i n : Nat} {l : List Nat} {before : Nat → Bool}

/-! ### Bisection -/

/-- Place, between two places, of the first entry that does not come before the rest, by halving.
It is the upper of the two if there is none. -/
def bisectFrom (before : Nat → Bool) (l : List Nat) (low high : Nat) : Nat :=
  if low < high then
    let middle := (low + high) / 2
    if before (l.getD middle 0) then bisectFrom before l (middle + 1) high
    else bisectFrom before l low middle
  else low
termination_by high - low
decreasing_by all_goals omega

/-- Place of the first entry that does not come before the rest. -/
def bisect (before : Nat → Bool) (l : List Nat) : Nat := bisectFrom before l 0 l.length

/-- What comes before comes first: if an entry does, so does every entry in front of it. -/
def Split (before : Nat → Bool) (l : List Nat) : Prop :=
  l.Pairwise fun a b => before b = true → before a = true

theorem bisectFrom_eq {c low high : Nat} (hlow : low ≤ c) (hhigh : c ≤ high)
    (hlen : high ≤ l.length) (hc : ∀ i (hi : i < l.length), before l[i] = true ↔ i < c) :
    bisectFrom before l low high = c := by
  fun_induction bisectFrom before l low high with
  | case1 low high hlt middle hbefore ih =>
      have hi : middle < l.length := by omega
      rw [← List.getElem_eq_getD 0 (h := hi), hc middle hi] at hbefore
      exact ih (by omega) hhigh hlen
  | case2 low high hlt middle hbefore ih =>
      have hi : middle < l.length := by omega
      rw [← List.getElem_eq_getD 0 (h := hi), hc middle hi] at hbefore
      exact ih hlow (by omega) (by omega)
  | case3 low high hge => omega

namespace Split

theorem filter_append (hl : Split before l) :
    l.filter before ++ l.filter (fun a => !before a) = l := by
  induction l with
  | nil => rfl
  | cons a l ih =>
      obtain ⟨hfirst, hrest⟩ := List.pairwise_cons.mp hl
      cases ha : before a with
      | true => simp [ha, ih hrest]
      | false =>
          -- then nothing behind it comes before
          have hnone : ∀ b ∈ l, before b = false := by
            intro b hb
            rw [Bool.eq_false_iff]
            exact fun hbefore => by simp [hfirst b hb hbefore] at ha
          have hkeep : l.filter before = [] := by simpa using hnone
          have hrest' : l.filter (fun a => !before a) = l := by simpa using hnone
          simp [ha, hkeep, hrest']

theorem before_getElem_iff (hl : Split before l) (hi : i < l.length) :
    before l[i] = true ↔ i < (l.filter before).length := by
  rw [List.getElem_of_eq hl.filter_append.symm hi, List.getElem_append]
  split
  · rename_i hlt
    exact iff_of_true (List.mem_filter.mp (List.getElem_mem _)).2 hlt
  · rename_i hge
    refine iff_of_false ?_ hge
    rw [Bool.not_eq_true, ← Bool.not_eq_true']
    exact (List.mem_filter (p := fun a => !before a).mp (List.getElem_mem _)).2

/-- Bisection counts the entries that come before. -/
theorem bisect_eq (hl : Split before l) : bisect before l = (l.filter before).length :=
  bisectFrom_eq (Nat.zero_le _) (List.length_filter_le before l) (Nat.le_refl _)
    fun _ hi => hl.before_getElem_iff hi

theorem take_bisect (hl : Split before l) : l.take (bisect before l) = l.filter before := by
  calc l.take (bisect before l)
      = (l.filter before ++ l.filter (fun a => !before a)).take (l.filter before).length := by
        rw [hl.bisect_eq, hl.filter_append]
    _ = l.filter before := List.take_left

theorem drop_bisect (hl : Split before l) :
    l.drop (bisect before l) = l.filter fun a => !before a := by
  calc l.drop (bisect before l)
      = (l.filter before ++ l.filter (fun a => !before a)).drop (l.filter before).length := by
        rw [hl.bisect_eq, hl.filter_append]
    _ = l.filter fun a => !before a := List.drop_left

end Split

/-- Place of the first entry that is not below a number. -/
def bisectLeft (h : Nat) (l : List Nat) : Nat := bisect (· < h) l

/-- Place of the first entry above a number. -/
def bisectRight (h : Nat) (l : List Nat) : Nat := bisect (· ≤ h) l

/-- Inserts a number in front of the first entry above it. -/
def insort (h : Nat) (l : List Nat) : List Nat :=
  l.take (bisectRight h l) ++ h :: l.drop (bisectRight h l)

/-- The entries in front of a place, nearest first. -/
def downward (l : List Nat) : Nat → List Nat
  | 0 => []
  | i + 1 => l.getD i 0 :: downward l i

theorem split_lt (hl : l.Pairwise (· < ·)) (h : Nat) : Split (· < h) l :=
  hl.imp fun hab hb => by simp only [decide_eq_true_iff] at hb ⊢; omega

theorem split_le (hl : l.Pairwise (· < ·)) (h : Nat) : Split (· ≤ h) l :=
  hl.imp fun hab hb => by simp only [decide_eq_true_iff] at hb ⊢; omega

theorem mem_insort : g ∈ insort h l ↔ g = h ∨ g ∈ l := by
  rw [insort, List.mem_append, List.mem_cons, or_left_comm, ← List.mem_append,
    List.take_append_drop]

theorem ascending_insort (hl : l.Pairwise (· < ·)) (hh : h ∉ l) :
    (insort h l).Pairwise (· < ·) := by
  have hsplit := split_le hl h
  rw [insort, bisectRight, hsplit.take_bisect, hsplit.drop_bisect]
  refine List.pairwise_append.mpr ⟨hl.filter _, List.pairwise_cons.mpr ⟨?_, hl.filter _⟩, ?_⟩
  · intro b hb
    have hb := (List.mem_filter.mp hb).2
    simp only [Bool.not_eq_true', decide_eq_false_iff_not] at hb
    omega
  · intro a ha b hb
    obtain ⟨hmem, ha⟩ := List.mem_filter.mp ha
    simp only [decide_eq_true_iff] at ha
    have hne : a ≠ h := fun heq => hh (heq ▸ hmem)
    rcases List.mem_cons.mp hb with rfl | hb
    · omega
    · have hb := (List.mem_filter.mp hb).2
      simp only [Bool.not_eq_true', decide_eq_false_iff_not] at hb
      omega

theorem downward_eq (hi : i ≤ l.length) : downward l i = (l.take i).reverse := by
  induction i with
  | zero => rfl
  | succ i ih =>
      rw [downward, ih (by omega), List.take_succ_eq_append_getElem (by omega), List.reverse_append,
        List.reverse_singleton, List.singleton_append, ← List.getElem_eq_getD]

theorem mem_take_iff_not_mem_drop (hl : l.Nodup) : g ∈ l.take n ↔ g ∈ l ∧ g ∉ l.drop n := by
  have hparts : g ∈ l ↔ g ∈ l.take n ∨ g ∈ l.drop n := by
    rw [← List.mem_append, List.take_append_drop]
  have hapart : g ∈ l.take n → g ∉ l.drop n := by
    intro hfront hback
    exact List.disjoint_take_drop hl (Nat.le_refl n) hfront hback
  tauto

/-! ### Table and index -/

/-- Rows in a table, their heights in an index. -/
structure Indexed where
  /-- Rows by height, in order of creation. -/
  table : List (Nat × Row) := []
  /-- Heights, ascending. -/
  index : List Nat := []

namespace Indexed

/-- Row at a height. -/
def row? (x : Indexed) (h : Nat) : Option Row := x.table.lookup h

/-- All rows, newest first; `none` if the table lacks a height of the index. -/
def rows? (x : Indexed) : Option (List (Nat × Row)) :=
  x.index.reverse.mapM fun h => (x.row? h).map (h, ·)

/-- Number of rows. -/
def size (x : Indexed) : Nat := x.table.length

/-- Whether there is a row at a height. -/
def contains (x : Indexed) (h : Nat) : Bool := (x.row? h).isSome

/-- Whether there is no row. -/
def isEmpty (x : Indexed) : Bool := x.table.isEmpty

/-- Greatest height. -/
def highest (x : Indexed) : Option Nat := x.index.getLast?

/-- Least height. -/
def lowest (x : Indexed) : Option Nat := x.index.head?

/-- Row at a height with its place, counted from the upper end of the index. -/
def find? (x : Indexed) (h : Nat) : Option (Row × Int) :=
  (x.row? h).map fun row => (row, (x.index.length : Int) - 1 - bisectLeft h x.index)

/-- Heights below a height, highest first. -/
def below (x : Indexed) (h : Nat) : List Nat := downward x.index (bisectLeft h x.index)

/-- Changes the row at a height; a missing one is created and enters the index. -/
def alter (h : Nat) (F : Row → Row) (x : Indexed) : Indexed where
  table := Ordered.alter h (fun row => F (row.getD {})) x.table
  index := if x.contains h then x.index else insort h x.index

/-- Drops the lowest heights of the index, and their rows. -/
def dropLowest (k : Nat) (x : Indexed) : Indexed where
  table := x.table.filter fun e => !(x.index.take k).contains e.1
  index := x.index.drop k

/-- Drops the lowest heights until a number is left, and tells by how many they exceeded it. -/
def prune (limit : Int) (x : Indexed) : Indexed × Int :=
  let excess := (x.index.length : Int) - limit
  if excess ≤ 0 then (x, 0) else (x.dropLowest excess.toNat, excess)

/-- Table and index after an edit. -/
def edit (x : Indexed) : Matrix.Edit → Indexed
  | .ensureRow h => x.alter h id
  | .ensureCell h reporter voter => x.alter h fun row => row.ensure reporter voter
  | .writeCell h reporter voter f => x.alter h fun row => row.alter reporter voter f
  | .prune n => (x.prune n).1
  | .clear => {}

/-- Table and index after some edits of empty ones. -/
def edits (es : List Matrix.Edit) : Indexed := es.foldl edit {}

/-! ### What they hold -/

/-- Table and index are in step and hold the rows of a matrix. -/
structure Represents (x : Indexed) (m : Matrix) : Prop where
  index_eq : x.index = m.heights.reverse
  row?_eq : ∀ h, x.row? h = m.row? h
  keys_perm : (Ordered.keys x.table).Perm m.heights

variable {x : Indexed} {m : Matrix}

namespace Represents

theorem empty : Represents {} .empty := ⟨rfl, fun _ => rfl, .nil⟩

theorem mem_index (hx : x.Represents m) : h ∈ x.index ↔ h ∈ m.heights := by
  rw [hx.index_eq, List.mem_reverse]

theorem ascending (hx : x.Represents m) : x.index.Pairwise (· < ·) := by
  rw [hx.index_eq]
  exact List.pairwise_reverse.mpr m.heights_descending

theorem contains_eq (hx : x.Represents m) (h : Nat) : x.contains h = m.contains h := by
  rw [contains, hx.row?_eq, Matrix.contains]

theorem contains_iff (hx : x.Represents m) : x.contains h = true ↔ h ∈ m.heights := by
  rw [hx.contains_eq, Matrix.contains, Option.isSome_iff_exists, Matrix.mem_heights_iff]

theorem alter (hx : x.Represents m) (h : Nat) (F : Row → Row) :
    (x.alter h F).Represents (m.alter h F) where
  index_eq := by
    have hascending : (m.alter h F).heights.reverse.Pairwise (· < ·) :=
      List.pairwise_reverse.mpr (m.alter h F).heights_descending
    by_cases hh : x.contains h = true
    · have hindex : (x.alter h F).index = x.index := if_pos hh
      rw [hindex]
      refine hx.ascending.eq_of_mem_iff hascending fun g => ?_
      rw [hx.mem_index, List.mem_reverse, Matrix.mem_heights_alter]
      exact ⟨Or.inr, fun hg => hg.elim (fun e => e ▸ hx.contains_iff.mp hh) id⟩
    · have hindex : (x.alter h F).index = insort h x.index := if_neg hh
      have hnew : h ∉ x.index := fun hmem => hh (hx.contains_iff.mpr (hx.mem_index.mp hmem))
      rw [hindex]
      refine (ascending_insort hx.ascending hnew).eq_of_mem_iff hascending fun g => ?_
      rw [mem_insort, hx.mem_index, List.mem_reverse, Matrix.mem_heights_alter]
  row?_eq := by
    intro g
    by_cases hg : g = h
    · subst hg
      rw [row?, Indexed.alter, Ordered.lookup_alter_self, Matrix.row?_alter_self, ← hx.row?_eq,
        row?]
    · rw [row?, Indexed.alter, Ordered.lookup_alter_ne (beq_false_of_ne hg),
        Matrix.row?_alter_ne m hg, ← hx.row?_eq, row?]
  keys_perm := by
    have hkeys : (Ordered.keys x.table).Nodup := hx.keys_perm.nodup_iff.mpr m.nodup_heights
    refine (List.perm_ext_iff_of_nodup (Ordered.nodup_keys_alter hkeys)
      (m.alter h F).nodup_heights).mpr fun g => ?_
    rw [Ordered.mem_keys_alter, hx.keys_perm.mem_iff, Matrix.mem_heights_alter]

theorem dropLowest (hx : x.Represents m) (hn : n ≤ m.heights.length) :
    (x.dropLowest (m.heights.length - n)).Represents (m.prune n).1 := by
  have hdropped : x.index.take (m.heights.length - n) = (m.heights.drop n).reverse := by
    rw [hx.index_eq, List.take_reverse, Nat.sub_sub_self hn]
  -- the heights that are kept are those that are not dropped
  have hkept : ∀ g, g ∈ (m.prune n).1.heights ↔
      g ∈ m.heights ∧ (!(x.index.take (m.heights.length - n)).contains g) = true := by
    intro g
    rw [Matrix.heights_prune, mem_take_iff_not_mem_drop m.nodup_heights, hdropped]
    simp
  refine ⟨?_, fun g => ?_, ?_⟩
  · rw [Indexed.dropLowest, hx.index_eq, List.drop_reverse, Nat.sub_sub_self hn,
      Matrix.heights_prune]
  · rw [row?, Indexed.dropLowest, Ordered.lookup_filter (fun k => !(x.index.take _).contains k),
      ← row?, hx.row?_eq]
    by_cases hg : g ∈ (m.prune n).1.heights
    · rw [if_pos ((hkept g).mp hg).2, (Matrix.front_prune n m).row? hg]
    · rw [Matrix.row?_eq_none_iff.mpr hg]
      split
      · rename_i hstays
        exact Matrix.row?_eq_none_iff.mpr fun hmem => hg ((hkept g).mpr ⟨hmem, hstays⟩)
      · rfl
  · have hkeys : (Ordered.keys x.table).Nodup := hx.keys_perm.nodup_iff.mpr m.nodup_heights
    have hfilter : Ordered.keys (x.dropLowest (m.heights.length - n)).table =
        (Ordered.keys x.table).filter
          fun g => !(x.index.take (m.heights.length - n)).contains g := by
      rw [Ordered.keys, Ordered.keys, List.filter_map]
      rfl
    rw [hfilter]
    refine (List.perm_ext_iff_of_nodup (hkeys.filter _) (m.prune n).1.nodup_heights).mpr fun g => ?_
    rw [List.mem_filter, hx.keys_perm.mem_iff, hkept]

theorem prune (hx : x.Represents m) (n : Nat) :
    (x.prune n).1.Represents (m.prune n).1 ∧ (x.prune n).2 = (m.prune n).2 := by
  have hlength : x.index.length = m.size := by
    rw [hx.index_eq, List.length_reverse, Matrix.size_eq_length_heights]
  by_cases hle : (m.size : Int) - n ≤ 0
  · simp only [Indexed.prune, Matrix.prune, hlength, hle, if_true]
    exact ⟨hx, trivial⟩
  · have hexcess : ((m.size : Int) - n).toNat = m.heights.length - n := by
      rw [← Matrix.size_eq_length_heights]
      omega
    have hn : n ≤ m.heights.length := by
      rw [← Matrix.size_eq_length_heights]
      omega
    refine ⟨?_, ?_⟩
    · simp only [Indexed.prune, hlength, hle, if_false, hexcess]
      exact hx.dropLowest hn
    · simp only [Indexed.prune, Matrix.prune, hlength, hle, if_false]

/-- Every edit keeps table and index in step. -/
theorem edit (hx : x.Represents m) (e : Matrix.Edit) : (x.edit e).Represents (m.edit e) := by
  cases e with
  | ensureRow h => exact hx.alter h id
  | ensureCell h r v => exact hx.alter h fun row => row.ensure r v
  | writeCell h r v f => exact hx.alter h fun row => row.alter r v f
  | prune n => exact (hx.prune n).1
  | clear => exact .empty

end Represents

theorem represents_edits (es : List Matrix.Edit) : (edits es).Represents (Matrix.edits es) := by
  have hrun : ∀ (x : Indexed) (m : Matrix), x.Represents m →
      (es.foldl edit x).Represents (es.foldl Matrix.edit m) := by
    induction es with
    | nil => exact fun _ _ hx => hx
    | cons e es ih => exact fun x m hx => ih _ _ (hx.edit e)
  exact hrun {} .empty .empty

/-! ### What they answer -/

/-- Table and index answer every query as a matrix does. -/
structure Answers (x : Indexed) (m : Matrix) : Prop where
  rows?_eq : x.rows? = some m.rows
  size_eq : x.size = m.size
  contains_eq : ∀ h, x.contains h = m.contains h
  isEmpty_eq : x.isEmpty = m.isEmpty
  highest_eq : x.highest = m.highest
  lowest_eq : x.lowest = m.lowest
  find?_eq : ∀ h, x.find? h = (m.find? h).map fun p => (p.1, (p.2 : Int))
  below_eq : ∀ h, x.below h = m.below h
  prune_eq : ∀ n : Nat, (x.prune n).2 = (m.prune n).2

/-- The place of a row from the upper end of the index is its place in the matrix. -/
theorem Represents.place_eq (hx : x.Represents m) (hh : h ∈ m.heights) :
    (x.index.length : Int) - 1 - bisectLeft h x.index = m.heights.idxOf h := by
  obtain ⟨above, under, hparts⟩ := List.append_of_mem hh
  have hd := m.heights_descending
  rw [hparts] at hd
  obtain ⟨-, hunder, hcross⟩ := List.pairwise_append.mp hd
  have habove : ∀ a ∈ above, ¬a < h := fun a ha =>
    Nat.lt_asymm (hcross a ha h List.mem_cons_self)
  have hunder : ∀ b ∈ under, b < h := (List.pairwise_cons.mp hunder).1
  have hplace : m.heights.idxOf h = above.length := by
    have hnot : h ∉ above := fun hmem => Nat.lt_irrefl h (hcross h hmem h List.mem_cons_self)
    rw [hparts, List.idxOf_append_of_notMem hnot, List.idxOf_cons_self, Nat.add_zero]
  have hbelow : m.heights.filter (· < h) = under := by
    rw [hparts, List.filter_append, List.filter_eq_nil_iff.mpr (by simpa using habove),
      List.filter_cons_of_neg (by simp), List.filter_eq_self.mpr (by simpa using hunder),
      List.nil_append]
  have hlength : x.index.length = above.length + 1 + under.length := by
    rw [hx.index_eq, List.length_reverse, hparts, List.length_append, List.length_cons]
    omega
  have hbisect : bisectLeft h x.index = under.length := by
    rw [bisectLeft, (split_lt hx.ascending h).bisect_eq, hx.index_eq, List.filter_reverse,
      List.length_reverse, hbelow]
  rw [hplace, hlength, hbisect]
  omega

theorem Represents.rows?_eq (hx : x.Represents m) : x.rows? = some m.rows := by
  rw [rows?, hx.index_eq, List.reverse_reverse]
  simp only [hx.row?_eq]
  refine List.mapM_map_eq_pure fun e he => ?_
  rw [Matrix.row?_eq_some_iff.mpr he]
  rfl

theorem Represents.size_eq (hx : x.Represents m) : x.size = m.size := by
  have hlength := hx.keys_perm.length_eq
  rw [Ordered.keys, List.length_map, ← Matrix.size_eq_length_heights] at hlength
  exact hlength

theorem Represents.answers (hx : x.Represents m) : x.Answers m where
  rows?_eq := hx.rows?_eq
  size_eq := hx.size_eq
  contains_eq := hx.contains_eq
  isEmpty_eq := by
    have hsize : x.table.length = m.rows.length := hx.size_eq
    rw [isEmpty, Matrix.isEmpty, Bool.eq_iff_iff, List.isEmpty_iff_length_eq_zero, hsize,
      List.isEmpty_iff_length_eq_zero]
  highest_eq := by rw [highest, hx.index_eq, List.getLast?_reverse, Matrix.highest]
  lowest_eq := by rw [lowest, hx.index_eq, List.head?_reverse, Matrix.lowest]
  find?_eq := fun h => by
    rw [find?, Matrix.find?, hx.row?_eq]
    cases hrow : m.row? h with
    | none => rfl
    | some row =>
        rw [Option.map_some, Option.map_some, Option.map_some,
          hx.place_eq (Matrix.mem_heights_iff.mpr ⟨row, hrow⟩)]
  below_eq := fun h => by
    have hsplit := split_lt hx.ascending h
    rw [below, bisectLeft, downward_eq (hsplit.bisect_eq ▸ List.length_filter_le _ _),
      hsplit.take_bisect, hx.index_eq, List.filter_reverse, List.reverse_reverse, Matrix.below]
  prune_eq := fun n => (hx.prune n).2

end Indexed

namespace Matrix

theorem row?_alter (h : Nat) (F : Row → Row) (m : Matrix) :
    (m.alter h F).row? = Function.update m.row? h (some (F ((m.row? h).getD {}))) := by
  funext g
  by_cases hg : g = h
  · subst hg
    rw [row?_alter_self, Function.update_self]
  · rw [row?_alter_ne m hg, Function.update_of_ne hg]

theorem snd_prune (n : Nat) (m : Matrix) :
    (m.prune n).2 = (m.size : Int) - (m.prune n).1.size := by
  by_cases hle : (m.size : Int) - n ≤ 0
  · simp only [prune, hle, if_true]
    omega
  · have hkept : (m.prune n).1.size = min n m.size := by
      rw [size, rows_prune, List.length_take, size]
    rw [hkept]
    simp only [prune, hle, if_false]
    omega

/-- **A matrix refines a finite map.**  After any edits, every query of the matrix says what the map
says, and so does every query of a table and an ascending index.  From there

* pruning keeps the newest rows as they are, and tells how many it dropped;
* making sure of a row or of a cell, or writing it, touches the row at its height only. -/
theorem refines_edits (es : List Edit) :
    let m := edits es
    let s := RowMap.edits es
    let x := Indexed.edits es
    m.Refines s ∧ x.Answers m ∧
    (x.index.Pairwise (· < ·) ∧ ∀ h, h ∈ x.index ↔ h ∈ s) ∧
    (∀ n : Nat, (m.prune n).1.rows = m.rows.take n ∧
      (m.prune n).2 = (m.size : Int) - (m.prune n).1.size) ∧
    (∀ h, (m.ensureRow h).row? = Function.update m.row? h (some ((m.row? h).getD {}))) ∧
    (∀ h r v, (m.ensureCell h r v).row? =
      Function.update m.row? h (some (((m.row? h).getD {}).ensure r v))) ∧
    (∀ h r v f, (m.alterCell h r v f).row? =
      Function.update m.row? h (some (((m.row? h).getD {}).alter r v f))) := by
  intro m s x
  have hrefines : m.Refines s := refines_of_row?_eq (row?_edits_eq es)
  have hx : x.Represents m := Indexed.represents_edits es
  refine ⟨hrefines, hx.answers, ⟨hx.ascending, fun h => ?_⟩,
    fun n => ⟨rows_prune n m, snd_prune n m⟩, fun h => row?_alter h id m,
    fun h r v => row?_alter h _ m, fun h r v f => row?_alter h _ m⟩
  rw [hx.mem_index, hrefines.mem_heights_iff]

end Matrix

end Finality
