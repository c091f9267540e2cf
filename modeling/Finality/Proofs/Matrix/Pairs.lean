import Finality.Proofs.Matrix.Unique

/-! # A row as a map on pairs

A row is a map of maps, but from outside it is one map on pairs of a reporter and a voter: cells are
created, written, read and asked for by pair (`Row.Access`).  The inner map of a reporter comes into
being with its first cell, and whoever only reads creates nothing.

What a row is after some accesses is said by their history alone (`Row.Follows`).  The pairs that
there are were created, each by a first access; a cell holds what the writes of its pair made of the
empty one; and the cells are listed by the time of first creation, of the reporter and then of the
pair (`Row.Before`).  All of this is kept by every further access (`Row.Follows.access`). -/

namespace Finality

/-! ### Keys in the order of first occurrence -/

section inOrder

variable {κ τ α : Type} [BEq τ] {g : κ → τ} {ts : List τ} {ks : List κ}

/-- The keys are those that occur in a history under some name, by their first occurrences. -/
structure InOrder (ts : List τ) (g : κ → τ) (ks : List κ) : Prop where
  mem_iff : ∀ k, k ∈ ks ↔ g k ∈ ts
  pairwise : ks.Pairwise fun a b => ts.idxOf (g a) < ts.idxOf (g b)

namespace InOrder

theorem nil : InOrder ([] : List τ) g [] := ⟨fun _ => by simp, .nil⟩

theorem nodup (h : InOrder ts g ks) : ks.Nodup := by
  refine h.pairwise.imp fun hlt heq => ?_
  rw [heq] at hlt
  exact Nat.lt_irrefl _ hlt

variable [LawfulBEq τ]

/-- First occurrences stay where they are when the history goes on. -/
theorem pairwise_append (h : InOrder ts g ks) (more : List τ) :
    ks.Pairwise fun a b => (ts ++ more).idxOf (g a) < (ts ++ more).idxOf (g b) := by
  refine h.pairwise.imp_of_mem fun ha hb hlt => ?_
  rwa [List.idxOf_append_of_mem ((h.mem_iff _).mp ha),
    List.idxOf_append_of_mem ((h.mem_iff _).mp hb)]

theorem concat_of_ne (h : InOrder ts g ks) {t : τ} (ht : ∀ k, g k ≠ t) :
    InOrder (ts ++ [t]) g ks where
  mem_iff k := by simp [h.mem_iff, ht k]
  pairwise := h.pairwise_append [t]

/-- A key that is written stays in its place, or is the last one if it is new. -/
theorem alter [BEq κ] [LawfulBEq κ] {m : List (κ × α)} (h : InOrder ts g (Ordered.keys m)) {k : κ}
    (hg : ∀ j, g j = g k → j = k) (f : Option α → α) :
    InOrder (ts ++ [g k]) g (Ordered.keys (Ordered.alter k f m)) where
  mem_iff j := by
    rw [Ordered.mem_keys_alter, h.mem_iff, List.mem_append, List.mem_singleton, or_comm]
    exact or_congr_right ⟨fun hj => hj ▸ rfl, hg j⟩
  pairwise := by
    rw [Ordered.keys_alter]
    split
    · exact h.pairwise_append _
    · rename_i hnew
      have hk : k ∉ Ordered.keys m := fun hmem => hnew (Ordered.isSome_lookup_iff.mpr hmem)
      refine List.pairwise_append.mpr ⟨h.pairwise_append _, List.pairwise_singleton _ _, ?_⟩
      intro a ha b hb
      obtain rfl := List.mem_singleton.mp hb
      have ha : g a ∈ ts := (h.mem_iff a).mp ha
      have hb : g b ∉ ts := fun hmem => hk ((h.mem_iff b).mpr hmem)
      rw [List.idxOf_append_of_mem ha, List.idxOf_append_of_notMem hb]
      exact Nat.lt_add_right _ (List.idxOf_lt_length_iff.mpr ha)

end InOrder

end inOrder

namespace Row

variable {row : Row} {r v : Address} {f : Cell → Cell}

/-! ### Accesses -/

/-- What is done to a row from outside. -/
inductive Access where
  /-- Hands out the cell of a pair, which is created if it is missing. -/
  | create (r v : Address)
  /-- Changes the cell of a pair, which is created if it is missing. -/
  | write (r v : Address) (f : Cell → Cell)
  /-- Reads the cell of a pair. -/
  | get (r v : Address)
  /-- Asks whether there is a cell of a pair. -/
  | contains (r v : Address)

/-- Pairs whose cells are there, as they are listed. -/
def pairs (row : Row) : List (Address × Address) := row.cells.map fun c => (c.1, c.2.1)

/-- Answer to an access. -/
inductive Answer where
  | cell (c : Cell)
  | found (b : Bool)

/-- The row after an access, and the answer. -/
def access (row : Row) : Access → Row × Answer
  | .create r v => (row.ensure r v, .cell ((row.ensure r v).cell r v))
  | .write r v f => (row.alter r v f, .cell ((row.alter r v f).cell r v))
  | .get r v => (row, .cell (row.cell r v))
  | .contains r v => (row, .found (row.contains r v))

/-- The row after some accesses, and their answers. -/
def accesses (row : Row) : List Access → Row × List Answer
  | [] => (row, [])
  | a :: as =>
    let (row, x) := row.access a
    let (row, xs) := row.accesses as
    (row, x :: xs)

/-! ### Histories -/

namespace Access

/-- Pair whose cell is there after the access. -/
def made? : Access → Option (Address × Address)
  | .create r v => some (r, v)
  | .write r v _ => some (r, v)
  | _ => none

/-- What the access makes of the cell of a pair. -/
def change (p : Address × Address) : Access → Cell → Cell
  | .write r v f => if (r, v) = p then f else id
  | _ => id

end Access

/-- Pairs that were created, or made sure of, as time went on. -/
def made (as : List Access) : List (Address × Address) := as.filterMap Access.made?

/-- What the writes of a pair made of the empty cell. -/
def written (as : List Access) (p : Address × Address) : Cell :=
  as.foldl (fun c a => a.change p c) {}

/-- The reporter of the one pair was there before that of the other, or the reporter is the same and
the pair was there before the other. -/
def Before (ps : List (Address × Address)) (p q : Address × Address) : Prop :=
  (ps.map (·.1)).idxOf p.1 < (ps.map (·.1)).idxOf q.1 ∨ p.1 = q.1 ∧ ps.idxOf p < ps.idxOf q

/-- The answer that a history asks for. -/
def expected (past : List Access) : Access → Answer
  | .create r v => .cell (written past (r, v))
  | .write r v f => .cell (f (written past (r, v)))
  | .get r v => .cell (written past (r, v))
  | .contains r v => .found (decide ((r, v) ∈ made past))

/-- The answers that a history asks for when it goes on. -/
def answers (past : List Access) : List Access → List Answer
  | [] => []
  | a :: as => expected past a :: answers (past ++ [a]) as

theorem made_concat (as : List Access) (a : Access) :
    made (as ++ [a]) = made as ++ a.made?.toList := by
  rw [made, List.filterMap_append, List.filterMap_cons, List.filterMap_nil, made]
  cases a.made? <;> rfl

theorem written_concat (as : List Access) (a : Access) (p : Address × Address) :
    written (as ++ [a]) p = a.change p (written as p) := by
  rw [written, List.foldl_append]
  rfl

/-! ### What a row tells of its history -/

/-- A row is what its history makes of it. -/
structure Follows (row : Row) (as : List Access) : Prop where
  /-- The reporters stand in the order of their first creation. -/
  reporters : InOrder ((made as).map (·.1)) id (Ordered.keys row.reporters)
  /-- So do the voters of each of them. -/
  voters : ∀ e ∈ row.reporters, InOrder (made as) (fun v => (e.1, v)) (Ordered.keys e.2)
  cell? : ∀ r v, row.cell? r v = if (r, v) ∈ made as then some (written as (r, v)) else none

namespace Follows

variable {as : List Access}

theorem empty : Follows {} [] where
  reporters := .nil
  voters := nofun
  cell? _ _ := rfl

theorem unique (h : row.Follows as) : row.Unique where
  reporters := h.reporters.nodup
  voters e he := (h.voters e he).nodup

theorem contains_iff (h : row.Follows as) : row.contains r v = true ↔ (r, v) ∈ made as := by
  rw [contains, h.cell?]
  split <;> simp [*]

/-- A pair that was never created was never written. -/
theorem written_of_not_mem (as : List Access) {p : Address × Address} (hp : p ∉ made as) :
    written as p = {} := by
  induction as using List.reverseRecOn with
  | nil => rfl
  | append_singleton as a ih =>
      rw [made_concat, List.mem_append, not_or] at hp
      rw [written_concat, ih hp.1]
      cases a with
      | write r v f =>
          have hne : (r, v) ≠ p := fun heq => hp.2 (heq ▸ List.mem_singleton_self _)
          rw [Access.change, if_neg hne]
          rfl
      | _ => rfl

theorem cell_eq (h : row.Follows as) (r v : Address) : row.cell r v = written as (r, v) := by
  rw [cell, h.cell?]
  split
  · rfl
  · rw [written_of_not_mem as (by assumption)]
    rfl

theorem alter (h : row.Follows as) {a : Access} (hmade : a.made? = some (r, v))
    (hself : a.change (r, v) = f) (hother : ∀ p, p ≠ (r, v) → a.change p = id) :
    (row.alter r v f).Follows (as ++ [a]) where
  reporters := by
    rw [made_concat, hmade, Option.toList_some, List.map_append]
    exact h.reporters.alter (fun _ => id) _
  voters := by
    rw [made_concat, hmade, Option.toList_some]
    intro e he
    rcases Ordered.mem_alter_of_nodup h.reporters.nodup he with ⟨he, hne⟩ | rfl
    · -- the pair is of another reporter
      exact (h.voters e he).concat_of_ne fun w heq => hne (congrArg Prod.fst heq)
    · refine InOrder.alter (g := fun w => (r, w)) ?_ (fun w heq => (Prod.mk.inj heq).2) _
      refine Ordered.getD_lookup_of_forall
        (P := fun r voters => InOrder (made as) (fun v => (r, v)) (Ordered.keys voters))
        h.voters fun hnew => ?_
      -- the reporter is new, so none of its pairs was created
      refine ⟨fun w => iff_of_false List.not_mem_nil fun hmem => ?_, .nil⟩
      have hr : r ∈ Ordered.keys row.reporters :=
        (h.reporters.mem_iff r).mpr (List.mem_map_of_mem hmem)
      rw [← Ordered.isSome_lookup_iff, hnew] at hr
      cases hr
  cell? r' v' := by
    rw [made_concat, hmade, Option.toList_some, written_concat]
    by_cases hp : (r', v') = (r, v)
    · cases hp
      rw [cell?_alter_self, h.cell_eq, hself, if_pos (by simp)]
    · rw [cell?_alter_ne (fun heq => hp (Prod.ext heq.1 heq.2)), h.cell?, hother _ hp]
      simp [hp]

/-- Whoever only reads leaves the row as it is. -/
theorem read (h : row.Follows as) {a : Access} (hmade : a.made? = none)
    (hchange : ∀ p, a.change p = id) : row.Follows (as ++ [a]) where
  reporters := by simpa [made_concat, hmade] using h.reporters
  voters := by simpa [made_concat, hmade] using h.voters
  cell? r v := by simpa [made_concat, written_concat, hmade, hchange] using h.cell? r v

theorem access (h : row.Follows as) (a : Access) : (row.access a).1.Follows (as ++ [a]) := by
  cases a with
  | create r v => exact h.alter rfl rfl fun _ _ => rfl
  | write r v f => exact h.alter rfl (if_pos rfl) fun p hp => if_neg hp.symm
  | get r v => exact h.read rfl fun _ => rfl
  | contains r v => exact h.read rfl fun _ => rfl

theorem answer (h : row.Follows as) (a : Access) : (row.access a).2 = expected as a := by
  have hafter := (h.access a).cell_eq
  cases a with
  | create r v =>
      have hcell : (row.ensure r v).cell r v = _ := hafter r v
      rw [Row.access, expected, hcell, written_concat]
      rfl
  | write r v f =>
      have hcell : (row.alter r v f).cell r v = _ := hafter r v
      rw [Row.access, expected, hcell, written_concat, Access.change, if_pos rfl]
  | get r v => rw [Row.access, expected, h.cell_eq]
  | contains r v =>
      rw [Row.access, expected, Bool.eq_iff_iff.mpr (h.contains_iff.trans decide_eq_true_iff.symm)]

theorem accesses (h : row.Follows as) (more : List Access) :
    (row.accesses more).1.Follows (as ++ more) ∧ (row.accesses more).2 = answers as more := by
  induction more generalizing row as with
  | nil => exact ⟨(List.append_nil as).symm ▸ h, rfl⟩
  | cons a more ih =>
      obtain ⟨hrow, hanswers⟩ := ih (h.access a)
      rw [List.append_assoc] at hrow
      exact ⟨hrow, congrArg₂ List.cons (h.answer a) hanswers⟩

/-- The cells are listed by the time of first creation. -/
theorem pairwise_cells (h : row.Follows as) :
    row.pairs.Pairwise (Before (made as)) := by
  simp only [pairs, cells, List.map_flatMap, List.map_map, List.pairwise_flatMap]
  refine ⟨fun e he => ?_, ?_⟩
  · have hvoters := (h.voters e he).pairwise
    rw [Ordered.keys, List.pairwise_map] at hvoters
    rw [List.pairwise_map]
    exact hvoters.imp fun hlt => .inr ⟨rfl, hlt⟩
  · have hreporters := h.reporters.pairwise
    rw [Ordered.keys, List.pairwise_map] at hreporters
    refine hreporters.imp fun hlt p hp q hq => ?_
    obtain ⟨x, -, rfl⟩ := List.mem_map.mp hp
    obtain ⟨y, -, rfl⟩ := List.mem_map.mp hq
    exact .inl hlt

theorem mem_cells_iff (h : row.Follows as) {c : Cell} :
    (r, v, c) ∈ row.cells ↔ (r, v) ∈ made as ∧ c = written as (r, v) := by
  rw [h.unique.mem_cells_iff, h.cell?]
  split <;> simp [*, eq_comm]

end Follows

/-- What a row tells of its history, by all ways to look at it. -/
structure Tells (row : Row) (as : List Access) : Prop where
  nodup_pairs : row.pairs.Nodup
  mem_pairs_iff : ∀ p, p ∈ row.pairs ↔ p ∈ made as
  pairwise_pairs : row.pairs.Pairwise (Before (made as))
  cells : ∀ c ∈ row.cells, c.2.2 = written as (c.1, c.2.1)
  contains_iff : ∀ r v, row.contains r v = true ↔ (r, v) ∈ made as
  cell_eq : ∀ r v, row.cell r v = if (r, v) ∈ made as then written as (r, v) else {}

theorem Follows.tells {as : List Access} (h : row.Follows as) : row.Tells as where
  nodup_pairs := h.unique.nodup_pairs
  mem_pairs_iff p := by
    rw [pairs, List.mem_map]
    constructor
    · rintro ⟨c, hc, rfl⟩
      exact (h.mem_cells_iff.mp hc).1
    · exact fun hp => ⟨(p.1, p.2, written as p), h.mem_cells_iff.mpr ⟨hp, rfl⟩, rfl⟩
  pairwise_pairs := h.pairwise_cells
  cells c hc := (h.mem_cells_iff.mp hc).2
  contains_iff r v := h.contains_iff
  cell_eq r v := by
    rw [cell, h.cell?]
    split <;> rfl

/-! ### What an access leaves alone -/

/-- Place of a pair: that of its reporter, and that of its voter among the voters of the reporter. -/
def place (row : Row) (r v : Address) : Nat × Nat :=
  ((Ordered.keys row.reporters).idxOf r,
    (Ordered.keys ((row.reporters.lookup r).getD [])).idxOf v)

/-- Of the rows before and after an access only the pair that it makes may differ. -/
structure TouchedBy (a : Access) (row : Row) (before : Row) : Prop where
  eq_of_read : a.made? = none → row = before
  cell? : ∀ r v, a.made? ≠ some (r, v) → row.cell? r v = before.cell? r v
  /-- All other cells are listed as before. -/
  cells : ∀ p, a.made? = some p →
    row.cells.filter (fun c => (c.1, c.2.1) != p) = before.cells.filter fun c => (c.1, c.2.1) != p
  /-- A pair that is there stays in its place. -/
  place : ∀ r v, before.contains r v = true → row.place r v = before.place r v

theorem idxOf_keys_alter {κ α : Type} [BEq κ] [LawfulBEq κ] {m : List (κ × α)} {j : κ}
    (hj : j ∈ Ordered.keys m) (k : κ) (f : Option α → α) :
    (Ordered.keys (Ordered.alter k f m)).idxOf j = (Ordered.keys m).idxOf j := by
  rw [Ordered.keys_alter]
  split
  · rfl
  · exact List.idxOf_append_of_mem hj

theorem place_alter (hthere : row.contains r v = true) (r' v' : Address) (f : Cell → Cell) :
    (row.alter r' v' f).place r v = row.place r v := by
  obtain ⟨c, hc⟩ := Option.isSome_iff_exists.mp hthere
  obtain ⟨voters, hvoters, hc⟩ := Option.bind_eq_some_iff.mp hc
  have hr : r ∈ Ordered.keys row.reporters := by
    rw [← Ordered.isSome_lookup_iff, hvoters]
    rfl
  have hv : v ∈ Ordered.keys voters := by
    rw [← Ordered.isSome_lookup_iff, hc]
    rfl
  refine Prod.ext (idxOf_keys_alter hr r' _) ?_
  by_cases hrr : r = r'
  · subst hrr
    simp only [place, Row.alter, Ordered.lookup_alter_self, hvoters, Option.getD_some]
    exact idxOf_keys_alter hv v' _
  · simp only [place, Row.alter, Ordered.lookup_alter_ne (beq_false_of_ne hrr)]

theorem filter_cells_alter (r v : Address) (f : Cell → Cell) (row : Row) :
    (row.alter r v f).cells.filter (fun c => (c.1, c.2.1) != (r, v)) =
      row.cells.filter fun c => (c.1, c.2.1) != (r, v) := by
  refine Ordered.filter_flatMap_alter (by simp) fun r' voters hr => ?_
  obtain rfl := eq_of_beq hr
  simp only [Option.getD_some, ← List.flatMap_pure_eq_map]
  refine Ordered.filter_flatMap_alter (by simp) fun v' c hv => ?_
  obtain rfl := eq_of_beq hv
  simp

theorem touchedBy_alter {a : Access} (hmade : a.made? = some (r, v)) (f : Cell → Cell)
    (row : Row) : (row.alter r v f).TouchedBy a row where
  eq_of_read hread := by simp [hmade] at hread
  cell? r' v' hne := cell?_alter_ne (fun heq => hne (by rw [hmade, heq.1, heq.2])) f row
  cells p hp := by
    obtain rfl := Option.some_inj.mp (hmade.symm.trans hp)
    exact filter_cells_alter r v f row
  place r' v' hthere := place_alter hthere r v f

theorem touchedBy_self (a : Access) (row : Row) : row.TouchedBy a row where
  eq_of_read _ := rfl
  cell? _ _ _ := rfl
  cells _ _ := rfl
  place _ _ _ := rfl

theorem touchedBy_access (a : Access) (row : Row) : (row.access a).1.TouchedBy a row := by
  cases a with
  | create r v => exact touchedBy_alter rfl id row
  | write r v f => exact touchedBy_alter rfl f row
  | get r v => exact touchedBy_self _ row
  | contains r v => exact touchedBy_self _ row

end Row

end Finality
