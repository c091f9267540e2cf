import Finality.Proofs.Matrix.Pairs

/-! # Cells that are lent

Whoever asks for the cell of a pair may keep it and change it later, when other cells were created
or changed in between.  `Lender` is a row of this kind: its maps hold places in a store, and what it
hands out is a place.  The map of a reporter is made before the cell is looked for; a place that is
handed out for reading only, where there is no cell, belongs to no pair.

Every place belongs to one pair at most, and is in the store (`Lender.Intact`).  So a change at a
place is a write of the pair that the place belongs to, and nothing if it belongs to none
(`Lender.Intact.request_of_access?`).  In this way the requests that a lender serves are accesses to
a row (`Lender.follow`), and the lender is at all times what their history makes of it
(`Row.ordered_map`). -/

namespace Finality

open Row (Access Answer Before Follows expected made written)

/-! ### Lenders -/

/-- A row whose maps hold places of cells in a store. -/
structure Lender where
  reporters : List (Address × List (Address × Nat)) := []
  store : List Cell := []

/-- What a lender is asked for. -/
inductive Request where
  /-- The cell of a pair, which is created if it is missing. -/
  | lend (r v : Address)
  /-- The cell of a pair, or an empty one if it is missing. -/
  | look (r v : Address)
  /-- Whether there is a cell of a pair. -/
  | ask (r v : Address)
  /-- A change of a cell that was handed out. -/
  | change (place : Nat) (f : Cell → Cell)

/-- Answer to a request. -/
inductive Reply where
  | place (i : Nat)
  | found (b : Bool)

namespace Lender

/-- Place of the cell of a pair, if there is one. -/
def place? (x : Lender) (r v : Address) : Option Nat :=
  (x.reporters.lookup r).bind fun voters => voters.lookup v

/-- Cell at a place. -/
def cellAt (x : Lender) (i : Nat) : Cell := x.store[i]?.getD {}

/-- Puts an empty cell into the store. -/
def fresh (x : Lender) : Lender × Nat := ({ x with store := x.store ++ [{}] }, x.store.length)

/-- Makes sure that a reporter has a map. -/
def ensureReporter (r : Address) (x : Lender) : Lender :=
  { x with reporters := Ordered.alter r (·.getD []) x.reporters }

/-- Enters the place of the cell of a pair. -/
def enter (r v : Address) (i : Nat) (x : Lender) : Lender :=
  { x with
    reporters := Ordered.alter r (fun voters => Ordered.insert v i (voters.getD [])) x.reporters }

/-- Hands out the cell of a pair, which is created if it is missing. -/
def lend (r v : Address) (x : Lender) : Lender × Nat :=
  let x := x.ensureReporter r
  match x.place? r v with
  | some i => (x, i)
  | none => (x.fresh.1.enter r v x.fresh.2, x.fresh.2)

/-- Hands out the cell of a pair, or an empty one that belongs to no pair. -/
def look (r v : Address) (x : Lender) : Lender × Nat :=
  match x.place? r v with
  | some i => (x, i)
  | none => x.fresh

/-- Serves a request. -/
def request (x : Lender) : Request → Lender × Reply
  | .lend r v => ((x.lend r v).1, .place (x.lend r v).2)
  | .look r v => ((x.look r v).1, .place (x.look r v).2)
  | .ask r v => (x, .found (x.place? r v).isSome)
  | .change i f => ({ x with store := x.store.modify i f }, .place i)

/-- The row of the cells that the maps hold. -/
def row (x : Lender) : Row where
  reporters := x.reporters.map fun r => (r.1, r.2.map fun v => (v.1, x.cellAt v.2))

/-! ### Requests as accesses -/

/-- Places that the maps hold, with their pairs. -/
def held (x : Lender) : List ((Address × Address) × Nat) :=
  x.reporters.flatMap fun r => r.2.map fun v => ((r.1, v.1), v.2)

/-- Pair that a place belongs to. -/
def owner? (x : Lender) (i : Nat) : Option (Address × Address) :=
  (x.held.find? fun e => e.2 == i).map (·.1)

/-- The access to the row that a request comes to. -/
def access? (x : Lender) : Request → Option Access
  | .lend r v => some (.create r v)
  | .look r v => some (.get r v)
  | .ask r v => some (.contains r v)
  | .change i f => (x.owner? i).map fun p => .write p.1 p.2 f

/-- The lender after some requests, and the accesses that they came to. -/
def follow (x : Lender) : List Request → Lender × List Access
  | [] => (x, [])
  | q :: qs =>
    let (y, as) := (x.request q).1.follow qs
    (y, (x.access? q).toList ++ as)

/-- What a reply tells. -/
def tell (x : Lender) : Reply → Answer
  | .place i => .cell (x.cellAt i)
  | .found b => .found b

/-! ### Places -/

/-- Every place belongs to one pair at most, and is in the store. -/
structure Intact (x : Lender) : Prop where
  reporters : (Ordered.keys x.reporters).Nodup
  voters : ∀ e ∈ x.reporters, (Ordered.keys e.2).Nodup
  stored : ∀ r v, ∀ i ∈ x.place? r v, i < x.store.length
  apart : ∀ r v r' v', ∀ i ∈ x.place? r v, i ∈ x.place? r' v' → r = r' ∧ v = v'

variable {x : Lender} {r v : Address} {i : Nat}

theorem cellAt_append (x : Lender) {i : Nat} (hi : i < x.store.length) (more : List Cell) :
    cellAt { x with store := x.store ++ more } i = x.cellAt i := by
  simp only [cellAt, List.getElem?_append_left hi]

theorem cellAt_modify_ne (x : Lender) {i j : Nat} (hij : i ≠ j) (f : Cell → Cell) :
    cellAt { x with store := x.store.modify i f } j = x.cellAt j := by
  simp [cellAt, hij]

theorem cellAt_modify_self (x : Lender) (hi : i < x.store.length) (f : Cell → Cell) :
    cellAt { x with store := x.store.modify i f } i = f (x.cellAt i) := by
  simp [cellAt, hi]

theorem cell?_row (x : Lender) (r v : Address) : x.row.cell? r v = (x.place? r v).map x.cellAt := by
  have hreporter := Ordered.lookup_map
    (fun voters : List (Address × Nat) => voters.map fun v => (v.1, x.cellAt v.2)) r x.reporters
  simp only [Row.cell?, row, hreporter, place?]
  cases x.reporters.lookup r with
  | none => rfl
  | some voters => exact Ordered.lookup_map x.cellAt v voters

theorem place?_enter_self (x : Lender) (r v : Address) (i : Nat) :
    (x.enter r v i).place? r v = some i := by
  rw [place?, enter, Ordered.lookup_alter_self, Option.bind_some, Ordered.insert,
    Ordered.lookup_alter_self]

theorem place?_enter_ne (x : Lender) {r v r' v' : Address} (h : ¬(r' = r ∧ v' = v)) (i : Nat) :
    (x.enter r v i).place? r' v' = x.place? r' v' := by
  rw [place?, place?, enter]
  by_cases hr : r' = r
  · subst hr
    have hv : v' ≠ v := fun hv => h ⟨rfl, hv⟩
    rw [Ordered.lookup_alter_self, Option.bind_some, Ordered.insert,
      Ordered.lookup_alter_ne (beq_false_of_ne hv)]
    cases x.reporters.lookup r' <;> rfl
  · rw [Ordered.lookup_alter_ne (beq_false_of_ne hr)]

theorem place?_ensureReporter (x : Lender) (r r' v : Address) :
    (x.ensureReporter r).place? r' v = x.place? r' v := by
  rw [place?, place?, ensureReporter]
  by_cases hr : r' = r
  · subst hr
    rw [Ordered.lookup_alter_self]
    cases x.reporters.lookup r' <;> rfl
  · rw [Ordered.lookup_alter_ne (beq_false_of_ne hr)]

/-- The map of a reporter is there if a cell of the reporter is. -/
theorem ensureReporter_of_place? (h : x.place? r v = some i) : x.ensureReporter r = x := by
  obtain ⟨voters, hvoters, -⟩ := Option.bind_eq_some_iff.mp h
  rw [ensureReporter, Ordered.alter_eq_self hvoters rfl]

theorem lend_of_some (h : x.place? r v = some i) : x.lend r v = (x, i) := by
  simp only [lend, ensureReporter_of_place? h, h]

/-- A new cell is entered where the map of the reporter was made. -/
theorem lend_of_none (h : x.place? r v = none) :
    x.lend r v = (x.fresh.1.enter r v x.store.length, x.store.length) := by
  have hmissing := (x.place?_ensureReporter r r v).trans h
  simp only [lend, hmissing]
  simp only [fresh, enter, ensureReporter, Ordered.alter_alter_self, Option.getD_some]

namespace Intact

theorem empty : Intact {} where
  reporters := List.nodup_nil
  voters := nofun
  stored := nofun
  apart := nofun

theorem mem_held_iff (h : x.Intact) : ((r, v), i) ∈ x.held ↔ x.place? r v = some i := by
  rw [held, place?, Option.bind_eq_some_iff, List.mem_flatMap]
  constructor
  · rintro ⟨e, he, hmem⟩
    obtain ⟨y, hy, heq⟩ := List.mem_map.mp hmem
    cases heq
    exact ⟨e.2, (Ordered.lookup_eq_some_iff_mem h.reporters).mpr he,
      (Ordered.lookup_eq_some_iff_mem (h.voters e he)).mpr hy⟩
  · rintro ⟨voters, hvoters, hi⟩
    have he := (Ordered.lookup_eq_some_iff_mem h.reporters).mp hvoters
    exact ⟨(r, voters), he, List.mem_map.mpr
      ⟨(v, i), (Ordered.lookup_eq_some_iff_mem (h.voters _ he)).mp hi, rfl⟩⟩

theorem place?_of_mem (h : x.Intact) {e : Address × List (Address × Nat)} (he : e ∈ x.reporters)
    {y : Address × Nat} (hy : y ∈ e.2) : x.place? e.1 y.1 = some y.2 :=
  h.mem_held_iff.mp (List.mem_flatMap.mpr ⟨e, he, List.mem_map.mpr ⟨y, hy, rfl⟩⟩)

theorem place?_of_owner? (h : x.Intact) {p : Address × Address} (hp : x.owner? i = some p) :
    x.place? p.1 p.2 = some i := by
  obtain ⟨⟨p, j⟩, hfind, rfl⟩ := Option.map_eq_some_iff.mp hp
  have hj : j = i := by simpa using List.find?_some hfind
  exact hj ▸ h.mem_held_iff.mp (List.mem_of_find?_eq_some hfind)

theorem place?_of_not_owner? (h : x.Intact) (hi : x.owner? i = none) (r v : Address) :
    x.place? r v ≠ some i := by
  rw [owner?, Option.map_eq_none_iff, List.find?_eq_none] at hi
  exact fun hplace => hi _ (h.mem_held_iff.mpr hplace) (beq_self_eq_true i)

/-- Cells that the maps hold are the same in another store if they are the same at their places. -/
theorem row_eq (h : x.Intact) {store : List Cell}
    (hstore : ∀ r v, ∀ i ∈ x.place? r v, cellAt { x with store } i = x.cellAt i) :
    row { x with store } = x.row := by
  have hvoters : ∀ e ∈ x.reporters,
      e.2.map (fun v => (v.1, cellAt { x with store } v.2)) =
        e.2.map fun v => (v.1, x.cellAt v.2) :=
    fun e he => List.map_congr_left fun y hy =>
      Prod.ext rfl (hstore e.1 y.1 y.2 (h.place?_of_mem he hy))
  exact congrArg Row.mk (List.map_congr_left fun e he => Prod.ext rfl (hvoters e he))

/-! ### Requests -/

theorem row_fresh (h : x.Intact) : x.fresh.1.row = x.row :=
  h.row_eq fun r v i hi => x.cellAt_append (h.stored r v i hi) [{}]

theorem fresh (h : x.Intact) : x.fresh.1.Intact where
  reporters := h.reporters
  voters := h.voters
  stored r v i hi := by
    have hlt := h.stored r v i hi
    rw [Lender.fresh, List.length_append]
    exact Nat.lt_add_right _ hlt
  apart := h.apart

theorem cellAt_fresh (x : Lender) : x.fresh.1.cellAt x.fresh.2 = {} := by
  simp [Lender.fresh, cellAt]

/-- A place that belongs to no pair may be entered for a pair without a cell. -/
theorem enter (h : x.Intact) (hi : i < x.store.length) (hfree : ∀ r v, x.place? r v ≠ some i) :
    (x.enter r v i).Intact where
  reporters := Ordered.nodup_keys_alter h.reporters
  voters e he := by
    rcases Ordered.mem_alter he with he | rfl
    · exact h.voters e he
    · exact Ordered.nodup_keys_alter (Ordered.getD_lookup_of_forall
        (P := fun _ voters => (Ordered.keys voters).Nodup) h.voters fun _ => List.nodup_nil)
  stored r' v' j hj := by
    by_cases hp : r' = r ∧ v' = v
    · obtain ⟨rfl, rfl⟩ := hp
      rw [place?_enter_self] at hj
      cases hj
      exact hi
    · rw [place?_enter_ne x hp] at hj
      exact h.stored r' v' j hj
  apart r₁ v₁ r₂ v₂ j h₁ h₂ := by
    by_cases hp : r₁ = r ∧ v₁ = v <;> by_cases hq : r₂ = r ∧ v₂ = v
    · exact ⟨hp.1.trans hq.1.symm, hp.2.trans hq.2.symm⟩
    · -- the place is new for the one pair, so the other one does not have it
      obtain ⟨rfl, rfl⟩ := hp
      rw [place?_enter_self] at h₁
      rw [place?_enter_ne x hq] at h₂
      cases h₁
      exact absurd h₂ (hfree r₂ v₂)
    · obtain ⟨rfl, rfl⟩ := hq
      rw [place?_enter_self] at h₂
      rw [place?_enter_ne x hp] at h₁
      cases h₂
      exact absurd h₁ (hfree r₁ v₁)
    · rw [place?_enter_ne x hp] at h₁
      rw [place?_enter_ne x hq] at h₂
      exact h.apart r₁ v₁ r₂ v₂ j h₁ h₂

/-- Entering an empty cell for a pair without a cell makes sure of the cell. -/
theorem row_enter (hnone : x.place? r v = none) (hempty : x.cellAt i = {}) :
    (x.enter r v i).row = x.row.ensure r v := by
  refine congrArg Row.mk (Ordered.map_alter ?_)
  have hvoters : ((x.reporters.lookup r).getD []).lookup v = none := by
    rw [place?] at hnone
    cases hreporter : x.reporters.lookup r with
    | none => rfl
    | some voters => rwa [hreporter] at hnone
  -- a reporter without a map has no voters
  have hmap := Option.getD_map (List.map fun y : Address × Nat => (y.1, x.cellAt y.2)) []
    (x.reporters.lookup r)
  refine (Ordered.map_alter ?_).trans (congrArg (Ordered.alter v _) hmap.symm)
  rw [hvoters]
  exact hempty

/-- A change at the place of a pair is a write of the pair. -/
theorem row_change (h : x.Intact) (hi : x.place? r v = some i) (f : Cell → Cell) :
    row { x with store := x.store.modify i f } = x.row.alter r v f := by
  obtain ⟨voters, hvoters, hplace⟩ := Option.bind_eq_some_iff.mp hi
  have he := (Ordered.lookup_eq_some_iff_mem h.reporters).mp hvoters
  -- a place that belongs to another pair is another place
  have hsame : ∀ e ∈ x.reporters, ∀ y ∈ e.2, ¬(e.1 = r ∧ y.1 = v) →
      cellAt { x with store := x.store.modify i f } y.2 = x.cellAt y.2 := by
    intro e he y hy hne
    refine x.cellAt_modify_ne (fun heq => hne ?_) f
    exact h.apart _ _ _ _ y.2 (h.place?_of_mem he hy) (heq ▸ hi)
  refine congrArg Row.mk (Ordered.map_eq_alter h.reporters hvoters ?_ ?_)
  · refine Ordered.map_eq_alter (h.voters _ he) hplace ?_ ?_
    · exact x.cellAt_modify_self (h.stored r v i hi) f
    · exact fun y hy hne => hsame _ he y hy fun heq => hne heq.2
  · intro e he hne
    exact List.map_congr_left fun y hy => Prod.ext rfl (hsame e he y hy fun heq => hne heq.1)

theorem change (h : x.Intact) (i : Nat) (f : Cell → Cell) :
    Intact { x with store := x.store.modify i f } where
  reporters := h.reporters
  voters := h.voters
  stored r v j hj := by
    have hlt := h.stored r v j hj
    rwa [List.length_modify]
  apart := h.apart

theorem lend (h : x.Intact) (r v : Address) :
    (x.lend r v).1.Intact ∧ (x.lend r v).1.row = x.row.ensure r v ∧
      (x.lend r v).1.place? r v = some (x.lend r v).2 := by
  cases hplace : x.place? r v with
  | some i =>
      have hcell : x.row.cell? r v = some (x.cellAt i) := by rw [cell?_row, hplace]; rfl
      rw [lend_of_some hplace]
      exact ⟨h, (Row.ensure_of_cell? hcell).symm, hplace⟩
  | none =>
      rw [lend_of_none hplace]
      refine ⟨h.fresh.enter (by simp [Lender.fresh]) fun r v hi => ?_, ?_, place?_enter_self ..⟩
      · exact Nat.lt_irrefl _ (h.stored r v _ hi)
      · have hmissing : x.fresh.1.place? r v = none := hplace
        exact (row_enter hmissing (cellAt_fresh x)).trans (by rw [h.row_fresh])

theorem look (h : x.Intact) (r v : Address) :
    (x.look r v).1.Intact ∧ (x.look r v).1.row = x.row ∧
      (x.look r v).1.cellAt (x.look r v).2 = x.row.cell r v := by
  rw [Lender.look, Row.cell, cell?_row]
  cases x.place? r v with
  | some i => exact ⟨h, rfl, rfl⟩
  | none => exact ⟨h.fresh, h.row_fresh, cellAt_fresh x⟩

theorem request (h : x.Intact) (q : Request) : (x.request q).1.Intact := by
  cases q with
  | lend r v => exact (h.lend r v).1
  | look r v => exact (h.look r v).1
  | ask r v => exact h
  | change i f => exact h.change i f

/-- A request is served as the access that it comes to. -/
theorem request_of_access? (h : x.Intact) {q : Request} {a : Access} (ha : x.access? q = some a) :
    ((x.request q).1.row, (x.request q).1.tell (x.request q).2) = x.row.access a := by
  cases q with
  | lend r v =>
      cases ha
      obtain ⟨-, hrow, hplace⟩ := h.lend r v
      refine Prod.ext hrow (congrArg Answer.cell ?_)
      rw [← hrow, Row.cell, cell?_row]
      exact hplace ▸ rfl
  | look r v =>
      cases ha
      obtain ⟨-, hrow, hcell⟩ := h.look r v
      exact Prod.ext hrow (congrArg Answer.cell hcell)
  | ask r v =>
      cases ha
      refine Prod.ext rfl (congrArg Answer.found ?_)
      rw [Row.contains, cell?_row, Option.isSome_map]
  | change i f =>
      obtain ⟨p, hp, rfl⟩ := Option.map_eq_some_iff.mp ha
      have hplace := h.place?_of_owner? hp
      have hrow := h.row_change hplace f
      refine Prod.ext hrow (congrArg Answer.cell ?_)
      rw [← hrow, Row.cell, cell?_row]
      exact hplace ▸ rfl

theorem row_of_not_access? (h : x.Intact) {q : Request} (ha : x.access? q = none) :
    (x.request q).1.row = x.row := by
  cases q with
  | change i f =>
      have hfree := h.place?_of_not_owner? (Option.map_eq_none_iff.mp ha)
      refine h.row_eq fun r v j hj => x.cellAt_modify_ne ?_ f
      rintro rfl
      exact hfree r v hj
  | _ => cases ha

/-- The row after some requests is the row after the accesses that they came to. -/
theorem follow (h : x.Intact) (qs : List Request) :
    (x.follow qs).1.Intact ∧ (x.follow qs).1.row = (x.row.accesses (x.follow qs).2).1 := by
  induction qs generalizing x with
  | nil => exact ⟨h, rfl⟩
  | cons q qs ih =>
      obtain ⟨hintact, hrow⟩ := ih (h.request q)
      refine ⟨hintact, hrow.trans ?_⟩
      rw [Lender.follow]
      cases ha : x.access? q with
      | none => rw [h.row_of_not_access? ha]; rfl
      | some a =>
          have hserved : (x.request q).1.row = (x.row.access a).1 :=
            congrArg Prod.fst (h.request_of_access? ha)
          rw [hserved]
          rfl

end Intact

/-- A request is served as the access that it comes to, with the answer that the history asks for.
One that comes to none leaves the row as it is. -/
def Serves (x : Lender) (past : List Access) (q : Request) : Prop :=
  match x.access? q with
  | none => (x.request q).1.row = x.row
  | some a => (x.request q).1.row = (x.row.access a).1 ∧
      (x.request q).1.tell (x.request q).2 = expected past a

theorem Intact.serves (h : x.Intact) {past : List Access} (hrow : x.row.Follows past)
    (q : Request) : x.Serves past q := by
  unfold Serves
  split
  · rename_i ha
    exact h.row_of_not_access? ha
  · rename_i a ha
    have hserved := h.request_of_access? ha
    exact ⟨congrArg Prod.fst hserved, (congrArg Prod.snd hserved).trans (hrow.answer a)⟩

end Lender

/-! ### The map on pairs -/

/-- **A row is a map on pairs in the order of insertion.**

* After any accesses, the row lists every pair that was created exactly once, reporters by their
  first creation and the voters of a reporter by theirs; it holds what was written; and every access
  was answered from what had been written until then.
* Whoever only reads leaves the row as it is, and creating or writing a pair touches no other.
* All of this holds of a row that lends its cells, and lets them be changed at any time later: what
  it is asked for are accesses to the row of its cells. -/
theorem Row.ordered_map :
    (∀ as : List Access, let row := (({} : Row).accesses as).1
      row.Tells as ∧ (({} : Row).accesses as).2 = answers [] as ∧
        ∀ a, (row.access a).1.TouchedBy a row) ∧
    ∀ qs : List Request, let (x, as) := ({} : Lender).follow qs
      x.row = (({} : Row).accesses as).1 ∧ ∀ q, x.Serves as q := by
  refine ⟨fun as => ?_, fun qs => ?_⟩
  · obtain ⟨hrow, hanswers⟩ := Follows.empty.accesses as
    exact ⟨hrow.tells, hanswers, fun a => touchedBy_access a _⟩
  · obtain ⟨hintact, hrow⟩ := Lender.Intact.empty.follow qs
    refine ⟨hrow, hintact.serves ?_⟩
    rw [hrow]
    exact (Follows.empty.accesses _).1

/-- A cell that was lent early is changed late. -/
example :
    let x := (({} : Lender).follow [.lend "A" "V", .lend "B" "W", .look "A" "W", .lend "A" "X",
      .change 2 (Cell.see .precommit), .change 0 (Cell.see .prevote)]).1
    x.row.cells = [("A", "V", { prevoted := true }), ("A", "X", {}), ("B", "W", {})] := by
  decide

end Finality
