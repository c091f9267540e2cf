import Finality.Proofs.Json.Rendering
import Finality.Proofs.Tracker.Capture
import Finality.Proofs.Tracker.Provenance
import Finality.Proofs.Tracker.WellFormed

/-! # A snapshot is recovered from its text

`Recovery` reads what a snapshot writes: the fields in either spelling, and each leaf as a cell.  It
takes back what was written (`Recovery.snapshot?_toJson`), and the text of a snapshot is read as the
object that it was written from, because that is legible (`Tracker.legible_toJson`): positions occur
once, and the numbers in a cell are heights of stored rows, so that no number has more digits than
those in plain sight (`Snapshot.Readable`).

Hence the text loses nothing, and different snapshots have different texts
(`Tracker.recovered_of_capture`). -/

namespace Finality

open Json (Legible)
open Json.Value (integer? nullable? text? truth?)
open Schema (Field Keyed)
open Text.Numeral (Short)

/-! ### Reading a snapshot -/

namespace Recovery

/-- Value of a field in the spelling in use. -/
def field? (f : Field) : Json.Value → Option Json.Value
  | .object fields =>
    let fields : List (Keyed Json.Value) := fields.map fun e => (.name e.1, e.2)
    (f.find? fields).map (·.2)
  | _ => none

section collections
variable {α : Type} (read : Json.Value → Option α)

/-- Items of an array, if all can be read. -/
def elements? : Json.Value → Option (List α)
  | .array vs => vs.mapM read
  | _ => none

/-- Entries of an object, if all values can be read. -/
def entries? : Json.Value → Option (List (String × α))
  | .object fields => fields.mapM fun e => (read e.2).map fun a => (e.1, a)
  | _ => none

end collections

def height? : Json.Value → Option Nat
  | .int (.ofNat h) => some h
  | _ => none

/-- A leaf, taken for a cell. -/
def cell? (v : Json.Value) : Option Cell := (Cell.ofJson v).toOption

/-- An object of objects of leaves. -/
def row? (v : Json.Value) : Option Row := (entries? (entries? cell?) v).map Row.mk

/-- A height with its row. -/
def item? : Json.Value → Option (Nat × Row)
  | .array [h, row] => do pure (← height? h, ← row? row)
  | _ => none

/-- Snapshot of an object whose fields are all there. -/
def snapshot? (v : Json.Value) : Option Snapshot := do
  let items ← field? Snapshot.itemsField v >>= elements? item?
  let authoritySetId ← field? Snapshot.authoritySetIdField v >>= nullable? integer?
  let authorities ← field? Snapshot.authoritiesField v >>= elements? text?
  let loading ← field? Snapshot.loadingField v >>= truth?
  let best ← field? Snapshot.bestField v >>= nullable? height?
  pure { items, authoritySetId, authorities, loading, best }

/-- Snapshot of a text. -/
def ofText? (cs : List Char) : Option Snapshot := (Json.Value.ofText cs).toOption >>= snapshot?

/-! ### Reading what was written -/

section written
variable {α : Type}

variable {read : Json.Value → Option α} {write : α → Json.Value}

theorem elements?_ofList (h : ∀ a, read (write a) = some a) (as : List α) :
    elements? read (.ofList write as) = some as :=
  List.mapM_map_eq_pure fun a _ => h a

theorem entries?_object (h : ∀ a, read (write a) = some a) (es : List (String × α)) :
    entries? read (.object (es.map fun e => (e.1, write e.2))) = some es := by
  refine List.mapM_map_eq_pure fun e _ => ?_
  rw [h, Option.map_some]
  rfl

end written

theorem cell?_toJson (byAlias : Bool) (c : Cell) : cell? (c.toJson byAlias) = some c := by
  rw [cell?, Cell.ofJson_toJson]
  rfl

theorem row?_rowJson (byAlias : Bool) (row : Row) :
    row? (Snapshot.rowJson byAlias row) = some row := by
  rw [row?, Snapshot.rowJson, entries?_object (entries?_object (cell?_toJson byAlias))]
  rfl

theorem item?_array (byAlias : Bool) (item : Nat × Row) :
    item? (.array [.nat item.1, Snapshot.rowJson byAlias item.2]) = some item := by
  rw [item?, row?_rowJson]
  rfl

theorem elements?_texts (ss : List String) : elements? text? (.ofList .text ss) = some ss := by
  have htext : ∀ s, text? (.text s) = some s := fun _ => rfl
  exact elements?_ofList htext ss

theorem nullable?_integer (n : Option Int) : nullable? integer? (.ofOption .int n) = some n := by
  cases n <;> rfl

theorem nullable?_height (h : Option Nat) : nullable? height? (.ofOption .nat h) = some h := by
  cases h <;> rfl

theorem snapshot?_toJson (byAlias : Bool) (s : Snapshot) :
    snapshot? (s.toJson byAlias) = some s := by
  have hitems : field? Snapshot.itemsField (s.toJson byAlias) = some
      (.ofList (fun item => .array [.nat item.1, Snapshot.rowJson byAlias item.2]) s.items) := by
    cases byAlias <;> rfl
  have hset : field? Snapshot.authoritySetIdField (s.toJson byAlias) =
      some (.ofOption .int s.authoritySetId) := by cases byAlias <;> rfl
  have hauthorities : field? Snapshot.authoritiesField (s.toJson byAlias) =
      some (.ofList .text s.authorities) := by cases byAlias <;> rfl
  have hloading : field? Snapshot.loadingField (s.toJson byAlias) = some (.bool s.loading) := by
    cases byAlias <;> rfl
  have hbest : field? Snapshot.bestField (s.toJson byAlias) = some (.ofOption .nat s.best) := by
    cases byAlias <;> rfl
  simp only [snapshot?, hitems, hset, hauthorities, hloading, hbest, Option.bind_eq_bind,
    Option.bind_some, elements?_ofList (item?_array byAlias),
    elements?_texts, nullable?_integer, nullable?_height, truth?]
  rfl

theorem ofText?_render {s : Snapshot} {byAlias : Bool} (hs : Legible (s.toJson byAlias))
    (indent : Json.Writer.Indent) : ofText? ((s.toJson byAlias).render indent).toList = some s := by
  rw [ofText?, Json.Value.ofText_render hs]
  exact snapshot?_toJson byAlias s

end Recovery

/-! ### Legible snapshots -/

theorem Json.Legible.ofOption {α : Type} {write : α → Json.Value} {o : Option α}
    (h : ∀ a ∈ o, Legible (write a)) : Legible (.ofOption write o) := by
  cases o with
  | none => exact .null
  | some a => exact h a rfl

theorem Json.Legible.ofList {α : Type} {write : α → Json.Value} {as : List α}
    (h : ∀ a ∈ as, Legible (write a)) : Legible (.ofList write as) := by
  refine .array fun v hv => ?_
  obtain ⟨a, ha, rfl⟩ := List.mem_map.mp hv
  exact h a ha

theorem Cell.legible_toJson (byAlias : Bool) {c : Cell} (hpointer : ∀ q ∈ c.impliedBy, Short q)
    (hfinal : ∀ h ∈ c.finalHeight, Short h) : Legible (c.toJson byAlias) := by
  have hkeys : (Cell.declared.map (Field.key byAlias)).Nodup := by cases byAlias <;> decide
  refine .object hkeys ?_
  simp only [List.forall_mem_cons, List.not_mem_nil, false_imp_iff, implies_true, and_true]
  exact ⟨.bool _, .bool _, .bool _, .bool _, .ofOption fun q hq => .int (hpointer q hq), .bool _,
    .ofOption fun s _ => .text s, .ofOption fun h hh => .int (hfinal h hh), .bool _⟩

theorem Row.Unique.legible_rowJson {row : Row} (hrow : row.Unique) {byAlias : Bool}
    (hcells : ∀ x ∈ row.cells, Legible (x.2.2.toJson byAlias)) :
    Legible (Snapshot.rowJson byAlias row) := by
  have hkeys : ∀ {α β : Type} {es : List (Address × α)} {f : Address × α → Address × β},
      (∀ e, (f e).1 = e.1) → (Ordered.keys es).Nodup → (Ordered.keys (es.map f)).Nodup := by
    intro α β es f hf hes
    have hmap : (es.map f).map (·.1) = es.map (·.1) := by
      rw [List.map_map]
      exact List.map_congr_left fun e _ => hf e
    rwa [Ordered.keys, hmap]
  refine .object (hkeys (fun _ => rfl) hrow.reporters) fun f hf => ?_
  obtain ⟨e, he, rfl⟩ := List.mem_map.mp hf
  refine .object (hkeys (fun _ => rfl) (hrow.voters e he)) fun f hf => ?_
  obtain ⟨v, hv, rfl⟩ := List.mem_map.mp hf
  exact hcells (e.1, v.1, v.2) (Row.mem_cells_iff.mpr ⟨e, he, rfl, hv⟩)

/-- The numbers of a snapshot outside its cells have not too many digits to be read. -/
structure Snapshot.Readable (s : Snapshot) : Prop where
  heights : ∀ h ∈ s.heights, Short h
  authoritySetId : ∀ n ∈ s.authoritySetId, Short n.natAbs
  best : ∀ h ∈ s.best, Short h

namespace Tracker

/-- After every run, the heights in the cells are those of stored rows. -/
theorem mem_heights_of_cell (cfg : Config) (cs : List Call) {h : Nat} {r v : Address} {c : Cell}
    (hc : (run cfg fresh cs).matrix.cell? h r v = some c) :
    (∀ q ∈ c.impliedBy, q ∈ (run cfg fresh cs).matrix.heights) ∧ ∀ g ∈ c.finalHeight, g = h := by
  have hcell := Matrix.cell_eq_of_cell? hc
  constructor
  · intro q hq
    have hgrounded := allGrounded_run cfg cs h r v
    rw [hcell] at hgrounded
    exact (hgrounded.pointer q hq).2.1
  · intro g hg
    have hwell := wellFormed_run cfg cs h r v
    rw [hcell] at hwell
    rw [hwell.finalHeight_eq] at hg
    split at hg
    · exact (Option.some.inj hg).symm
    · cases hg

/-- After every run, the snapshot is legible if its numbers in plain sight are. -/
theorem legible_toJson (cfg : Config) (cs : List Call)
    (hs : (run cfg fresh cs).snapshot.Readable) (byAlias : Bool) :
    Legible ((run cfg fresh cs).snapshot.toJson byAlias) := by
  have hkeys : (Snapshot.declared.map (Field.key byAlias)).Nodup := by cases byAlias <;> decide
  refine .object hkeys ?_
  simp only [List.forall_mem_cons, List.not_mem_nil, false_imp_iff, implies_true, and_true]
  refine ⟨.ofList fun item hitem => ?_, .ofOption fun n hn => .int (hs.authoritySetId n hn),
    .ofList fun a _ => .text a, .bool _, .ofOption fun h hh => .int (hs.best h hh)⟩
  have hheight : ∀ h ∈ (run cfg fresh cs).matrix.heights, Short h := hs.heights
  have hunique := allUnique_run cfg cs item hitem
  have hrow := Matrix.row?_eq_some_iff.mpr hitem
  have hcells : ∀ x ∈ item.2.cells, Legible (x.2.2.toJson byAlias) := by
    rintro ⟨r, v, c⟩ hx
    have hc : (run cfg fresh cs).matrix.cell? item.1 r v = some c := by
      rw [Matrix.cell?, hrow]
      exact hunique.mem_cells_iff.mp hx
    obtain ⟨hpointer, hfinal⟩ := mem_heights_of_cell cfg cs hc
    have hown : Short item.1 := hheight _ (List.mem_map_of_mem hitem)
    exact Cell.legible_toJson byAlias (fun q hq => hheight q (hpointer q hq))
      fun g hg => hfinal g hg ▸ hown
  refine .array ?_
  simp only [List.forall_mem_cons, List.not_mem_nil, false_imp_iff, implies_true, and_true]
  exact ⟨.int (hheight _ (List.mem_map_of_mem hitem)), hunique.legible_rowJson hcells⟩

theorem ofText?_of_capture {cfg : Config} {cs : List Call} {s : Snapshot}
    (hs : (run cfg fresh cs).capture = .ok s) (hread : s.Readable) (byAlias : Bool)
    (indent : Json.Writer.Indent) :
    Recovery.ofText? ((s.toJson byAlias).render indent).toList = some s := by
  rw [capture_eq_snapshot (allUnique_run cfg cs)] at hs
  cases hs
  exact Recovery.ofText?_render (legible_toJson cfg cs hread byAlias) indent

/-- **The text of a snapshot loses nothing.**  Whatever the spelling of the fields and the layout, a
snapshot that is captured after a run is recovered from its text, if no number has too many digits to
be read.  So two such snapshots with the same text are the same. -/
theorem recovered_of_capture (cfg : Config) (cs : List Call) {s : Snapshot}
    (hs : (run cfg fresh cs).capture = .ok s) (hread : s.Readable) (byAlias : Bool)
    (indent : Json.Writer.Indent) :
    Recovery.ofText? ((s.toJson byAlias).render indent).toList = some s ∧
      ∀ cfg' cs' s' byAlias' indent', (run cfg' fresh cs').capture = .ok s' → s'.Readable →
        (s'.toJson byAlias').render indent' = (s.toJson byAlias).render indent → s' = s := by
  have hrecovered := ofText?_of_capture hs hread byAlias indent
  refine ⟨hrecovered, fun cfg' cs' s' byAlias' indent' hs' hread' htext => ?_⟩
  have hrecovered' := ofText?_of_capture hs' hread' byAlias' indent'
  rw [htext, hrecovered] at hrecovered'
  exact (Option.some.inj hrecovered').symm

/-- A reporter whose name has to be escaped. -/
theorem recovered_of_capture_twoRows :
    let t := run twoRows fresh [.vote .prevote "A\n\"é" 7 "0x" "V", .finalized "V" 9 "0x9",
      .bestBlock 10]
    let s := t.snapshot
    t.capture = .ok s ∧ s.Readable ∧ s.heights = [9, 7] ∧
      (s.cell 7 "A\n\"é" "V").prevoted = true ∧
      Recovery.ofText? ((s.toJson true).render none).toList = some s ∧
      Recovery.ofText? ((s.toJson false).render (some 2)).toList = some s := by
  intro t s
  have hcapture : t.capture = .ok s := capture_eq_snapshot (allUnique_run twoRows _)
  have hread : s.Readable := { heights := by decide, authoritySetId := nofun, best := by decide }
  exact ⟨hcapture, hread, by decide, by decide,
    (recovered_of_capture twoRows _ hcapture hread true none).1,
    (recovered_of_capture twoRows _ hcapture hread false (some 2)).1⟩

end Tracker

end Finality
