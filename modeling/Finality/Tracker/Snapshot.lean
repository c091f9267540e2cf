import Finality.Schema
import Finality.Tracker.Basic

/-! # Snapshots

A snapshot is an immutable copy of what a tracker knows, for the display.  It is written as a JSON
object whose keys are spelled in either of two ways: with underscores, or joined with capitals.  A
cell in it is an object with one field for each of its marks, and is read back from such an object, in
which absent fields are those of the empty cell.

`Snapshot.same` compares snapshots by what they say about every cell, whatever the order in which
the cells were inserted. -/

namespace Finality

open Schema (Field Problem Issue Keyed)

/-! ### Cells as objects -/

namespace Cell

/-- Name of a cell in reports. -/
def title : String := "VoteDetail"

/-- The fields of a cell, as they are written. -/
def prevotedField : Field := ⟨"prevoted", "prevoted"⟩
def precommittedField : Field := ⟨"precommitted", "precommitted"⟩
def impliedPrevoteField : Field := ⟨"implicit_prevoted", "implicitPrevoted"⟩
def impliedPrecommitField : Field := ⟨"implicit_precommitted", "implicitPrecommitted"⟩
def impliedByField : Field := ⟨"implicit_pointer", "implicitPointer"⟩
def finalizedField : Field := ⟨"finalized", "finalized"⟩
def finalHashField : Field := ⟨"finalized_hash", "finalizedHash"⟩
def finalHeightField : Field := ⟨"finalized_height", "finalizedHeight"⟩
def impliedFinalField : Field := ⟨"implicit_finalized", "implicitFinalized"⟩

/-- All fields, in the order in which they are written. -/
def declared : List Field :=
  [prevotedField, precommittedField, impliedPrevoteField, impliedPrecommitField, impliedByField,
    finalizedField, finalHashField, finalHeightField, impliedFinalField]

/-- Cell as an object. -/
def toJson (byAlias : Bool) (c : Cell) : Json.Value :=
  .object [
    (prevotedField.key byAlias, .bool c.prevoted),
    (precommittedField.key byAlias, .bool c.precommitted),
    (impliedPrevoteField.key byAlias, .bool c.impliedPrevote),
    (impliedPrecommitField.key byAlias, .bool c.impliedPrecommit),
    (impliedByField.key byAlias, .ofOption .nat c.impliedBy),
    (finalizedField.key byAlias, .bool c.finalized),
    (finalHashField.key byAlias, .ofOption .text c.finalHash),
    (finalHeightField.key byAlias, .ofOption .nat c.finalHeight),
    (impliedFinalField.key byAlias, .bool c.impliedFinal)]

end Cell

/-- Cell of the fields of an object, or all that is wrong with them. -/
def Cell.ofJson : Json.Value → Except (List Issue) Cell
  | .object fields =>
    let fields : List (Keyed Json.Value) := fields.map fun f => (.name f.1, f.2)
    let truth := fun (f : Field) => f.read fields false Schema.truth
    let height := fun (f : Field) => f.read fields none Schema.optionalHeight
    let hash := Cell.finalHashField.read fields none Schema.optionalText
    match truth Cell.prevotedField, truth Cell.precommittedField, truth Cell.impliedPrevoteField,
      truth Cell.impliedPrecommitField, height Cell.impliedByField, truth Cell.finalizedField,
      hash, height Cell.finalHeightField, truth Cell.impliedFinalField,
      Schema.unexpected Cell.declared fields with
    | .ok prevoted, .ok precommitted, .ok impliedPrevote, .ok impliedPrecommit, .ok impliedBy,
      .ok finalized, .ok finalHash, .ok finalHeight, .ok impliedFinal, [] =>
      .ok { prevoted, precommitted, impliedPrevote, impliedPrecommit, impliedBy, finalized,
            finalHash, finalHeight, impliedFinal }
    | a, b, c, d, e, f, g, h, i, others =>
      .error (Schema.issues a ++ Schema.issues b ++ Schema.issues c ++ Schema.issues d
        ++ Schema.issues e ++ Schema.issues f ++ Schema.issues g ++ Schema.issues h
        ++ Schema.issues i ++ others)
  | _ => .error [.notObject Cell.title]

/-! ### Snapshots -/

/-- What the display needs to draw the matrix. -/
structure Snapshot where
  /-- Rows with their heights, newest first. -/
  items : List (Nat × Row) := []
  authoritySetId : Option Int := none
  authorities : List Address := []
  loading : Bool := true
  best : Option Nat := none
deriving DecidableEq, Repr

/-- Copy of the state of a tracker. -/
def Tracker.snapshot (t : Tracker) : Snapshot where
  items := t.matrix.rows
  authoritySetId := t.authority.setId
  authorities := t.authority.members
  loading := t.authority.loading
  best := t.best

namespace Snapshot

/-- Name of a snapshot in reports. -/
def title : String := "ConsensusSnapshot"

/-- The fields of a snapshot, as they are written. -/
def itemsField : Field := ⟨"items", "items"⟩
def authoritySetIdField : Field := ⟨"authority_set_id", "authoritySetId"⟩
def authoritiesField : Field := ⟨"authorities", "authorities"⟩
def loadingField : Field := ⟨"display_loading_screen", "displayLoadingScreen"⟩
def bestField : Field := ⟨"best", "best"⟩

/-- All fields, in the order in which they are written. -/
def declared : List Field :=
  [itemsField, authoritySetIdField, authoritiesField, loadingField, bestField]

/-- Captured heights, newest first. -/
def heights (s : Snapshot) : List Nat := s.items.map (·.1)

@[simp] theorem heights_snapshot (t : Tracker) : t.snapshot.heights = t.matrix.heights := rfl

/-- Cell at a height, empty if there is none. -/
def cell (s : Snapshot) (height : Int) (reporter voter : Address) : Cell :=
  match s.items.find? fun item => (item.1 : Int) == height with
  | some item => item.2.cell reporter voter
  | none => {}

/-- Row as an object of objects. -/
def rowJson (byAlias : Bool) (row : Row) : Json.Value :=
  .object (row.reporters.map fun r =>
    (r.1, .object (r.2.map fun v => (v.1, v.2.toJson byAlias))))

/-- Snapshot as an object. -/
def toJson (byAlias : Bool) (s : Snapshot) : Json.Value :=
  .object [
    (itemsField.key byAlias, .ofList (fun item => .array [.nat item.1, rowJson byAlias item.2]) s.items),
    (authoritySetIdField.key byAlias, .ofOption .int s.authoritySetId),
    (authoritiesField.key byAlias, .ofList .text s.authorities),
    (loadingField.key byAlias, .bool s.loading),
    (bestField.key byAlias, .ofOption .nat s.best)]

/-- Snapshot of the fields of an object, or all that is wrong with them.  Items and authorities are
sequences of a sort that an object read from JSON cannot hold. -/
def ofJson : Json.Value → Except (List Issue) Snapshot
  | .object fields =>
    let fields : List (Keyed Json.Value) := fields.map fun f => (.name f.1, f.2)
    match itemsField.read fields [] Schema.tuple,
      authoritySetIdField.read fields none Schema.optionalInteger,
      authoritiesField.read fields [] Schema.tuple,
      loadingField.read fields true Schema.truth,
      bestField.read fields none Schema.optionalHeight,
      Schema.unexpected declared fields with
    | .ok items, .ok authoritySetId, .ok authorities, .ok loading, .ok best, [] =>
      .ok { items, authoritySetId, authorities, loading, best }
    | a, b, c, d, e, others =>
      .error (Schema.issues a ++ Schema.issues b ++ Schema.issues c ++ Schema.issues d
        ++ Schema.issues e ++ others)
  | _ => .error [.notObject title]

/-- Maps with the same entries, in whatever order. -/
def sameEntries {κ α : Type} [DecidableEq κ] (same : α → α → Bool) (xs ys : List (κ × α)) : Bool :=
  xs.length == ys.length && xs.all fun x => (ys.lookup x.1).any (same x.2)

/-- Rows with the same cells. -/
def sameRow (a b : Row) : Bool :=
  sameEntries (sameEntries fun c d => decide (c = d)) a.reporters b.reporters

/-- Snapshots that say the same. -/
def same (a b : Snapshot) : Bool :=
  a.items.length == b.items.length
    && (a.items.zip b.items).all (fun p => p.1.1 == p.2.1 && sameRow p.1.2 p.2.2)
    && a.authoritySetId == b.authoritySetId && a.authorities == b.authorities
    && a.loading == b.loading && a.best == b.best

end Snapshot

end Finality
