import Finality.Tracker.Snapshot

/-! # Taking snapshots

A snapshot is taken in two steps.  First the rows are copied cell by cell: a cell is made anew from
its fields, and the copies are put into maps by voter and by reporter (`Row.copy`).  Then the copies
and the rest of the state are given to the fields of the snapshot as arguments.  They have the right
shape, since the copy put them together, but what stands in them is checked against the types of the
fields, and all issues are reported, each at its place (`Snapshot.Arguments.check`).

So `Tracker.capture` can fail at a cell, and it can fail at an argument. -/

namespace Finality

open Schema (Issue Problem Step)

/-! ### Checks -/

namespace Schema

/-- What an argument stands for, or all that is wrong with it. -/
abbrev Checked (α : Type) := Except (List Issue) α

variable {α β : Type}

/-- What is wrong with an argument. -/
def found : Checked α → List Issue
  | .ok _ => []
  | .error issues => issues

/-- Check of a single value. -/
def checked (x : Except Problem α) : Checked α := x.mapError fun problem => [⟨[], problem⟩]

/-- The issues of a part have their places in the whole. -/
def within (step : Step) (x : Checked α) : Checked α :=
  x.mapError fun issues => issues.map fun issue => { issue with place := step :: issue.place }

/-- Two arguments, with the issues of both. -/
def both (x : Checked α) (y : Checked β) : Checked (α × β) :=
  match x, y with
  | .ok a, .ok b => .ok (a, b)
  | x, y => .error (found x ++ found y)

/-- Elements of a sequence, of which the first has a number. -/
def elements (check : α → Checked β) : Nat → List α → Checked (List β)
  | _, [] => .ok []
  | i, a :: rest =>
    (both (within (.index i) (check a)) (elements check (i + 1) rest)).map fun p => p.1 :: p.2

/-- Entries of a map, whose keys are texts already. -/
def entries (check : α → Checked β) : List (String × α) → Checked (List (String × β))
  | [] => .ok []
  | (key, a) :: rest =>
    (both (within (.name key) (check a)) (entries check rest)).map fun p => (key, p.1) :: p.2

/-- A height. -/
def height (v : Json.Value) : Except Problem Nat :=
  (Height.ofValue v).mapError fun fault => .refused fault.message

end Schema

open Schema (Checked both checked elements entries found within)

/-! ### Copies -/

/-- Cell made from the fields of a cell. -/
def Cell.copy (c : Cell) : Checked Cell := Cell.ofJson (c.toJson false)

/-- Reporters of a row with copies of their cells. -/
def Row.copy (row : Row) : Checked (List (Address × List (Address × Cell))) := do
  let reporters ← row.reporters.mapM fun r => do
    let voters ← r.2.mapM fun v => do
      let c ← v.2.copy
      pure (v.1, c)
    pure (r.1, Ordered.ofList voters)
  pure (Ordered.ofList reporters)

namespace Snapshot

/-- Arguments of the fields. -/
structure Arguments where
  /-- Heights, each with maps of maps of cells. -/
  items : List (Json.Value × List (Address × List (Address × Cell)))
  authoritySetId : Json.Value
  authorities : List Json.Value
  loading : Json.Value
  best : Json.Value

/-- Row of a map of maps.  Cells are taken as they are. -/
def checkRow (reporters : List (Address × List (Address × Cell))) : Checked Row :=
  (entries (fun voters => (entries .ok voters).map Ordered.ofList) reporters).map fun checked =>
    { reporters := Ordered.ofList checked }

/-- Row with its height. -/
def checkItem (item : Json.Value × List (Address × List (Address × Cell))) : Checked (Nat × Row) :=
  both (within (.index 0) (checked (Schema.height item.1))) (within (.index 1) (checkRow item.2))

/-- Snapshot of arguments, or all that is wrong with them. -/
def Arguments.check (a : Arguments) : Checked Snapshot :=
  match within (.name itemsField.name) (elements checkItem 0 a.items),
    within (.name authoritySetIdField.name) (checked (Schema.optionalInteger a.authoritySetId)),
    within (.name authoritiesField.name) (elements (fun v => checked (Schema.text v)) 0 a.authorities),
    within (.name loadingField.name) (checked (Schema.truth a.loading)),
    within (.name bestField.name) (checked (Schema.optionalHeight a.best)) with
  | .ok items, .ok authoritySetId, .ok authorities, .ok loading, .ok best =>
    .ok { items, authoritySetId, authorities, loading, best }
  | a, b, c, d, e => .error (found a ++ found b ++ found c ++ found d ++ found e)

/-- Snapshot of rows, newest first, and the rest of a state. -/
def capture (rows : List (Nat × Row)) (authority : Authority) (best : Option Nat) :
    Checked Snapshot := do
  let items ← rows.mapM fun r => do
    let reporters ← r.2.copy
    pure (Json.Value.nat r.1, reporters)
  Arguments.check {
    items
    authoritySetId := .ofOption .int authority.setId
    authorities := authority.members.map .text
    loading := .bool authority.loading
    best := .ofOption .nat best }

end Snapshot

/-- Takes a snapshot of a tracker. -/
def Tracker.capture (t : Tracker) : Checked Snapshot :=
  Snapshot.capture t.matrix.rows t.authority t.best

end Finality
