import Finality.Yaml.Graph.Reader
import Finality.Yaml.Token.Scan

/-! # Documents

The value of a document, one level deep: a scalar, a sequence, or a mapping whose keys are scalars.
What lies deeper is not kept, but it has to be a document of known types all the same.

`Builder` visits the nodes of a graph level by level, each node once, so that a cycle does no harm
and, of several faults, the one nearest to the root counts, or the first of those at one depth.  The
members of a collection are valued when its turn comes. -/

namespace Finality.Yaml

/-- Value of a node as a member of a collection shows it. -/
inductive Member where
  | scalar (s : Scalar)
  | collection
deriving DecidableEq, Repr

/-- Value of a document. -/
inductive Document where
  | scalar (s : Scalar)
  /-- A collection that is no mapping. -/
  | sequence (size : Nat)
  /-- A mapping, in the order in which its keys occur first. -/
  | mapping (entries : List (Scalar × Member))
deriving DecidableEq, Repr

/-- Text that a node has as a scalar: its own, or for a mapping that of its key `=`.  The last
argument bounds the depth. -/
def Graph.scalarText (g : Graph) (i : Nat) : Nat → Except Fault String
  | 0 => .error .endless
  | depth + 1 =>
    match g.node i with
    | .scalar _ text => .ok text
    | .sequence .. => .error .malformed
    | .mapping _ entries =>
      match entries.find? fun e => g.tagOf e.1 == .value with
      | some e => g.scalarText e.2 depth
      | none => .error .malformed

/-- Progress of a visit. -/
structure Builder where
  graph : Graph
  /-- Values of the nodes that were reached. -/
  values : List (Nat × Member) := []
  /-- Collections that were reached and wait for their turn. -/
  waiting : List Nat := []

namespace Builder

/-- Notes the value of a node. -/
def note (b : Builder) (i : Nat) (m : Member) : Builder := { b with values := (i, m) :: b.values }

/-- Value of a scalar node. -/
def scalar (b : Builder) (i : Nat) : Except Fault Scalar := do
  let tag := b.graph.tagOf i
  if !tag.isScalar then .error .malformed
  else
    let text ← b.graph.scalarText i (b.graph.nodes.size + 1)
    match tag, b.graph.node i with
    | .timestamp, .mapping .. => .error .dateOfMapping
    | tag, _ => (Scalar.ofTagged tag text).map (·.atNode i)

/-- Value of a node; a collection that is reached for the first time waits for its turn. -/
def reach (b : Builder) (i : Nat) : Except Fault (Member × Builder) :=
  match b.values.lookup i with
  | some m => .ok (m, b)
  | none =>
    if (b.graph.tagOf i).isCollection then
      let b := b.note i .collection
      .ok (.collection, { b with waiting := b.waiting ++ [i] })
    else do
      let m := Member.scalar (← b.scalar i)
      .ok (m, b.note i m)

/-- Reaches nodes from left to right. -/
def reachAll (b : Builder) (is : List Nat) : Except Fault Builder :=
  is.foldlM (fun b i => do .ok (← b.reach i).2) b

/-- Reaches the entries of a mapping, whose keys must be scalars. -/
def reachEntries (b : Builder) : List (Nat × Nat) → Except Fault (List (Scalar × Member) × Builder)
  | [] => .ok ([], b)
  | (k, v) :: rest => do
    match ← b.reach k with
    | (.collection, _) => .error .malformed
    | (.scalar key, b) =>
      let (value, b) ← b.reach v
      let (entries, b) ← b.reachEntries rest
      .ok ((key, value) :: entries, b)

/-- Reaches the members of mappings of one entry. -/
def reachPairs (b : Builder) : List Nat → Except Fault Builder
  | [] => .ok b
  | i :: is => do
    match b.graph.entries? i with
    | some [(k, v)] => (← b.reachAll [k, v]).reachPairs is
    | _ => .error .malformed

/-- Changes the value of a key, or adds the key behind all others. -/
def insert (key : Scalar) (value : Member) : List (Scalar × Member) → List (Scalar × Member)
  | [] => [(key, value)]
  | (k, v) :: rest =>
    if k.same key then (k, value) :: rest else (k, v) :: insert key value rest

/-- Takes the turn of a collection; answers with the collection. -/
def visit (b : Builder) (i : Nat) : Except Fault (Document × Builder) :=
  match b.graph.tagOf i, b.graph.node i with
  | .sequence, .sequence _ items => do .ok (.sequence items.length, ← b.reachAll items)
  | .omap, .sequence _ items => do .ok (.sequence items.length, ← b.reachPairs items)
  | .pairs, .sequence _ items => do .ok (.sequence items.length, ← b.reachPairs items)
  | tag, .mapping .. =>
    if tag == .mapping || tag == .set then do
      let b := { b with graph := ← b.graph.resolveMerges i }
      let (entries, b) ← b.reachEntries ((b.graph.entries? i).getD [])
      let entries := entries.foldl (fun es e => insert e.1 e.2 es) []
      .ok (if tag == .set then .sequence entries.length else .mapping entries, b)
    else .error .malformed
  | _, _ => .error .malformed

/-- Takes the turns of all collections, also of those that are reached on the way.  The first
argument bounds their number. -/
def visitAll : Nat → Builder → Except Fault Unit
  | 0, _ => .error .endless
  | fuel + 1, b =>
    match b.waiting with
    | [] => .ok ()
    | i :: waiting => do visitAll fuel (← { b with waiting }.visit i).2

/-- Value of the document below a node. -/
def build (g : Graph) (root : Nat) : Except Fault Document := do
  let (m, b) ← { graph := g : Builder }.reach root
  match m with
  | .scalar s => .ok (.scalar s)
  | .collection =>
    let (d, b) ← { b with waiting := [] }.visit root
    visitAll (g.nodes.size + 1) b
    .ok d

end Builder

namespace Document

/-- Document of a text; `none` if the text holds none. -/
def ofSource (source : Source) : Except Fault (Option Document) := do
  let (ts, fault) := tokens source
  match ← Graph.ofTokens ts fault with
  | none => .ok none
  | some (root, g) => (Builder.build g root).map some

/-- Documents that say no more than an empty text. -/
def isVoid : Document → Bool
  | .scalar s => s.isVoid
  | .sequence size => size == 0
  | .mapping entries => entries.isEmpty

end Document

end Finality.Yaml
