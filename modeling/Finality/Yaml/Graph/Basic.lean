import Finality.Yaml.Scalar

/-! # Node graphs

What the tokens of a document spell out: nodes that refer to one another.  An alias is a second
reference to a node, so a graph may share nodes and may have cycles.  Nodes are numbered in the
order in which they begin. -/

namespace Finality.Yaml

/-- A node with its tag. -/
inductive Node where
  | scalar (tag : Tag) (text : String)
  | sequence (tag : Tag) (items : List Nat)
  | mapping (tag : Tag) (entries : List (Nat × Nat))
deriving DecidableEq, Repr

namespace Node

/-- Tag of a node. -/
def tag : Node → Tag
  | .scalar tag _ => tag
  | .sequence tag _ => tag
  | .mapping tag _ => tag

/-- The same node with another tag. -/
def retag (tag : Tag) : Node → Node
  | .scalar _ text => .scalar tag text
  | .sequence _ items => .sequence tag items
  | .mapping _ entries => .mapping tag entries

/-- Number of references to other nodes. -/
def size : Node → Nat
  | .scalar .. => 0
  | .sequence _ items => items.length
  | .mapping _ entries => entries.length

/-- A node that is not written out. -/
def absent : Node := .scalar .null ""

@[simp] theorem tag_retag (t : Tag) (n : Node) : (n.retag t).tag = t := by cases n <;> rfl

end Node

/-- The nodes of a document. -/
structure Graph where
  nodes : Array Node := #[]
deriving DecidableEq, Repr

namespace Graph

/-- Node of a number. -/
def node (g : Graph) (i : Nat) : Node := (g.nodes[i]?).getD .absent

/-- Tag of the node of a number. -/
def tagOf (g : Graph) (i : Nat) : Tag := (g.node i).tag

/-- Replaces a node. -/
def set (g : Graph) (i : Nat) (n : Node) : Graph := ⟨g.nodes.setIfInBounds i n⟩

/-- Replaces the entries of a mapping. -/
def setEntries (g : Graph) (i : Nat) (entries : List (Nat × Nat)) : Graph :=
  g.set i (.mapping (g.tagOf i) entries)

/-- Entries of a mapping; `none` for other nodes. -/
def entries? (g : Graph) (i : Nat) : Option (List (Nat × Nat)) :=
  match g.node i with
  | .mapping _ entries => some entries
  | _ => none

/-- Number of references in a graph. -/
def size (g : Graph) : Nat := g.nodes.foldl (fun n x => n + x.size) 0

/-! ### Merging

A key `<<` stands for the entries of the mapping, or of each mapping of the sequence, that is its
value.  They go in front of the other entries, so that those win; of the mappings of a sequence the
first goes last. -/

/-- Key of a merge. -/
def isMerge (g : Graph) (e : Nat × Nat) : Bool := g.tagOf e.1 == .merge

/-- Entries without the first merge. -/
def withoutMerge (g : Graph) : List (Nat × Nat) → List (Nat × Nat)
  | [] => []
  | e :: es => if g.isMerge e then es else e :: g.withoutMerge es

/-- Makes the keys `=` of some entries texts. -/
def settleValueKeys (g : Graph) (entries : List (Nat × Nat)) : Graph :=
  entries.foldl (fun g e =>
    if g.tagOf e.1 == .value then g.set e.1 ((g.node e.1).retag .text) else g) g

/-- Resolves the merges of a mapping, in the mappings that it merges first.  A merge counts as
resolved as soon as it is begun, which ends the recursion when a mapping merges itself.  The first
argument bounds the depth. -/
def flatten : Nat → Nat → Graph → Except Fault Graph
  | 0, _, _ => .error .malformed
  | depth + 1, i, g =>
    let block := fun (state : Graph × List (List (Nat × Nat))) (j : Nat) => do
      let g ← flatten depth j state.1
      .ok (g, (g.entries? j).getD [] :: state.2)
    let merge := fun (state : Graph × List (Nat × Nat)) (e : Nat × Nat) => do
      let (g, merged) := state
      let current := (g.entries? i).getD []
      if !current.any g.isMerge then .ok (g, merged)
      else
        let g := g.setEntries i (g.withoutMerge current)
        let mappings ← match g.node e.2 with
          | .mapping .. => .ok [e.2]
          | .sequence _ items => .ok items
          | .scalar .. => .error .malformed
        let (g, blocks) ← mappings.foldlM block (g, [])
        .ok (g, merged ++ blocks.flatten)
    match g.entries? i with
    | none => .error .malformed
    | some entries => do
      let (g, merged) ← (entries.filter g.isMerge).foldlM merge (g.settleValueKeys entries, [])
      .ok (g.setEntries i (merged ++ (g.entries? i).getD []))

/-- Resolves the merges of a mapping. -/
def resolveMerges (i : Nat) (g : Graph) : Except Fault Graph := g.flatten (g.size + 2) i

end Graph

end Finality.Yaml
