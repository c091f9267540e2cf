import Finality.Yaml.Graph.Basic
import Finality.Yaml.Token.Basic

/-! # From tokens to a graph

A recursive descent over the tokens of one document.  Every node gets its number when it begins, so
that an alias inside a node can refer to it.  What is not written where a node may stand is an
absent node, whose value is null.

A text must hold at most one document.  A fault that ended the tokens counts only once the reader
asks for the token that is missing. -/

namespace Finality.Yaml

/-- State of a reader. -/
structure Reader where
  tokens : List Token
  /-- Why there are no further tokens, unless the text ended. -/
  fault : Option Fault
  /-- What the handles of tags stand for. -/
  handles : List (String × String) := []
  graph : Graph := {}
  /-- Nodes by their anchors. -/
  anchors : List (String × Nat) := []

/-- Where a node stands.  Entries of a sequence directly below a key need not be indented. -/
inductive Context where
  | flow
  | block
  | mapping
deriving DecidableEq, Repr

namespace Reader

/-- A step of a reader. -/
abbrev Step (α : Type) := StateT Reader (Except Fault) α

/-- A document that is not well formed. -/
def malformed {α : Type} : Step α := throw .malformed

/-- The next token; `none` at the end of the text. -/
def peek : Step (Option Token) := do
  let r ← get
  match r.tokens, r.fault with
  | [], some fault => throw fault
  | [], none => pure none
  | t :: _, _ => pure (some t)

/-- Goes on behind the next token. -/
def advance : Step Unit := modify fun r => { r with tokens := r.tokens.tail }

/-- Whether the next token is one of some tokens. -/
def next (ts : List Token) : Step Bool := do
  pure ((← peek).any ts.contains)

/-- Goes on behind the next token if it is the given one; tells whether it was. -/
def accept (t : Token) : Step Bool := do
  if ← next [t] then
    advance
    pure true
  else pure false

/-- Goes on behind the next token, which must be the given one. -/
def expect (t : Token) : Step Unit := do
  if !(← accept t) then malformed

/-- Adds a node under an anchor, if it has one; an anchor must not be used twice. -/
def add (anchor : Option String) (n : Node) : Step Nat := do
  let r ← get
  let i := r.graph.nodes.size
  let anchors ← match anchor with
    | none => pure r.anchors
    | some name =>
      if (r.anchors.lookup name).isSome then malformed else pure ((name, i) :: r.anchors)
  set { r with graph := ⟨r.graph.nodes.push n⟩, anchors }
  pure i

/-- Adds a node that is not written out. -/
def addAbsent : Step Nat := add none .absent

/-- Completes a node. -/
def complete (i : Nat) (n : Node) : Step Nat := do
  modify fun r => { r with graph := r.graph.set i n }
  pure i

/-! ### Properties -/

/-- Anchor at the place. -/
def anchor? : Step (Option String) := do
  match ← peek with
  | some (.anchor name) =>
    advance
    pure (some name)
  | _ => pure none

/-- Handle and suffix of the tag at the place. -/
def tag? : Step (Option (Option String × String)) := do
  match ← peek with
  | some (.tag handle suffix) =>
    advance
    pure (some (handle, suffix))
  | _ => pure none

/-- Name of a tag. -/
def tagName (handle : Option String) (suffix : String) : Step String := do
  match handle with
  | none => pure suffix
  | some handle =>
    match (← get).handles.lookup handle with
    | some stem => pure (stem ++ suffix)
    | none => malformed

/-- Anchor and tag at the place, in either order. -/
def properties : Step (Option String × Option String) := do
  let (anchor, tag) : Option String × Option (Option String × String) ←
    match ← anchor? with
    | some name => pure (some name, ← tag?)
    | none => do
      let tag ← tag?
      if tag.isNone then pure (none, none) else pure (← anchor?, tag)
  match tag with
  | none => pure (anchor, none)
  | some (handle, suffix) => pure (anchor, some (← tagName handle suffix))

/-- The tag that leaves the choice to the form of the node. -/
def isOpen (tag : Option String) : Bool := tag.all (· == "!")

/-- Tag of a collection, whose kind has a default. -/
def collectionTag (default : Tag) (tag : Option String) : Tag :=
  match tag with
  | some name => if name == "!" then default else .ofName name
  | none => default

/-- Tag of a scalar. -/
def scalarTag (plain : Bool) (text : String) (tag : Option String) : Tag :=
  match tag with
  | some name => if name == "!" then .ofPlain text else .ofName name
  | none => if plain then .ofPlain text else .text

/-! ### Nodes -/

mutual

/-- Reads a node. -/
def node : Nat → Context → Step Nat
  | 0, _ => malformed
  | fuel + 1, context => do
    match ← peek with
    | some (.reference name) =>
      advance
      match (← get).anchors.lookup name with
      | some i => pure i
      | none => malformed
    | _ => do
      let (anchor, tag) ← properties
      let content ← peek
      match content with
      | some (.scalar plain text) =>
        advance
        add anchor (.scalar (scalarTag plain text tag) text)
      | some .flowSequenceStart => do
        advance
        let tag := collectionTag .sequence tag
        let i ← add anchor (.sequence tag [])
        complete i (.sequence tag (← flowItems fuel true))
      | some .flowMappingStart => do
        advance
        let tag := collectionTag .mapping tag
        let i ← add anchor (.mapping tag [])
        complete i (.mapping tag (← flowEntries fuel true))
      | some .blockSequenceStart =>
        if context == .flow then malformed
        else do
          advance
          let tag := collectionTag .sequence tag
          let i ← add anchor (.sequence tag [])
          let items ← blockItems fuel [.blockEntry, .blockEnd]
          expect .blockEnd
          complete i (.sequence tag items)
      | some .blockMappingStart =>
        if context == .flow then malformed
        else do
          advance
          let tag := collectionTag .mapping tag
          let i ← add anchor (.mapping tag [])
          complete i (.mapping tag (← blockEntries fuel))
      | _ =>
        if content == some .blockEntry && context == .mapping then do
          let tag := collectionTag .sequence tag
          let i ← add anchor (.sequence tag [])
          complete i (.sequence tag (← blockItems fuel [.blockEntry, .key, .value, .blockEnd]))
        else if anchor.isSome || tag.isSome then
          add anchor (.scalar (if isOpen tag then .null else scalarTag false "" tag) "")
        else malformed

/-- Reads a node, unless a token follows that cannot start one. -/
def nodeUnless : Nat → Context → List Token → Step Nat
  | 0, _, _ => malformed
  | fuel + 1, context, enders => do
    if ← next enders then addAbsent else node fuel context

/-- Reads the items of a sequence of indented or unindented entries; some tokens say that an entry
is empty. -/
def blockItems : Nat → List Token → Step (List Nat)
  | 0, _ => malformed
  | fuel + 1, enders => do
    if ← accept .blockEntry then
      let i ← nodeUnless fuel .block enders
      pure (i :: (← blockItems fuel enders))
    else pure []

/-- Reads the entries of a block mapping and its end. -/
def blockEntries : Nat → Step (List (Nat × Nat))
  | 0 => malformed
  | fuel + 1 => do
    if ← accept .key then
      let enders : List Token := [.key, .value, .blockEnd]
      let k ← nodeUnless fuel .mapping enders
      let v ← if ← accept .value then nodeUnless fuel .mapping enders else addAbsent
      pure ((k, v) :: (← blockEntries fuel))
    else do
      expect .blockEnd
      pure []

/-- Reads the items of a flow sequence and its end.  An item may be a mapping of one entry. -/
def flowItems : Nat → Bool → Step (List Nat)
  | 0, _ => malformed
  | fuel + 1, first => do
    if ← accept .flowSequenceEnd then pure []
    else do
      if !first then expect .flowEntry
      if ← accept .key then
        let i ← add none (.mapping .mapping [])
        let k ← nodeUnless fuel .flow [.value, .flowEntry, .flowSequenceEnd]
        let v ← if ← accept .value then nodeUnless fuel .flow [.flowEntry, .flowSequenceEnd]
          else addAbsent
        let i ← complete i (.mapping .mapping [(k, v)])
        pure (i :: (← flowItems fuel false))
      else if ← accept .flowSequenceEnd then pure []
      else do
        let i ← node fuel .flow
        pure (i :: (← flowItems fuel false))

/-- Reads the entries of a flow mapping and its end.  A node alone is a key. -/
def flowEntries : Nat → Bool → Step (List (Nat × Nat))
  | 0, _ => malformed
  | fuel + 1, first => do
    if ← accept .flowMappingEnd then pure []
    else do
      if !first then expect .flowEntry
      if ← accept .key then
        let k ← nodeUnless fuel .flow [.value, .flowEntry, .flowMappingEnd]
        let v ← if ← accept .value then nodeUnless fuel .flow [.flowEntry, .flowMappingEnd]
          else addAbsent
        pure ((k, v) :: (← flowEntries fuel false))
      else if ← accept .flowMappingEnd then pure []
      else do
        let k ← node fuel .flow
        let v ← addAbsent
        pure ((k, v) :: (← flowEntries fuel false))

end

/-! ### Documents -/

/-- What handles stand for unless a directive says otherwise. -/
def defaultHandles : List (String × String) := [("!", "!"), ("!!", Tag.commonStem)]

/-- Reads directives: at most one version, which must be of the first generation, and at most one
meaning for a handle.  The second argument tells whether a version was read. -/
def directives : Nat → Bool → List (String × String) → Step (List (String × String))
  | 0, _, _ => malformed
  | fuel + 1, versioned, handles => do
    match ← peek with
    | some (.directive d) => do
      advance
      match d with
      | .version major _ =>
        if versioned || major != 1 then malformed else directives fuel true handles
      | .tag handle stem =>
        if (handles.lookup handle).isSome then malformed
        else directives fuel versioned ((handle, stem) :: handles)
      | .other => directives fuel versioned handles
    | _ => pure handles

/-- Skips marks that end a document. -/
def skipEnds : Nat → Step Unit
  | 0 => malformed
  | fuel + 1 => do
    if ← accept .documentEnd then skipEnds fuel

/-- Whether a directive follows. -/
def atDirective : Step Bool := do
  match ← peek with
  | some (.directive _) => pure true
  | _ => pure false

/-- Reads the directives and the mark in front of a document. -/
def documentStart (fuel : Nat) : Step Unit := do
  let handles ← directives fuel false []
  expect .documentStart
  modify fun r => { r with handles := handles ++ defaultHandles }

/-- Reads the node of a document behind its mark, which need not be there. -/
def content (fuel : Nat) : Step Nat := do
  if (← peek).isNone || (← atDirective) || (← next [.documentStart, .documentEnd]) then addAbsent
  else node fuel .block

/-- Reads the one document of a text; `none` if there is none. -/
def document (fuel : Nat) : Step (Option Nat) := do
  if (← peek).isNone then pure none
  else do
    let root ← if (← atDirective) || (← next [.documentStart]) then do
        documentStart fuel
        content fuel
      else do
        modify fun r => { r with handles := defaultHandles }
        node fuel .block
    skipEnds fuel
    if (← peek).isNone then pure (some root)
    else do
      documentStart fuel
      malformed

end Reader

/-- Graph of tokens with the number of its root; `none` if there is no document. -/
def Graph.ofTokens (tokens : List Token) (fault : Option Fault) :
    Except Fault (Option (Nat × Graph)) := do
  let fuel := 3 * (tokens.length + 2)
  let (root, r) ← (Reader.document fuel).run { tokens, fault }
  .ok (root.map fun i => (i, r.graph))

end Finality.Yaml
