import Finality.Yaml.Source
import Finality.Yaml.Token.Property
import Finality.Yaml.Token.Scalar

/-! # From text to tokens

The tokens of a YAML text, left to right.  Two kinds of tokens are not written but follow from the
layout.

* **Blocks.**  A deeper column than that of the enclosing block opens a block, at an entry of a
  sequence or a key of a mapping; a shallower one closes blocks (`Scan.unwind`).
* **Simple keys.**  What may be a key is only known to be one at the colon behind it.  Until then
  its place among the tokens is remembered, one for each depth of brackets, and the colon inserts
  the key token there, with the start of a block if the key is deeper than its block.  A key must be
  on one line with its colon and at most 1024 characters long; a key that has to be one, because it
  stands at the column of its block, is at fault if no colon follows.

A fault ends the scan, and so does the end of a text that breaks off.  The tokens before it still
count, since the document may be at fault before the scan is, but only those that waited for no colon
when the scan went on towards the fault. -/

namespace Finality.Yaml

/-- What may be a key if a colon follows. -/
structure SimpleKey where
  /-- Number of tokens before it. -/
  token : Nat
  /-- Whether it must be a key. -/
  required : Bool
  place : Cursor

/-- State of a scan. -/
structure Scan where
  cursor : Cursor
  tokens : Array Token := #[]
  /-- Depth of brackets. -/
  flow : Nat := 0
  /-- Column of the innermost block. -/
  indent : Int := -1
  /-- Columns of the blocks around it. -/
  indents : List Int := []
  /-- Whether a key may start here. -/
  allowKey : Bool := true
  /-- Possible keys, by the depth of brackets. -/
  keys : List (Nat × SimpleKey) := []

namespace Scan

/-- Longest text from a key to its colon. -/
def keyReach : Nat := 1024

/-- Appends a token. -/
def push (s : Scan) (t : Token) : Scan := { s with tokens := s.tokens.push t }

/-- Inserts tokens behind the given number of tokens. -/
def insertAt (s : Scan) (n : Nat) (ts : List Token) : Scan :=
  { s with tokens := (s.tokens.toList.take n ++ ts ++ s.tokens.toList.drop n).toArray }

/-- Appends a token and goes on behind it. -/
def emit (s : Scan) (t : Token) (length : Nat) : Scan :=
  { s.push t with cursor := s.cursor.advance length }

/-- Column of the place. -/
def column (s : Scan) : Int := s.cursor.column

/-- Closes blocks that are deeper than a column.  Brackets hide indentation. -/
def unwind (column : Int) (s : Scan) : Scan :=
  if s.flow != 0 then s
  else
    let rec go : Int → List Int → Scan → Scan
      | indent, outer :: rest, s =>
        if column < indent then go outer rest { s.push .blockEnd with indent := outer, indents := rest }
        else s
      | _, [], s => s
    go s.indent s.indents s

/-- Opens a block if a column is deeper than the current one; tells whether it did. -/
def deepen (column : Int) (s : Scan) : Scan × Bool :=
  if s.indent < column then ({ s with indent := column, indents := s.indent :: s.indents }, true)
  else (s, false)

/-- Forgets possible keys that are out of reach of a colon. -/
def dropStale (s : Scan) : Except ScanFault Scan :=
  let isStale := fun (k : SimpleKey) =>
    k.place.line != s.cursor.line || k.place.index + keyReach < s.cursor.index
  if s.keys.any fun k => isStale k.2 && k.2.required then s.cursor.fail
  else .ok { s with keys := s.keys.filter fun k => !isStale k.2 }

/-- Forgets the possible key at the current depth. -/
def removeKey (s : Scan) : Except ScanFault Scan :=
  match s.keys.lookup s.flow with
  | none => .ok s
  | some k =>
    if k.required then s.cursor.fail
    else .ok { s with keys := s.keys.filter fun k => k.1 != s.flow }

/-- Remembers the place as that of a possible key. -/
def saveKey (s : Scan) : Except ScanFault Scan := do
  let required := s.flow == 0 && s.indent == s.column
  if s.allowKey then
    let s ← s.removeKey
    .ok { s with keys := s.keys ++ [(s.flow, ⟨s.tokens.size, required, s.cursor⟩)] }
  else .ok s

/-- Goes to the next token, over spaces, comments and line breaks.  The first argument bounds the
number of lines. -/
def skipToToken : Nat → Scan → Scan
  | 0, s => s
  | fuel + 1, s =>
    let c := s.cursor.skipSpaces.skipComment
    match c.lineBreak? with
    | none => { s with cursor := c }
    | some (_, c) =>
      skipToToken fuel { s with cursor := c, allowKey := s.allowKey || s.flow == 0 }

/-- Ends all blocks in front of a directive or a document mark. -/
def endBlocks (s : Scan) : Except ScanFault Scan := do
  let s ← (s.unwind (-1)).removeKey
  .ok { s with allowKey := false }

/-- Opening bracket. -/
def openFlow (t : Token) (s : Scan) : Except ScanFault Scan := do
  let s ← s.saveKey
  .ok { s.emit t 1 with flow := s.flow + 1, allowKey := true }

/-- Closing bracket. -/
def closeFlow (t : Token) (s : Scan) : Except ScanFault Scan := do
  let s ← s.removeKey
  .ok { s.emit t 1 with flow := s.flow - 1, allowKey := false }

/-- Comma. -/
def flowEntry (s : Scan) : Except ScanFault Scan := do
  let s ← { s with allowKey := true }.removeKey
  .ok (s.emit .flowEntry 1)

/-- Opens a block at the place, where a key or an entry must be allowed. -/
def openBlock (t : Token) (s : Scan) : Except ScanFault Scan :=
  if s.flow != 0 then .ok s
  else if !s.allowKey then s.cursor.fail
  else
    let (s, opened) := s.deepen s.column
    .ok (if opened then s.push t else s)

/-- Entry of a block sequence. -/
def blockEntry (s : Scan) : Except ScanFault Scan := do
  let s ← s.openBlock .blockSequenceStart
  let s ← { s with allowKey := true }.removeKey
  .ok (s.emit .blockEntry 1)

/-- Question mark. -/
def key (s : Scan) : Except ScanFault Scan := do
  let s ← s.openBlock .blockMappingStart
  let s ← { s with allowKey := s.flow == 0 }.removeKey
  .ok (s.emit .key 1)

/-- Colon. -/
def value (s : Scan) : Except ScanFault Scan := do
  match s.keys.lookup s.flow with
  | some k =>
    let s := { s with keys := s.keys.filter fun k => k.1 != s.flow, allowKey := false }
    let (s, opened) := if s.flow == 0 then s.deepen k.place.column else (s, false)
    let s := s.insertAt k.token (if opened then [.blockMappingStart, .key] else [.key])
    .ok (s.emit .value 1)
  | none =>
    let s ← s.openBlock .blockMappingStart
    let s ← { s with allowKey := s.flow == 0 }.removeKey
    .ok (s.emit .value 1)

/-- A token that may start a key, and the place behind it. -/
def keyed (s : Scan) (read : Cursor → Except ScanFault (Token × Cursor)) : Except ScanFault Scan := do
  let s ← s.saveKey
  let (t, c) ← read s.cursor
  .ok { s.push t with allowKey := false, cursor := c }

/-- Plain scalar. -/
def plain (s : Scan) : Except ScanFault Scan := do
  let s ← s.saveKey
  let (text, crossed, c) := plainScalar (s.flow != 0) (s.indent + 1) s.cursor
  .ok { s.push (.scalar true text) with allowKey := crossed, cursor := c }

/-- Block scalar. -/
def block (folded : Bool) (s : Scan) : Except ScanFault Scan := do
  let s ← { s with allowKey := true }.removeKey
  let (text, c) ← blockScalar folded s.indent s.cursor
  .ok { s.push (.scalar false text) with cursor := c }

/-- Whether a plain scalar may start with a character in front of another. -/
def startsPlain (flow : Bool) (x : Char) (next : Option Char) : Bool :=
  !(isBlankOrEnd (some x) || ['-', '?', ':', ',', '[', ']', '\x7b', '\x7d', '#', '&', '*', '!', '|',
      '>', Char.ofNat 39, '"', '%', '@', '\x60'].contains x)
    || (!isBlankOrEnd next && (x == '-' || (!flow && (x == '?' || x == ':'))))

/-- Reads the token at the place, which starts with a character. -/
def token (x : Char) (s : Scan) : Except ScanFault Scan :=
  let c := s.cursor
  let inFlow := s.flow != 0
  let alone := isBlankOrEnd (c.ahead 1)
  if x == '%' && c.column == 0 then do
    let s ← s.endBlocks
    let (d, c) ← s.cursor.directive
    .ok { s.push (.directive d) with cursor := c }
  else if c.column == 0 && c.atMark ['-', '-', '-'] then do
    let s ← s.endBlocks
    .ok (s.emit .documentStart 3)
  else if c.column == 0 && c.atMark ['.', '.', '.'] then do
    let s ← s.endBlocks
    .ok (s.emit .documentEnd 3)
  else if x == '[' then s.openFlow .flowSequenceStart
  else if x == '\x7b' then s.openFlow .flowMappingStart
  else if x == ']' then s.closeFlow .flowSequenceEnd
  else if x == '\x7d' then s.closeFlow .flowMappingEnd
  else if x == ',' then s.flowEntry
  else if x == '-' && alone then s.blockEntry
  else if x == '?' && (inFlow || alone) then s.key
  else if x == ':' && (inFlow || alone) then s.value
  else if x == '*' then s.keyed fun c => c.nodeName.map fun (n, c) => (.reference n, c)
  else if x == '&' then s.keyed fun c => c.nodeName.map fun (n, c) => (.anchor n, c)
  else if x == '!' then s.keyed (·.tag)
  else if x == '|' && !inFlow then s.block false
  else if x == '>' && !inFlow then s.block true
  else if x == '"' || x.toNat == 39 then
    s.keyed fun c => (quotedScalar c).map fun (text, c) => (.scalar false text, c)
  else if startsPlain inFlow x (c.ahead 1) then s.plain
  else s.cursor.fail

/-- Tokens that do not wait for a colon. -/
def settled (s : Scan) : List Token :=
  match (s.keys.map (·.2.token)).min? with
  | none => s.tokens.toList
  | some n => s.tokens.toList.take n

/-- Reads the next token, with those that the layout adds to it; tells whether there was one. -/
def step (s : Scan) : Except ScanFault (Scan × Bool) := do
  let s ← (s.skipToToken (s.cursor.rest.length + 1)).dropStale
  let s := s.unwind s.column
  match s.cursor.peek with
  | none => do .ok (← s.endBlocks, false)
  | some x => do .ok (← s.token x, true)

/-- Whether the text goes on behind a place by less than the scan looks ahead. -/
def nearEnd (c : Cursor) : Bool :=
  match c.rest with
  | [] => true
  | [_] => true
  | _ => false

/-- Fault that a fault counts as in a text that may break off: near the end, where more of the text
would be asked for, it is that of the text. -/
def faultOf (broken : Option Fault) (f : ScanFault) : Fault :=
  if f.left ≤ 1 then broken.getD f.fault else f.fault

/-- Reads tokens up to the end of the text or a fault.  The first argument tells why the text breaks
off, the second bounds the number of tokens. -/
def run (broken : Option Fault) : Nat → Scan → List Token × Option Fault
  | 0, s => (s.settled, some .malformed)
  | fuel + 1, s =>
    match s.dropStale with
    | .error f => (s.settled, some f.fault)
    | .ok waiting =>
      match s.step with
      | .error f => (waiting.settled, some (faultOf broken f))
      | .ok (s, more) =>
        if broken.isSome && nearEnd s.cursor then (waiting.settled, broken)
        else if more then run broken fuel s
        else (s.tokens.toList, none)

end Scan

/-- Tokens of a text, and the fault that ended them if there is one. -/
def tokens (source : Source) : List Token × Option Fault :=
  let cs := source.text
  let body := match cs with
    | x :: rest => if x.toNat == 0xFEFF then { rest, index := 1 : Cursor } else { rest := cs : Cursor }
    | [] => { rest := [] : Cursor }
  Scan.run source.broken (cs.length + 1) { cursor := body }

end Finality.Yaml
