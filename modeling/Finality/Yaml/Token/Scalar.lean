import Finality.Text.Character
import Finality.Yaml.Token.Basic

/-! # Scalars as they are written

The three ways to write a scalar, with their line folding.

* **Plain**: words of a line, ended by a blank with a comment behind it, by an indicator, or by a
  line that is indented too little.  A line break between two words is a space; further breaks are
  kept.
* **Quoted**: single quotes, in which a quote is written twice, or double quotes with escapes.
* **Block**: the lines below a header, either as they are or folded, with a choice of what becomes
  of the breaks at the end. -/

namespace Finality.Yaml

/-- What a run of line breaks between two parts of a folded scalar stands for: `first` is the break
behind the upper part, `more` are the others. -/
def foldBreaks (first : Char) (more : List Char) : List Char :=
  if first != '\n' then first :: more else if more.isEmpty then [' '] else more

/-! ### Plain scalars -/

/-- Indicators that end a plain scalar inside brackets. -/
def isFlowIndicator (c : Char) : Bool := [',', '?', '[', ']', '\x7b', '\x7d'].contains c

/-- Whether a colon with this character behind it is an indicator. -/
def endsKey (flow : Bool) (c : Option Char) : Bool :=
  isBlankOrEnd c || (flow && c.any [',', '[', ']', '\x7b', '\x7d'].contains)

/-- Word of a plain scalar at the front of a text. -/
def plainWord (flow : Bool) : List Char → List Char
  | [] => []
  | c :: rest =>
    if isBlankOrEnd (some c) || (c == ':' && endsKey flow rest.head?) || (flow && isFlowIndicator c)
    then [] else c :: plainWord flow rest

/-- Breaks and spaces below the first break; `none` at a document mark.  The first argument bounds
the number of steps. -/
def plainBreaks : Nat → Cursor → Option (List Char) × Cursor
  | 0, c => (some [], c)
  | fuel + 1, c =>
    if c.peek == some ' ' then plainBreaks fuel c.next
    else
      match c.lineBreak? with
      | none => (some [], c)
      | some (x, c) =>
        if c.atDocumentMark then (none, c)
        else
          let (more, c) := plainBreaks fuel c
          (more.map (x :: ·), c)

/-- What stands between two words. -/
structure PlainGap where
  /-- What it contributes to the scalar; empty if no word can follow. -/
  text : List Char
  place : Cursor
  /-- Whether a line ended. -/
  crossed : Bool

/-- Gap at the place. -/
def plainGap (c : Cursor) : PlainGap :=
  let (spaces, c) := c.takeWhile (· == ' ')
  match c.lineBreak? with
  | none => ⟨spaces, c, false⟩
  | some (first, c) =>
    if c.atDocumentMark then ⟨[], c, true⟩
    else
      match plainBreaks (c.rest.length + 1) c with
      | (none, c) => ⟨[], c, true⟩
      | (some more, c) => ⟨foldBreaks first more, c, true⟩

/-- Words and gaps of a plain scalar behind a gap, whether a line ended behind the last word, and
the place behind it.  The first argument bounds the number of words. -/
def plainWords (flow : Bool) (indent : Int) : Nat → PlainGap → List Char × Bool × Cursor
  | 0, gap => ([], gap.crossed, gap.place)
  | fuel + 1, gap =>
    let c := gap.place
    let word := if c.peek == some '#' then [] else plainWord flow c.rest
    if word.isEmpty then ([], gap.crossed, c)
    else
      let next := plainGap (c.advance word.length)
      if next.text.isEmpty || next.place.peek == some '#'
          || (!flow && (next.place.column : Int) < indent) then
        (gap.text ++ word, next.crossed, next.place)
      else
        let (more, crossed, c) := plainWords flow indent fuel next
        (gap.text ++ word ++ more, crossed, c)

/-- Plain scalar at the place, and whether a line ended behind it. -/
def plainScalar (flow : Bool) (indent : Int) (c : Cursor) : String × Bool × Cursor :=
  let (cs, crossed, c) := plainWords flow indent (c.rest.length + 1) ⟨[], c, false⟩
  (String.ofList cs, crossed, c)

/-! ### Quoted scalars -/

/-- Characters of the escapes of one letter. -/
def quotedEscape? (c : Char) : Option Char :=
  [('0', 0x00), ('a', 0x07), ('b', 0x08), ('t', 0x09), ('\t', 0x09), ('n', 0x0A), ('v', 0x0B),
    ('f', 0x0C), ('r', 0x0D), ('e', 0x1B), (' ', 0x20), ('"', 0x22), ('\\', 0x5C), ('/', 0x2F),
    ('N', 0x85), ('_', 0xA0), ('L', 0x2028), ('P', 0x2029)].lookup c |>.map Char.ofNat

/-- Number of hexadecimal digits behind an escape letter. -/
def hexEscapeLength? (c : Char) : Option Nat := [('x', 2), ('u', 4), ('U', 8)].lookup c

/-- Character of an escape by its code point in some number of hexadecimal digits, which stand at the
place. -/
def codePoint (length : Nat) (c : Cursor) : Except ScanFault Char :=
  let ds := (c.rest.take length).map Text.hexValue?
  let known := ds.takeWhile Option.isSome
  if known.length < length then (c.advance known.length).fail
  else
    let n := Text.Numeral.value 16 (known.filterMap id)
    if n < 0x110000 then .ok (Text.charOf n) else c.fail (.codePoint n)

/-- Breaks and blanks below the first break inside quotes.  The first argument bounds the number of
lines. -/
def quotedBreaks : Nat → Cursor → Except ScanFault (List Char × Cursor)
  | 0, c => .ok ([], c)
  | fuel + 1, c =>
    if c.atDocumentMark then c.fail
    else
      let c := c.skipWhile fun x => x == ' ' || x == '\t'
      match c.lineBreak? with
      | none => .ok ([], c)
      | some (x, c) => do
        let (more, c) ← quotedBreaks fuel c
        .ok (x :: more, c)

/-- Contents of a quoted scalar up to its closing quote.  The first argument bounds the number of
parts. -/
def quotedParts (double : Bool) : Nat → Cursor → Except ScanFault (List Char × Cursor)
  | 0, c => c.fail
  | fuel + 1, c => do
    let add := fun (cs : List Char) (c : Cursor) => do
      let (more, c) ← quotedParts double fuel c
      .ok (cs ++ more, c)
    match c.peek with
    | none => c.fail
    | some x =>
      if x == '"' then if double then .ok ([], c.next) else add [x] c.next
      else if x.toNat == 39 then
        if double then add [x] c.next
        else if c.ahead 1 == some x then add [x] (c.advance 2)
        else .ok ([], c.next)
      else if x == '\\' && double then
        let c := c.next
        match c.peek with
        | none => c.fail
        | some e =>
          match quotedEscape? e, hexEscapeLength? e with
          | some y, _ => add [y] c.next
          | none, some n => do
            let y ← codePoint n c.next
            add [y] (c.next.advance n)
          | none, none =>
            match c.lineBreak? with
            | none => c.fail
            | some (_, c) => do
              let (breaks, c) ← quotedBreaks (c.rest.length + 1) c
              add breaks c
      else if x == ' ' || x == '\t' || isBreak x then
        let (blanks, c) := c.takeWhile fun y => y == ' ' || y == '\t'
        match c.lineBreak? with
        | none => add blanks c
        | some (first, c) => do
          let (more, c) ← quotedBreaks (c.rest.length + 1) c
          add (foldBreaks first more) c
      else
        let (cs, c) := c.takeWhile fun y =>
          !(y == '"' || y.toNat == 39 || y == '\\' || isBlankOrEnd (some y))
        if cs.isEmpty then add [x] c.next else add cs c

/-- Quoted scalar at the place. -/
def quotedScalar (c : Cursor) : Except ScanFault (String × Cursor) := do
  let (cs, c) ← quotedParts (c.peek == some '"') (c.rest.length + 1) c.next
  .ok (String.ofList cs, c)

/-! ### Block scalars -/

/-- What becomes of the breaks at the end of a block scalar. -/
inductive Chomping where
  | strip
  | clip
  | keep
deriving DecidableEq, Repr

/-- Chomping indicator at the place. -/
def chomping? (c : Cursor) : Option (Chomping × Cursor) :=
  match c.peek with
  | some '+' => some (.keep, c.next)
  | some '-' => some (.strip, c.next)
  | _ => none

/-- Indentation indicator at the place; zero is refused. -/
def increment? (c : Cursor) : Except ScanFault (Option (Nat × Cursor)) :=
  match c.peek with
  | some x =>
    if x == '0' then c.fail
    else if Text.isAsciiDigit x then .ok (some (x.toNat - 48, c.next))
    else .ok none
  | none => .ok none

/-- Header of a block scalar: its indicators, in either order. -/
def blockHeader (c : Cursor) : Except ScanFault ((Chomping × Option Nat) × Cursor) := do
  let (header, c) : (Chomping × Option Nat) × Cursor ←
    match chomping? c with
    | some (chomping, c) => do
      match ← increment? c with
      | some (n, c) => pure ((chomping, some n), c)
      | none => pure ((chomping, none), c)
    | none => do
      match ← increment? c with
      | some (n, c) =>
        match chomping? c with
        | some (chomping, c) => pure ((chomping, some n), c)
        | none => pure ((.clip, some n), c)
      | none => pure ((.clip, none), c)
  if isSpaceOrEnd c.peek then .ok (header, c) else c.fail

/-- Breaks of the empty lines at the place, the greatest column that spaces reach in them, and the
place behind them.  The first argument bounds the number of steps. -/
def blockIndentation : Nat → Cursor → List Char × Nat × Cursor
  | 0, c => ([], 0, c)
  | fuel + 1, c =>
    if c.peek == some ' ' then
      let (breaks, deepest, d) := blockIndentation fuel c.next
      (breaks, max c.next.column deepest, d)
    else
      match c.lineBreak? with
      | none => ([], 0, c)
      | some (x, c) =>
        let (breaks, deepest, c) := blockIndentation fuel c
        (x :: breaks, deepest, c)

/-- Place behind the spaces of an indentation. -/
def skipIndent (indent : Nat) (c : Cursor) : Cursor :=
  c.advance (((c.rest.takeWhile (· == ' ')).length).min (indent - c.column))

/-- Breaks of the lines at the place that hold no more than the indentation.  The first argument
bounds the number of lines. -/
def blockBreaks (indent : Nat) : Nat → Cursor → List Char × Cursor
  | 0, c => ([], c)
  | fuel + 1, c =>
    let c := skipIndent indent c
    match c.lineBreak? with
    | none => ([], c)
    | some (x, c) =>
      let (breaks, c) := blockBreaks indent fuel c
      (x :: breaks, c)

/-- Lines of a block scalar, the break behind the last of them with the breaks of the empty lines
below it, and the place behind.  The first argument bounds the number of lines. -/
def blockLines (folded : Bool) (indent : Nat) :
    Nat → List Char → Cursor → List Char × List Char × List Char × Cursor
  | 0, breaks, c => ([], [], breaks, c)
  | fuel + 1, breaks, c =>
    if c.column == indent && c.peek.isSome then
      let solid := fun (x : Option Char) => !(x == some ' ' || x == some '\t')
      let leading := solid c.peek
      let (line, c) := c.takeWhile (!isBreak ·)
      let (ending, c) : List Char × Cursor := match c.lineBreak? with
        | some (x, c) => ([x], c)
        | none => ([], c)
      let (below, c) := blockBreaks indent (c.rest.length + 1) c
      if c.column == indent && c.peek.isSome then
        let joint :=
          if folded && ending == ['\n'] && leading && solid c.peek then
            if below.isEmpty then [' '] else []
          else ending
        let (more, last, tail, c) := blockLines folded indent fuel below c
        (breaks ++ line ++ joint ++ more, last, tail, c)
      else (breaks ++ line, ending, below, c)
    else ([], [], breaks, c)

/-- Block scalar at the place, inside a block of the given indentation. -/
def blockScalar (folded : Bool) (parent : Int) (c : Cursor) : Except ScanFault (String × Cursor) := do
  let ((chomping, increment), c) ← blockHeader c.next
  let c := c.skipSpaces.skipComment
  if !isBreakOrEnd c.peek then c.fail
  let c := c.skipBreak
  let least := max (parent + 1).toNat 1
  let (indent, breaks, c) : Nat × List Char × Cursor := match increment with
    | none =>
      let (breaks, deepest, c) := blockIndentation (c.rest.length + 1) c
      (max least deepest, breaks, c)
    | some n =>
      let indent := least + n - 1
      let (breaks, c) := blockBreaks indent (c.rest.length + 1) c
      (indent, breaks, c)
  let (text, last, tail, c) := blockLines folded indent (c.rest.length + 1) breaks c
  let ending := match chomping with
    | .strip => []
    | .clip => last
    | .keep => last ++ tail
  .ok (String.ofList (text ++ ending), c)

end Finality.Yaml
