import Finality.Yaml.Fault

/-! # Places and tokens

A place in a YAML text (`Cursor`): what is left of the text, and where it is, because indentation and
line ends carry meaning.  A byte order mark takes no column.  Line breaks are the carriage return, the
line feed, both together, `U+0085`, `U+2028` and `U+2029`; the last two keep their identity when a
scalar is folded, all others become a line feed.

The text is a sequence of tokens: the indicators as they are written, those that indentation stands
for, properties of nodes, and scalars with their presentation resolved. -/

namespace Finality.Yaml

/-! ### Places -/

/-- Characters that end a line. -/
def isBreak (c : Char) : Bool :=
  c == '\r' || c == '\n' || c.toNat == 0x85 || c.toNat == 0x2028 || c.toNat == 0x2029

/-- Line break, or the end of the text. -/
def isBreakOrEnd : Option Char → Bool
  | none => true
  | some c => isBreak c

/-- Space, line break, or the end of the text. -/
def isSpaceOrEnd : Option Char → Bool
  | none => true
  | some c => c == ' ' || isBreak c

/-- Space, tab, line break, or the end of the text. -/
def isBlankOrEnd : Option Char → Bool
  | none => true
  | some c => c == ' ' || c == '\t' || isBreak c

/-- A place in a text. -/
structure Cursor where
  /-- The text from here on. -/
  rest : List Char
  /-- Characters before the place. -/
  index : Nat := 0
  line : Nat := 0
  column : Nat := 0

namespace Cursor

/-- The character at the place. -/
def peek (c : Cursor) : Option Char := c.rest.head?

/-- The character some way ahead. -/
def ahead (c : Cursor) (n : Nat) : Option Char := c.rest[n]?

/-- Place behind the next character. -/
def next (c : Cursor) : Cursor :=
  match c.rest with
  | [] => c
  | x :: rest =>
    if isBreak x && !(x == '\r' && rest.head? == some '\n') then
      { rest, index := c.index + 1, line := c.line + 1, column := 0 }
    else
      { rest, index := c.index + 1, line := c.line,
        column := if x.toNat == 0xFEFF then c.column else c.column + 1 }

/-- Place some characters further on. -/
def advance (c : Cursor) : Nat → Cursor
  | 0 => c
  | n + 1 => c.next.advance n

/-- Characters of a class from the place on, and the place behind them. -/
def takeWhile (c : Cursor) (p : Char → Bool) : List Char × Cursor :=
  let cs := c.rest.takeWhile p
  (cs, c.advance cs.length)

/-- Place behind the characters of a class. -/
def skipWhile (c : Cursor) (p : Char → Bool) : Cursor := (c.takeWhile p).2

/-- Place behind spaces. -/
def skipSpaces (c : Cursor) : Cursor := c.skipWhile (· == ' ')

/-- Line break at the place, as it counts in a scalar, and the place behind it. -/
def lineBreak? (c : Cursor) : Option (Char × Cursor) :=
  match c.rest with
  | '\r' :: '\n' :: _ => some ('\n', c.advance 2)
  | x :: _ =>
    if !isBreak x then none
    else if x.toNat == 0x2028 || x.toNat == 0x2029 then some (x, c.next)
    else some ('\n', c.next)
  | [] => none

/-- Place behind a line break, if there is one. -/
def skipBreak (c : Cursor) : Cursor := c.lineBreak?.elim c (·.2)

/-- Place at the end of the line, behind a comment if there is one. -/
def skipComment (c : Cursor) : Cursor :=
  if c.peek == some '#' then c.skipWhile (!isBreak ·) else c

/-- Whether the text goes on with a mark that stands alone. -/
def atMark (mark : List Char) (c : Cursor) : Bool :=
  mark.isPrefixOf c.rest && isBlankOrEnd (c.ahead mark.length)

/-- Whether the text goes on with the mark that starts or the mark that ends a document. -/
def atDocumentMark (c : Cursor) : Bool :=
  c.atMark ['-', '-', '-'] || c.atMark ['.', '.', '.']

end Cursor

/-! ### Tokens -/

/-- Instruction to the reader of a document. -/
inductive Directive where
  | version (major minor : Nat)
  | tag (handle stem : String)
  | other
deriving DecidableEq, Repr

/-- A token. -/
inductive Token where
  | directive (d : Directive)
  | documentStart
  | documentEnd
  | blockSequenceStart
  | blockMappingStart
  | blockEnd
  | flowSequenceStart
  | flowSequenceEnd
  | flowMappingStart
  | flowMappingEnd
  | key
  | value
  | blockEntry
  | flowEntry
  | reference (name : String)
  | anchor (name : String)
  | tag (handle : Option String) (suffix : String)
  | scalar (plain : Bool) (text : String)
deriving DecidableEq, Repr

/-- A fault of a scan. -/
structure ScanFault where
  fault : Fault
  /-- Number of characters from the place of the fault to the end of the text. -/
  left : Nat
deriving DecidableEq, Repr

/-- A fault at the place. -/
def Cursor.fail {α : Type} (c : Cursor) (fault : Fault := .malformed) : Except ScanFault α :=
  .error ⟨fault, c.rest.length⟩

end Finality.Yaml
