import Finality.Yaml.Fault

/-! # Sources

A text as far as it can be read.  A text at hand is checked as a whole: if a character may not stand
in a document, nothing of it counts.  A file is read in portions, each decoded and checked when its
turn comes, so that what precedes a portion with a fault counts, and may be at fault itself. -/

namespace Finality.Yaml

open Encoding (TextFile Undecodable)

/-- Characters that a document may hold. -/
def isDocumentChar (c : Char) : Bool :=
  let n := c.toNat
  n == 0x09 || n == 0x0A || n == 0x0D || (0x20 ≤ n && n ≤ 0x7E) || n == 0x85
    || (0xA0 ≤ n && n ≤ 0xD7FF) || (0xE000 ≤ n && n ≤ 0xFFFD) || 0x10000 ≤ n

/-- A text as far as it can be read. -/
structure Source where
  text : List Char
  /-- Why the text breaks off, if it does. -/
  broken : Option Fault := none
deriving DecidableEq, Repr

namespace Source

/-- A text at hand. -/
def ofText (cs : List Char) : Source :=
  if cs.all isDocumentChar then { text := cs } else { text := [], broken := some .malformed }

/-- Number of characters that are read at a time. -/
def portionSize : Nat := 4096

/-- Puts a portion in front of what follows it, or breaks off. -/
def behind (portion : Except Undecodable (List Char × TextFile)) (next : TextFile → Source) :
    Source :=
  match portion with
  | .error u => { text := [], broken := some (.undecodable u) }
  | .ok (cs, f) =>
    if cs.all isDocumentChar then
      let rest := next f
      { rest with text := cs ++ rest.text }
    else { text := [], broken := some .malformed }

/-- The portions of a file that has been read in part.  The first argument bounds their number. -/
def portions : Nat → TextFile → Source
  | 0, _ => { text := [] }
  | fuel + 1, f =>
    match f.read portionSize with
    | .ok ([], _) => { text := [] }
    | portion => behind portion (portions fuel)

/-- The octets of a file.  Its first portion is twice as long as the others. -/
def ofOctets (bs : List UInt8) : Source :=
  let first := do
    let (cs, f) ← ({ octets := bs : TextFile }).read portionSize
    let (ds, f) ← f.read portionSize
    .ok (cs ++ ds, f)
  behind first (portions bs.length)

end Source

end Finality.Yaml
