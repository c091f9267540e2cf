import Finality.Encoding.Utf8
import Finality.Yaml.Token.Basic

/-! # Properties and directives

Anchors and aliases are words of ASCII letters, digits, hyphens and underscores.  A tag is a
handle, which a directive may have given a meaning, and a suffix in the characters of addresses,
where an octet may be written as `%` and two hexadecimal digits. -/

namespace Finality.Yaml

/-- Characters of words. -/
def isWordChar (c : Char) : Bool :=
  ('0' ≤ c && c ≤ '9') || ('A' ≤ c && c ≤ 'Z') || ('a' ≤ c && c ≤ 'z') || c == '-' || c == '_'

/-- Characters of addresses. -/
def isAddressChar (c : Char) : Bool :=
  isWordChar c || [';', '/', '?', ':', '@', '&', '=', '+', '$', ',', '.', '!', '~', '*',
    Char.ofNat 39, '(', ')', '[', ']'].contains c

/-- Octets written as escapes, and the text behind them. -/
def escapedOctets : List Char → Option (List UInt8 × List Char)
  | '%' :: a :: b :: rest => do
    let a ← Text.hexValue? a
    let b ← Text.hexValue? b
    let (octets, rest) ← escapedOctets rest
    pure ((a * 16 + b).toUInt8 :: octets, rest)
  | '%' :: _ => none
  | cs => some ([], cs)

/-- Characters of an address with its escapes resolved, and the text behind it.  The first argument
bounds the number of parts. -/
def address? : Nat → List Char → Option (List Char × List Char)
  | 0, cs => some ([], cs)
  | fuel + 1, cs =>
    match cs with
    | '%' :: _ => do
      let (octets, rest) ← escapedOctets cs
      let text ← (Encoding.Utf8.decode octets).toOption
      let (more, rest) ← address? fuel rest
      pure (text ++ more, rest)
    | c :: rest =>
      if isAddressChar c then (address? fuel rest).map fun (more, rest) => (c :: more, rest)
      else some ([], cs)
    | [] => some ([], [])

namespace Cursor

/-- Word at the place. -/
def word (c : Cursor) : Except ScanFault (String × Cursor) :=
  match c.takeWhile isWordChar with
  | ([], _) => c.fail
  | (cs, c) => .ok (String.ofList cs, c)

/-- Address at the place, which must not be empty. -/
def address (c : Cursor) : Except ScanFault (String × Cursor) :=
  match address? c.rest.length c.rest with
  | none => c.fail
  | some (cs, rest) =>
    if rest.length = c.rest.length then c.fail
    else .ok (String.ofList cs, c.advance (c.rest.length - rest.length))

/-- Requires a character class at the place. -/
def expect (c : Cursor) (p : Option Char → Bool) : Except ScanFault Unit :=
  if p c.peek then .ok () else c.fail

/-- Handle of a tag: an exclamation mark, or a word between two. -/
def handle (c : Cursor) : Except ScanFault (String × Cursor) := do
  c.expect (· == some '!')
  let (cs, d) := c.next.takeWhile isWordChar
  if d.peek == some '!' then .ok (String.ofList ('!' :: cs ++ ['!']), d.next)
  else if c.ahead 1 == some ' ' then .ok ("!", c.next)
  else d.fail

/-- Name of an anchor or alias behind its indicator. -/
def nodeName (c : Cursor) : Except ScanFault (String × Cursor) := do
  let (name, c) ← c.next.word
  c.expect fun x => isBlankOrEnd x || x.any (['?', ':', ',', ']', '\x7d', '%', '@', '\x60'].contains ·)
  .ok (name, c)

/-- Tag at the place. -/
def tag (c : Cursor) : Except ScanFault (Token × Cursor) := do
  let (t, c) : Token × Cursor ←
    if c.ahead 1 == some '<' then do
      let (suffix, c) ← (c.advance 2).address
      c.expect (· == some '>')
      pure (Token.tag none suffix, c.next)
    else if isBlankOrEnd (c.ahead 1) then pure (Token.tag none "!", c.next)
    else do
      let body := c.next.rest.takeWhile fun x => !isSpaceOrEnd (some x)
      let (handle, c) ← if body.contains '!' then c.handle else pure ("!", c.next)
      let (suffix, c) ← c.address
      pure (Token.tag (some handle) suffix, c)
  c.expect isSpaceOrEnd
  .ok (t, c)

/-- Natural number at the place. -/
def natural (c : Cursor) : Except ScanFault (Nat × Cursor) :=
  match c.takeWhile Text.isAsciiDigit with
  | ([], _) => c.fail
  | (cs, c) =>
    if Text.Numeral.maxDigits < cs.length then c.fail (.overlongNumeral cs.length)
    else .ok (Text.Numeral.digitsValue cs, c)

/-- Rest of a line that must be blank or a comment. -/
def blankLine (c : Cursor) : Except ScanFault Cursor := do
  let c := c.skipSpaces.skipComment
  c.expect isBreakOrEnd
  .ok c.skipBreak

/-- Directive at the place, with its line. -/
def directive (c : Cursor) : Except ScanFault (Directive × Cursor) := do
  let (name, c) ← c.next.word
  c.expect isSpaceOrEnd
  let (d, c) : Directive × Cursor ←
    if name == "YAML" then do
      let (major, c) ← c.skipSpaces.natural
      c.expect (· == some '.')
      let (minor, c) ← c.next.natural
      c.expect isSpaceOrEnd
      pure (Directive.version major minor, c)
    else if name == "TAG" then do
      let (handle, c) ← c.skipSpaces.handle
      c.expect (· == some ' ')
      let (stem, c) ← c.skipSpaces.address
      c.expect isSpaceOrEnd
      pure (Directive.tag handle stem, c)
    else pure (Directive.other, c.skipWhile (!isBreak ·))
  let c ← c.blankLine
  .ok (d, c)

end Cursor

end Finality.Yaml
