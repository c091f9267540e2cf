import Finality.Encoding.Utf8

/-! # Texts in octets

UTF-16 and UTF-32 have units of two and four octets, in either order of the octets.  Two units that
form a surrogate pair are one character; a surrogate on its own is let through, as the replacement
character.  Octets at the end that do not fill a unit are `truncated`.

A text in octets says by its first octets how it is encoded: by a byte order mark, or, because it
starts with an ASCII character, by the places of its zero octets.  The marks of UTF-32 are looked
for before those of UTF-16, of which one is a prefix.

A mark is dropped.  Fault positions count from the start of the octets, except after the mark of
UTF-8, from where they count anew. -/

namespace Finality.Encoding

/-! ### Units of two and four octets -/

/-- Order of the octets of a unit. -/
inductive Endian where
  | little
  | big
deriving DecidableEq, Repr

/-- Number spelled by octets. -/
def Endian.number (order : Endian) (bs : List UInt8) : Nat :=
  let step := fun (n : Nat) (b : UInt8) => n * 256 + b.toNat
  match order with
  | .big => bs.foldl step 0
  | .little => bs.reverse.foldl step 0

open Text (charOf isHighSurrogate isLowSurrogate joinSurrogates)

namespace Utf16

/-- Units of a sequence of octets that starts at a position. -/
def units (order : Endian) (at_ : Nat) : List UInt8 → Except Fault (List Nat)
  | [] => .ok []
  | [_] => .error ⟨at_, 1, .truncated⟩
  | a :: b :: rest => (units order (at_ + 2) rest).map (order.number [a, b] :: ·)

/-- Text of a sequence of units. -/
def ofUnits : List Nat → List Char
  | [] => []
  | [u] => [charOf u]
  | u :: v :: rest =>
    if isHighSurrogate u && isLowSurrogate v then joinSurrogates u v :: ofUnits rest
    else charOf u :: ofUnits (v :: rest)

/-- Text of a sequence of octets that starts at a position. -/
def decodeFrom (order : Endian) (at_ : Nat) (bs : List UInt8) : Except Fault (List Char) :=
  (units order at_ bs).map ofUnits

end Utf16

namespace Utf32

/-- Text of a sequence of octets that starts at a position. -/
def decodeFrom (order : Endian) (at_ : Nat) : List UInt8 → Except Fault (List Char)
  | [] => .ok []
  | a :: b :: c :: d :: rest =>
    let n := order.number [a, b, c, d]
    if n < 0x110000 then prepend (charOf n) (decodeFrom order (at_ + 4) rest)
    else .error ⟨at_, 4, .outOfRange⟩
  | rest => .error ⟨at_, rest.length, .truncated⟩

end Utf32

/-! ### Detection of the encoding -/

/-- How a text is encoded, with the number of octets of its mark. -/
inductive Scheme where
  | utf8 (mark : Nat)
  | utf16 (order : Endian) (mark : Nat)
  | utf32 (order : Endian) (mark : Nat)
deriving DecidableEq, Repr

namespace Scheme

/-- Scheme announced by a byte order mark. -/
def ofMark? : List UInt8 → Option Scheme
  | 0x00 :: 0x00 :: 0xFE :: 0xFF :: _ => some (.utf32 .big 4)
  | 0xFF :: 0xFE :: 0x00 :: 0x00 :: _ => some (.utf32 .little 4)
  | 0xFE :: 0xFF :: _ => some (.utf16 .big 2)
  | 0xFF :: 0xFE :: _ => some (.utf16 .little 2)
  | 0xEF :: 0xBB :: 0xBF :: _ => some (.utf8 3)
  | _ => none

/-- Scheme told by the zero octets at the front. -/
def ofZeros : List UInt8 → Scheme
  | a :: b :: c :: d :: _ =>
    if a == 0 then if b == 0 then .utf32 .big 0 else .utf16 .big 0
    else if b == 0 then if c == 0 && d == 0 then .utf32 .little 0 else .utf16 .little 0
    else .utf8 0
  | [a, b] =>
    if a == 0 then .utf16 .big 0 else if b == 0 then .utf16 .little 0 else .utf8 0
  | _ => .utf8 0

/-- Scheme of a text in octets. -/
def detect (bs : List UInt8) : Scheme := (ofMark? bs).getD (ofZeros bs)

/-- Text of octets in a scheme. -/
def decode (bs : List UInt8) : Scheme → Except Fault (List Char)
  | .utf8 mark => Utf8.decodeFrom true 0 (bs.drop mark)
  | .utf16 order mark => Utf16.decodeFrom order mark (bs.drop mark)
  | .utf32 order mark => Utf32.decodeFrom order mark (bs.drop mark)

end Scheme

/-- Text of octets in the scheme that they announce. -/
def decode (bs : List UInt8) : Except Fault (List Char) := (Scheme.detect bs).decode bs

end Finality.Encoding
