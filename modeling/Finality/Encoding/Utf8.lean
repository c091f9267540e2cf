import Finality.Text.Character

/-! # UTF-8

Decoding of UTF-8 with the place and the reason of the first fault.  `Fault` tells what is wrong
with octets that do not decode to a text, in whatever encoding: the reason, and the octets that are
to blame.

A sequence starts with its lead octet: `C2` to `DF` for two octets, `E0` to `EF` for three, `F0` to
`F4` for four.  The second octet is narrower than `80` to `BF` after `E0` (no overlong forms), `ED`
(no surrogates), `F0` (no overlong forms) and `F4` (nothing above `10FFFF`).  A fault is blamed on
the octets of the sequence that were good so far: an octet that cannot continue it is
`invalidContinuation`, the end of the input is `unexpectedEnd`.

The three-octet forms of surrogates can be let through, as the replacement character. -/

namespace Finality.Encoding

/-- Reasons for which octets do not decode. -/
inductive Reason where
  | invalidStart
  | invalidContinuation
  | unexpectedEnd
  | truncated
  | outOfRange
deriving DecidableEq, Repr

/-- Wording of a reason. -/
def Reason.message : Reason → String
  | .invalidStart => "invalid start byte"
  | .invalidContinuation => "invalid continuation byte"
  | .unexpectedEnd => "unexpected end of data"
  | .truncated => "truncated data"
  | .outOfRange => "code point not in range(0x110000)"

/-- The first octets of a sequence that do not decode. -/
structure Fault where
  /-- Number of octets before them. -/
  start : Nat
  /-- How many they are. -/
  length : Nat
  reason : Reason
deriving DecidableEq, Repr

/-- Puts a decoded character in front of a decoded text. -/
def prepend {ε : Type} (c : Char) (r : Except ε (List Char)) : Except ε (List Char) :=
  r.map (c :: ·)

namespace Utf8

/-- Octets that continue a sequence. -/
def isTail (b : UInt8) : Bool := 0x80 ≤ b && b ≤ 0xBF

/-- Octets that may follow a lead octet. -/
def isSecond (lead b : UInt8) : Bool :=
  isTail b && !(lead == 0xE0 && b < 0xA0) && !(lead == 0xED && 0xA0 ≤ b)
    && !(lead == 0xF0 && b < 0x90) && !(lead == 0xF4 && 0x90 ≤ b)

/-- Character of a sequence, from the payload of its lead octet and its tail. -/
def assemble (lead : Nat) (tail : List UInt8) : Char :=
  Char.ofNat (tail.foldl (fun n b => n * 64 + (b.toNat - 0x80)) lead)

/-- Text of a sequence of octets that starts at a position. -/
def decodeFrom (surrogates : Bool) (at_ : Nat) : List UInt8 → Except Fault (List Char)
  | [] => .ok []
  | a :: rest =>
    if a < 0x80 then prepend (Char.ofNat a.toNat) (decodeFrom surrogates (at_ + 1) rest)
    else if a < 0xC2 || 0xF4 < a then .error ⟨at_, 1, .invalidStart⟩
    else
      match rest with
      | [] => .error ⟨at_, 1, .unexpectedEnd⟩
      | b :: rest =>
        if surrogates && a == 0xED && 0xA0 ≤ b && b ≤ 0xBF then
          match rest with
          | c :: rest =>
            if isTail c then prepend Text.replacement (decodeFrom surrogates (at_ + 3) rest)
            else .error ⟨at_, 1, .invalidContinuation⟩
          | [] => .error ⟨at_, 1, .invalidContinuation⟩
        else if !isSecond a b then .error ⟨at_, 1, .invalidContinuation⟩
        else if a < 0xE0 then
          prepend (assemble (a.toNat - 0xC0) [b]) (decodeFrom surrogates (at_ + 2) rest)
        else
          match rest with
          | [] => .error ⟨at_, 2, .unexpectedEnd⟩
          | c :: rest =>
            if !isTail c then .error ⟨at_, 2, .invalidContinuation⟩
            else if a < 0xF0 then
              prepend (assemble (a.toNat - 0xE0) [b, c]) (decodeFrom surrogates (at_ + 3) rest)
            else
              match rest with
              | [] => .error ⟨at_, 3, .unexpectedEnd⟩
              | d :: rest =>
                if !isTail d then .error ⟨at_, 3, .invalidContinuation⟩
                else
                  prepend (assemble (a.toNat - 0xF0) [b, c, d])
                    (decodeFrom surrogates (at_ + 4) rest)

/-- Text of a sequence of octets; surrogates are faults. -/
def decode (bs : List UInt8) : Except Fault (List Char) := decodeFrom false 0 bs

end Utf8

end Finality.Encoding
