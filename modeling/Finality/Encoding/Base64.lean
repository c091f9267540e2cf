/-! # Base 64

Octets written with an alphabet of 64 characters, four characters for three octets.  The reader is
lenient: characters outside the alphabet are skipped, and it stops at the padding that completes a
group of four.  A last group that is not complete is refused. -/

namespace Finality.Encoding.Base64

/-- Value of a character of the alphabet. -/
def value? (c : Char) : Option Nat :=
  if 'A' ≤ c ∧ c ≤ 'Z' then some (c.toNat - 65)
  else if 'a' ≤ c ∧ c ≤ 'z' then some (c.toNat - 97 + 26)
  else if '0' ≤ c ∧ c ≤ '9' then some (c.toNat - 48 + 52)
  else if c == '+' then some 62
  else if c == '/' then some 63
  else none

/-- Octets of a text, inside a group of which some values, and after them some padding, were read.
The last value is `left`. -/
def decodeFrom (read left pads : Nat) : List Char → Option (List UInt8)
  | [] => if read = 0 then some [] else none
  | c :: rest =>
    if c == '=' then
      if 2 ≤ read ∧ 4 ≤ read + pads + 1 then some []
      else decodeFrom read left (if 2 ≤ read then pads + 1 else pads) rest
    else
      match value? c with
      | none => decodeFrom read left pads rest
      | some v =>
        let octet := fun (n : Nat) => (n % 256).toUInt8
        match read with
        | 0 => decodeFrom 1 v 0 rest
        | 1 => (decodeFrom 2 v 0 rest).map (octet (left * 4 + v / 16) :: ·)
        | 2 => (decodeFrom 3 v 0 rest).map (octet (left * 16 + v / 4) :: ·)
        | _ => (decodeFrom 0 0 0 rest).map (octet (left * 64 + v) :: ·)

/-- Octets of a text. -/
def decode (cs : List Char) : Option (List UInt8) := decodeFrom 0 0 0 cs

end Finality.Encoding.Base64
