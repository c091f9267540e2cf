/-! # Characters

The classes of characters that readers tell apart.

* `isBlank` is the space that may surround a numeral: the five ASCII format controls and the plain
  space, and every space, line and paragraph separator beyond ASCII.  The information separators
  `U+001C` to `U+001F` are not in it, nor is the zero width space `U+200B`.  `isBlankByte` is the
  ASCII part of the same class on octets; a recorded line that holds nothing else counts as empty.
* Decimal digits are the characters of general category `Nd`.  Every script that has decimal digits
  encodes its ten digits in a row, zero first, so the class is given by the code points of the
  zeros: `digitValue? c` looks for the row that holds `c` and answers the position of `c` in it.
* A line ends with a carriage return, a line feed or both together, with the vertical tab, the form
  feed, one of the information separators `U+001C` to `U+001E`, with `U+0085`, or with a line or
  paragraph separator.  A text that ends with a line end has no empty line behind it.
* Surrogates are the code points that UTF-16 sets aside: a high and a low surrogate together stand
  for a character beyond the first 65536, and on its own neither is a character.  A lone surrogate
  is read as the replacement character. -/

namespace Finality.Text

/-! ### White space -/

/-- White space around a numeral. -/
def isBlank (c : Char) : Bool :=
  let n := c.toNat
  n == 0x20 || (0x09 ≤ n && n ≤ 0x0D) || n == 0x85 || n == 0xA0 || n == 0x1680
    || (0x2000 ≤ n && n ≤ 0x200A) || n == 0x2028 || n == 0x2029 || n == 0x202F || n == 0x205F
    || n == 0x3000

/-- White space octets. -/
def isBlankByte (b : UInt8) : Bool :=
  b == 0x20 || (0x09 ≤ b && b ≤ 0x0D)

/-- Text without the white space at both ends. -/
def trim (cs : List Char) : List Char :=
  ((cs.dropWhile isBlank).reverse.dropWhile isBlank).reverse

/-! ### Digits -/

/-- Code points of the digit zero of every script, in ascending order. -/
def digitZeros : List Nat := [
  0x30, 0x660, 0x6F0, 0x7C0, 0x966, 0x9E6, 0xA66, 0xAE6,
  0xB66, 0xBE6, 0xC66, 0xCE6, 0xD66, 0xDE6, 0xE50, 0xED0,
  0xF20, 0x1040, 0x1090, 0x17E0, 0x1810, 0x1946, 0x19D0, 0x1A80,
  0x1A90, 0x1B50, 0x1BB0, 0x1C40, 0x1C50, 0xA620, 0xA8D0, 0xA900,
  0xA9D0, 0xA9F0, 0xAA50, 0xABF0, 0xFF10, 0x104A0, 0x10D30, 0x11066,
  0x110F0, 0x11136, 0x111D0, 0x112F0, 0x11450, 0x114D0, 0x11650, 0x116C0,
  0x11730, 0x118E0, 0x11950, 0x11C50, 0x11D50, 0x11DA0, 0x16A60, 0x16AC0,
  0x16B50, 0x1D7CE, 0x1D7D8, 0x1D7E2, 0x1D7EC, 0x1D7F6, 0x1E140, 0x1E2F0,
  0x1E950, 0x1FBF0]

/-- Value of a decimal digit of any script, `none` for every other character. -/
def digitValue? (c : Char) : Option Nat :=
  (digitZeros.find? fun z => z ≤ c.toNat && c.toNat < z + 10).map (c.toNat - ·)

/-- Decimal digits of any script. -/
def isDigit (c : Char) : Bool := (digitValue? c).isSome

/-- Decimal digits of the basic range. -/
def isAsciiDigit (c : Char) : Bool := '0' ≤ c && c ≤ '9'

/-- Value of a hexadecimal digit, which is ASCII. -/
def hexValue? (c : Char) : Option Nat :=
  if '0' ≤ c ∧ c ≤ '9' then some (c.toNat - 48)
  else if 'a' ≤ c ∧ c ≤ 'f' then some (c.toNat - 87)
  else if 'A' ≤ c ∧ c ≤ 'F' then some (c.toNat - 55)
  else none

theorem digitValue?_lt {c : Char} {d : Nat} (h : digitValue? c = some d) : d < 10 := by
  obtain ⟨z, hz, rfl⟩ := Option.map_eq_some_iff.1 h
  have := List.find?_some hz
  simp only [Bool.and_eq_true, decide_eq_true_eq] at this
  omega

theorem digitValue?_basic (d : Fin 10) : digitValue? (Char.ofNat (48 + d)) = some d.val := by
  revert d; decide

/-! ### Lines -/

/-- Characters that end a line. -/
def endsLine (c : Char) : Bool :=
  let n := c.toNat
  (0x0A ≤ n && n ≤ 0x0D) || (0x1C ≤ n && n ≤ 0x1E) || n == 0x85 || n == 0x2028 || n == 0x2029

/-- Text in reverse order without the line end that the text ends with. -/
def dropLineEnd : List Char → List Char
  | '\n' :: '\r' :: rest => rest
  | c :: rest => if endsLine c then rest else c :: rest
  | [] => []

/-- The last line of a text. -/
def lastLine (s : String) : String :=
  String.ofList ((dropLineEnd s.toList.reverse).takeWhile fun c => !endsLine c).reverse

/-! ### Surrogates -/

/-- Stands for a code point that is no character. -/
def replacement : Char := Char.ofNat 0xFFFD

/-- Code points of high surrogates. -/
def isHighSurrogate (n : Nat) : Bool := 0xD800 ≤ n && n ≤ 0xDBFF

/-- Code points of low surrogates. -/
def isLowSurrogate (n : Nat) : Bool := 0xDC00 ≤ n && n ≤ 0xDFFF

/-- Character of a surrogate pair. -/
def joinSurrogates (high low : Nat) : Char :=
  Char.ofNat (0x10000 + (high - 0xD800) * 0x400 + (low - 0xDC00))

/-- Character of a code point. -/
def charOf (n : Nat) : Char :=
  if isHighSurrogate n || isLowSurrogate n then replacement else Char.ofNat n

end Finality.Text
