import Finality.Json.Value
import Finality.Ordered
import Finality.Text.Numeral
import Finality.Text.Character

/-! # Reading JSON

The value of a JSON text, or the first thing that is wrong with it and where (`Fault`).

* Blanks are the space, the tab, the line feed and the carriage return.
* The words `NaN`, `Infinity` and `-Infinity` are values besides `null`, `true` and `false`.
* A number ends where it can no longer go on: `01` is a zero followed by other data, and so is the
  `e` of `1e`.  It is an integer when it has neither fraction nor exponent; an integer of more than
  `Numeral.maxDigits` digits is refused.
* The fields of an object keep the place of the first field of their name and the value of the last.
* Two escapes that form a surrogate pair are one character, a surrogate on its own is read as the
  replacement character.  An escape `\uXXXX` is only recognised in front of a further character,
  which a closed string always has.

Every reader of a part returns the rest of the text with a proof that it is shorter, which is why
the recursion ends. -/

namespace Finality.Json

/-- What is wrong with a text that is not JSON. -/
inductive Problem where
  | expectingValue
  | expectingComma
  | expectingColon
  | expectingKey
  | extraData
  | unterminatedString
  | controlCharacter
  | invalidEscape
  | invalidCodePoint
  | byteOrderMark
  | overlongInteger (digits : Nat)
deriving DecidableEq, Repr

/-- Wording of a problem. -/
def Problem.message : Problem → String
  | .expectingValue => "Expecting value"
  | .expectingComma => "Expecting ',' delimiter"
  | .expectingColon => "Expecting ':' delimiter"
  | .expectingKey => "Expecting property name enclosed in double quotes"
  | .extraData => "Extra data"
  | .unterminatedString => "Unterminated string starting at"
  | .controlCharacter => "Invalid control character at"
  | .invalidEscape => "Invalid \\escape"
  | .invalidCodePoint => "Invalid \\uXXXX escape"
  | .byteOrderMark => "Unexpected UTF-8 BOM (decode using utf-8-sig)"
  | .overlongInteger digits => Text.Numeral.overlongMessage digits

/-- The first problem of a text. -/
structure Fault where
  problem : Problem
  /-- Number of characters from the place of the problem to the end of the text. -/
  left : Nat
deriving DecidableEq, Repr

namespace Fault

/-- Place of the problem in its text: number of characters before it. -/
def place (cs : List Char) (f : Fault) : Nat := cs.length - f.left

/-- Wording of the problem and its place: line and column, both from one on, and the number of
characters before it. -/
def report (cs : List Char) (f : Fault) : String :=
  let before := cs.take (f.place cs)
  let column := (before.reverse.takeWhile (· != '\n')).length + 1
  f.problem.message ++ ": line " ++ toString (before.count '\n' + 1) ++ " column "
    ++ toString column ++ " (char " ++ toString (f.place cs) ++ ")"

/-- The fault of a string, which is at fault where it starts if it does not end. -/
def ofString (left : Nat) (f : Fault) : Fault :=
  if f.problem = .unterminatedString then { f with left } else f

end Fault

namespace Reader

open Text (charOf hexValue? isAsciiDigit isHighSurrogate isLowSurrogate joinSurrogates)
open Text.Numeral (digitsValue)

/-- Rests of a text that are shorter than it. -/
abbrev Rest (cs : List Char) := { r : List Char // r.length < cs.length }

/-- Blanks between tokens. -/
def isBlank (c : Char) : Bool := c == ' ' || c == '\t' || c == '\n' || c == '\r'

/-- Text from its first token on. -/
def skip (cs : List Char) : List Char := cs.dropWhile isBlank

theorem length_skip_le (cs : List Char) : (skip cs).length ≤ cs.length :=
  (List.dropWhile_sublist isBlank).length_le

/-! ### Strings -/

/-- Number spelled by four hexadecimal digits. -/
def hexQuad? (a b c d : Char) : Option Nat := do
  let a ← hexValue? a
  let b ← hexValue? b
  let c ← hexValue? c
  let d ← hexValue? d
  pure (((a * 16 + b) * 16 + c) * 16 + d)

/-- Character of a one-letter escape. -/
def shortEscape? : Char → Option Char
  | '"' => some '"'
  | '\\' => some '\\'
  | '/' => some '/'
  | 'b' => some (Char.ofNat 8)
  | 'f' => some (Char.ofNat 12)
  | 'n' => some '\n'
  | 'r' => some '\r'
  | 't' => some '\t'
  | _ => none

/-- The second half of a surrogate pair: its value and the text behind it.  `none` when the text
does not go on with an escape. -/
def secondHalf? : List Char → Option (Except Fault (Nat × List Char))
  | '\\' :: 'u' :: a :: b :: c :: d :: next :: rest =>
    match hexQuad? a b c d with
    | none => some (.error ⟨.invalidCodePoint, rest.length + 6⟩)
    | some n => some (.ok (n, next :: rest))
  | _ => none

theorem length_secondHalf? {cs r : List Char} {n : Nat}
    (h : secondHalf? cs = some (.ok (n, r))) : r.length < cs.length := by
  unfold secondHalf? at h
  split at h
  · split at h
    · simp at h
    · simp only [Option.some.injEq, Except.ok.injEq, Prod.mk.injEq] at h
      obtain ⟨-, rfl⟩ := h
      simp only [List.length_cons]
      omega
  · simp at h

/-- Characters of a string and the text behind its closing quote; reads from behind the opening
quote. -/
def string : List Char → Except Fault (List Char × List Char)
  | [] => .error ⟨.unterminatedString, 0⟩
  | '"' :: rest => .ok ([], rest)
  | '\\' :: 'u' :: a :: b :: c :: d :: next :: rest =>
    match hexQuad? a b c d with
    | none => .error ⟨.invalidCodePoint, rest.length + 6⟩
    | some n =>
      match isHighSurrogate n, h : secondHalf? (next :: rest) with
      | true, some (.error fault) => .error fault
      | true, some (.ok (m, r)) =>
        if isLowSurrogate m then
          have : r.length < rest.length + 1 := length_secondHalf? h
          (string r).map fun (s, r) =>
            (joinSurrogates n m :: s, r)
        else (string (next :: rest)).map fun (s, r) => (charOf n :: s, r)
      | _, _ => (string (next :: rest)).map fun (s, r) => (charOf n :: s, r)
  | '\\' :: 'u' :: rest => .error ⟨.invalidCodePoint, rest.length + 1⟩
  | ['\\'] => .error ⟨.unterminatedString, 0⟩
  | '\\' :: c :: rest =>
    match shortEscape? c with
    | none => .error ⟨.invalidEscape, rest.length + 2⟩
    | some e => (string rest).map fun (s, r) => (e :: s, r)
  | c :: rest =>
    if c.toNat < 0x20 then .error ⟨.controlCharacter, rest.length + 1⟩
    else (string rest).map fun (s, r) => (c :: s, r)
termination_by cs => cs.length

theorem length_string {cs s r : List Char} (h : string cs = .ok (s, r)) :
    r.length < cs.length := by
  have step : ∀ {t : List Char} {f : List Char → List Char} {s r : List Char},
      (∀ s r, string t = .ok (s, r) → r.length < t.length) →
      (string t).map (fun p => (f p.1, p.2)) = .ok (s, r) → r.length < t.length := by
    intro t f s r ih h
    cases e : string t with
    | error fault => simp [e, Except.map] at h
    | ok p =>
      simp only [e, Except.map, Except.ok.injEq, Prod.mk.injEq] at h
      exact h.2 ▸ ih p.1 p.2 e
  fun_induction string cs generalizing s r with
  | case1 => simp at h
  | case2 rest =>
    simp only [Except.ok.injEq, Prod.mk.injEq] at h
    simp [← h.2]
  | case3 => simp at h
  | case4 => simp at h
  | case5 a b c d next rest n hn hh m r' hl this hs ih =>
    have := step (fun _ _ => ih) h
    simp only [List.length_cons]
    omega
  | case6 a b c d next rest n hn hh m r' hl hs ih =>
    have := step (fun _ _ => ih) h
    simp only [List.length_cons] at this ⊢
    omega
  | case7 a b c d next rest n hn _ _ ih =>
    have := step (fun _ _ => ih) h
    simp only [List.length_cons] at this ⊢
    omega
  | case8 => simp at h
  | case9 => simp at h
  | case10 => simp at h
  | case11 c rest _ _ e he ih =>
    have := step (fun _ _ => ih) h
    simp only [List.length_cons]
    omega
  | case12 => simp at h
  | case13 c rest _ _ _ _ _ _ ih =>
    have := step (fun _ _ => ih) h
    simp only [List.length_cons]
    omega

/-! ### Numbers and words -/

/-- Digits before the point: a zero, or digits that do not start with one. -/
def integerPart? : List Char → Option (List Char × List Char)
  | [] => none
  | c :: rest =>
    if c == '0' then some ([c], rest)
    else if isAsciiDigit c then some (c :: rest.takeWhile isAsciiDigit, rest.dropWhile isAsciiDigit)
    else none

/-- Digits behind the point, if there is a point with a digit behind it. -/
def fractionPart? : List Char → Option (List Char × List Char)
  | '.' :: c :: rest =>
    if isAsciiDigit c then some (c :: rest.takeWhile isAsciiDigit, rest.dropWhile isAsciiDigit) else none
  | _ => none

/-- Sign and digits behind an exponent mark. -/
def signedDigits? (cs : List Char) : Option (Int × List Char) :=
  let (negative, cs) := Text.Numeral.splitSign cs
  match cs with
  | c :: rest =>
    if isAsciiDigit c then
      some (Text.Numeral.signed negative (digitsValue (c :: rest.takeWhile isAsciiDigit)),
        rest.dropWhile isAsciiDigit)
    else none
  | [] => none

/-- Exponent, if there is a mark with a digit behind it. -/
def exponentPart? : List Char → Option (Int × List Char)
  | 'e' :: rest => signedDigits? rest
  | 'E' :: rest => signedDigits? rest
  | _ => none

/-- Number of a sign, an integer part, and what follows it. -/
def numberOf (negative : Bool) (whole rest : List Char) : Except Fault (Value × List Char) :=
  match fractionPart? rest, exponentPart? ((fractionPart? rest).elim rest (·.2)) with
  | none, none =>
    if Text.Numeral.maxDigits < whole.length then
      .error ⟨.overlongInteger whole.length, whole.length + rest.length⟩
    else .ok (.int (Text.Numeral.signed negative (digitsValue whole)), rest)
  | fraction, exponent =>
    let places := fraction.elim [] (·.1)
    let rest := fraction.elim rest (·.2)
    .ok (.float (Decimal.Binary64.ofDecimal negative (digitsValue (whole ++ places))
      (exponent.elim 0 (·.1) - places.length)), exponent.elim rest (·.2))

/-- Number at the front of a text. -/
def number (cs : List Char) : Except Fault (Value × List Char) :=
  let (negative, body) := match cs with
    | '-' :: rest => (true, rest)
    | cs => (false, cs)
  match integerPart? body with
  | none => .error ⟨.expectingValue, cs.length⟩
  | some (whole, rest) => numberOf negative whole rest

/-- Words and their values. -/
def words : List (List Char × Value) := [
  ("null".toList, .null), ("true".toList, .bool true), ("false".toList, .bool false),
  ("NaN".toList, .float .nan), ("Infinity".toList, .float (.infinity false)),
  ("-Infinity".toList, .float (.infinity true))]

/-- Word or number at the front of a text. -/
def scalar (cs : List Char) : Except Fault (Value × List Char) :=
  match words.find? fun w => w.1.isPrefixOf cs with
  | some (w, v) => .ok (v, cs.drop w.length)
  | none => number cs

theorem length_integerPart? {cs ds r : List Char} (h : integerPart? cs = some (ds, r)) :
    r.length < cs.length := by
  unfold integerPart? at h
  split at h
  · simp at h
  · split at h
    · simp only [Option.some.injEq, Prod.mk.injEq] at h
      simp [← h.2]
    · split at h
      · simp only [Option.some.injEq, Prod.mk.injEq] at h
        have := (List.dropWhile_sublist isAsciiDigit (l := ‹List Char›)).length_le
        simp only [← h.2, List.length_cons]
        omega
      · simp at h

theorem length_fractionPart? {cs ds r : List Char} (h : fractionPart? cs = some (ds, r)) :
    r.length ≤ cs.length := by
  unfold fractionPart? at h
  split at h
  · split at h
    · simp only [Option.some.injEq, Prod.mk.injEq] at h
      have := (List.dropWhile_sublist isAsciiDigit (l := ‹List Char›)).length_le
      simp only [← h.2, List.length_cons]
      omega
    · simp at h
  · simp at h

theorem length_splitSign (cs : List Char) :
    (Text.Numeral.splitSign cs).2.length ≤ cs.length := by
  unfold Text.Numeral.splitSign
  split <;> simp

theorem length_signedDigits? {cs r : List Char} {e : Int} (h : signedDigits? cs = some (e, r)) :
    r.length ≤ cs.length := by
  have hs := length_splitSign cs
  unfold signedDigits? at h
  split at h
  rename_i negative body hb
  rw [hb] at hs
  split at h
  · split at h
    · simp only [Option.some.injEq, Prod.mk.injEq] at h
      have := (List.dropWhile_sublist isAsciiDigit (l := ‹List Char›)).length_le
      simp only [← h.2]
      simp only [List.length_cons] at hs
      omega
    · simp at h
  · simp at h

theorem length_exponentPart? {cs r : List Char} {e : Int} (h : exponentPart? cs = some (e, r)) :
    r.length ≤ cs.length := by
  unfold exponentPart? at h
  split at h
  · have := length_signedDigits? h
    simp only [List.length_cons]
    omega
  · have := length_signedDigits? h
    simp only [List.length_cons]
    omega
  · simp at h

theorem length_numberOf {negative : Bool} {whole rest r : List Char} {v : Value}
    (h : numberOf negative whole rest = .ok (v, r)) : r.length ≤ rest.length := by
  unfold numberOf at h
  split at h
  · split at h
    · simp at h
    · simp only [Except.ok.injEq, Prod.mk.injEq] at h
      simp [← h.2]
  · simp only [Except.ok.injEq, Prod.mk.injEq] at h
    rw [← h.2]
    have hf : ((fractionPart? rest).elim rest (·.2)).length ≤ rest.length := by
      cases e : fractionPart? rest with
      | none => simp
      | some p => exact @length_fractionPart? _ p.1 _ e
    generalize hm : (fractionPart? rest).elim rest (·.2) = middle at hf
    cases e : exponentPart? middle with
    | none => simpa using hf
    | some p => exact Nat.le_trans (length_exponentPart? (e := p.1) e) hf

theorem length_number {cs r : List Char} {v : Value} (h : number cs = .ok (v, r)) :
    r.length < cs.length := by
  unfold number at h
  split at h
  rename_i negative body hb
  have hl : body.length ≤ cs.length := by
    split at hb <;> (simp only [Prod.mk.injEq] at hb; simp [← hb.2])
  split at h
  · simp at h
  · have h1 := length_integerPart? ‹_›
    have h2 := length_numberOf h
    omega

theorem length_scalar {cs r : List Char} {v : Value} (h : scalar cs = .ok (v, r)) :
    r.length < cs.length := by
  unfold scalar at h
  split at h
  · rename_i w v' hw
    simp only [Except.ok.injEq, Prod.mk.injEq] at h
    have hp := List.find?_some hw
    have hm := List.mem_of_find?_eq_some hw
    have hpos : 0 < w.length := by
      simp only [words, List.mem_cons, Prod.mk.injEq, List.not_mem_nil, or_false] at hm
      rcases hm with ⟨rfl, -⟩ | ⟨rfl, -⟩ | ⟨rfl, -⟩ | ⟨rfl, -⟩ | ⟨rfl, -⟩ | ⟨rfl, -⟩ <;> decide
    have hle : w.length ≤ cs.length := (List.isPrefixOf_iff_prefix.1 hp).length_le
    simp only [← h.2, List.length_drop]
    omega
  · exact length_number h

/-! ### Values -/

mutual

/-- Value at the front of a text, which starts with its first token. -/
def value (cs : List Char) : Except Fault (Value × Rest cs) :=
  match cs with
  | '"' :: rest =>
    match h : string rest with
    | .error fault => .error (fault.ofString (rest.length + 1))
    | .ok (s, r) => .ok (.text (String.ofList s), ⟨r, by
        have := length_string h
        simp only [List.length_cons]
        omega⟩)
  | '[' :: rest =>
    have hs := length_skip_le rest
    match h : skip rest with
    | ']' :: r => .ok (.array [], ⟨r, by simp_all; omega⟩)
    | r => do
      let (vs, ⟨r', hr⟩) ← elements r
      .ok (.array vs, ⟨r', by simp_all; omega⟩)
  | '\x7b' :: rest =>
    have hs := length_skip_le rest
    match h : skip rest with
    | '\x7d' :: r => .ok (.object [], ⟨r, by simp_all; omega⟩)
    | r => do
      let (fs, ⟨r', hr⟩) ← members r
      .ok (.object (Ordered.ofList fs), ⟨r', by simp_all; omega⟩)
  | cs =>
    match h : scalar cs with
    | .error fault => .error fault
    | .ok (v, r) => .ok (v, ⟨r, length_scalar h⟩)
termination_by (cs.length, 0)

/-- Items of an array up to its closing bracket. -/
def elements (cs : List Char) : Except Fault (List Value × Rest cs) := do
  let (v, ⟨r, hr⟩) ← value cs
  have hs := length_skip_le r
  match h : skip r with
  | ']' :: r' => .ok ([v], ⟨r', by simp_all; omega⟩)
  | ',' :: r' => do
    have ht := length_skip_le r'
    let (vs, ⟨r'', hr'⟩) ← elements (skip r')
    .ok (v :: vs, ⟨r'', by simp_all; omega⟩)
  | r' => .error ⟨.expectingComma, r'.length⟩
termination_by (cs.length, 1)
decreasing_by
  · exact Prod.Lex.right _ Nat.zero_lt_one
  · rw [h] at hs
    simp only [List.length_cons] at hs
    exact Prod.Lex.left _ _ (by omega)

/-- Fields of an object up to its closing brace. -/
def members (cs : List Char) : Except Fault (List (String × Value) × Rest cs) :=
  match cs with
  | '"' :: rest =>
    match hk : string rest with
    | .error fault => .error (fault.ofString (rest.length + 1))
    | .ok (key, r) =>
      have h0 := length_string hk
      have h1 := length_skip_le r
      match h2 : skip r with
      | ':' :: r1 => do
        have h3 := length_skip_le r1
        let (v, ⟨r2, h4⟩) ← value (skip r1)
        have h5 := length_skip_le r2
        match h6 : skip r2 with
        | '\x7d' :: r3 => .ok ([(String.ofList key, v)], ⟨r3, by simp_all; omega⟩)
        | ',' :: r3 => do
          have h7 := length_skip_le r3
          let (fs, ⟨r4, h8⟩) ← members (skip r3)
          .ok ((String.ofList key, v) :: fs, ⟨r4, by simp_all; omega⟩)
        | r3 => .error ⟨.expectingComma, r3.length⟩
      | r1 => .error ⟨.expectingColon, r1.length⟩
  | cs => .error ⟨.expectingKey, cs.length⟩
termination_by (cs.length, 1)
decreasing_by
  all_goals
    simp_all
    omega

end

/-- Value of a whole text. -/
def document (cs : List Char) : Except Fault Value := do
  let (v, ⟨r, _⟩) ← value (skip cs)
  if (skip r).isEmpty then .ok v else .error ⟨.extraData, (skip r).length⟩

end Reader

/-- Value of a JSON text, which must not start with a byte order mark. -/
def Value.ofText (cs : List Char) : Except Fault Value :=
  match cs with
  | c :: _ =>
    if c.toNat == 0xFEFF then .error ⟨.byteOrderMark, cs.length⟩ else Reader.document cs
  | [] => Reader.document cs

end Finality.Json
