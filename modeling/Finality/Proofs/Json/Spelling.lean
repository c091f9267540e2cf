import Mathlib.Data.List.Forall2
import Finality.Json.Writer
import Finality.Proofs.Json.Append
import Finality.Proofs.Text.Surrogate

/-! # Spelling values in ASCII

Integers, strings and arrays are spelled in the most common way: integers by their digits, strings
with every character beyond printable ASCII escaped by its code units, and arrays with a comma and a
blank between their items.  An array takes the spellings of its items as they are, so its items may
also be spelled in any other way.

What is spelled is read as what it spells (`Spells`): an integer that has not too many digits
(`spells_int`), every string (`spells_string`), and an array of items that are (`spells_array`). -/

namespace Finality.Json

namespace Spelling

/-- Escape of a code unit. -/
def codeUnit (n : Nat) : List Char := '\\' :: 'u' :: Text.hexDigits 4 n

/-- One character of a string.  A character beyond the first 65536 is a pair of surrogates. -/
def escape (c : Char) : List Char :=
  if c.toNat < 0x7F then Writer.escape c
  else if c.toNat < 0x10000 then codeUnit c.toNat
  else
    codeUnit (0xD800 + (c.toNat - 0x10000) / 0x400) ++
      codeUnit (0xDC00 + (c.toNat - 0x10000) % 0x400)

/-- A string between its quotes. -/
def string (s : String) : List Char := '"' :: s.toList.flatMap escape ++ ['"']

/-- An integer. -/
def int (n : Int) : List Char := (toString n).toList

/-- Further items of an array. -/
def items : List (List Char) → List Char
  | [] => []
  | x :: xs => ',' :: ' ' :: x ++ items xs

/-- An array of items that are spelled already. -/
def array : List (List Char) → List Char
  | [] => ['[', ']']
  | x :: xs => '[' :: x ++ items xs ++ [']']

end Spelling

namespace Reader

open Text (charOf_toNat codeUnits codeUnits_lt hexDigit hexDigits hexValue? highHalf
  isHighSurrogate isHighSurrogate_highHalf isHighSurrogate_toNat isLowSurrogate
  isLowSurrogate_lowHalf joinSurrogates_halves lowHalf)
open Text.Numeral (Short)

variable {rest t x : List Char} {v : Value}

/-- A text is read as a value. -/
def Spells (cs : List Char) (v : Value) : Prop := document cs = .ok v

theorem spells_of_ofText {cs : List Char} (h : Value.ofText cs = .ok v) : Spells cs v := by
  unfold Value.ofText at h
  split at h
  · split at h
    · cases h
    · exact h
  · exact h

/-! ### Strings -/

theorem hexValue?_hexDigit : ∀ d < 16, hexValue? (hexDigit d) = some d := by
  decide

theorem exists_hexDigits {n : Nat} (hn : n < 0x10000) :
    ∃ a b c d, hexDigits 4 n = [a, b, c, d] ∧ hexQuad? a b c d = some n := by
  refine ⟨_, _, _, _, rfl, ?_⟩
  have hdigit : ∀ d, hexValue? (hexDigit (d % 16)) = some (d % 16) :=
    fun d => hexValue?_hexDigit _ (Nat.mod_lt _ (by decide))
  simp only [hexQuad?, hdigit, Option.bind_eq_bind, Option.bind_some, Option.pure_def,
    Option.some.injEq]
  omega

theorem string_codeUnit {c : Char} (hc : c.toNat < 0x10000) (hrest : rest ≠ []) :
    string (Spelling.codeUnit c.toNat ++ rest) = push c (string rest) := by
  obtain ⟨h₁, h₂, h₃, h₄, hdigits, hquad⟩ := exists_hexDigits hc
  have hsingle : isHighSurrogate c.toNat = true → ∀ x ∈ secondHalf? rest,
      ∃ m r, x = .ok (m, r) ∧ isLowSurrogate m = false := by
    rw [isHighSurrogate_toNat]
    intro h
    cases h
  have hread := string_unit hquad hrest hsingle
  rw [charOf_toNat] at hread
  rw [Spelling.codeUnit, hdigits]
  exact hread

theorem secondHalf?_codeUnit {n : Nat} (hn : n < 0x10000) (hrest : rest ≠ []) :
    secondHalf? (Spelling.codeUnit n ++ rest) = some (.ok (n, rest)) := by
  obtain ⟨a, b, c, d, hdigits, hquad⟩ := exists_hexDigits hn
  cases rest with
  | nil => exact absurd rfl hrest
  | cons next rest => simp only [Spelling.codeUnit, hdigits, List.cons_append, List.nil_append,
      secondHalf?, hquad]

theorem string_pair_codeUnits {c : Char} (hc : 0x10000 ≤ c.toNat) (hrest : rest ≠ []) :
    string (Spelling.codeUnit (highHalf c) ++ (Spelling.codeUnit (lowHalf c) ++ rest)) =
      push c (string rest) := by
  have hunits : codeUnits c = [highHalf c, lowHalf c] := if_neg (Nat.not_lt.mpr hc)
  have hhigh : highHalf c < 0x10000 := codeUnits_lt (c := c) (by simp [hunits])
  have hlow : lowHalf c < 0x10000 := codeUnits_lt (c := c) (by simp [hunits])
  obtain ⟨h₁, h₂, h₃, h₄, hdigits, hquad⟩ := exists_hexDigits hhigh
  have hsecond := secondHalf?_codeUnit hlow hrest
  have hread := string_pair hquad (isHighSurrogate_highHalf hc) hsecond isLowSurrogate_lowHalf
  rw [joinSurrogates_halves hc] at hread
  rw [Spelling.codeUnit, hdigits]
  exact hread

theorem string_writer_escape (c : Char) (hrest : rest ≠ []) :
    string (Writer.escape c ++ rest) = push c (string rest) := by
  have hshort : ∀ {n : Nat} {d : Char}, (c.toNat == n) = true →
      shortEscape? d = some (Char.ofNat n) → string ('\\' :: d :: rest) = push c (string rest) := by
    intro n d hn hd
    have hc : Char.ofNat n = c := by rw [← eq_of_beq hn, Char.ofNat_toNat]
    rw [hc] at hd
    exact string_short hd
  unfold Writer.escape
  split
  · rename_i hquote
    obtain rfl : c = '"' := eq_of_beq hquote
    exact string_short rfl
  split
  · rename_i hslash
    obtain rfl : c = '\\' := eq_of_beq hslash
    exact string_short rfl
  split
  · rename_i hn
    exact hshort hn rfl
  split
  · rename_i hn
    exact hshort hn rfl
  split
  · rename_i hn
    exact hshort hn rfl
  split
  · rename_i hn
    exact hshort hn rfl
  split
  · rename_i hn
    exact hshort hn rfl
  split
  · rename_i hcontrol
    exact string_codeUnit (by omega) hrest
  · rename_i hquote hslash _ _ _ _ _ hcontrol
    have hquote : c ≠ '"' := by simpa using hquote
    have hslash : c ≠ '\\' := by simpa using hslash
    exact string_char hquote hslash (Nat.not_lt.mp hcontrol)

theorem string_escape (c : Char) (hrest : rest ≠ []) :
    string (Spelling.escape c ++ rest) = push c (string rest) := by
  unfold Spelling.escape
  split
  · exact string_writer_escape c hrest
  · split
    · rename_i hlt
      exact string_codeUnit hlt hrest
    · rename_i hge
      rw [List.append_assoc]
      exact string_pair_codeUnits (Nat.not_lt.mp hge) hrest

/-- A string is read whose characters are, however they are written. -/
theorem string_flatMap {escape : Char → List Char}
    (h : ∀ c {rest}, rest ≠ [] → string (escape c ++ rest) = push c (string rest))
    (s rest : List Char) : string (s.flatMap escape ++ '"' :: rest) = .ok (s, rest) := by
  induction s with
  | nil => exact string.eq_2 rest
  | cons c s ih =>
      have hne : s.flatMap escape ++ '"' :: rest ≠ [] := by simp
      rw [List.flatMap_cons, List.append_assoc, h c hne, ih, push_ok]

theorem readValue_quoted {escape : Char → List Char}
    (h : ∀ c {rest}, rest ≠ [] → string (escape c ++ rest) = push c (string rest)) (s : String) :
    readValue ('"' :: s.toList.flatMap escape ++ ['"']) = .ok (.text s, []) := by
  rw [List.cons_append, readValue_string, string_flatMap h]
  simp only [String.ofList_toList]

theorem spells_string (s : String) : Spells (Spelling.string s) (.text s) := by
  have hread : readValue (Spelling.string s) = .ok (.text s, []) :=
    readValue_quoted (fun c _ => string_escape c) s
  exact document_of_readValue hread rfl

theorem spells_strings (ss : List String) :
    List.Forall₂ Spells (ss.map Spelling.string) (ss.map .text) := by
  rw [List.forall₂_map_left_iff, List.forall₂_map_right_iff]
  exact List.forall₂_same.mpr fun s _ => spells_string s

/-! ### Integers -/

theorem integerPart?_toDigits (n : Nat) :
    integerPart? (Nat.toDigits 10 n) = some (Nat.toDigits 10 n, []) := by
  have hdigits : ∀ c ∈ Nat.toDigits 10 n, Text.isAsciiDigit c = true :=
    fun _ => Text.Numeral.isAsciiDigit_of_mem_toDigits
  by_cases hn : n = 0
  · subst hn
    rfl
  · have hhead := Text.Numeral.head?_toDigits_ne hn
    cases hcs : Nat.toDigits 10 n with
    | nil => exact absurd hcs Nat.toDigits_ne_nil
    | cons c cs =>
        rw [hcs] at hdigits hhead
        obtain ⟨hc, hcs⟩ := List.forall_mem_cons.mp hdigits
        have hzero : c ≠ '0' := by simpa using hhead
        have htake : cs.takeWhile Text.isAsciiDigit = cs := List.takeWhile_eq_self_iff.mpr hcs
        have hdrop : cs.dropWhile Text.isAsciiDigit = [] := List.dropWhile_eq_nil_iff.mpr hcs
        simp [integerPart?, hzero, hc, htake, hdrop]

theorem signedNumber_toDigits (negative : Bool) (left : Nat) {n : Nat} (hn : Short n) :
    signedNumber negative left (Nat.toDigits 10 n) =
      .ok (.int (Text.Numeral.signed negative n), []) := by
  rw [signedNumber, integerPart?_toDigits]
  have hfraction : fractionPart? [] = none := rfl
  have hexponent : exponentPart? [] = none := rfl
  simp only [numberOf, hfraction, Option.elim_none, hexponent, if_neg (Nat.not_lt.mpr hn),
    Text.Numeral.digitsValue_toDigits]

theorem int_natCast (n : Nat) : Spelling.int n = Nat.toDigits 10 n := by
  show (Nat.repr n).toList = _
  rw [Nat.repr_eq_ofList_toDigits, String.toList_ofList]

theorem int_negSucc (n : Nat) : Spelling.int (.negSucc n) = '-' :: Nat.toDigits 10 (n + 1) := by
  show ("-" ++ Nat.repr (n + 1)).toList = _
  rw [String.toList_append, Nat.repr_eq_ofList_toDigits, String.toList_ofList]
  simp

theorem beginsNumber_int (n : Int) : BeginsNumber (Spelling.int n) := by
  cases n with
  | ofNat m =>
      obtain ⟨c, more, hc, hdigits⟩ := Text.Numeral.exists_toDigits_eq_cons m
      exact ⟨c, more, hc, .inl ((int_natCast m).trans hdigits)⟩
  | negSucc m =>
      obtain ⟨c, more, hc, hdigits⟩ := Text.Numeral.exists_toDigits_eq_cons (m + 1)
      exact ⟨c, more, hc, .inr (by rw [int_negSucc, hdigits])⟩

theorem number_int {n : Int} (hn : Short n.natAbs) :
    number (Spelling.int n) = .ok (.int n, []) := by
  cases n with
  | ofNat m =>
      obtain ⟨c, more, hc, hdigits⟩ := Text.Numeral.exists_toDigits_eq_cons m
      have hsign : ∀ rest, Nat.toDigits 10 m ≠ '-' :: rest := by
        intro rest hminus
        rw [hdigits] at hminus
        cases hminus
        cases hc
      rw [Int.ofNat_eq_natCast, int_natCast, number_of_ne_minus hsign]
      exact signedNumber_toDigits false _ hn
  | negSucc m =>
      rw [int_negSucc, number_minus]
      exact signedNumber_toDigits true _ hn

theorem readValue_int {n : Int} (hn : Short n.natAbs) :
    readValue (Spelling.int n) = .ok (.int n, []) := by
  rw [(beginsNumber_int n).readValue_eq, number_int hn]

theorem spells_int {n : Int} (hn : Short n.natAbs) :
    Spells (Spelling.int n) (.int n) := by
  have hread := readValue_int hn
  rw [← (beginsNumber_int n).skip_eq] at hread
  exact document_of_readValue hread rfl

/-! ### Arrays -/

/-- Characters that no value begins with: blanks, closing marks and the byte order mark. -/
def noBeginning : List Char := [' ', '\t', '\n', '\r', ']', '\x7d', Char.ofNat 0xFEFF]

theorem head?_ne_of_readValue {cs r : List Char} {c : Char} (h : readValue cs = .ok (v, r))
    (hc : c ∈ noBeginning) : cs.head? ≠ some c := by
  intro hhead
  obtain ⟨rest, rfl⟩ := List.head?_eq_some_iff.mp hhead
  simp only [noBeginning, List.mem_cons, List.not_mem_nil, or_false] at hc
  rcases hc with rfl | rfl | rfl | rfl | rfl | rfl | rfl
  all_goals
    rw [readValue_scalar (by simp) (by simp) (by simp)] at h
    cases h

theorem apart_cons {c : Char} (hc : extendsNumber c = false) (t : List Char) : Apart (c :: t) := by
  rintro d ⟨⟩
  exact hc

/-- Items are read one after the other, whatever blanks stand around them. -/
theorem readItems_items {r : List Char} (hv : readValue (skip x) = .ok (v, r)) (hr : skip r = [])
    {xs : List (List Char)} {vs : List Value} (h : List.Forall₂ Spells xs vs) :
    readItems (skip x ++ (Spelling.items xs ++ [']'])) = .ok (v :: vs, []) := by
  induction h generalizing x v r with
  | nil =>
      have hread := readValue_append (apart_cons (by decide) []) hv (t := [']'])
      exact readItems_last hread (skip_append_of_blank hr _)
  | @cons y w ys ws hy _ ih =>
      obtain ⟨q, hw, hq⟩ := document_eq_ok_iff.mp hy
      have hread := readValue_append (apart_cons (by decide) _) hv
        (t := ',' :: ' ' :: (y ++ (Spelling.items ys ++ [']'])))
      have hskip : skip (' ' :: (y ++ (Spelling.items ys ++ [']']))) =
          skip y ++ (Spelling.items ys ++ [']']) :=
        skip_append (ne_nil_of_length (length_readValue hw)) _
      have hmore := ih hw hq
      rw [← hskip] at hmore
      have hitems := readItems_cons hread (skip_append_of_blank hr _) hmore
      simpa [Spelling.items] using hitems

theorem spells_array {xs : List (List Char)} {vs : List Value} (h : List.Forall₂ Spells xs vs) :
    Spells (Spelling.array xs) (.array vs) := by
  cases h with
  | nil => exact document_of_readValue (readValue_array_nil rfl) rfl
  | @cons x v xs vs hx hxs =>
      obtain ⟨r, hv, hr⟩ := document_eq_ok_iff.mp hx
      have hne : skip x ≠ [] := ne_nil_of_length (length_readValue hv)
      have hitems := readItems_items hv hr hxs
      have hhead := head?_append_ne (t := Spelling.items xs ++ [']']) hne
        (head?_ne_of_readValue hv (c := ']') (by decide))
      rw [← skip_append hne] at hitems hhead
      have hread := readValue_of_readItems hhead hitems
      rw [← List.append_assoc] at hread
      exact document_of_readValue hread rfl

theorem ofText_array (xs : List (List Char)) :
    Value.ofText (Spelling.array xs) = document (Spelling.array xs) := by
  cases xs <;> rfl

end Reader

end Finality.Json
