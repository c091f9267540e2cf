import Mathlib.Data.List.Basic
import Finality.Proofs.Except
import Finality.Proofs.Text.Decimal

/-! # Words and lines of a table

The words of a text are what stands between its white space.  A space between two texts separates
their words (`words_append`), and spaces in front of a text belong to no word
(`words_spaces_append`), so that the fields of a line are found again however wide they are
(`words_intercalate`).

A word of decimal digits is read as their value; the digits of a number are read as the number
(`numbers?_eq_some`). -/

namespace Finality.Text

variable {c : Char} {cs ds : List Char}

/-! ### Words -/

/-- White space that separates words: the blanks and the information separators. -/
def isSpace (c : Char) : Bool := isBlank c || (0x1C ≤ c.toNat && c.toNat ≤ 0x1F)

/-- Words of a text. -/
def words (cs : List Char) : List (List Char) := (cs.splitOnP isSpace).filter (· ≠ [])

/-- A text is a single word. -/
structure IsWord (cs : List Char) : Prop where
  ne_nil : cs ≠ []
  not_space : ∀ c ∈ cs, isSpace c = false

theorem isWord_iff : IsWord cs ↔ (!cs.isEmpty && cs.all fun c => !isSpace c) = true := by
  simp only [Bool.and_eq_true, Bool.not_eq_true', List.isEmpty_eq_false_iff, List.all_eq_true]
  exact ⟨fun h => ⟨h.1, h.2⟩, fun h => ⟨h.1, h.2⟩⟩

instance (cs : List Char) : Decidable (IsWord cs) := decidable_of_iff _ isWord_iff.symm

@[simp] theorem words_nil : words [] = [] := by simp [words]

theorem IsWord.words_eq (h : IsWord cs) : words cs = [cs] := by
  rw [words, List.splitOnP_eq_singleton h.not_space]
  simp [h.ne_nil]

theorem words_append (hc : isSpace c = true) (cs ds : List Char) :
    words (cs ++ c :: ds) = words cs ++ words ds := by
  rw [words, List.splitOnP_append_cons cs ds hc, List.filter_append]
  rfl

theorem words_spaces_append {spaces : List Char} (h : ∀ c ∈ spaces, isSpace c = true)
    (cs : List Char) : words (spaces ++ cs) = words cs := by
  induction spaces with
  | nil => rfl
  | cons c spaces ih =>
      obtain ⟨hc, hspaces⟩ := List.forall_mem_cons.mp h
      have hfirst := words_append hc [] (spaces ++ cs)
      rw [words_nil, List.nil_append, List.nil_append] at hfirst
      rw [List.cons_append, hfirst, ih hspaces]

/-- Words of texts that are joined with a blank. -/
theorem words_intercalate (fields : List (List Char)) :
    words ([' '].intercalate fields) = fields.flatMap words := by
  induction fields with
  | nil => rfl
  | cons field fields ih =>
      cases fields with
      | nil => simp
      | cons next fields =>
          rw [List.intercalate_cons_cons, List.append_assoc, List.singleton_append,
            words_append (by decide), ih]
          rfl

theorem mem_intercalate {separator : List Char} {fields : List (List Char)}
    (hc : c ∈ separator.intercalate fields) : c ∈ separator ∨ ∃ field ∈ fields, c ∈ field := by
  induction fields with
  | nil => simp at hc
  | cons field fields ih =>
      cases fields with
      | nil => exact Or.inr ⟨field, List.mem_cons_self, by simpa using hc⟩
      | cons next fields =>
          rw [List.intercalate_cons_cons, List.mem_append, List.mem_append] at hc
          rcases hc with (hc | hc) | hc
          · exact Or.inr ⟨field, List.mem_cons_self, hc⟩
          · exact Or.inl hc
          · rcases ih hc with hc | ⟨f, hf, hc⟩
            · exact Or.inl hc
            · exact Or.inr ⟨f, List.mem_cons_of_mem _ hf, hc⟩

/-! ### Decimal numbers -/

theorem isSpace_of_isAsciiDigit (hc : isAsciiDigit c = true) : isSpace c = false := by
  obtain ⟨hle, -⟩ := isAsciiDigit_iff.mp hc
  simp only [isSpace, isBlank_of_isAsciiDigit hc, Bool.false_or, Bool.and_eq_false_iff,
    decide_eq_false_iff_not]
  omega

/-- Number that a word of digits denotes. -/
def decimal? (cs : List Char) : Option Nat :=
  if !cs.isEmpty && cs.all isAsciiDigit then some (Numeral.digitsValue cs) else none

/-- Numbers of a line, if all its words are decimal. -/
def numbers? (line : List Char) : Option (List Nat) := (words line).mapM decimal?

theorem decimal?_toDigits (n : Nat) : decimal? (Nat.toDigits 10 n) = some n := by
  have hdigits : (Nat.toDigits 10 n).all isAsciiDigit = true :=
    List.all_eq_true.mpr fun _ hc => Numeral.isAsciiDigit_of_mem_toDigits hc
  have hne : (Nat.toDigits 10 n).isEmpty = false :=
    List.isEmpty_eq_false_iff.mpr Nat.toDigits_ne_nil
  simp [decimal?, hdigits, hne, Numeral.digitsValue_toDigits]

theorem isWord_toDigits (n : Nat) : IsWord (Nat.toDigits 10 n) where
  ne_nil := Nat.toDigits_ne_nil
  not_space _ hc := isSpace_of_isAsciiDigit (Numeral.isAsciiDigit_of_mem_toDigits hc)

/-- A line whose words are the digits of numbers is read as the numbers. -/
theorem numbers?_eq_some {line : List Char} {ns : List Nat}
    (h : words line = ns.map (Nat.toDigits 10)) : numbers? line = some ns := by
  rw [numbers?, h]
  exact List.mapM_map_eq_pure fun n _ => decimal?_toDigits n

end Finality.Text
