import Mathlib.Data.List.TakeWhile
import Finality.Proofs.Json.Reading

/-! # Overlong integers

An integer literal of more than `Numeral.maxDigits` digits cannot be read.  `BeginsOverlong n cs`
says that a text begins with such a literal; a fraction or an exponent makes it a number of another
kind, which can be read whatever its length.

The literal matters only if the reading comes to it, for the first problem of a text ends the
reading.  `Comes part cs p` follows the reading: `p` is the beginning of a value in a part of the
text `cs`, and everything in front of it has been read.  So a text fails by an overlong integer
exactly if the reading comes to one (`document_overlong_iff`). -/

namespace Finality.Json.Reader

open Text (isAsciiDigit)
open Text.Numeral (maxDigits)

variable {n : Nat} {cs rest r p : List Char}

/-- The reading ends at an overlong integer of `n` digits. -/
def Overlong {α : Type} (n : Nat) (x : Except Fault α) : Prop :=
  ∃ left, x = .error ⟨.overlongInteger n, left⟩

section Overlong
variable {α β : Type} {x : Except Fault α} {f : α → Except Fault β} {fault : Fault}

theorem not_overlong_ok (n : Nat) (a : α) : ¬Overlong n (.ok a : Except Fault α) := by
  rintro ⟨left, h⟩
  cases h

theorem overlong_error_iff :
    Overlong n (.error fault : Except Fault α) ↔ fault.problem = .overlongInteger n := by
  constructor
  · rintro ⟨left, h⟩
    cases h
    rfl
  · intro h
    exact ⟨fault.left, by rw [← h]⟩

theorem overlong_map_iff {g : α → β} : Overlong n (x.map g) ↔ Overlong n x := by
  cases x with
  | error fault => exact overlong_error_iff.trans overlong_error_iff.symm
  | ok a => exact iff_of_false (not_overlong_ok n _) (not_overlong_ok n a)

theorem overlong_bind_iff :
    Overlong n (x >>= f) ↔ Overlong n x ∨ ∃ a, x = .ok a ∧ Overlong n (f a) := by
  cases x with
  | error fault =>
      have hsame : Overlong n (.error fault >>= f) ↔ Overlong n (.error fault : Except Fault α) :=
        overlong_error_iff.trans overlong_error_iff.symm
      rw [hsame]
      simp
  | ok a =>
      have hnext : ((.ok a : Except Fault α) >>= f) = f a := rfl
      rw [hnext]
      simp [not_overlong_ok]

end Overlong

/-! ### Literals -/

/-- Digits of an integer, in front of the rest of a text, that are too many to be read. -/
structure OverlongDigits (n : Nat) (digits rest : List Char) : Prop where
  length_eq : digits.length = n
  overlong : maxDigits < n
  digit : ∀ c ∈ digits, isAsciiDigit c = true
  head_ne : digits.head? ≠ some '0'
  /-- The digits end here, and the number does. -/
  ends : ∀ c ∈ rest.head?, isAsciiDigit c = false
  fraction : fractionPart? rest = none
  exponent : exponentPart? rest = none

/-- A text begins with an integer literal of `n` digits that are too many to be read. -/
def BeginsOverlong (n : Nat) (cs : List Char) : Prop :=
  ∃ digits rest, OverlongDigits n digits rest ∧ (cs = digits ++ rest ∨ cs = '-' :: (digits ++ rest))

theorem integerPart?_eq_some_iff {digits : List Char} (hlong : 1 < digits.length) :
    integerPart? cs = some (digits, rest) ↔ cs = digits ++ rest ∧
      (∀ c ∈ digits, isAsciiDigit c = true) ∧ digits.head? ≠ some '0' ∧
      ∀ c ∈ rest.head?, isAsciiDigit c = false := by
  constructor
  · intro h
    unfold integerPart? at h
    split at h
    · cases h
    · rename_i c cs
      split at h
      · -- a zero stands alone
        cases h
        simp at hlong
      · rename_i hzero
        split at h
        · rename_i hc
          cases h
          refine ⟨by simp, ?_, by simpa using hzero, ?_⟩
          · intro d hd
            rcases List.mem_cons.mp hd with rfl | hd
            · exact hc
            · exact List.mem_takeWhile_imp hd
          · intro d hd
            rw [← List.find?_not_eq_head?_dropWhile] at hd
            simpa using List.find?_some hd
        · cases h
  · rintro ⟨rfl, hdigit, hzero, hends⟩
    cases digits with
    | nil => simp at hlong
    | cons c digits =>
        obtain ⟨hc, hdigit⟩ := List.forall_mem_cons.mp hdigit
        have hne : (c == '0') = false := by simpa using hzero
        have hstop : rest.takeWhile isAsciiDigit = [] ∧ rest.dropWhile isAsciiDigit = rest := by
          cases rest with
          | nil => exact ⟨rfl, rfl⟩
          | cons d rest => simp [hends d rfl]
        have htake : (digits ++ rest).takeWhile isAsciiDigit = digits := by
          rw [List.takeWhile_append_of_pos hdigit, hstop.1, List.append_nil]
        have hdrop : (digits ++ rest).dropWhile isAsciiDigit = rest := by
          rw [List.dropWhile_append_of_pos hdigit, hstop.2]
        simp only [List.cons_append, integerPart?, hne, Bool.false_eq_true, if_false, hc, if_true,
          htake, hdrop]

theorem numberOf_overlong_iff {negative : Bool} {digits : List Char} :
    Overlong n (numberOf negative digits rest) ↔
      digits.length = n ∧ maxDigits < n ∧ fractionPart? rest = none ∧
        exponentPart? rest = none := by
  unfold numberOf
  split
  · rename_i hfraction hexponent
    rw [hfraction, Option.elim_none] at hexponent
    split
    · rename_i hlong
      rw [overlong_error_iff, Problem.overlongInteger.injEq]
      exact ⟨fun h => ⟨h, h ▸ hlong, hfraction, hexponent⟩, fun h => h.1⟩
    · rename_i hshort
      refine iff_of_false (not_overlong_ok n _) fun h => hshort ?_
      exact h.1 ▸ h.2.1
  · rename_i hnot
    refine iff_of_false (not_overlong_ok n _) ?_
    rintro ⟨-, -, hfraction, hexponent⟩
    refine hnot hfraction ?_
    rw [hfraction]
    exact hexponent

theorem signedNumber_overlong_iff {negative : Bool} {left : Nat} :
    Overlong n (signedNumber negative left cs) ↔
      ∃ digits rest, OverlongDigits n digits rest ∧ cs = digits ++ rest := by
  unfold signedNumber
  constructor
  · intro h
    split at h
    · cases overlong_error_iff.mp h
    · rename_i digits rest hpart
      obtain ⟨hlength, hlong, hfraction, hexponent⟩ := numberOf_overlong_iff.mp h
      have hmore : 1 < digits.length := by
        rw [hlength]
        exact Nat.lt_of_le_of_lt (by decide) hlong
      obtain ⟨hcs, hdigit, hhead, hends⟩ := (integerPart?_eq_some_iff hmore).mp hpart
      exact ⟨digits, rest, ⟨hlength, hlong, hdigit, hhead, hends, hfraction, hexponent⟩, hcs⟩
  · rintro ⟨digits, rest, h, hcs⟩
    have hmore : 1 < digits.length := by
      rw [h.length_eq]
      exact Nat.lt_of_le_of_lt (by decide) h.overlong
    rw [(integerPart?_eq_some_iff hmore).mpr ⟨hcs, h.digit, h.head_ne, h.ends⟩]
    exact numberOf_overlong_iff.mpr ⟨h.length_eq, h.overlong, h.fraction, h.exponent⟩

theorem OverlongDigits.exists_head {digits : List Char} (h : OverlongDigits n digits rest) :
    ∃ c more, digits = c :: more ∧ isAsciiDigit c = true := by
  cases digits with
  | nil => exact absurd h.overlong (by rw [← h.length_eq]; decide)
  | cons c more => exact ⟨c, more, rfl, h.digit c List.mem_cons_self⟩

theorem number_overlong_iff : Overlong n (number cs) ↔ BeginsOverlong n cs := by
  by_cases hsign : ∃ rest, cs = '-' :: rest
  · obtain ⟨body, rfl⟩ := hsign
    rw [number_minus, signedNumber_overlong_iff]
    constructor
    · rintro ⟨digits, rest, h, rfl⟩
      exact ⟨digits, rest, h, .inr rfl⟩
    · rintro ⟨digits, rest, h, hcs | hcs⟩
      · -- a minus is no digit
        obtain ⟨c, more, rfl, hc⟩ := h.exists_head
        cases hcs
        cases hc
      · exact ⟨digits, rest, h, List.tail_eq_of_cons_eq hcs⟩
  · rw [number_of_ne_minus fun rest h => hsign ⟨rest, h⟩, signedNumber_overlong_iff]
    constructor
    · rintro ⟨digits, rest, h, hcs⟩
      exact ⟨digits, rest, h, .inl hcs⟩
    · rintro ⟨digits, rest, h, hcs | hcs⟩
      · exact ⟨digits, rest, h, hcs⟩
      · exact absurd ⟨_, hcs⟩ hsign

theorem BeginsOverlong.beginsNumber (h : BeginsOverlong n cs) : BeginsNumber cs := by
  obtain ⟨digits, rest, h, hcs⟩ := h
  obtain ⟨c, more, rfl, hc⟩ := h.exists_head
  exact ⟨c, more ++ rest, hc, hcs⟩

theorem scalar_overlong_iff : Overlong n (scalar cs) ↔ BeginsOverlong n cs := by
  unfold scalar
  constructor
  · intro h
    split at h
    · exact absurd h (not_overlong_ok n _)
    · exact number_overlong_iff.mp h
  · intro h
    rw [h.beginsNumber.find?_words]
    exact number_overlong_iff.mpr h

/-! ### Strings -/

/-- What can be wrong with a string. -/
def stringProblems : List Problem :=
  [.unterminatedString, .controlCharacter, .invalidEscape, .invalidCodePoint]

theorem secondHalf?_fault {fault : Fault} (h : secondHalf? cs = some (.error fault)) :
    fault.problem ∈ stringProblems := by
  unfold secondHalf? at h
  split at h
  · split at h
    · cases h
      simp [stringProblems]
    · cases h
  · cases h

theorem error_of_map {α β : Type} {x : Except Fault α} {f : α → β} {fault : Fault}
    (h : x.map f = .error fault) : x = .error fault := by
  cases x with
  | error fault => cases h; rfl
  | ok a => cases h

theorem string_fault {fault : Fault} (h : string cs = .error fault) :
    fault.problem ∈ stringProblems := by
  fun_induction string cs with
  | case1 => cases h; simp [stringProblems]
  | case2 rest => cases h
  | case3 => cases h; simp [stringProblems]
  | case4 a b c d next rest n hn fault' hsecond hh => cases h; exact secondHalf?_fault hsecond
  | case5 a b c d next rest n hn hh m r' hl this hs ih => exact ih (error_of_map h)
  | case6 a b c d next rest n hn hh m r' hl hs ih => exact ih (error_of_map h)
  | case7 a b c d next rest n hn _ _ ih => exact ih (error_of_map h)
  | case8 => cases h; simp [stringProblems]
  | case9 => cases h; simp [stringProblems]
  | case10 => cases h; simp [stringProblems]
  | case11 c rest _ _ e he ih => exact ih (error_of_map h)
  | case12 => cases h; simp [stringProblems]
  | case13 c rest _ _ _ _ _ _ ih => exact ih (error_of_map h)

theorem not_overlong_of_mem {α : Type} {fault : Fault} (h : fault.problem ∈ stringProblems)
    (left : Nat) : ¬Overlong n (.error (fault.ofString left) : Except Fault α) := by
  have hproblem : (fault.ofString left).problem = fault.problem := by
    unfold Fault.ofString
    split <;> rfl
  rw [overlong_error_iff, hproblem]
  intro heq
  rw [heq] at h
  simp [stringProblems] at h

/-! ### Parts of a text -/

/-- What is about to be read. -/
inductive Part where
  | value
  | items
  | fields

/-- The reading of a part of a text comes to a value.  On its way it enters arrays and objects, and
passes items and fields that it has read. -/
inductive Comes : Part → List Char → List Char → Prop
  | here {cs : List Char} : Comes .value cs cs
  | array {rest p : List Char} :
      (skip rest).head? ≠ some ']' → Comes .items (skip rest) p → Comes .value ('[' :: rest) p
  | object {rest p : List Char} :
      (skip rest).head? ≠ some '\x7d' → Comes .fields (skip rest) p →
      Comes .value ('\x7b' :: rest) p
  | item {cs p : List Char} : Comes .value cs p → Comes .items cs p
  | nextItem {cs r r' p : List Char} {v : Value} :
      readValue cs = .ok (v, r) → skip r = ',' :: r' → Comes .items (skip r') p → Comes .items cs p
  | field {rest key r r' p : List Char} :
      string rest = .ok (key, r) → skip r = ':' :: r' → Comes .value (skip r') p →
      Comes .fields ('"' :: rest) p
  | nextField {rest key r r' q q' p : List Char} {v : Value} :
      string rest = .ok (key, r) → skip r = ':' :: r' → readValue (skip r') = .ok (v, q) →
      skip q = ',' :: q' → Comes .fields (skip q') p → Comes .fields ('"' :: rest) p

/-- The reading of a part of a text fails by an overlong integer. -/
def Part.Fails (n : Nat) : Part → List Char → Prop
  | .value, cs => Overlong n (readValue cs)
  | .items, cs => Overlong n (readItems cs)
  | .fields, cs => Overlong n (readFields cs)

section readMore
variable {α : Type} {close : Char} {more : List Char → Except Fault (List α × List Char)} {a : α}

theorem readMore_overlong_iff : Overlong n (readMore close more a r) ↔
    ∃ r', skip r = ',' :: r' ∧ Overlong n (more (skip r')) := by
  by_cases hcomma : (skip r).head? = some ','
  · obtain ⟨r', h⟩ := List.head?_eq_some_iff.mp hcomma
    rw [readMore_comma h, overlong_map_iff, h]
    constructor
    · exact fun hmore => ⟨r', rfl, hmore⟩
    · rintro ⟨_, heq, hmore⟩
      cases heq
      exact hmore
  · refine iff_of_false ?_ fun ⟨r', h, _⟩ => hcomma (by rw [h, List.head?_cons])
    by_cases hclose : (skip r).head? = some close
    · obtain ⟨r', h⟩ := List.head?_eq_some_iff.mp hclose
      rw [readMore_close (fun heq => hcomma (heq ▸ hclose)) h]
      exact not_overlong_ok n _
    · rw [readMore_other hclose hcomma, overlong_error_iff]
      simp

end readMore

/-- If the reading comes to an overlong integer, it fails there. -/
theorem Comes.fails {part : Part} (hcomes : Comes part cs p) (hp : BeginsOverlong n p) :
    part.Fails n cs := by
  induction hcomes with
  | here =>
      show Overlong n (readValue _)
      rw [hp.beginsNumber.readValue_eq]
      exact number_overlong_iff.mpr hp
  | array hitems _ ih =>
      show Overlong n (readValue _)
      rw [readValue_array hitems]
      exact overlong_map_iff.mpr (ih hp)
  | object hfields _ ih =>
      show Overlong n (readValue _)
      rw [readValue_object hfields]
      exact overlong_map_iff.mpr (ih hp)
  | item _ ih =>
      show Overlong n (readItems _)
      rw [readItems_eq]
      exact overlong_bind_iff.mpr (.inl (ih hp))
  | nextItem hread hcomma _ ih =>
      show Overlong n (readItems _)
      rw [readItems_eq]
      exact overlong_bind_iff.mpr (.inr ⟨_, hread, readMore_overlong_iff.mpr ⟨_, hcomma, ih hp⟩⟩)
  | field hstring hcolon _ ih =>
      show Overlong n (readFields _)
      simp only [readFields_eq, hstring, hcolon]
      exact overlong_bind_iff.mpr (.inl (ih hp))
  | nextField hstring hcolon hread hcomma _ ih =>
      show Overlong n (readFields _)
      simp only [readFields_eq, hstring, hcolon]
      exact overlong_bind_iff.mpr (.inr ⟨_, hread, readMore_overlong_iff.mpr ⟨_, hcomma, ih hp⟩⟩)

section step

variable (ih : ∀ (part : Part) (t : List Char), t.length < cs.length → part.Fails n t →
  ∃ p, Comes part t p ∧ BeginsOverlong n p)

include ih

theorem value_comes (h : Overlong n (readValue cs)) :
    ∃ p, Comes .value cs p ∧ BeginsOverlong n p := by
  by_cases hstring : cs.head? = some '"'
  · -- a string has other faults
    obtain ⟨rest, rfl⟩ := List.head?_eq_some_iff.mp hstring
    rw [readValue_string] at h
    split at h
    · rename_i fault hfault
      exact absurd h (not_overlong_of_mem (string_fault hfault) _)
    · exact absurd h (not_overlong_ok n _)
  by_cases harray : cs.head? = some '['
  · obtain ⟨rest, rfl⟩ := List.head?_eq_some_iff.mp harray
    by_cases hnil : (skip rest).head? = some ']'
    · obtain ⟨r, hr⟩ := List.head?_eq_some_iff.mp hnil
      rw [readValue_array_nil hr] at h
      exact absurd h (not_overlong_ok n _)
    · rw [readValue_array hnil, overlong_map_iff] at h
      obtain ⟨p, hcomes, hp⟩ := ih .items (skip rest) (Nat.lt_succ_of_le (length_skip_le rest)) h
      exact ⟨p, .array hnil hcomes, hp⟩
  by_cases hobject : cs.head? = some '\x7b'
  · obtain ⟨rest, rfl⟩ := List.head?_eq_some_iff.mp hobject
    by_cases hnil : (skip rest).head? = some '\x7d'
    · obtain ⟨r, hr⟩ := List.head?_eq_some_iff.mp hnil
      rw [readValue_object_nil hr] at h
      exact absurd h (not_overlong_ok n _)
    · rw [readValue_object hnil, overlong_map_iff] at h
      obtain ⟨p, hcomes, hp⟩ := ih .fields (skip rest) (Nat.lt_succ_of_le (length_skip_le rest)) h
      exact ⟨p, .object hnil hcomes, hp⟩
  rw [readValue_scalar hstring harray hobject] at h
  exact ⟨cs, .here, scalar_overlong_iff.mp h⟩

theorem items_comes (h : Overlong n (readItems cs)) :
    ∃ p, Comes .items cs p ∧ BeginsOverlong n p := by
  rw [readItems_eq, overlong_bind_iff] at h
  rcases h with hfirst | ⟨⟨v, r⟩, hread, hmore⟩
  · obtain ⟨p, hcomes, hp⟩ := value_comes ih hfirst
    exact ⟨p, .item hcomes, hp⟩
  · obtain ⟨r', hcomma, hrest⟩ := readMore_overlong_iff.mp hmore
    have h1 := length_readValue hread
    have h2 : r'.length < r.length := length_of_skip hcomma
    have h3 := length_skip_le r'
    obtain ⟨p, hcomes, hp⟩ := ih .items (skip r') (by omega) hrest
    exact ⟨p, .nextItem hread hcomma hcomes, hp⟩

theorem fields_comes (h : Overlong n (readFields cs)) :
    ∃ p, Comes .fields cs p ∧ BeginsOverlong n p := by
  by_cases hkey : cs.head? = some '"'
  · obtain ⟨rest, rfl⟩ := List.head?_eq_some_iff.mp hkey
    rw [readFields_eq] at h
    split at h
    · rename_i fault hfault
      exact absurd h (not_overlong_of_mem (string_fault hfault) _)
    · rename_i key r hstring
      have h0 := length_string hstring
      split at h
      · rename_i r' hcolon
        have h1 := length_of_skip hcolon
        have h2 := length_skip_le r'
        rcases overlong_bind_iff.mp h with hvalue | ⟨⟨v, q⟩, hread, hmore⟩
        · obtain ⟨p, hcomes, hp⟩ := ih .value (skip r') (by rw [List.length_cons]; omega) hvalue
          exact ⟨p, .field hstring hcolon hcomes, hp⟩
        · obtain ⟨q', hcomma, hrest⟩ := readMore_overlong_iff.mp hmore
          have h3 := length_readValue hread
          have h4 : q'.length < q.length := length_of_skip hcomma
          have h5 := length_skip_le q'
          obtain ⟨p, hcomes, hp⟩ := ih .fields (skip q') (by rw [List.length_cons]; omega) hrest
          exact ⟨p, .nextField hstring hcolon hread hcomma hcomes, hp⟩
      · exact absurd (overlong_error_iff.mp h) (by simp)
  · rw [readFields_of_not_string hkey, overlong_error_iff] at h
    cases h

end step

/-- If the reading fails by an overlong integer, it has come to it. -/
theorem Part.Fails.exists_comes {part : Part} (hfails : part.Fails n cs) :
    ∃ p, Comes part cs p ∧ BeginsOverlong n p := by
  induction hlength : cs.length using Nat.strong_induction_on generalizing part cs with
  | _ m ih =>
      subst hlength
      have ih : ∀ (part : Part) (t : List Char), t.length < cs.length → part.Fails n t →
          ∃ p, Comes part t p ∧ BeginsOverlong n p := fun part t ht h => ih t.length ht h rfl
      cases part with
      | value => exact value_comes ih hfails
      | items => exact items_comes ih hfails
      | fields => exact fields_comes ih hfails

/-- **A part of a text cannot be read for the length of an integer exactly if the reading comes to
an overlong one.** -/
theorem fails_iff (part : Part) :
    part.Fails n cs ↔ ∃ p, Comes part cs p ∧ BeginsOverlong n p :=
  ⟨Part.Fails.exists_comes, fun ⟨_, hcomes, hp⟩ => hcomes.fails hp⟩

/-- **A text fails by the length of an integer exactly if the reading comes to an overlong one.** -/
theorem document_overlong_iff :
    Overlong n (document cs) ↔ ∃ p, Comes .value (skip cs) p ∧ BeginsOverlong n p := by
  have hread : Overlong n (document cs) ↔ Overlong n (readValue (skip cs)) := by
    rw [document_eq, overlong_bind_iff, or_iff_left]
    rintro ⟨⟨v, r⟩, -, hend⟩
    split at hend
    · exact not_overlong_ok n _ hend
    · cases overlong_error_iff.mp hend
  exact hread.trans (fails_iff .value)

/-- A byte order mark is no part of such a text. -/
theorem ofText_overlong_iff : Overlong n (Value.ofText cs) ↔ Overlong n (document cs) := by
  cases cs with
  | nil => rfl
  | cons c rest =>
      by_cases hmark : c.toNat = 0xFEFF
      · have htext : Value.ofText (c :: rest) =
            .error ⟨.byteOrderMark, (c :: rest).length⟩ := by simp [Value.ofText, hmark]
        have hne : ∀ d : Char, d.toNat ≠ 0xFEFF → c ≠ d := fun d hd heq => hd (heq ▸ hmark)
        have hskip : skip (c :: rest) = c :: rest := by
          simp [skip, isBlank, hne ' ' (by decide), hne '\t' (by decide), hne '\n' (by decide),
            hne '\r' (by decide)]
        rw [htext, overlong_error_iff, document_overlong_iff, hskip]
        refine iff_of_false (by simp) ?_
        rintro ⟨p, hcomes, hp⟩
        cases hcomes with
        | array => exact hne '[' (by decide) rfl
        | object => exact hne '\x7b' (by decide) rfl
        | here =>
            obtain ⟨d, more, hd, hcs | hcs⟩ := hp.beginsNumber
            · cases hcs
              have hle : c ≤ '9' := by simpa [isAsciiDigit] using (Bool.and_eq_true_iff.mp hd).2
              have hle : c.toNat ≤ '9'.toNat := hle
              rw [hmark] at hle
              exact absurd hle (by decide)
            · cases hcs
              exact hne '-' (by decide) rfl
      · have htext : Value.ofText (c :: rest) = document (c :: rest) := by
          simp [Value.ofText, hmark]
        rw [htext]

end Finality.Json.Reader
