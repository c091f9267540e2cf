import Mathlib.Data.List.DropRight
import Mathlib.Data.Nat.Digits.Defs
import Finality.Proofs.Text.Decimal

/-! # The grammar of integer numerals

What a text must look like to be read as an integer in base ten, said without the reader: white
space, an optional sign, digits of any script with single underscores between them, and white space
again (`Denotes`).  The digits are at most `maxDigits`, and the number is their value in base ten,
under its sign.

White space are the characters that have this property in the character database, which are the 25
of `whiteSpace`.  The reader accepts the grammar and nothing else (`read_eq_ok_iff`). -/

namespace Finality.Text

variable {c : Char} {cs : List Char}

/-! ### White space -/

/-- Code points of white space, in ascending order. -/
def whiteSpace : List Nat := [
  0x09, 0x0A, 0x0B, 0x0C, 0x0D, 0x20, 0x85, 0xA0, 0x1680, 0x2000, 0x2001, 0x2002, 0x2003, 0x2004,
  0x2005, 0x2006, 0x2007, 0x2008, 0x2009, 0x200A, 0x2028, 0x2029, 0x202F, 0x205F, 0x3000]

theorem isBlank_iff : isBlank c = true ↔ c.toNat ∈ whiteSpace := by
  simp only [isBlank, whiteSpace, Bool.or_eq_true, Bool.and_eq_true, beq_iff_eq, decide_eq_true_eq,
    List.mem_cons, List.not_mem_nil, or_false]
  omega

/-- No digit of any script is white space. -/
theorem isBlank_of_digitValue? {d : Nat} (h : digitValue? c = some d) : isBlank c = false := by
  -- the ten digits of a script lie apart from every white space
  have hrow : ∀ z ∈ digitZeros, ∀ w ∈ whiteSpace, w < z ∨ z + 10 ≤ w := by decide
  obtain ⟨z, hz, rfl⟩ := Option.map_eq_some_iff.mp h
  have hfound := List.find?_some hz
  simp only [Bool.and_eq_true, decide_eq_true_eq] at hfound
  rw [Bool.eq_false_iff]
  intro hblank
  have hapart := hrow z (List.mem_of_find?_eq_some hz) c.toNat (isBlank_iff.mp hblank)
  omega

theorem trim_eq_rdropWhile (cs : List Char) :
    trim cs = (cs.dropWhile isBlank).rdropWhile isBlank := rfl

theorem exists_trim (cs : List Char) : ∃ left right,
    cs = left ++ trim cs ++ right ∧ (∀ c ∈ left, isBlank c = true) ∧
      ∀ c ∈ right, isBlank c = true := by
  refine ⟨cs.takeWhile isBlank, (cs.dropWhile isBlank).rtakeWhile isBlank, ?_, ?_, ?_⟩
  · rw [List.append_assoc, trim_eq_rdropWhile, List.rdropWhile_append_rtakeWhile,
      List.takeWhile_append_dropWhile]
  · exact fun c hc => List.mem_takeWhile_imp hc
  · exact fun c hc => List.mem_rtakeWhile_imp hc

/-- White space is trimmed off as far as the first and the last other character. -/
theorem trim_append {left right : List Char} (hleft : ∀ c ∈ left, isBlank c = true)
    (hright : ∀ c ∈ right, isBlank c = true) (hfirst : ∀ c ∈ cs.head?, isBlank c = false)
    (hlast : ∀ c ∈ cs.getLast?, isBlank c = false) : trim (left ++ cs ++ right) = cs := by
  have hfront : (left ++ cs ++ right).dropWhile isBlank = (cs ++ right).dropWhile isBlank := by
    rw [List.append_assoc, List.dropWhile_append_of_pos hleft]
  have hback : (cs ++ right).rdropWhile isBlank = cs.rdropWhile isBlank := by
    rw [List.rdropWhile, List.reverse_append, List.dropWhile_append_of_pos (by simpa using hright),
      List.rdropWhile]
  rw [trim_eq_rdropWhile, hfront]
  cases cs with
  | nil =>
      have hnil : right.dropWhile isBlank = [] := List.dropWhile_eq_nil_iff.mpr hright
      rw [List.nil_append, hnil, List.rdropWhile_nil]
  | cons c cs =>
      have hkeep : (c :: cs ++ right).dropWhile isBlank = c :: cs ++ right := by
        rw [List.cons_append, List.dropWhile_cons_of_neg (by simp [hfirst c rfl])]
      rw [hkeep, hback, List.rdropWhile_eq_self_iff]
      intro hne
      simp [hlast _ (List.getLast?_eq_some_getLast hne)]

namespace Numeral

/-! ### The grammar -/

/-- Digits of any script with their values.  Single underscores may stand between them. -/
inductive Digits : List Char → List Nat → Prop
  | last {c : Char} {d : Nat} : digitValue? c = some d → Digits [c] [d]
  | next {c : Char} {d : Nat} {cs : List Char} {ds : List Nat} :
      digitValue? c = some d → Digits cs ds → Digits (c :: cs) (d :: ds)
  | apart {c : Char} {d : Nat} {cs : List Char} {ds : List Nat} :
      digitValue? c = some d → Digits cs ds → Digits (c :: '_' :: cs) (d :: ds)

/-- Signs in front of the digits: `true` for a minus sign. -/
inductive Sign : List Char → Bool → Prop
  | none : Sign [] false
  | plus : Sign ['+'] false
  | minus : Sign ['-'] true

/-- A text is a numeral of an integer. -/
inductive Denotes : List Char → Int → Prop
  | intro {left sign body right : List Char} {negative : Bool} {ds : List Nat} :
      (∀ c ∈ left, c.toNat ∈ whiteSpace) → Sign sign negative → Digits body ds →
      ds.length ≤ maxDigits → (∀ c ∈ right, c.toNat ∈ whiteSpace) →
      Denotes (left ++ (sign ++ body) ++ right)
        ((if negative then -1 else 1) * ((Nat.ofDigits 10 ds.reverse : Nat) : Int))

variable {body : List Char} {ds : List Nat} {d : Nat} {n : Int} {negative : Bool}

/-! ### Digits -/

/-- In base ten the digits of any script are all there are. -/
theorem digitIn?_ten (c : Char) : digitIn? 10 c = digitValue? c := by
  unfold digitIn?
  cases h : digitValue? c with
  | some d =>
      have hlt : d < 10 := digitValue?_lt h
      simp [hlt]
  | none =>
      -- the letters have greater values
      have hlow : ('a' ≤ c ∧ c ≤ 'f') → 10 ≤ c.toNat - 87 := by
        rintro ⟨hle, -⟩
        have hle : 97 ≤ c.toNat := hle
        omega
      have hup : ('A' ≤ c ∧ c ≤ 'F') → 10 ≤ c.toNat - 55 := by
        rintro ⟨hle, -⟩
        have hle : 65 ≤ c.toNat := hle
        omega
      by_cases hlower : 'a' ≤ c ∧ c ≤ 'f'
      · simp [hlower, hlow hlower]
      · by_cases hupper : 'A' ≤ c ∧ c ≤ 'F'
        · simp [hlower, hupper, hup hupper]
        · simp [hlower, hupper]

theorem not_digits_underscore : ¬Digits ('_' :: cs) ds := by
  have hnone : digitValue? '_' = none := by decide
  intro h
  cases h <;> simp_all

theorem digits?_eq_some_iff : digits? 10 cs = some ds ↔ Digits cs ds := by
  constructor
  · intro h
    fun_induction digits? 10 cs generalizing ds with
    | case1 => cases h
    | case2 c =>
        rw [digitIn?_ten, Option.map_eq_some_iff] at h
        obtain ⟨d, hd, rfl⟩ := h
        exact .last hd
    | case3 c rest ih =>
        simp only [digitIn?_ten, Option.bind_eq_bind, Option.bind_eq_some_iff] at h
        obtain ⟨d, hd, es, hes, heq⟩ := h
        cases heq
        exact .apart hd (ih hes)
    | case4 c rest _ _ ih =>
        simp only [digitIn?_ten, Option.bind_eq_bind, Option.bind_eq_some_iff] at h
        obtain ⟨d, hd, es, hes, heq⟩ := h
        cases heq
        exact .next hd (ih hes)
  · intro h
    induction h with
    | last hd => simp [digits?, digitIn?_ten, hd]
    | apart hd _ ih => simp [digits?, digitIn?_ten, hd, ih]
    | @next c d cs ds hd hcs ih =>
        cases cs with
        | nil => cases hcs
        | cons c' cs =>
            have hne : c' ≠ '_' := by
              rintro rfl
              exact not_digits_underscore hcs
            simp [digits?, digitIn?_ten, hd, ih, hne]

/-- What stands for digits is digits and underscores. -/
theorem Digits.takeWhile_eq (h : Digits cs ds) :
    cs.takeWhile (fun c => c == '_' || (digitIn? 10 c).isSome) = cs := by
  induction h with
  | last hd => simp [digitIn?_ten, hd]
  | next hd _ ih => rw [List.takeWhile_cons_of_pos (by simp [digitIn?_ten, hd]), ih]
  | apart hd _ ih =>
      rw [List.takeWhile_cons_of_pos (by simp [digitIn?_ten, hd]),
        List.takeWhile_cons_of_pos (by simp), ih]

theorem Digits.leadingDigits_eq (h : Digits cs ds) : leadingDigits 10 cs = ds.length := by
  simp only [leadingDigits, h.takeWhile_eq, digits?_eq_some_iff.mpr h, Option.map_some,
    Option.getD_some]

theorem Digits.ends (h : Digits cs ds) : (∃ c ∈ cs.head?, (digitValue? c).isSome) ∧
    ∃ c ∈ cs.getLast?, (digitValue? c).isSome := by
  induction h with
  | @last c d hd => exact ⟨⟨c, rfl, by simp [hd]⟩, c, rfl, by simp [hd]⟩
  | @next c d cs ds hd _ ih =>
      obtain ⟨-, e, he, hlast⟩ := ih
      refine ⟨⟨c, rfl, by simp [hd]⟩, e, ?_, hlast⟩
      simp only [Option.mem_def] at he ⊢
      rw [List.getLast?_cons, he, Option.getD_some]
  | @apart c d cs ds hd _ ih =>
      obtain ⟨-, e, he, hlast⟩ := ih
      refine ⟨⟨c, rfl, by simp [hd]⟩, e, ?_, hlast⟩
      simp only [Option.mem_def] at he ⊢
      rw [List.getLast?_cons, List.getLast?_cons, he, Option.getD_some, Option.getD_some]

/-- The positional value is that of the digits in base ten. -/
theorem value_eq_ofDigits (ds : List Nat) : value 10 ds = Nat.ofDigits 10 ds.reverse := by
  rw [value, Nat.ofDigits_eq_foldr, List.foldr_reverse]
  congr 1
  funext n d
  rw [Nat.cast_id, Nat.mul_comm, Nat.add_comm]

/-! ### Numerals -/

theorem signed_eq (negative : Bool) (n : Nat) :
    signed negative n = (if negative then -1 else 1) * (n : Int) := by
  cases negative <;> simp [signed]

theorem dropBaseMark_ten (cs : List Char) : dropBaseMark 10 cs = cs := by
  unfold dropBaseMark
  split <;> rfl

theorem splitSign_append {sign : List Char} (hsign : Sign sign negative) (hbody : Digits body ds) :
    splitSign (sign ++ body) = (negative, body) := by
  cases hsign with
  | plus => rfl
  | minus => rfl
  | none =>
      obtain ⟨⟨c, hc, hdigit⟩, -⟩ := hbody.ends
      have hminus : c ≠ '-' := by
        rintro rfl
        revert hdigit
        decide
      have hplus : c ≠ '+' := by
        rintro rfl
        revert hdigit
        decide
      cases body with
      | nil => cases hc
      | cons c' body =>
          cases hc
          simp [splitSign, hminus, hplus]

theorem exists_sign (cs : List Char) :
    ∃ sign, cs = sign ++ (splitSign cs).2 ∧ Sign sign (splitSign cs).1 := by
  unfold splitSign
  split
  · exact ⟨['-'], rfl, .minus⟩
  · exact ⟨['+'], rfl, .plus⟩
  · exact ⟨[], rfl, .none⟩

/-- A sign and digits begin and end with something else than white space. -/
theorem trim_sign_digits {left sign right : List Char} (hleft : ∀ c ∈ left, c.toNat ∈ whiteSpace)
    (hsign : Sign sign negative) (hbody : Digits body ds)
    (hright : ∀ c ∈ right, c.toNat ∈ whiteSpace) :
    trim (left ++ (sign ++ body) ++ right) = sign ++ body := by
  obtain ⟨⟨a, ha, hfirst⟩, b, hb, hlast⟩ := hbody.ends
  have hblank : ∀ c, (digitValue? c).isSome → isBlank c = false := by
    intro c hc
    obtain ⟨d, hd⟩ := Option.isSome_iff_exists.mp hc
    exact isBlank_of_digitValue? hd
  refine trim_append (fun c hc => isBlank_iff.mpr (hleft c hc))
    (fun c hc => isBlank_iff.mpr (hright c hc)) ?_ ?_
  · intro c hc
    cases hsign with
    | none =>
        obtain rfl : a = c := Option.some.inj (ha.symm.trans hc)
        exact hblank a hfirst
    | plus => cases hc; decide
    | minus => cases hc; decide
  · intro c hc
    have hne : body ≠ [] := by
      rintro rfl
      cases ha
    rw [List.getLast?_append_of_ne_nil _ hne] at hc
    obtain rfl : b = c := Option.some.inj (hb.symm.trans hc)
    exact hblank b hlast

/-- **A text is read as an integer exactly if it is a numeral of it.** -/
theorem read_eq_ok_iff : read 10 cs = .ok n ↔ Denotes cs n := by
  constructor
  · intro h
    obtain ⟨left, right, hcs, hleft, hright⟩ := exists_trim cs
    obtain ⟨sign, htrim, hsign⟩ := exists_sign (trim cs)
    simp only [read, dropBaseMark_ten, true_and] at h
    generalize splitSign (trim cs) = parts at h htrim hsign
    rw [htrim] at hcs
    subst hcs
    split at h
    · cases h
    · rename_i hshort
      split at h
      · cases h
      · rename_i ds hds
        cases h
        have hbody := digits?_eq_some_iff.mp hds
        rw [hbody.leadingDigits_eq] at hshort
        rw [signed_eq, value_eq_ofDigits]
        exact .intro (fun c hc => isBlank_iff.mp (hleft c hc)) hsign hbody (Nat.not_lt.mp hshort)
          fun c hc => isBlank_iff.mp (hright c hc)
  · rintro ⟨hleft, hsign, hbody, hshort, hright⟩
    simp only [read, trim_sign_digits hleft hsign hbody hright, splitSign_append hsign hbody,
      dropBaseMark_ten, hbody.leadingDigits_eq, digits?_eq_some_iff.mpr hbody, Nat.not_lt.mpr hshort,
      and_false, if_false, signed_eq, value_eq_ofDigits]

theorem Digits.forall_lt (h : Digits cs ds) : ∀ d ∈ ds, d < 10 := by
  induction h with
  | last hd => exact List.forall_mem_singleton.mpr (digitValue?_lt hd)
  | next hd _ ih => exact List.forall_mem_cons.mpr ⟨digitValue?_lt hd, ih⟩
  | apart hd _ ih => exact List.forall_mem_cons.mpr ⟨digitValue?_lt hd, ih⟩

theorem Denotes.short (h : Denotes cs n) : Short n.natAbs := by
  obtain ⟨-, -, hbody, hshort, -⟩ := h
  rw [← signed_eq, natAbs_signed, ← value_eq_ofDigits, short_iff]
  exact (value_lt hbody.forall_lt).trans_le (Nat.pow_le_pow_right (by decide) hshort)

end Numeral

end Finality.Text
