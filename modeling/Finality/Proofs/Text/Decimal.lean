import Mathlib.Algebra.Group.Nat.Defs
import Mathlib.Data.List.Basic
import Mathlib.Data.List.Induction
import Mathlib.Data.List.TakeWhile
import Finality.Text.Numeral

/-! # Decimal digits of a number

A number is shown by its decimal digits, which are ASCII digits and begin with a zero only for zero
itself.  Their positional value is the number (`digitsValue_toDigits`), and read as a numeral they
are the number again, unless they are too many to be read (`read_toDigits`).  They are not too many
exactly for the numbers below a bound (`short_iff`). -/

namespace Finality.Text

variable {c : Char} {cs : List Char}

theorem isAsciiDigit_iff : isAsciiDigit c = true ↔ 48 ≤ c.toNat ∧ c.toNat ≤ 57 := by
  rw [isAsciiDigit, Bool.and_eq_true, decide_eq_true_eq, decide_eq_true_eq]
  exact Iff.rfl

theorem ne_of_isAsciiDigit {d : Char} (hc : isAsciiDigit c = true) (hd : isAsciiDigit d = false) :
    c ≠ d := by
  rintro rfl
  rw [hc] at hd
  cases hd

theorem isBlank_of_isAsciiDigit (hc : isAsciiDigit c = true) : isBlank c = false := by
  obtain ⟨hle, hge⟩ := isAsciiDigit_iff.mp hc
  simp only [isBlank, Bool.or_eq_false_iff, Bool.and_eq_false_iff, beq_eq_false_iff_ne,
    decide_eq_false_iff_not]
  omega

theorem digitValue?_of_isAsciiDigit (hc : isAsciiDigit c = true) :
    digitValue? c = some (c.toNat - 48) := by
  obtain ⟨hle, hge⟩ := isAsciiDigit_iff.mp hc
  have hbasic := digitValue?_basic ⟨c.toNat - 48, by omega⟩
  have hplace : 48 + (c.toNat - 48) = c.toNat := by omega
  rwa [hplace, Char.ofNat_toNat] at hbasic

theorem trim_of_not_blank (h : ∀ c ∈ cs, isBlank c = false) : trim cs = cs := by
  have hdrop : ∀ {ds : List Char}, (∀ c ∈ ds, isBlank c = false) → ds.dropWhile isBlank = ds := by
    intro ds hds
    cases ds with
    | nil => rfl
    | cons d ds => simp [hds d List.mem_cons_self]
  have hreverse : ∀ c ∈ cs.reverse, isBlank c = false := fun c hc => h c (List.mem_reverse.mp hc)
  rw [trim, hdrop h, hdrop hreverse, List.reverse_reverse]

namespace Numeral

/-! ### Digits as a numeral -/

section digits
variable (hdigits : ∀ c ∈ cs, isAsciiDigit c = true)
include hdigits

theorem digits?_of_isAsciiDigit (hne : cs ≠ []) :
    digits? 10 cs = some (cs.map (·.toNat - 48)) := by
  induction cs with
  | nil => exact absurd rfl hne
  | cons c cs ih =>
      obtain ⟨hc, hcs⟩ := List.forall_mem_cons.mp hdigits
      have hdigit : digitIn? 10 c = some (c.toNat - 48) := by
        have hlt : c.toNat - 48 < 10 := digitValue?_lt (digitValue?_of_isAsciiDigit hc)
        simp [digitIn?, digitValue?_of_isAsciiDigit hc, hlt]
      cases cs with
      | nil => simp [digits?, hdigit]
      | cons d cs =>
          have hd : d ≠ '_' := ne_of_isAsciiDigit (hcs d List.mem_cons_self) (by decide)
          have ih := ih hcs (by simp)
          simp [digits?, hdigit, hd, ih]

theorem leadingDigits_of_isAsciiDigit (hne : cs ≠ []) : leadingDigits 10 cs = cs.length := by
  have hall : cs.takeWhile (fun c => c == '_' || (digitIn? 10 c).isSome) = cs := by
    refine List.takeWhile_eq_self_iff.mpr fun c hc => ?_
    have hdigit := digitValue?_of_isAsciiDigit (hdigits c hc)
    have hlt : c.toNat - 48 < 10 := digitValue?_lt hdigit
    simp [digitIn?, hdigit, hlt]
  simp only [leadingDigits, hall, digits?_of_isAsciiDigit hdigits hne, Option.map_some,
    List.length_map, Option.getD_some]

theorem read_of_isAsciiDigit (hne : cs ≠ []) (hlength : cs.length ≤ maxDigits) :
    read 10 cs = .ok (digitsValue cs) := by
  have htrim : trim cs = cs :=
    trim_of_not_blank fun c hc => isBlank_of_isAsciiDigit (hdigits c hc)
  have hsign : splitSign cs = (false, cs) := by
    unfold splitSign
    split
    · exact absurd (hdigits _ List.mem_cons_self) (by decide)
    · exact absurd (hdigits _ List.mem_cons_self) (by decide)
    · rfl
  have hmark : dropBaseMark 10 cs = cs := by
    unfold dropBaseMark
    split <;> rfl
  have hshort : ¬maxDigits < cs.length := Nat.not_lt.mpr hlength
  unfold read
  simp only [htrim, hsign, hmark, leadingDigits_of_isAsciiDigit hdigits hne,
    digits?_of_isAsciiDigit hdigits hne, hshort, and_false, if_false]
  rfl

end digits

/-! ### Digits of a number -/

theorem value_lt {base : Nat} {ds : List Nat} (h : ∀ d ∈ ds, d < base) :
    value base ds < base ^ ds.length := by
  induction ds using List.reverseRecOn with
  | nil => simp [value]
  | append_singleton ds d ih =>
      obtain ⟨hds, hd⟩ := List.forall_mem_append.mp h
      have hlt : value base ds + 1 ≤ base ^ ds.length := ih hds
      have hvalue : value base (ds ++ [d]) = value base ds * base + d := by simp [value]
      calc value base (ds ++ [d]) < (value base ds + 1) * base := by
            rw [hvalue, Nat.succ_mul]
            exact Nat.add_lt_add_left (hd d List.mem_cons_self) _
        _ ≤ base ^ ds.length * base := Nat.mul_le_mul_right base hlt
        _ = base ^ (ds ++ [d]).length := by rw [List.length_append, List.length_singleton, Nat.pow_succ]

theorem isAsciiDigit_of_mem_toDigits {n : Nat} (hc : c ∈ Nat.toDigits 10 n) :
    isAsciiDigit c = true :=
  Nat.isDigit_of_mem_toDigits (by decide) (by decide) hc

theorem exists_toDigits_eq_cons (n : Nat) :
    ∃ c more, isAsciiDigit c = true ∧ Nat.toDigits 10 n = c :: more := by
  cases hcs : Nat.toDigits 10 n with
  | nil => exact absurd hcs Nat.toDigits_ne_nil
  | cons c more =>
      have hmem : c ∈ Nat.toDigits 10 n := hcs ▸ List.mem_cons_self
      exact ⟨c, more, isAsciiDigit_of_mem_toDigits hmem, rfl⟩

theorem digitsValue_toDigits (n : Nat) : digitsValue (Nat.toDigits 10 n) = n := by
  have hvalue : ∀ cs, digitsValue cs = Nat.ofDigitChars 10 cs 0 := by
    intro cs
    simp only [digitsValue, value, List.foldl_map, Nat.ofDigitChars_eq_foldl, Nat.mul_comm]
    rfl
  rw [hvalue, Nat.ofDigitChars_toDigits (by decide) (by decide)]

/-- No number but zero begins with a zero. -/
theorem head?_toDigits_ne {n : Nat} (hn : n ≠ 0) : (Nat.toDigits 10 n).head? ≠ some '0' := by
  induction n using Nat.strongRecOn with
  | ind n ih =>
      rw [Nat.toDigits_eq_if (by decide)]
      split
      · rename_i hlt
        have hchar : ∀ d < 10, d ≠ 0 → d.digitChar ≠ '0' := by decide
        simpa using hchar n hlt hn
      · rename_i hge
        have hhead := ih (n / 10) (by omega) (by omega)
        rwa [List.head?_append_of_ne_nil _ Nat.toDigits_ne_nil]

theorem short_iff {n : Nat} : Short n ↔ n < 10 ^ maxDigits :=
  Nat.length_toDigits_le_iff (by decide) (by decide)

theorem not_short_pow : ¬Short (10 ^ maxDigits) := by
  rw [short_iff]
  exact Nat.lt_irrefl _

theorem short_digitsValue (hdigits : ∀ c ∈ cs, isAsciiDigit c = true)
    (hlength : cs.length ≤ maxDigits) : Short (digitsValue cs) := by
  have hlt : digitsValue cs < 10 ^ (cs.map (·.toNat - 48)).length := by
    refine value_lt fun d hd => ?_
    obtain ⟨c, hc, rfl⟩ := List.mem_map.mp hd
    exact digitValue?_lt (digitValue?_of_isAsciiDigit (hdigits c hc))
  rw [List.length_map] at hlt
  exact short_iff.mpr (hlt.trans_le (Nat.pow_le_pow_right (by decide) hlength))

theorem natAbs_signed (negative : Bool) (n : Nat) : (signed negative n).natAbs = n := by
  cases negative <;> simp [signed]

theorem write?_eq_some {n : Int} (hn : Short n.natAbs) : write? n = some (toString n) := if_pos hn

theorem write?_eq_none {n : Int} (hn : ¬Short n.natAbs) : write? n = none := if_neg hn

/-- A number is read from its digits, unless they are too many. -/
theorem read_toDigits {n : Nat} (hn : Short n) : read 10 (Nat.toDigits 10 n) = .ok n := by
  rw [read_of_isAsciiDigit (fun _ => isAsciiDigit_of_mem_toDigits) Nat.toDigits_ne_nil hn,
    digitsValue_toDigits]

end Numeral

end Finality.Text
