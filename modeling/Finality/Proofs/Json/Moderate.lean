import Finality.Proofs.Decimal.Range
import Finality.Proofs.Json.Reading
import Finality.Proofs.Ordered
import Finality.Proofs.Text.Decimal

/-! # Numbers that are read

`Moderate v` says that no number in a value has too many digits: neither an integer, nor the integer
that a fractional number equals.  Everything that is read from a text is moderate
(`moderate_of_document`), because the reader refuses longer integers and takes longer fractional
numbers for infinity.  So it can be written again (`Moderate.writable`).

The proof goes through the readers as they call each other, on shorter and shorter texts
(`ReadsModerate`). -/

namespace Finality.Json

open Text (isAsciiDigit)
open Text.Numeral (Short digitsValue maxDigits signed)

/-- No number in a value has too many digits. -/
inductive Moderate : Value → Prop
  | null : Moderate .null
  | bool (b : Bool) : Moderate (.bool b)
  | int {n : Int} : Short n.natAbs → Moderate (.int n)
  | float {x : Decimal.Binary64} : (∀ n, x.toInt? = some n → Short n.natAbs) → Moderate (.float x)
  | text (s : String) : Moderate (.text s)
  | array {vs : List Value} : (∀ v ∈ vs, Moderate v) → Moderate (.array vs)
  | object {fs : List (String × Value)} : (∀ f ∈ fs, Moderate f.2) → Moderate (.object fs)

namespace Value

theorem writableItems_of_forall {vs : List Value} (h : ∀ v ∈ vs, v.writable = true) :
    writableItems vs = true := by
  induction vs with
  | nil => rfl
  | cons v vs ih =>
      obtain ⟨hv, hvs⟩ := List.forall_mem_cons.mp h
      rw [writableItems, hv, ih hvs, Bool.and_self]

theorem writableFields_of_forall {fs : List (String × Value)} (h : ∀ f ∈ fs, f.2.writable = true) :
    writableFields fs = true := by
  induction fs with
  | nil => rfl
  | cons f fs ih =>
      obtain ⟨hf, hfs⟩ := List.forall_mem_cons.mp h
      rw [writableFields, hf, ih hfs, Bool.and_self]

end Value

theorem Moderate.writable {v : Value} (hv : Moderate v) : v.writable = true := by
  induction hv with
  | int hn => exact decide_eq_true hn
  | array _ ih => exact Value.writableItems_of_forall ih
  | object _ ih => exact Value.writableFields_of_forall ih
  | _ => rfl

namespace Reader

variable {cs r : List Char} {v : Value} {vs : List Value} {fs : List (String × Value)}

/-! ### Numbers and words -/

theorem digit_of_integerPart? {w : List Char} (h : integerPart? cs = some (w, r)) :
    ∀ c ∈ w, isAsciiDigit c = true := by
  unfold integerPart? at h
  split at h
  · cases h
  · rename_i c rest
    split at h
    · rename_i hzero
      cases h
      obtain rfl := eq_of_beq hzero
      simp [isAsciiDigit]
    · split at h
      · rename_i hc
        cases h
        intro d hd
        obtain rfl | hd := List.mem_cons.mp hd
        · exact hc
        · exact List.mem_takeWhile_imp hd
      · cases h

theorem moderate_of_numberOf {negative : Bool} {whole rest : List Char}
    (hdigits : ∀ c ∈ whole, isAsciiDigit c = true)
    (h : numberOf negative whole rest = .ok (v, r)) : Moderate v := by
  unfold numberOf at h
  split at h
  · split at h
    · cases h
    · rename_i hshort
      cases h
      refine .int ?_
      rw [Text.Numeral.natAbs_signed]
      exact Text.Numeral.short_digitsValue hdigits (Nat.not_lt.mp hshort)
  · cases h
    exact .float fun n hn =>
      Text.Numeral.short_iff.mpr (Decimal.Binary64.natAbs_lt_of_ofDecimal hn)

theorem moderate_float {x : Decimal.Binary64} (hx : x.toInt? = none) : Moderate (.float x) := by
  refine .float fun n hn => ?_
  rw [hx] at hn
  cases hn

theorem moderate_of_scalar (h : scalar cs = .ok (v, r)) : Moderate v := by
  unfold scalar at h
  split at h
  · rename_i w v' hw
    cases h
    have hwords : ∀ e ∈ words, Moderate e.2 := by
      simp only [words, List.forall_mem_cons]
      exact ⟨.null, .bool _, .bool _, moderate_float rfl, moderate_float rfl, moderate_float rfl,
        List.forall_mem_nil _⟩
    exact hwords _ (List.mem_of_find?_eq_some hw)
  · unfold number at h
    split at h
    split at h
    · cases h
    · rename_i hpart
      exact moderate_of_numberOf (digit_of_integerPart? hpart) h

/-! ### Values -/

/-- Whatever the readers read at the front of a text is moderate. -/
structure ReadsModerate (cs : List Char) : Prop where
  value : ∀ {v r}, readValue cs = .ok (v, r) → Moderate v
  items : ∀ {vs r}, readItems cs = .ok (vs, r) → ∀ v ∈ vs, Moderate v
  fields : ∀ {fs r}, readFields cs = .ok (fs, r) → ∀ f ∈ fs, Moderate f.2

/-- What holds of an element and of those behind it holds of all. -/
theorem forall_of_readMore {α : Type} {P : α → Prop} {close : Char} (hclose : close ≠ ',')
    {more : List Char → Except Fault (List α × List Char)} {a : α} {as : List α} {q : List Char}
    (ha : P a)
    (hmore : ∀ {rest as q}, skip r = ',' :: rest → more (skip rest) = .ok (as, q) → ∀ b ∈ as, P b)
    (h : readMore close more a r = .ok (as, q)) : ∀ b ∈ as, P b := by
  obtain ⟨-, rfl⟩ | ⟨rest, as', hcomma, hrest, rfl⟩ := (readMore_eq_ok_iff hclose).mp h
  · exact List.forall_mem_singleton.mpr ha
  · exact List.forall_mem_cons.mpr ⟨ha, hmore hcomma hrest⟩

theorem moderate_of_readValue_array {rest : List Char} (ih : ReadsModerate (skip rest))
    (h : readValue ('[' :: rest) = .ok (v, r)) : Moderate v := by
  by_cases hnil : (skip rest).head? = some ']'
  · obtain ⟨r', hr'⟩ := List.head?_eq_some_iff.mp hnil
    rw [readValue_array_nil hr'] at h
    cases h
    exact .array nofun
  · rw [readValue_array hnil] at h
    cases hitems : readItems (skip rest) with
    | error fault =>
        rw [hitems] at h
        cases h
    | ok p =>
        rw [hitems] at h
        cases h
        exact .array (ih.items hitems)

theorem moderate_of_readValue_object {rest : List Char} (ih : ReadsModerate (skip rest))
    (h : readValue ('\x7b' :: rest) = .ok (v, r)) : Moderate v := by
  by_cases hnil : (skip rest).head? = some '\x7d'
  · obtain ⟨r', hr'⟩ := List.head?_eq_some_iff.mp hnil
    rw [readValue_object_nil hr'] at h
    cases h
    exact .object nofun
  · rw [readValue_object hnil] at h
    cases hfields : readFields (skip rest) with
    | error fault =>
        rw [hfields] at h
        cases h
    | ok p =>
        rw [hfields] at h
        cases h
        exact .object fun f hf => ih.fields hfields f (Ordered.mem_of_mem_ofList hf)

section step
variable (ih : ∀ q : List Char, q.length < cs.length → ReadsModerate q)
include ih

theorem moderate_of_readValue_of (h : readValue cs = .ok (v, r)) : Moderate v := by
  have hbehind : ∀ {c rest}, cs = c :: rest → ReadsModerate (skip rest) := by
    rintro c rest rfl
    exact ih _ (Nat.lt_succ_of_le (length_skip_le rest))
  by_cases hstring : cs.head? = some '"'
  · obtain ⟨rest, rfl⟩ := List.head?_eq_some_iff.mp hstring
    rw [readValue_string] at h
    split at h
    · cases h
    · cases h
      exact .text _
  by_cases harray : cs.head? = some '['
  · obtain ⟨rest, rfl⟩ := List.head?_eq_some_iff.mp harray
    exact moderate_of_readValue_array (hbehind rfl) h
  by_cases hobject : cs.head? = some '\x7b'
  · obtain ⟨rest, rfl⟩ := List.head?_eq_some_iff.mp hobject
    exact moderate_of_readValue_object (hbehind rfl) h
  rw [readValue_scalar hstring harray hobject] at h
  exact moderate_of_scalar h

theorem moderate_of_readItems_of (h : readItems cs = .ok (vs, r)) : ∀ v ∈ vs, Moderate v := by
  rw [readItems_eq] at h
  cases hv : readValue cs with
  | error fault =>
      rw [hv] at h
      cases h
  | ok p =>
      rw [hv] at h
      refine forall_of_readMore (by decide) (moderate_of_readValue_of ih hv) (fun hcomma hrest => ?_) h
      have h1 := length_readValue hv
      have h2 := length_of_skip hcomma
      exact (ih _ (Nat.lt_of_le_of_lt (length_skip_le _) (by omega))).items hrest

theorem moderate_of_readFields_of (h : readFields cs = .ok (fs, r)) :
    ∀ f ∈ fs, Moderate f.2 := by
  by_cases hkey : cs.head? = some '"'
  · obtain ⟨rest, rfl⟩ := List.head?_eq_some_iff.mp hkey
    rw [readFields_eq] at h
    split at h
    · cases h
    · rename_i key r' hs
      have h0 := length_string hs
      split at h
      · rename_i q hcolon
        have h1 := length_of_skip hcolon
        cases hv : readValue (skip q) with
        | error fault =>
            rw [hv] at h
            cases h
        | ok p =>
            rw [hv] at h
            have h2 := length_readValue hv
            have h3 := length_skip_le q
            have hq : (skip q).length < ('"' :: rest).length := by
              rw [List.length_cons]
              omega
            refine forall_of_readMore (P := fun f => Moderate f.2) (by decide) ((ih _ hq).value hv)
              (fun hcomma hrest => ?_) h
            have h4 := length_of_skip hcomma
            exact (ih _ (Nat.lt_of_le_of_lt (length_skip_le _) (by omega))).fields hrest
      · cases h
  · rw [readFields_of_not_string hkey] at h
    cases h

end step

theorem readsModerate (cs : List Char) : ReadsModerate cs := by
  induction hlength : cs.length using Nat.strong_induction_on generalizing cs with
  | _ n ih =>
      subst hlength
      have ih : ∀ q : List Char, q.length < cs.length → ReadsModerate q := fun q hq => ih _ hq q rfl
      exact ⟨moderate_of_readValue_of ih, moderate_of_readItems_of ih, moderate_of_readFields_of ih⟩

/-- **What is read is moderate.** -/
theorem moderate_of_document (h : document cs = .ok v) : Moderate v := by
  obtain ⟨r, hv, -⟩ := document_eq_ok_iff.mp h
  exact (readsModerate _).value hv

end Reader

theorem Value.moderate_of_ofText {cs : List Char} {v : Value} (h : Value.ofText cs = .ok v) :
    Moderate v := by
  unfold Value.ofText at h
  split at h
  · split at h
    · cases h
    · exact Reader.moderate_of_document h
  · exact Reader.moderate_of_document h

end Finality.Json
