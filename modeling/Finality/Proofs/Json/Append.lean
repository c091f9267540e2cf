import Mathlib.Data.List.Basic
import Mathlib.Data.List.Find
import Finality.Proofs.Json.Reading

/-! # What follows a value

A reader decides about the front of a text.  What comes behind is none of its concern, unless it
goes on with what is being read, as a digit goes on with a number: `Apart t` excludes this.  Then a
value that is read from a text is also read when `t` follows, and `t` is left over
(`readValue_append`).

Strings, arrays and objects are closed by a character of their own, so only numbers and words have
to look at `t`; all other readers hand it on (`ReadsOn`). -/

namespace Finality.Json.Reader

open Text (isAsciiDigit isHighSurrogate isLowSurrogate)
open Text.Numeral (splitSign)

variable {cs t r : List Char} {v : Value}

/-- Characters that a number may go on with. -/
def extendsNumber (c : Char) : Bool :=
  isAsciiDigit c || c == '.' || c == 'e' || c == 'E' || c == '+' || c == '-'

/-- A text that does not go on with a number in front of it. -/
def Apart (t : List Char) : Prop := ∀ c ∈ t.head?, extendsNumber c = false

theorem Apart.head_ne (ht : Apart t) (c : Char) (hc : extendsNumber c = true) (rest : List Char) :
    t ≠ c :: rest := by
  rintro rfl
  have := ht c rfl
  rw [hc] at this
  cases this

theorem Apart.not_digit (ht : Apart t) : ∀ c ∈ t.head?, isAsciiDigit c = false := by
  intro c hc
  have hno := ht c hc
  simp only [extendsNumber, Bool.or_eq_false_iff] at hno
  exact hno.1.1.1.1.1

/-- Blanks are dropped up to the first other character, which what follows does not change. -/
theorem skip_append (h : skip cs ≠ []) (t : List Char) : skip (cs ++ t) = skip cs ++ t := by
  have hne : (cs.dropWhile isBlank).isEmpty = false := by simpa [skip] using h
  rw [skip, List.dropWhile_append, hne]
  rfl

theorem skip_append_cons {c : Char} (h : skip cs = c :: r) (t : List Char) :
    skip (cs ++ t) = c :: (r ++ t) := by
  rw [skip_append (by simp [h]), h, List.cons_append]

theorem skip_append_of_blank (h : skip cs = []) (t : List Char) : skip (cs ++ t) = skip t := by
  have hnil : (cs.dropWhile isBlank).isEmpty = true := by simpa [skip] using h
  rw [skip, List.dropWhile_append, hnil]
  rfl

theorem head?_append_ne {c : Char} (hne : cs ≠ []) (h : cs.head? ≠ some c) :
    (cs ++ t).head? ≠ some c := by
  rwa [List.head?_append_of_ne_nil cs hne]

/-! ### Strings -/

theorem secondHalf?_append {m : Nat} (h : secondHalf? cs = some (.ok (m, r))) (t : List Char) :
    secondHalf? (cs ++ t) = some (.ok (m, r ++ t)) := by
  unfold secondHalf? at h
  split at h
  · rename_i a b c d next rest
    split at h
    · cases h
    · rename_i n hquad
      cases h
      simp only [List.cons_append, secondHalf?, hquad]
  · cases h

/-- A string that can be read is closed, so it does not break off within an escape. -/
theorem secondHalf?_append_none {s : List Char} (hs : string cs = .ok (s, r))
    (h : secondHalf? cs = none) (t : List Char) : secondHalf? (cs ++ t) = none := by
  unfold secondHalf?
  split
  · rename_i a b c d next rest heq
    cases cs with
    | nil =>
        rw [string.eq_1] at hs
        cases hs
    | cons x cs =>
        obtain rfl : x = '\\' := List.head_eq_of_cons_eq heq
        cases cs with
        | nil =>
            rw [string.eq_5] at hs
            cases hs
        | cons y cs =>
            obtain rfl : y = 'u' := List.head_eq_of_cons_eq (List.tail_eq_of_cons_eq heq)
            by_cases hlong : ∃ a b c d next rest, cs = a :: b :: c :: d :: next :: rest
            · obtain ⟨a, b, c, d, next, rest, rfl⟩ := hlong
              simp only [secondHalf?] at h
              split at h <;> cases h
            · rw [string.eq_4] at hs
              · cases hs
              · exact fun a b c d next rest hcs => hlong ⟨a, b, c, d, next, rest, hcs⟩
  · rfl

theorem string_append {s : List Char} (h : string cs = .ok (s, r)) (t : List Char) :
    string (cs ++ t) = .ok (s, r ++ t) := by
  fun_induction string cs generalizing s r with
  | case1 => cases h
  | case2 rest =>
      cases h
      exact string.eq_2 _
  | case3 => cases h
  | case4 => cases h
  | case5 a b c d next rest n hquad m more hsecond hhigh hlow _ ih =>
      obtain ⟨s', hs', rfl⟩ := push_eq_ok_iff.mp h
      have hpair := string_pair hquad hhigh (secondHalf?_append hsecond t) hlow
      exact hpair.trans (push_eq_ok_iff.mpr ⟨s', ih hs', rfl⟩)
  | case6 a b c d next rest n hquad m more hsecond hhigh hlow ih =>
      obtain ⟨s', hs', rfl⟩ := push_eq_ok_iff.mp h
      have hsingle : ∀ x ∈ secondHalf? (next :: rest ++ t),
          ∃ m r, x = .ok (m, r) ∧ isLowSurrogate m = false := by
        intro x hx
        rw [secondHalf?_append hsecond] at hx
        cases hx
        exact ⟨m, _, rfl, by simpa using hlow⟩
      have hunit := string_unit hquad (by simp) fun _ => hsingle
      exact hunit.trans (push_eq_ok_iff.mpr ⟨s', ih hs', rfl⟩)
  | case7 a b c d next rest n hquad hfault hpair ih =>
      obtain ⟨s', hs', rfl⟩ := push_eq_ok_iff.mp h
      have hsingle : isHighSurrogate n = true → ∀ x ∈ secondHalf? (next :: rest ++ t),
          ∃ m r, x = .ok (m, r) ∧ isLowSurrogate m = false := by
        intro hhigh x hx
        have hnone : secondHalf? (next :: rest) = none := by
          rcases hsecond : secondHalf? (next :: rest) with _ | fault | p
          · rfl
          · exact (hfault fault hhigh hsecond).elim
          · exact (hpair p.1 p.2 hhigh hsecond).elim
        rw [secondHalf?_append_none hs' hnone] at hx
        cases hx
      have hunit := string_unit hquad (by simp) hsingle
      exact hunit.trans (push_eq_ok_iff.mpr ⟨s', ih hs', rfl⟩)
  | case8 => cases h
  | case9 => cases h
  | case10 => cases h
  | case11 c rest _ _ e he ih =>
      obtain ⟨s', hs', rfl⟩ := push_eq_ok_iff.mp h
      exact (string_short he).trans (push_eq_ok_iff.mpr ⟨s', ih hs', rfl⟩)
  | case12 => cases h
  | case13 c rest hquote _ hunit hend hescape hcontrol ih =>
      obtain ⟨s', hs', rfl⟩ := push_eq_ok_iff.mp h
      have hslash : c ≠ '\\' := by
        rintro rfl
        cases rest with
        | nil => exact hend rfl rfl
        | cons c rest => exact hescape c rest rfl rfl
      have hchar : string (c :: (rest ++ t)) = push c (string (rest ++ t)) :=
        string_char hquote hslash (Nat.not_lt.mp hcontrol)
      exact hchar.trans (push_eq_ok_iff.mpr ⟨s', ih hs', rfl⟩)

/-! ### Numbers and words -/

section digits
variable (ht : Apart t)
include ht

theorem digits_append (cs : List Char) :
    (cs ++ t).takeWhile isAsciiDigit = cs.takeWhile isAsciiDigit ∧
      (cs ++ t).dropWhile isAsciiDigit = cs.dropWhile isAsciiDigit ++ t := by
  induction cs with
  | nil =>
      cases t with
      | nil => exact ⟨rfl, rfl⟩
      | cons c t => simp [ht.not_digit c rfl]
  | cons c cs ih =>
      by_cases hc : isAsciiDigit c = true
      · simpa [hc] using ih
      · simp [hc]

theorem integerPart?_append {w : List Char} (h : integerPart? cs = some (w, r)) :
    integerPart? (cs ++ t) = some (w, r ++ t) := by
  cases cs with
  | nil => cases h
  | cons c cs =>
      obtain ⟨htake, hdrop⟩ := digits_append ht cs
      simp only [integerPart?, List.cons_append, htake, hdrop] at h ⊢
      split at h
      · rename_i hzero
        cases h
        rw [if_pos hzero]
      · rename_i hzero
        split at h
        · rename_i hc
          cases h
          rw [if_neg hzero, if_pos hc]
        · cases h

theorem fractionPart?_append (cs : List Char) :
    fractionPart? (cs ++ t) = (fractionPart? cs).map fun p => (p.1, p.2 ++ t) := by
  cases cs with
  | nil =>
      unfold fractionPart?
      split
      · rename_i heq
        exact absurd heq (ht.head_ne '.' (by decide) _)
      · rfl
  | cons x cs =>
      by_cases hx : x = '.'
      · subst hx
        cases cs with
        | nil =>
            cases t with
            | nil => rfl
            | cons c t => simp [fractionPart?, ht.not_digit c rfl]
        | cons c cs =>
            obtain ⟨htake, hdrop⟩ := digits_append ht cs
            simp only [fractionPart?, List.cons_append, htake, hdrop]
            split <;> rfl
      · simp [fractionPart?, hx]

theorem signedDigits?_append (cs : List Char) :
    signedDigits? (cs ++ t) = (signedDigits? cs).map fun p => (p.1, p.2 ++ t) := by
  have hsign : (splitSign (cs ++ t)).1 = (splitSign cs).1 ∧
      (splitSign (cs ++ t)).2 = (splitSign cs).2 ++ t := by
    unfold splitSign
    cases cs with
    | nil =>
        rw [List.nil_append]
        split
        · exact absurd rfl (ht.head_ne '-' (by decide) _)
        · exact absurd rfl (ht.head_ne '+' (by decide) _)
        · exact ⟨rfl, rfl⟩
    | cons c cs =>
        by_cases hminus : c = '-'
        · subst hminus
          exact ⟨rfl, rfl⟩
        by_cases hplus : c = '+'
        · subst hplus
          exact ⟨rfl, rfl⟩
        simp [hminus, hplus]
  simp only [signedDigits?, hsign.1, hsign.2]
  cases (splitSign cs).2 with
  | nil =>
      cases t with
      | nil => rfl
      | cons c t => simp [ht.not_digit c rfl]
  | cons c body =>
      obtain ⟨htake, hdrop⟩ := digits_append ht body
      simp only [List.cons_append, htake, hdrop]
      split <;> rfl

theorem exponentPart?_append (cs : List Char) :
    exponentPart? (cs ++ t) = (exponentPart? cs).map fun p => (p.1, p.2 ++ t) := by
  cases cs with
  | nil =>
      unfold exponentPart?
      split
      · rename_i heq
        exact absurd heq (ht.head_ne 'e' (by decide) _)
      · rename_i heq
        exact absurd heq (ht.head_ne 'E' (by decide) _)
      · rfl
  | cons x cs =>
      by_cases hx : x = 'e' ∨ x = 'E'
      · rcases hx with rfl | rfl
        · exact signedDigits?_append ht cs
        · exact signedDigits?_append ht cs
      · simp only [not_or] at hx
        simp [exponentPart?, hx]

theorem numberOf_append {negative : Bool} {w q : List Char}
    (h : numberOf negative w r = .ok (v, q)) : numberOf negative w (r ++ t) = .ok (v, q ++ t) := by
  unfold numberOf at h ⊢
  rw [fractionPart?_append ht]
  rcases hfraction : fractionPart? r with _ | f
  · rw [hfraction] at h
    simp only [Option.elim_none, Option.map_none, exponentPart?_append ht] at h ⊢
    rcases hexponent : exponentPart? r with _ | e
    · rw [hexponent] at h
      simp only [Option.map_none] at h ⊢
      split at h
      · cases h
      · rename_i hshort
        cases h
        rw [if_neg hshort]
    · rw [hexponent] at h
      cases h
      rfl
  · rw [hfraction] at h
    simp only [Option.elim_some, Option.map_some, exponentPart?_append ht] at h ⊢
    rcases hexponent : exponentPart? f.2 with _ | e
    · rw [hexponent] at h
      cases h
      rfl
    · rw [hexponent] at h
      cases h
      rfl

theorem signedNumber_append {negative : Bool} {left left' : Nat}
    (h : signedNumber negative left cs = .ok (v, r)) :
    signedNumber negative left' (cs ++ t) = .ok (v, r ++ t) := by
  unfold signedNumber at h ⊢
  split at h
  · cases h
  · rename_i w rest hpart
    rw [integerPart?_append ht hpart]
    exact numberOf_append ht h

theorem number_append (h : number cs = .ok (v, r)) : number (cs ++ t) = .ok (v, r ++ t) := by
  cases cs with
  | nil => cases h
  | cons c cs =>
      by_cases hc : c = '-'
      · subst hc
        exact signedNumber_append ht h
      · have hsign : ∀ rest, c :: cs ≠ '-' :: rest :=
          fun rest heq => hc (List.head_eq_of_cons_eq heq)
        have hsign' : ∀ rest, c :: (cs ++ t) ≠ '-' :: rest :=
          fun rest heq => hc (List.head_eq_of_cons_eq heq)
        rw [number_of_ne_minus hsign] at h
        exact (number_of_ne_minus hsign').trans (signedNumber_append ht h)

end digits

theorem isOk_scalar_take_word :
    ∀ w ∈ words, ∀ n < w.1.length, (scalar (w.1.take n)).isOk = false := by
  decide

theorem isPrefixOf_append_iff (h : scalar cs = .ok (v, r)) (t : List Char) :
    ∀ w ∈ words, w.1.isPrefixOf (cs ++ t) = w.1.isPrefixOf cs := by
  intro w hw
  rw [Bool.eq_iff_iff, List.isPrefixOf_iff_prefix, List.isPrefixOf_iff_prefix]
  refine ⟨fun hword => ?_, fun hword => hword.trans (List.prefix_append cs t)⟩
  rcases Nat.lt_or_ge cs.length w.1.length with hlt | hge
  · have hcs : cs = w.1.take cs.length :=
      List.prefix_iff_eq_take.mp
        (List.prefix_of_prefix_length_le (List.prefix_append cs t) hword (Nat.le_of_lt hlt))
    have hno := isOk_scalar_take_word w hw cs.length hlt
    rw [← hcs, h] at hno
    cases hno
  · exact List.prefix_of_prefix_length_le hword (List.prefix_append cs t) hge

theorem scalar_append (ht : Apart t) (h : scalar cs = .ok (v, r)) :
    scalar (cs ++ t) = .ok (v, r ++ t) := by
  have hwords : words.find? (fun w => w.1.isPrefixOf (cs ++ t)) =
      words.find? (fun w => w.1.isPrefixOf cs) :=
    List.find?_congr (isPrefixOf_append_iff h t)
  unfold scalar at h ⊢
  rw [hwords]
  split at h
  · rename_i w v' hw
    cases h
    have hfront : w.isPrefixOf cs = true :=
      List.find?_some (p := fun w : List Char × Value => w.1.isPrefixOf cs) hw
    have hprefix : w <+: cs := List.isPrefixOf_iff_prefix.mp hfront
    rw [List.drop_append_of_le_length hprefix.length_le]
  · exact number_append ht h

/-! ### Values, items and fields -/

/-- What the readers read at the front of a text they also read when `t` follows. -/
structure ReadsOn (t cs : List Char) : Prop where
  value : ∀ {v r}, readValue cs = .ok (v, r) → readValue (cs ++ t) = .ok (v, r ++ t)
  items : ∀ {vs r}, readItems cs = .ok (vs, r) → readItems (cs ++ t) = .ok (vs, r ++ t)
  fields : ∀ {fs r}, readFields cs = .ok (fs, r) → readFields (cs ++ t) = .ok (fs, r ++ t)

theorem ne_nil_of_length {q : List Char} (h : q.length < cs.length) : cs ≠ [] := by
  rintro rfl
  exact absurd h (Nat.not_lt_zero _)

theorem readMore_append {α : Type} {close : Char} (hclose : close ≠ ',')
    {more : List Char → Except Fault (List α × List Char)}
    (hlength : ∀ {cs as q}, more cs = .ok (as, q) → q.length < cs.length)
    {a : α} {as : List α} {q : List Char}
    (hmore : ∀ {rest as q}, skip r = ',' :: rest → more (skip rest) = .ok (as, q) →
      more (skip rest ++ t) = .ok (as, q ++ t))
    (h : readMore close more a r = .ok (as, q)) :
    readMore close more a (r ++ t) = .ok (as, q ++ t) := by
  rw [readMore_eq_ok_iff hclose] at h ⊢
  rcases h with ⟨hend, rfl⟩ | ⟨rest, as', hcomma, hrest, rfl⟩
  · exact .inl ⟨skip_append_cons hend t, rfl⟩
  · refine .inr ⟨rest ++ t, as', skip_append_cons hcomma t, ?_, rfl⟩
    rw [skip_append (ne_nil_of_length (hlength hrest))]
    exact hmore hcomma hrest

section step
variable (ih : ∀ q : List Char, q.length < cs.length → ReadsOn t q)
include ih

theorem readValue_append_of (ht : Apart t) (h : readValue cs = .ok (v, r)) :
    readValue (cs ++ t) = .ok (v, r ++ t) := by
  have hne : cs ≠ [] := ne_nil_of_length (length_readValue h)
  by_cases hstring : cs.head? = some '"'
  · obtain ⟨rest, rfl⟩ := List.head?_eq_some_iff.mp hstring
    rw [readValue_string] at h
    split at h
    · cases h
    · rename_i s r' hs
      cases h
      rw [List.cons_append, readValue_string, string_append hs]
  by_cases harray : cs.head? = some '['
  · obtain ⟨rest, rfl⟩ := List.head?_eq_some_iff.mp harray
    by_cases hnil : (skip rest).head? = some ']'
    · obtain ⟨r', hr'⟩ := List.head?_eq_some_iff.mp hnil
      rw [readValue_array_nil hr'] at h
      cases h
      exact readValue_array_nil (skip_append_cons hr' t)
    · rw [readValue_array hnil] at h
      cases hitems : readItems (skip rest) with
      | error fault =>
          rw [hitems] at h
          cases h
      | ok p =>
          rw [hitems] at h
          cases h
          have hrest : skip rest ≠ [] := ne_nil_of_length (length_plain hitems)
          have hread := (ih (skip rest) (Nat.lt_succ_of_le (length_skip_le rest))).items hitems
          have hhead := head?_append_ne (t := t) hrest hnil
          rw [← skip_append hrest] at hread hhead
          exact readValue_of_readItems hhead hread
  by_cases hobject : cs.head? = some '\x7b'
  · obtain ⟨rest, rfl⟩ := List.head?_eq_some_iff.mp hobject
    by_cases hnil : (skip rest).head? = some '\x7d'
    · obtain ⟨r', hr'⟩ := List.head?_eq_some_iff.mp hnil
      rw [readValue_object_nil hr'] at h
      cases h
      exact readValue_object_nil (skip_append_cons hr' t)
    · rw [readValue_object hnil] at h
      cases hfields : readFields (skip rest) with
      | error fault =>
          rw [hfields] at h
          cases h
      | ok p =>
          rw [hfields] at h
          cases h
          have hrest : skip rest ≠ [] := ne_nil_of_length (length_plain hfields)
          have hread := (ih (skip rest) (Nat.lt_succ_of_le (length_skip_le rest))).fields hfields
          have hhead := head?_append_ne (t := t) hrest hnil
          rw [← skip_append hrest] at hread hhead
          rw [List.cons_append, readValue_object hhead, hread]
          rfl
  rw [readValue_scalar hstring harray hobject] at h
  rw [readValue_scalar (head?_append_ne hne hstring) (head?_append_ne hne harray)
    (head?_append_ne hne hobject)]
  exact scalar_append ht h

theorem readItems_append_of (ht : Apart t) {vs : List Value} (h : readItems cs = .ok (vs, r)) :
    readItems (cs ++ t) = .ok (vs, r ++ t) := by
  rw [readItems_eq] at h ⊢
  cases hv : readValue cs with
  | error fault =>
      rw [hv] at h
      cases h
  | ok p =>
      obtain ⟨v, q⟩ := p
      rw [hv] at h
      rw [readValue_append_of ih ht hv]
      refine readMore_append (by decide) length_plain (fun hcomma hrest => ?_) h
      have h1 := length_readValue hv
      have h2 := length_of_skip hcomma
      exact (ih _ (Nat.lt_of_le_of_lt (length_skip_le _) (by omega))).items hrest

theorem readFields_append_of {fs : List (String × Value)} (h : readFields cs = .ok (fs, r)) :
    readFields (cs ++ t) = .ok (fs, r ++ t) := by
  by_cases hkey : cs.head? = some '"'
  · obtain ⟨rest, rfl⟩ := List.head?_eq_some_iff.mp hkey
    rw [readFields_eq] at h
    split at h
    · cases h
    · rename_i key r' hs
      have h0 := length_string hs
      split at h
      · rename_i q hcolon
        have h1 := length_of_skip hcolon
        cases hv : readValue (skip q) with
        | error fault =>
            rw [hv] at h
            cases h
        | ok p =>
            obtain ⟨v, q'⟩ := p
            rw [hv] at h
            have h2 := length_readValue hv
            have h3 := length_skip_le q
            have hq : (skip q).length < ('"' :: rest).length := by
              rw [List.length_cons]
              omega
            have hread := (ih _ hq).value hv
            rw [← skip_append (ne_nil_of_length h2)] at hread
            rw [List.cons_append, readFields_eq, string_append hs]
            simp only [skip_append_cons hcolon, hread]
            refine readMore_append (by decide) length_plain (fun hcomma hrest => ?_) h
            have h4 := length_of_skip hcomma
            exact (ih _ (Nat.lt_of_le_of_lt (length_skip_le _) (by omega))).fields hrest
      · cases h
  · rw [readFields_of_not_string hkey] at h
    cases h

end step

theorem readsOn (ht : Apart t) (cs : List Char) : ReadsOn t cs := by
  induction hlength : cs.length using Nat.strong_induction_on generalizing cs with
  | _ n ih =>
      subst hlength
      have ih : ∀ q : List Char, q.length < cs.length → ReadsOn t q := fun q hq => ih _ hq q rfl
      exact ⟨readValue_append_of ih ht, readItems_append_of ih ht, readFields_append_of ih⟩

/-- **What follows a value is left over.** -/
theorem readValue_append (ht : Apart t) (h : readValue cs = .ok (v, r)) :
    readValue (cs ++ t) = .ok (v, r ++ t) := (readsOn ht cs).value h

end Finality.Json.Reader
