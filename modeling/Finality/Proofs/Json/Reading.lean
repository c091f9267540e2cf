import Mathlib.Tactic.Common
import Finality.Json.Reader
import Finality.Proofs.Text.Decimal

/-! # Reading without lengths

The readers of values carry a proof that the rest of the text is shorter, which is why they end.
`readValue`, `readItems` and `readFields` are the same readers without it, and with the equations
that one expects of them: a value is read by its first character (`readValue_string`,
`readValue_array`, `readValue_object`, `readValue_scalar`), items and fields one after the other
(`readItems_eq`, `readFields_eq`), and a string character by character (`string_char`,
`string_short`, `string_unit`, `string_pair`). -/

namespace Finality.Json.Reader

open Text (charOf isAsciiDigit isHighSurrogate isLowSurrogate joinSurrogates ne_of_isAsciiDigit)

/-- Forgets that the rest is shorter. -/
def plain {α : Type} {cs : List Char} (x : Except Fault (α × Rest cs)) :
    Except Fault (α × List Char) :=
  x.map fun p => (p.1, p.2.1)

/-- Value at the front of a text, and the rest. -/
def readValue (cs : List Char) : Except Fault (Value × List Char) := plain (value cs)

/-- Items of an array, and the rest behind its bracket. -/
def readItems (cs : List Char) : Except Fault (List Value × List Char) := plain (elements cs)

/-- Fields of an object, and the rest behind its brace. -/
def readFields (cs : List Char) : Except Fault (List (String × Value) × List Char) :=
  plain (members cs)

/-- Reads on behind an item or a field: ends at a closing mark, goes on at a comma. -/
def readMore {α : Type} (close : Char) (more : List Char → Except Fault (List α × List Char))
    (a : α) (r : List Char) : Except Fault (List α × List Char) :=
  match skip r with
  | ',' :: r' => (more (skip r')).map fun p => (a :: p.1, p.2)
  | c :: r' => if c = close then .ok ([a], r') else .error ⟨.expectingComma, (c :: r').length⟩
  | [] => .error ⟨.expectingComma, 0⟩

variable {cs rest r q : List Char} {v : Value} {vs : List Value}

@[simp] theorem plain_ok {α : Type} (a : α) (r : Rest cs) : plain (.ok (a, r)) = .ok (a, r.1) := rfl

@[simp] theorem plain_error {α : Type} (fault : Fault) :
    plain (.error fault : Except Fault (α × Rest cs)) = .error fault := rfl

section readMore
variable {α : Type} {close : Char} {more : List Char → Except Fault (List α × List Char)} {a : α}

theorem readMore_close (hclose : close ≠ ',') (h : skip r = close :: rest) :
    readMore close more a r = .ok ([a], rest) := by
  simp [readMore, h]

theorem readMore_comma (h : skip r = ',' :: rest) :
    readMore close more a r = (more (skip rest)).map fun p => (a :: p.1, p.2) := by
  simp [readMore, h]

theorem readMore_other (hclose : (skip r).head? ≠ some close) (hcomma : (skip r).head? ≠ some ',') :
    readMore close more a r = .error ⟨.expectingComma, (skip r).length⟩ := by
  cases h : skip r with
  | nil => simp [readMore, h]
  | cons c rest =>
      have hc : c ≠ close := by simpa [h] using hclose
      have hc' : c ≠ ',' := by simpa [h] using hcomma
      simp [readMore, h, hc]

theorem readMore_eq_ok_iff (hclose : close ≠ ',') {as : List α} :
    readMore close more a r = .ok (as, q) ↔ skip r = close :: q ∧ as = [a] ∨
      ∃ rest as', skip r = ',' :: rest ∧ more (skip rest) = .ok (as', q) ∧ as = a :: as' := by
  constructor
  · intro h
    by_cases hcomma : (skip r).head? = some ','
    · obtain ⟨rest, hrest⟩ := List.head?_eq_some_iff.mp hcomma
      rw [readMore_comma hrest] at h
      cases hmore : more (skip rest) with
      | error fault =>
          rw [hmore] at h
          cases h
      | ok p =>
          rw [hmore] at h
          cases h
          exact .inr ⟨rest, p.1, hrest, hmore, rfl⟩
    · by_cases hend : (skip r).head? = some close
      · obtain ⟨rest, hrest⟩ := List.head?_eq_some_iff.mp hend
        rw [readMore_close hclose hrest] at h
        cases h
        exact .inl ⟨hrest, rfl⟩
      · rw [readMore_other hend hcomma] at h
        cases h
  · rintro (⟨hend, rfl⟩ | ⟨rest, as', hcomma, hmore, rfl⟩)
    · exact readMore_close hclose hend
    · rw [readMore_comma hcomma, hmore]
      rfl

end readMore

/-! ### Strings -/

section string
variable {a b c d e : Char} {s : List Char} {m n : Nat}

/-- Puts a character in front of the string that is read. -/
def push (c : Char) (x : Except Fault (List Char × List Char)) :
    Except Fault (List Char × List Char) :=
  x.map fun p => (c :: p.1, p.2)

@[simp] theorem push_ok : push c (.ok (s, r)) = .ok (c :: s, r) := rfl

theorem push_eq_ok_iff {x : Except Fault (List Char × List Char)} :
    push c x = .ok (s, r) ↔ ∃ s', x = .ok (s', r) ∧ s = c :: s' := by
  constructor
  · intro h
    cases x with
    | error fault => cases h
    | ok p => cases h; exact ⟨p.1, rfl, rfl⟩
  · rintro ⟨s', rfl, rfl⟩
    rfl

/-- An escape of a code unit that does not begin a pair is a character of its own. -/
theorem string_unit (hquad : hexQuad? a b c d = some n) (hrest : rest ≠ [])
    (hsingle : isHighSurrogate n = true → ∀ x ∈ secondHalf? rest,
      ∃ m r, x = .ok (m, r) ∧ isLowSurrogate m = false) :
    string ('\\' :: 'u' :: a :: b :: c :: d :: rest) = push (charOf n) (string rest) := by
  cases rest with
  | nil => exact absurd rfl hrest
  | cons next rest =>
    rw [string, hquad]
    dsimp only
    split
    · rename_i fault hhigh hfault
      obtain ⟨m, r, hx, -⟩ := hsingle hhigh _ hfault
      cases hx
    · rename_i m r hhigh hsecond
      obtain ⟨m', r', hx, hlow⟩ := hsingle hhigh _ hsecond
      cases hx
      rw [hlow]
      rfl
    · rfl

theorem string_pair (hquad : hexQuad? a b c d = some n) (hhigh : isHighSurrogate n = true)
    (hsecond : secondHalf? rest = some (.ok (m, r))) (hlow : isLowSurrogate m = true) :
    string ('\\' :: 'u' :: a :: b :: c :: d :: rest) = push (joinSurrogates n m) (string r) := by
  cases rest with
  | nil => cases hsecond
  | cons next rest =>
    rw [string, hquad]
    dsimp only
    split
    · rename_i fault _ hfault
      rw [hsecond] at hfault
      cases hfault
    · rename_i m' r' _ hpair
      rw [hsecond] at hpair
      cases hpair
      rw [hlow]
      rfl
    · rename_i hno
      exact (hno m r hhigh hsecond).elim

theorem string_short (he : shortEscape? c = some e) :
    string ('\\' :: c :: rest) = push e (string rest) := by
  have hu : c ≠ 'u' := by
    rintro rfl
    cases he
  rw [string, he]
  · rfl
  · exact fun _ _ _ _ _ _ hc _ => hu hc
  · exact hu

theorem string_char (hquote : c ≠ '"') (hslash : c ≠ '\\') (hcontrol : 0x20 ≤ c.toNat) :
    string (c :: rest) = push c (string rest) := by
  rw [string, if_neg (Nat.not_lt.mpr hcontrol)]
  · rfl
  · exact hquote
  · exact fun _ _ _ _ _ _ hc _ => hslash hc
  · exact fun _ hc _ => hslash hc
  · exact fun hc _ => hslash hc
  · exact fun _ _ hc _ => hslash hc

end string

/-! ### Numbers -/

/-- Number of a sign and what follows it. -/
def signedNumber (negative : Bool) (left : Nat) (body : List Char) :
    Except Fault (Value × List Char) :=
  match integerPart? body with
  | none => .error ⟨.expectingValue, left⟩
  | some (whole, rest) => numberOf negative whole rest

theorem number_minus (cs : List Char) :
    number ('-' :: cs) = signedNumber true (cs.length + 1) cs := rfl

theorem number_of_ne_minus (h : ∀ rest, cs ≠ '-' :: rest) :
    number cs = signedNumber false cs.length cs := by
  unfold number
  split
  rename_i negative body hbody
  split at hbody
  · exact absurd rfl (h _)
  · cases hbody
    rfl

/-- A text begins with a digit, or with a minus and a digit. -/
def BeginsNumber (cs : List Char) : Prop :=
  ∃ c more, isAsciiDigit c = true ∧ (cs = c :: more ∨ cs = '-' :: c :: more)

theorem BeginsNumber.skip_eq (h : BeginsNumber cs) : skip cs = cs := by
  obtain ⟨c, more, hc, hcs⟩ := h
  have hne : ∀ d : Char, isAsciiDigit d = false → (c == d) = false := by
    intro d hd
    simpa using ne_of_isAsciiDigit hc hd
  have hblank : isBlank c = false := by
    simp [isBlank, hne ' ' (by decide), hne '\t' (by decide), hne '\n' (by decide),
      hne '\r' (by decide)]
  rcases hcs with rfl | rfl
  · simp [skip, hblank]
  · rfl

theorem BeginsNumber.find?_words (h : BeginsNumber cs) :
    words.find? (fun w => w.1.isPrefixOf cs) = none := by
  obtain ⟨c, more, hc, hcs⟩ := h
  have hne : ∀ d : Char, isAsciiDigit d = false → (d == c) = false := by
    intro d hd
    simpa using (ne_of_isAsciiDigit hc hd).symm
  rcases hcs with rfl | rfl
  · simp [words, List.isPrefixOf, hne 'n' (by decide), hne 't' (by decide), hne 'f' (by decide),
      hne 'N' (by decide), hne 'I' (by decide), hne '-' (by decide)]
  · simp [words, List.isPrefixOf, hne 'I' (by decide)]

/-! ### Values -/

theorem readValue_string (rest : List Char) : readValue ('"' :: rest) =
    match string rest with
    | .error fault => .error (fault.ofString (rest.length + 1))
    | .ok (s, r) => .ok (.text (String.ofList s), r) := by
  rw [readValue, value.eq_1]
  split <;> simp_all [plain, Except.map]

theorem readValue_array_nil (h : skip rest = ']' :: r) :
    readValue ('[' :: rest) = .ok (.array [], r) := by
  rw [readValue, value.eq_2]
  split
  · simp_all [plain, Except.map]
  · simp_all

theorem readValue_array (h : (skip rest).head? ≠ some ']') :
    readValue ('[' :: rest) = (readItems (skip rest)).map fun p => (.array p.1, p.2) := by
  rw [readValue, value.eq_2, readItems]
  split
  · simp_all
  · cases elements (skip rest) <;> rfl

theorem readValue_object_nil (h : skip rest = '\x7d' :: r) :
    readValue ('\x7b' :: rest) = .ok (.object [], r) := by
  rw [readValue, value.eq_3]
  split
  · simp_all [plain, Except.map]
  · simp_all

theorem readValue_object (h : (skip rest).head? ≠ some '\x7d') :
    readValue ('\x7b' :: rest) =
      (readFields (skip rest)).map fun p => (.object (Ordered.ofList p.1), p.2) := by
  rw [readValue, value.eq_3, readFields]
  split
  · simp_all
  · cases members (skip rest) <;> rfl

theorem readValue_scalar (hstring : cs.head? ≠ some '"') (harray : cs.head? ≠ some '[')
    (hobject : cs.head? ≠ some '\x7b') : readValue cs = scalar cs := by
  have hne : ∀ {c : Char}, cs.head? ≠ some c → ∀ rest, cs = c :: rest → False := by
    rintro c hc rest rfl
    exact hc rfl
  rw [readValue, value.eq_4 cs (hne hstring) (hne harray) (hne hobject)]
  split <;> simp_all [plain, Except.map]

theorem BeginsNumber.readValue_eq (h : BeginsNumber cs) : readValue cs = number cs := by
  have hhead : ∀ d : Char, d ≠ '-' → isAsciiDigit d = false → cs.head? ≠ some d := by
    intro d hminus hd
    obtain ⟨c, more, hc, hcs⟩ := h
    have hcd := ne_of_isAsciiDigit hc hd
    rcases hcs with rfl | rfl
    · simpa using hcd
    · simpa using hminus.symm
  rw [readValue_scalar (hhead _ (by decide) (by decide)) (hhead _ (by decide) (by decide))
    (hhead _ (by decide) (by decide)), scalar, h.find?_words]

theorem length_plain {α : Type} {x : Except Fault (α × Rest cs)} {a : α}
    (h : plain x = .ok (a, r)) : r.length < cs.length := by
  cases x with
  | error fault => cases h
  | ok p =>
      cases h
      exact p.2.2

theorem length_readValue (h : readValue cs = .ok (v, r)) : r.length < cs.length := length_plain h

theorem length_of_skip {c : Char} (h : skip cs = c :: r) : r.length < cs.length := by
  have hle := length_skip_le cs
  rw [h, List.length_cons] at hle
  omega

/-! ### Items and fields -/

theorem head?_ne_of_forall {c : Char} (h : ∀ rest, cs ≠ c :: rest) : cs.head? ≠ some c := by
  intro hhead
  obtain ⟨rest, hrest⟩ := List.head?_eq_some_iff.mp hhead
  exact h rest hrest

theorem readItems_eq (cs : List Char) :
    readItems cs = readValue cs >>= fun p => readMore ']' readItems p.1 p.2 := by
  rw [readItems, elements.eq_1, readValue]
  cases value cs with
  | error fault => rfl
  | ok p =>
      obtain ⟨v, r, hr⟩ := p
      simp only [bind, Except.bind, plain_ok]
      split
      · rename_i r' h
        rw [readMore_close (by decide) h, plain_ok]
      · rename_i r' h
        rw [readMore_comma h, readItems]
        cases elements (skip r') <;> rfl
      · rename_i hclose hcomma
        rw [readMore_other (head?_ne_of_forall hclose) (head?_ne_of_forall hcomma), plain_error]

theorem readFields_of_not_string (h : cs.head? ≠ some '"') :
    readFields cs = .error ⟨.expectingKey, cs.length⟩ := by
  rw [readFields, members.eq_2 cs]
  · rfl
  · rintro rest rfl
    exact h rfl

theorem readFields_eq (rest : List Char) : readFields ('"' :: rest) =
    match string rest with
    | .error fault => .error (fault.ofString (rest.length + 1))
    | .ok (key, r) =>
      match skip r with
      | ':' :: r' =>
        readValue (skip r') >>= fun p => readMore '\x7d' readFields (String.ofList key, p.1) p.2
      | r' => .error ⟨.expectingColon, r'.length⟩ := by
  rw [readFields, members.eq_1]
  split
  · rename_i fault hs
    rw [hs]
    rfl
  · rename_i key r hs
    simp only [hs]
    split
    · rename_i r1 h2
      simp only [h2, readValue]
      cases value (skip r1) with
      | error fault => rfl
      | ok p =>
          obtain ⟨v, r2, hr2⟩ := p
          simp only [bind, Except.bind, plain_ok]
          split
          · rename_i r3 h6
            rw [readMore_close (by decide) h6, plain_ok]
          · rename_i r3 h6
            rw [readMore_comma h6, readFields]
            cases members (skip r3) <;> rfl
          · rename_i hclose hcomma
            rw [readMore_other (head?_ne_of_forall hclose) (head?_ne_of_forall hcomma),
              plain_error]
    · rename_i hcolon
      cases h : skip r with
      | nil => rfl
      | cons c r' =>
          have hc : c ≠ ':' := by
            rintro rfl
            exact hcolon r' h
          simp [hc]

theorem readItems_last (hv : readValue cs = .ok (v, r)) (hclose : skip r = ']' :: rest) :
    readItems cs = .ok ([v], rest) := by
  rw [readItems_eq, hv]
  exact readMore_close (by decide) hclose

theorem readItems_cons (hv : readValue cs = .ok (v, r)) (hcomma : skip r = ',' :: rest)
    (hmore : readItems (skip rest) = .ok (vs, q)) : readItems cs = .ok (v :: vs, q) := by
  rw [readItems_eq, hv]
  show readMore ']' readItems v r = _
  rw [readMore_comma hcomma, hmore]
  rfl

theorem readValue_of_readItems (h : (skip rest).head? ≠ some ']')
    (hitems : readItems (skip rest) = .ok (vs, r)) :
    readValue ('[' :: rest) = .ok (.array vs, r) := by
  rw [readValue_array h, hitems]
  rfl

/-! ### Texts -/

theorem document_eq (cs : List Char) : document cs = readValue (skip cs) >>= fun p =>
    if (skip p.2).isEmpty then .ok p.1 else .error ⟨.extraData, (skip p.2).length⟩ := by
  rw [document, readValue]
  cases value (skip cs) <;> rfl

theorem document_eq_ok_iff :
    document cs = .ok v ↔ ∃ r, readValue (skip cs) = .ok (v, r) ∧ skip r = [] := by
  rw [document_eq]
  cases readValue (skip cs) with
  | error fault => simp [bind, Except.bind]
  | ok p =>
      obtain ⟨w, r⟩ := p
      by_cases hend : skip r = []
      · simp [bind, Except.bind, hend]
      · simp [bind, Except.bind, hend]

theorem document_of_readValue (hv : readValue (skip cs) = .ok (v, r)) (hend : skip r = []) :
    document cs = .ok v := document_eq_ok_iff.mpr ⟨r, hv, hend⟩

end Finality.Json.Reader
