import Finality.Encoding.Detect
import Finality.Proofs.Encoding.Utf8
import Finality.Proofs.Text.Surrogate

/-! # Texts in octets

A text is put into octets in one of five forms (`Form`): character by character in UTF-8, code unit
by code unit in UTF-16, or code point by code point in UTF-32, the latter two in either order of the
octets.  A byte order mark may stand in front.

Every form is decoded to the text (`Form.decode_write`).  The octets have to tell in which form they
are.  They do so by their mark, and without one if the text `Opens` with an ASCII character and has
no NUL at its front (`decode_encode`). -/

namespace Finality.Encoding

open Text (charOf_toNat codeUnits codeUnits_lt highHalf isHighSurrogate_highHalf
  isHighSurrogate_toNat isLowSurrogate_lowHalf joinSurrogates_halves lowHalf not_surrogate)

/-- Octets of a number, the least significant one first. -/
def littleOctets : Nat → Nat → List UInt8
  | 0, _ => []
  | width + 1, n => UInt8.ofNat n :: littleOctets width (n / 256)

/-- Octets of a number, in an order. -/
def Endian.octets (order : Endian) (width n : Nat) : List UInt8 :=
  match order with
  | .little => littleOctets width n
  | .big => (littleOctets width n).reverse

/-- Forms of a text in octets. -/
inductive Form where
  | utf8
  | utf16 (order : Endian)
  | utf32 (order : Endian)
deriving DecidableEq, Repr

namespace Form

/-- Byte order mark. -/
def mark : Form → List UInt8
  | utf8 => [0xEF, 0xBB, 0xBF]
  | utf16 .little => [0xFF, 0xFE]
  | utf16 .big => [0xFE, 0xFF]
  | utf32 .little => [0xFF, 0xFE, 0x00, 0x00]
  | utf32 .big => [0x00, 0x00, 0xFE, 0xFF]

/-- Octets of a text without a mark. -/
def write (form : Form) (cs : List Char) : List UInt8 :=
  match form with
  | utf8 => cs.flatMap String.utf8EncodeChar
  | utf16 order => (cs.flatMap codeUnits).flatMap (order.octets 2)
  | utf32 order => cs.flatMap fun c => order.octets 4 c.toNat

/-- The mark if there is one. -/
def front (form : Form) (marked : Bool) : List UInt8 := if marked then form.mark else []

/-- Octets of a text, with a mark or without. -/
def encode (form : Form) (marked : Bool) (cs : List Char) : List UInt8 :=
  form.front marked ++ form.write cs

/-- The scheme of octets in the form, behind some octets of a mark. -/
def scheme (form : Form) (marks : Nat) : Scheme :=
  match form with
  | utf8 => .utf8 marks
  | utf16 order => .utf16 order marks
  | utf32 order => .utf32 order marks

end Form

variable {c : Char} {cs : List Char} {order : Endian} {i n : Nat} {rest : List UInt8}

/-! ### Numbers -/

theorem length_littleOctets (width n : Nat) : (littleOctets width n).length = width := by
  induction width generalizing n with
  | zero => rfl
  | succ width ih => rw [littleOctets, List.length_cons, ih]

theorem length_octets (order : Endian) (width n : Nat) : (order.octets width n).length = width := by
  cases order with
  | little => exact length_littleOctets width n
  | big => rw [Endian.octets, List.length_reverse, length_littleOctets]

theorem number_littleOctets {width : Nat} (hn : n < Nat.pow 256 width) :
    Endian.number .little (littleOctets width n) = n := by
  induction width generalizing n with
  | zero =>
      have : n = 0 := by simpa using hn
      rw [this]
      rfl
  | succ width ih =>
      have hn : n < 256 * Nat.pow 256 width := by rwa [Nat.mul_comm]
      have hread := ih (Nat.div_lt_of_lt_mul hn)
      simp only [Endian.number] at hread ⊢
      rw [littleOctets, List.reverse_cons, List.foldl_append, hread]
      simp only [List.foldl_cons, List.foldl_nil, UInt8.toNat_ofNat']
      omega

theorem number_octets (order : Endian) {width : Nat} (hn : n < Nat.pow 256 width) :
    order.number (order.octets width n) = n := by
  cases order with
  | little => exact number_littleOctets hn
  | big => exact number_littleOctets hn

/-! ### UTF-8 -/

namespace Utf8

theorem isTail_iff {b : UInt8} : isTail b = true ↔ 0x80 ≤ b.toNat ∧ b.toNat ≤ 0xBF := by
  rw [isTail, Bool.and_eq_true, decide_eq_true_eq, decide_eq_true_eq]
  exact Iff.rfl

theorem isSecond_iff {a b : UInt8} : isSecond a b = true ↔ isTail b = true ∧
    (a.toNat = 0xE0 → 0xA0 ≤ b.toNat) ∧ (a.toNat = 0xED → b.toNat < 0xA0) ∧
    (a.toNat = 0xF0 → 0x90 ≤ b.toNat) ∧ (a.toNat = 0xF4 → b.toNat < 0x90) := by
  have hlead : ∀ {k : UInt8}, (a == k) = true ↔ a.toNat = k.toNat := by
    intro k
    rw [beq_iff_eq, UInt8.toNat_inj]
  simp only [isSecond, Bool.and_eq_true, Bool.not_eq_true', Bool.and_eq_false_imp, hlead,
    decide_eq_false_iff_not, UInt8.le_iff_toNat_le, UInt8.lt_iff_toNat_lt, Nat.not_lt, Nat.not_le,
    and_assoc]
  rfl

theorem isSequence_utf8EncodeChar (c : Char) : IsSequence (String.utf8EncodeChar c) := by
  have hchar := not_surrogate c
  have hval : c.val.toNat = c.toNat := rfl
  unfold String.utf8EncodeChar
  simp only [hval]
  split
  · refine .one ?_
    simp only [UInt8.lt_iff_toNat_lt, UInt8.toNat_ofNat', UInt8.reduceToNat]
    omega
  split
  · refine .two ?_ ?_ ?_ <;>
      simp only [UInt8.lt_iff_toNat_lt, UInt8.le_iff_toNat_le, isSecond_iff, isTail_iff,
        UInt8.toNat_ofNat', UInt8.reduceToNat] <;>
      omega
  split
  · refine .three ?_ ?_ ?_ ?_ <;>
      simp only [UInt8.lt_iff_toNat_lt, UInt8.le_iff_toNat_le, isSecond_iff, isTail_iff,
        UInt8.toNat_ofNat', UInt8.reduceToNat] <;>
      omega
  · refine .four ?_ ?_ ?_ ?_ ?_ <;>
      simp only [UInt8.le_iff_toNat_le, isSecond_iff, isTail_iff, UInt8.toNat_ofNat',
        UInt8.reduceToNat] <;>
      omega

theorem charOfSequence_utf8EncodeChar (c : Char) :
    charOfSequence (String.utf8EncodeChar c) = c := by
  have hchar := not_surrogate c
  have hval : c.val.toNat = c.toNat := rfl
  have hof : ∀ {n}, n = c.toNat → Char.ofNat n = c := by
    rintro _ rfl
    exact Char.ofNat_toNat c
  unfold String.utf8EncodeChar
  simp only [hval]
  split
  · refine hof ?_
    rw [UInt8.toNat_ofNat']
    omega
  split
  · rw [charOfSequence, assemble]
    refine hof ?_
    simp only [List.foldl_cons, List.foldl_nil, UInt8.toNat_ofNat']
    omega
  split
  · rw [charOfSequence, assemble]
    refine hof ?_
    simp only [List.foldl_cons, List.foldl_nil, UInt8.toNat_ofNat']
    omega
  · rw [charOfSequence, assemble]
    refine hof ?_
    simp only [List.foldl_cons, List.foldl_nil, UInt8.toNat_ofNat']
    omega

theorem decodeFrom_flatMap (surrogates : Bool) (i : Nat) (cs : List Char) :
    decodeFrom surrogates i (cs.flatMap String.utf8EncodeChar) = .ok cs := by
  induction cs generalizing i with
  | nil => rw [List.flatMap_nil, decodeFrom]
  | cons c cs ih =>
      rw [List.flatMap_cons, decodeFrom_sequence (isSequence_utf8EncodeChar c), ih,
        charOfSequence_utf8EncodeChar]
      rfl

end Utf8

/-! ### UTF-16 and UTF-32 -/

namespace Utf16

theorem units_flatMap {us : List Nat} (hus : ∀ u ∈ us, u < 0x10000) (i : Nat) :
    units order i (us.flatMap (order.octets 2)) = .ok us := by
  induction us generalizing i with
  | nil => rw [List.flatMap_nil, units]
  | cons u us ih =>
      obtain ⟨hu, hus⟩ := List.forall_mem_cons.mp hus
      have hnumber : order.number (order.octets 2 u) = u := number_octets order hu
      match hoctets : order.octets 2 u, length_octets order 2 u with
      | [a, b], _ =>
          rw [hoctets] at hnumber
          rw [List.flatMap_cons, hoctets, List.cons_append, List.cons_append, List.nil_append,
            units, ih hus, hnumber]
          rfl

/-- The code units of a character are joined to it, whatever units stand behind them. -/
theorem ofUnits_codeUnits (c : Char) (us : List Nat) :
    ofUnits (codeUnits c ++ us) = c :: ofUnits us := by
  unfold codeUnits
  split
  · cases us with
    | nil => simp [ofUnits, charOf_toNat]
    | cons u us => simp [ofUnits, isHighSurrogate_toNat, charOf_toNat]
  · rename_i hc
    simp [ofUnits, isHighSurrogate_highHalf (Nat.not_lt.mp hc), isLowSurrogate_lowHalf,
      joinSurrogates_halves (Nat.not_lt.mp hc)]

theorem ofUnits_flatMap (cs : List Char) : ofUnits (cs.flatMap codeUnits) = cs := by
  induction cs with
  | nil => rfl
  | cons c cs ih => rw [List.flatMap_cons, ofUnits_codeUnits, ih]

theorem decodeFrom_flatMap (order : Endian) (i : Nat) (cs : List Char) :
    decodeFrom order i ((cs.flatMap codeUnits).flatMap (order.octets 2)) = .ok cs := by
  have hunits : ∀ u ∈ cs.flatMap codeUnits, u < 0x10000 := by
    intro u hu
    obtain ⟨c, -, hu⟩ := List.mem_flatMap.mp hu
    exact codeUnits_lt hu
  rw [decodeFrom, units_flatMap hunits, Except.map, ofUnits_flatMap]

end Utf16

namespace Utf32

theorem decodeFrom_flatMap (order : Endian) (i : Nat) (cs : List Char) :
    decodeFrom order i (cs.flatMap fun c => order.octets 4 c.toNat) = .ok cs := by
  induction cs generalizing i with
  | nil => rw [List.flatMap_nil, decodeFrom]
  | cons c cs ih =>
      have hlt : c.toNat < 0x110000 := by
        have := not_surrogate c
        omega
      have hnumber : order.number (order.octets 4 c.toNat) = c.toNat :=
        number_octets order (Nat.lt_trans hlt (by decide))
      match hoctets : order.octets 4 c.toNat, length_octets order 4 c.toNat with
      | [a, b, d, e], _ =>
          rw [hoctets] at hnumber
          rw [List.flatMap_cons, hoctets, List.cons_append, List.cons_append, List.cons_append,
            List.cons_append, List.nil_append, decodeFrom, hnumber, if_pos hlt, ih, charOf_toNat]
          rfl

end Utf32

theorem Form.decode_write (form : Form) (marks : List UInt8) (cs : List Char) :
    (form.scheme marks.length).decode (marks ++ form.write cs) = .ok cs := by
  cases form with
  | utf8 => rw [scheme, Scheme.decode, List.drop_left, write, Utf8.decodeFrom_flatMap]
  | utf16 order => rw [scheme, Scheme.decode, List.drop_left, write, Utf16.decodeFrom_flatMap]
  | utf32 order => rw [scheme, Scheme.decode, List.drop_left, write, Utf32.decodeFrom_flatMap]

/-! ### Detection -/

/-- A text begins with an ASCII character, and with no NUL among its first two characters. -/
def Opens (cs : List Char) : Prop :=
  ∃ c rest, cs = c :: rest ∧ 0 < c.toNat ∧ c.toNat < 0x80 ∧ ∀ d ∈ rest.head?, 0 < d.toNat

theorem littleOctets_ascii (hn : n < 0x80) (width : Nat) :
    littleOctets (width + 1) n = UInt8.ofNat n :: List.replicate width 0 := by
  have hzero : ∀ k, littleOctets k 0 = List.replicate k 0 := by
    intro k
    induction k with
    | zero => rfl
    | succ k ih =>
        rw [littleOctets, Nat.zero_div, ih]
        rfl
  rw [littleOctets, Nat.div_eq_of_lt (by omega), hzero]

theorem ascii_octet (hpos : 0 < n) (hn : n < 0x80) : UInt8.ofNat n ≠ 0 ∧ UInt8.ofNat n < 0x80 := by
  constructor
  · intro hzero
    have hzero := UInt8.toNat_inj.mpr hzero
    simp only [UInt8.toNat_ofNat', UInt8.reduceToNat] at hzero
    omega
  · simp only [UInt8.lt_iff_toNat_lt, UInt8.toNat_ofNat', UInt8.reduceToNat]
    omega

/-- Octets that go on with a unit of UTF-16 which is not zero, or end. -/
def UnitAhead (bs : List UInt8) : Prop :=
  bs = [] ∨ ∃ x y more, bs = x :: y :: more ∧ ¬(x = 0 ∧ y = 0)

namespace Scheme

variable {a : UInt8} (hpos : a ≠ 0) (hascii : a < 0x80) {bs : List UInt8}

include hpos hascii in
theorem ofMark?_ascii (bs : List UInt8) : ofMark? (a :: bs) = none := by
  unfold ofMark?
  split <;> simp_all

include hpos hascii in
theorem detect_utf8 (hbs : ∀ b ∈ bs.head?, b ≠ 0) : detect (a :: bs) = .utf8 0 := by
  rw [detect, ofMark?_ascii hpos hascii, Option.getD_none]
  unfold ofZeros
  split <;> simp_all

include hpos hascii in
theorem detect_utf16_little (hbs : UnitAhead bs) : detect (a :: 0 :: bs) = .utf16 .little 0 := by
  rw [detect, ofMark?_ascii hpos hascii, Option.getD_none]
  obtain rfl | ⟨x, y, more, rfl, hne⟩ := hbs
  · simp [ofZeros, hpos]
  · simp [ofZeros, hpos, hne]

include hpos in
theorem detect_utf16_little_marked : detect (0xFF :: 0xFE :: a :: bs) = .utf16 .little 2 := by
  have hmark : ofMark? (0xFF :: 0xFE :: a :: bs) = some (.utf16 .little 2) := by
    unfold ofMark?
    split <;> simp_all
  rw [detect, hmark, Option.getD_some]

include hpos in
theorem detect_utf16_big (hbs : UnitAhead bs) : detect (0 :: a :: bs) = .utf16 .big 0 := by
  have hmark : ofMark? (0 :: a :: bs) = none := by
    unfold ofMark?
    split <;> simp_all
  rw [detect, hmark, Option.getD_none]
  obtain rfl | ⟨x, y, more, rfl, -⟩ := hbs
  · rfl
  · simp [ofZeros, hpos]

include hpos hascii in
theorem detect_utf32_little : detect (a :: 0 :: 0 :: 0 :: bs) = .utf32 .little 0 := by
  rw [detect, ofMark?_ascii hpos hascii, Option.getD_none]
  simp [ofZeros, hpos]

end Scheme

namespace Form

theorem write_utf8_ascii (hascii : c.toNat < 0x80) (cs : List Char) :
    utf8.write (c :: cs) = UInt8.ofNat c.toNat :: utf8.write cs := by
  have hle : c.val.toNat ≤ 127 := Nat.le_of_lt_succ hascii
  rw [write, List.flatMap_cons, String.utf8EncodeChar, if_pos hle]
  rfl

/-- No character but NUL has a zero octet in front. -/
theorem head?_write_utf8 (hcs : ∀ d ∈ cs.head?, 0 < d.toNat) :
    ∀ b ∈ (utf8.write cs).head?, b ≠ 0 := by
  cases cs with
  | nil => simp [write]
  | cons d cs =>
      have hd : 0 < d.toNat := hcs d rfl
      have hseq := Utf8.isSequence_utf8EncodeChar d
      have hchar := Utf8.charOfSequence_utf8EncodeChar d
      rw [write, List.flatMap_cons]
      generalize String.utf8EncodeChar d = s at hseq hchar
      rintro b hb rfl
      cases hseq with
      | one =>
          cases hb
          rw [← hchar] at hd
          exact absurd hd (by decide)
      | two hlow => cases hb; exact absurd hlow (by decide)
      | three hlow => cases hb; exact absurd hlow (by decide)
      | four hlow => cases hb; exact absurd hlow (by decide)

theorem write_utf16_cons (order : Endian) (c : Char) (cs : List Char) :
    (utf16 order).write (c :: cs) =
      (codeUnits c).flatMap (order.octets 2) ++ (utf16 order).write cs := by
  rw [write, List.flatMap_cons, List.flatMap_append]
  rfl

theorem unitAhead_write (order : Endian) (hcs : ∀ d ∈ cs.head?, 0 < d.toNat) :
    UnitAhead ((utf16 order).write cs) := by
  cases cs with
  | nil => exact .inl rfl
  | cons d cs =>
      have hd : 0 < d.toNat := hcs d rfl
      obtain ⟨u, us, hunits, hu⟩ : ∃ u us, codeUnits d = u :: us ∧ 0 < u := by
        unfold codeUnits
        split
        · exact ⟨_, _, rfl, hd⟩
        · exact ⟨_, _, rfl, by unfold highHalf; omega⟩
      have hnumber : order.number (order.octets 2 u) = u :=
        number_octets order (codeUnits_lt (c := d) (by simp [hunits]))
      right
      match hoctets : order.octets 2 u, length_octets order 2 u with
      | [x, y], _ =>
          refine ⟨x, y, us.flatMap (order.octets 2) ++ (utf16 order).write cs, ?_, ?_⟩
          · rw [write_utf16_cons, hunits, List.flatMap_cons, hoctets]
            rfl
          · rintro ⟨rfl, rfl⟩
            rw [hoctets] at hnumber
            cases order <;> exact absurd hnumber (Nat.ne_of_lt hu)

/-- The octets of a text tell its form, by a mark or by what the text opens with. -/
theorem detect_encode (form : Form) (marked : Bool) (hcs : Opens cs) :
    Scheme.detect (form.encode marked cs) = form.scheme (form.front marked).length := by
  obtain ⟨c, rest, rfl, hpos, hascii, hrest⟩ := hcs
  have hunit : codeUnits c = [c.toNat] := if_pos (by omega)
  have hlittle := littleOctets_ascii hascii
  obtain ⟨hleast, hmost⟩ := ascii_octet hpos hascii
  cases form with
  | utf8 =>
      rw [encode, write_utf8_ascii hascii]
      cases marked with
      | true => rfl
      | false => exact Scheme.detect_utf8 hleast hmost (head?_write_utf8 hrest)
  | utf16 order =>
      rw [encode, write_utf16_cons, hunit, List.flatMap_singleton]
      cases order with
      | little =>
          rw [Endian.octets, hlittle]
          cases marked with
          | true => exact Scheme.detect_utf16_little_marked hleast
          | false => exact Scheme.detect_utf16_little hleast hmost (unitAhead_write _ hrest)
      | big =>
          rw [Endian.octets, hlittle]
          cases marked with
          | true => rfl
          | false => exact Scheme.detect_utf16_big hleast (unitAhead_write _ hrest)
  | utf32 order =>
      rw [encode, write, List.flatMap_cons]
      cases order with
      | little =>
          rw [Endian.octets, hlittle]
          cases marked with
          | true => rfl
          | false => exact Scheme.detect_utf32_little hleast hmost
      | big =>
          rw [Endian.octets, hlittle]
          cases marked with
          | true => rfl
          | false => rfl

end Form

/-- **Octets of a text are decoded to it**, in every form and with or without a mark, if the text
opens in a way that tells the form. -/
theorem decode_encode (form : Form) (marked : Bool) (hcs : Opens cs) :
    decode (form.encode marked cs) = .ok cs := by
  rw [decode, form.detect_encode marked hcs]
  exact form.decode_write _ cs

end Finality.Encoding
