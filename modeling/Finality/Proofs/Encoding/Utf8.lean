import Finality.Encoding.Utf8
import Mathlib.Tactic.Common

/-! # Well-formed UTF-8

What the decoder accepts: one sequence of octets after the other, each for a character
(`exists_decode_iff`).  If such octets are cut in two, the first part is well-formed up to a sequence
that is only begun (`WellFormed.cut`), and this sequence is what the decoder blames for the end of
the first part (`decode_append_begun`). -/

namespace Finality.Encoding.Utf8

/-- The octets of a character. -/
inductive IsSequence : List UInt8 → Prop where
  | one {a : UInt8} : a < 0x80 → IsSequence [a]
  | two {a b : UInt8} : 0xC2 ≤ a → a < 0xE0 → isSecond a b = true → IsSequence [a, b]
  | three {a b c : UInt8} : 0xE0 ≤ a → a < 0xF0 → isSecond a b = true → isTail c = true →
      IsSequence [a, b, c]
  | four {a b c d : UInt8} : 0xF0 ≤ a → a ≤ 0xF4 → isSecond a b = true → isTail c = true →
      isTail d = true → IsSequence [a, b, c, d]

/-- The character of a sequence of octets. -/
def charOfSequence : List UInt8 → Char
  | [a] => Char.ofNat a.toNat
  | [a, b] => assemble (a.toNat - 0xC0) [b]
  | [a, b, c] => assemble (a.toNat - 0xE0) [b, c]
  | [a, b, c, d] => assemble (a.toNat - 0xF0) [b, c, d]
  | _ => Text.replacement

/-- Octets that need more to be those of a character. -/
inductive IsBegun : List UInt8 → Prop where
  | one {a : UInt8} : 0xC2 ≤ a → a ≤ 0xF4 → IsBegun [a]
  | two {a b : UInt8} : 0xE0 ≤ a → a ≤ 0xF4 → isSecond a b = true → IsBegun [a, b]
  | three {a b c : UInt8} : 0xF0 ≤ a → a ≤ 0xF4 → isSecond a b = true → isTail c = true →
      IsBegun [a, b, c]

/-- Octets that are nothing but characters. -/
inductive WellFormed : List UInt8 → Prop where
  | nil : WellFormed []
  | append {s rest : List UInt8} : IsSequence s → WellFormed rest → WellFormed (s ++ rest)

variable {s t xs ys octets : List UInt8} {i : Nat}

/-! ### The decoder -/

/-- An octet that leads others is told from those that stand alone or nowhere. -/
theorem lead_bounds {a : UInt8} (hlow : 0xC2 ≤ a) (hhigh : a ≤ 0xF4) :
    ¬a < 0x80 ∧ ¬a < 0xC2 ∧ ¬0xF4 < a := by grind

/-- What may follow a lead octet makes no surrogate with it. -/
theorem not_surrogate_of_isSecond {a b : UInt8} (hb : isSecond a b = true) (surrogates : Bool) :
    (surrogates && a == 0xED && 0xA0 ≤ b && b ≤ 0xBF) = false := by
  simp only [isSecond, Bool.and_eq_true, Bool.not_eq_true'] at hb
  simp [Bool.and_assoc, hb]

/-- The octets of a character are decoded to it, whether or not surrogates are let through. -/
theorem decodeFrom_sequence (h : IsSequence s) (surrogates : Bool) (i : Nat) (rest : List UInt8) :
    decodeFrom surrogates i (s ++ rest) =
      prepend (charOfSequence s) (decodeFrom surrogates (i + s.length) rest) := by
  cases h with
  | @one a ha =>
      rw [decodeFrom.eq_def]
      simp [ha, charOfSequence]
  | @two a b hlow hhigh hb =>
      have hlead := lead_bounds hlow (by grind)
      rw [decodeFrom.eq_def]
      simp [hlead, not_surrogate_of_isSecond hb, hb, hhigh, charOfSequence]
  | @three a b c hlow hhigh hb hc =>
      have hlead := lead_bounds (a := a) (by grind) (by grind)
      have hthree : ¬a < 0xE0 := by grind
      rw [decodeFrom.eq_def]
      simp [hlead, not_surrogate_of_isSecond hb, hb, hc, hthree, hhigh, charOfSequence]
  | @four a b c d hlow hhigh hb hc hd =>
      have hlead := lead_bounds (a := a) (by grind) hhigh
      have hfour : ¬a < 0xE0 ∧ ¬a < 0xF0 := by grind
      rw [decodeFrom.eq_def]
      simp [hlead, not_surrogate_of_isSecond hb, hb, hc, hd, hfour, charOfSequence]

theorem decodeFrom_begun (h : IsBegun s) (i : Nat) :
    decodeFrom false i s = .error ⟨i, s.length, .unexpectedEnd⟩ := by
  cases h with
  | one hlow hhigh =>
      rw [decodeFrom.eq_def]
      simp [lead_bounds hlow hhigh]
  | @two a b hlow hhigh hb =>
      have hlead := lead_bounds (a := a) (by grind) hhigh
      have hmore : ¬a < 0xE0 := by grind
      rw [decodeFrom.eq_def]
      simp [hlead, hb, hmore]
  | @three a b c hlow hhigh hb hc =>
      have hlead := lead_bounds (a := a) (by grind) hhigh
      have hmore : ¬a < 0xE0 ∧ ¬a < 0xF0 := by grind
      rw [decodeFrom.eq_def]
      simp [hlead, hb, hc, hmore]

theorem WellFormed.exists_decodeFrom (h : WellFormed xs) : ∃ cs, ∀ i ys,
    decodeFrom false i (xs ++ ys) = (decodeFrom false (i + xs.length) ys).map (cs ++ ·) := by
  induction h with
  | nil => exact ⟨[], fun i ys => by cases h : decodeFrom false i ys <;> simp [Except.map, h]⟩
  | @append s rest hs hrest ih =>
      obtain ⟨cs, hcs⟩ := ih
      refine ⟨charOfSequence s :: cs, fun i ys => ?_⟩
      rw [List.append_assoc, decodeFrom_sequence hs, hcs, List.length_append, Nat.add_assoc]
      cases decodeFrom false (i + (s.length + rest.length)) ys <;> rfl

theorem prepend_eq_ok_iff {ε : Type} {c : Char} {r : Except ε (List Char)} {cs : List Char} :
    prepend c r = .ok cs ↔ ∃ ds, r = .ok ds ∧ cs = c :: ds := by
  cases r <;> simp [prepend, Except.map, eq_comm]

theorem wellFormed_of_decodeFrom {cs : List Char} (h : decodeFrom false i octets = .ok cs) :
    WellFormed octets := by
  fun_induction decodeFrom false i octets generalizing cs with
  | case1 => exact .nil
  | case2 i a rest ha ih =>
      obtain ⟨_, hrest, -⟩ := prepend_eq_ok_iff.mp h
      exact .append (.one ha) (ih hrest)
  | case9 i a _ hlead b rest _ hb ha ih =>
      obtain ⟨_, hrest, -⟩ := prepend_eq_ok_iff.mp h
      exact .append (.two (by grind) ha (by simpa using hb)) (ih hrest)
  | case12 i a _ hlead b _ hb htwo c rest hc ha ih =>
      obtain ⟨_, hrest, -⟩ := prepend_eq_ok_iff.mp h
      exact .append (.three (by grind) ha (by simpa using hb) (by simpa using hc)) (ih hrest)
  | case15 i a _ hlead b _ hb _ c hc hthree d rest hd ih =>
      obtain ⟨_, hrest, -⟩ := prepend_eq_ok_iff.mp h
      exact .append (.four (by grind) (by grind) (by simpa using hb) (by simpa using hc)
        (by simpa using hd)) (ih hrest)
  -- without leave for surrogates there is no other way to go on
  | case5 i a _ _ b hsurrogate => simp at hsurrogate
  | _ => cases h

theorem exists_decode_iff : (∃ cs, decode octets = .ok cs) ↔ WellFormed octets := by
  refine ⟨fun ⟨_, h⟩ => wellFormed_of_decodeFrom h, fun h => ?_⟩
  obtain ⟨cs, hcs⟩ := h.exists_decodeFrom
  refine ⟨cs, ?_⟩
  have hall := hcs 0 []
  rw [List.append_nil, decodeFrom] at hall
  simpa [decode, Except.map] using hall

theorem decode_append_begun (hxs : WellFormed xs) (hs : IsBegun s) :
    decode (xs ++ s) = .error ⟨xs.length, s.length, .unexpectedEnd⟩ := by
  obtain ⟨cs, hcs⟩ := hxs.exists_decodeFrom
  rw [decode, hcs, decodeFrom_begun hs, Nat.zero_add]
  rfl

/-! ### Cutting -/

theorem IsSequence.isBegun (h : IsSequence s) {n : Nat} (hpos : 0 < n) (hn : n < s.length) :
    IsBegun (s.take n) := by
  cases h with
  | one ha => exact absurd hn (by simp; omega)
  | two hlow hhigh hb =>
      match n, hn with
      | 1, _ => exact .one hlow (by grind)
  | three hlow hhigh hb hc =>
      match n, hn with
      | 1, _ => exact .one (by grind) (by grind)
      | 2, _ => exact .two hlow (by grind) hb
  | four hlow hhigh hb hc hd =>
      match n, hn with
      | 1, _ => exact .one (by grind) hhigh
      | 2, _ => exact .two (by grind) hhigh hb
      | 3, _ => exact .three hlow hhigh hb hc

/-- Where well-formed octets are cut in two, a character may be cut in two. -/
theorem WellFormed.cut (h : WellFormed (xs ++ ys)) : ∃ front s, xs = front ++ s ∧
    WellFormed front ∧ (s = [] ∨ IsBegun s) ∧ WellFormed (s ++ ys) := by
  generalize hxy : xs ++ ys = octets at h
  induction h generalizing xs with
  | nil =>
      obtain ⟨rfl, rfl⟩ := List.append_eq_nil_iff.mp hxy
      exact ⟨[], [], rfl, .nil, .inl rfl, .nil⟩
  | @append q rest hq hrest ih =>
      obtain ⟨t, rfl, rfl⟩ | ⟨t, rfl, rfl⟩ := List.append_eq_append_iff.mp hxy
      · -- the cut is in the first character
        have hwhole : WellFormed (xs ++ (t ++ rest)) := by
          rw [← List.append_assoc]
          exact .append hq hrest
        by_cases hxs : xs = []
        · exact ⟨[], xs, rfl, .nil, .inl hxs, hwhole⟩
        by_cases ht : t = []
        · subst ht
          rw [List.append_nil] at hq
          have hfront : WellFormed xs := by simpa using WellFormed.append hq .nil
          exact ⟨xs, [], (List.append_nil xs).symm, hfront, .inl rfl, hrest⟩
        · have hbegun := hq.isBegun (List.length_pos_iff.mpr hxs) (by
            have := List.length_pos_iff.mpr ht
            simp only [List.length_append]
            omega)
          rw [List.take_left] at hbegun
          exact ⟨[], xs, rfl, .nil, .inr hbegun, hwhole⟩
      · obtain ⟨front, s, rfl, hfront, hs, hsys⟩ := ih rfl
        exact ⟨q ++ front, s, (List.append_assoc ..).symm, .append hq hfront, hs, hsys⟩

end Finality.Encoding.Utf8
