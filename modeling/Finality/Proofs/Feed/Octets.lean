import Finality.Proofs.Encoding.Encode
import Finality.Proofs.Feed.Source
import Finality.Proofs.Json.Spelling

/-! # Frames in octets

A frame that is read from a text is an array, so its text opens with a blank or with the bracket, and
the character after it is not a NUL, which begins no value (`opens_of_document`).  This tells in
which form the text is put into octets, and the frame is decoded to the same events in all of them
(`ofBytes_encode`). -/

namespace Finality

namespace Json.Reader

open Encoding (Opens)

variable {cs r : List Char} {v : Value} {items : List Value}

/-! ### How an array opens -/

theorem number_ne_array : number cs ≠ .ok (.array items, r) := by
  unfold number
  split
  split
  · simp
  · unfold numberOf
    split
    · split <;> simp
    · simp

theorem scalar_ne_array : scalar cs ≠ .ok (.array items, r) := by
  unfold scalar
  split
  · rename_i w v hword
    have hmem := List.mem_of_find?_eq_some hword
    simp only [words, List.mem_cons, Prod.mk.injEq, List.not_mem_nil, or_false] at hmem
    rcases hmem with ⟨-, rfl⟩ | ⟨-, rfl⟩ | ⟨-, rfl⟩ | ⟨-, rfl⟩ | ⟨-, rfl⟩ | ⟨-, rfl⟩ <;> simp
  · exact number_ne_array

theorem exists_bracket (h : readValue cs = .ok (.array items, r)) : ∃ rest, cs = '[' :: rest := by
  by_cases harray : cs.head? = some '['
  · exact List.head?_eq_some_iff.mp harray
  by_cases hstring : cs.head? = some '"'
  · obtain ⟨rest, rfl⟩ := List.head?_eq_some_iff.mp hstring
    rw [readValue_string] at h
    split at h <;> cases h
  by_cases hobject : cs.head? = some '\x7b'
  · obtain ⟨rest, rfl⟩ := List.head?_eq_some_iff.mp hobject
    by_cases hnil : (skip rest).head? = some '\x7d'
    · obtain ⟨q, hq⟩ := List.head?_eq_some_iff.mp hnil
      rw [readValue_object_nil hq] at h
      cases h
    · rw [readValue_object hnil] at h
      cases hfields : readFields (skip rest) <;> rw [hfields] at h <;> cases h
  rw [readValue_scalar hstring harray hobject] at h
  exact absurd h scalar_ne_array

theorem eq_nul {d : Char} (h : ¬0 < d.toNat) : d = Char.ofNat 0 := by
  rw [← Char.ofNat_toNat d, Nat.eq_zero_of_not_pos h]

theorem pos_of_readValue (h : readValue cs = .ok (v, r)) : ∀ d ∈ cs.head?, 0 < d.toNat := by
  intro d hd
  obtain ⟨rest, rfl⟩ := List.head?_eq_some_iff.mp hd
  by_contra hzero
  obtain rfl := eq_nul hzero
  rw [readValue_scalar (by simp) (by simp) (by simp)] at h
  cases h

theorem pos_of_skip (h : ∀ d ∈ (skip cs).head?, 0 < d.toNat) : ∀ d ∈ cs.head?, 0 < d.toNat := by
  cases cs with
  | nil => simp
  | cons c cs =>
      intro d hd
      cases hd
      cases hblank : isBlank c with
      | false => exact h c (by simp [skip, hblank])
      | true =>
          by_contra hzero
          obtain rfl := eq_nul hzero
          cases hblank

/-- What stands behind the bracket of an array is no NUL. -/
theorem pos_behind_bracket {rest : List Char} (h : readValue ('[' :: rest) = .ok (v, r)) :
    ∀ d ∈ rest.head?, 0 < d.toNat := by
  refine pos_of_skip ?_
  by_cases hnil : (skip rest).head? = some ']'
  · rw [hnil]
    rintro d ⟨⟩
    decide
  · rw [readValue_array hnil] at h
    cases hitems : readItems (skip rest) with
    | error fault => rw [hitems] at h; cases h
    | ok p =>
        rw [readItems_eq] at hitems
        obtain ⟨q, hfirst, -⟩ := Except.bind_eq_ok_iff.mp hitems
        exact pos_of_readValue hfirst

/-- A text opens with a blank in front of the bracket, or with the bracket. -/
theorem opens_of_skip {rest : List Char} (h : skip cs = '[' :: rest)
    (hrest : ∀ d ∈ rest.head?, 0 < d.toNat) : Opens cs := by
  cases cs with
  | nil => cases h
  | cons c cs =>
      cases hblank : isBlank c with
      | false =>
          have hskip : skip (c :: cs) = c :: cs := by simp [skip, hblank]
          obtain ⟨rfl, rfl⟩ := List.cons.inj (hskip.symm.trans h)
          exact ⟨'[', cs, rfl, by decide, by decide, hrest⟩
      | true =>
          have hskip : skip (c :: cs) = skip cs := by simp [skip, hblank]
          have hbounds : 0 < c.toNat ∧ c.toNat < 0x80 := by
            simp only [isBlank, Bool.or_eq_true, beq_iff_eq] at hblank
            rcases hblank with ((rfl | rfl) | rfl) | rfl <;> decide
          refine ⟨c, cs, rfl, hbounds.1, hbounds.2, pos_of_skip ?_⟩
          rw [← hskip, h]
          rintro d ⟨⟩
          decide

theorem opens_of_document (h : document cs = .ok (.array items)) : Opens cs := by
  obtain ⟨r, hread, -⟩ := document_eq_ok_iff.mp h
  obtain ⟨rest, hrest⟩ := exists_bracket hread
  rw [hrest] at hread
  exact opens_of_skip hrest (pos_behind_bracket hread)

end Json.Reader

namespace Feed.Frame

open Encoding (Form decode_encode)
open Json.Reader (Spells document_of_readValue ofText_array opens_of_document readValue_string skip
  spells_array spells_int spells_of_ofText string_char)

variable {cs : List Char} {es : List Event}

/-- **A frame says the same in a text and in octets.**  What is decoded from a text is also decoded
from its octets, in every form and with or without a byte order mark. -/
theorem ofBytes_encode (h : ofText cs = .ok es) (form : Form) (marked : Bool) :
    ofBytes (form.encode marked cs) = .ok es := by
  have hevents : (Source.text cs).events = .ok es := h
  obtain ⟨items, hvalue, -⟩ := Source.exists_array_of_events hevents
  have hread : Json.Value.ofText cs = .ok (.array items) := Except.mapError_eq_ok_iff.mp hvalue
  have hdocument : Json.Reader.document cs = .ok (.array items) :=
    spells_of_ofText hread
  have hjson : ofJson (.array items) = .ok es := by
    rw [ofText, hread] at h
    exact h
  have hdecode := decode_encode form marked (opens_of_document hdocument)
  simp only [ofBytes, hdecode, hdocument, hjson]

/-- A frame with characters beyond ASCII, as a text and in octets of UTF-16 with a mark. -/
theorem ofBytes_encode_subscribed :
    let cs := "[13, \"Ä🦀\"]".toList
    let bs := (Form.utf16 .little).encode true cs
    bs.length = 24 ∧ bs.drop 12 = [0x22, 0x00, 0xC4, 0x00, 0x3E, 0xD8, 0x80, 0xDD, 0x22, 0x00,
        0x5D, 0x00] ∧
      ofText cs = .ok [.subscribed "Ä🦀"] ∧ ofBytes bs = .ok [.subscribed "Ä🦀"] := by
  intro cs bs
  have hname : Json.Reader.string ['Ä', '🦀', '"'] = .ok (['Ä', '🦀'], []) := by
    rw [string_char (by decide) (by decide) (by decide),
      string_char (by decide) (by decide) (by decide), Json.Reader.string]
    rfl
  have hspells : Spells ['"', 'Ä', '🦀', '"'] (.text "Ä🦀") := by
    refine document_of_readValue (r := []) ?_ rfl
    rw [show skip ['"', 'Ä', '🦀', '"'] = ['"', 'Ä', '🦀', '"'] by decide, readValue_string, hname]
  have hread : Json.Value.ofText cs = .ok (.array [.int 13, .text "Ä🦀"]) :=
    (ofText_array [Json.Spelling.int 13, ['"', 'Ä', '🦀', '"']]).trans
      (spells_array (.cons (spells_int (by decide)) (.cons hspells .nil)))
  have htext : ofText cs = .ok [.subscribed "Ä🦀"] := by
    rw [ofText, hread]
    rfl
  exact ⟨by decide, by decide, htext, ofBytes_encode htext (.utf16 .little) true⟩

end Feed.Frame

end Finality
