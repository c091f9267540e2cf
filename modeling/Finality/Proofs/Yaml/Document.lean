import Finality.Proofs.Encoding.TextFile
import Finality.Proofs.Yaml.Builder
import Finality.Proofs.Yaml.Tokens

/-! # Faults of documents

What can be wrong with the octets of a file that is to hold a document.  A file breaks off where it
is not UTF-8 (`Source.ofOctets_broken`); its tokens end early for a lexical fault; its graph is
malformed; and its nodes have no value (`Builder.build_ensures`).  Nearly all of these are
`malformed`.  What is left are the defects (`Defect`): a document that cannot be read has one of
them, or it is malformed (`Document.ofOctets_fault`). -/

namespace Finality.Yaml

open Encoding (TextFile Undecodable Utf8.WellFormed)
open Except (FailsOnly bind_eq_error_iff bind_eq_ok_iff)

/-! ### The text -/

namespace Source

variable {fault : Fault} {f g : TextFile} {bs : List UInt8} {cs : List Char}

theorem behind_broken {portion : Except Undecodable (List Char × TextFile)}
    {next : TextFile → Source} (h : (behind portion next).broken = some fault) :
    fault = .malformed ∨ (∃ u, portion = .error u ∧ fault = .undecodable u) ∨
      ∃ cs f, portion = .ok (cs, f) ∧ (next f).broken = some fault := by
  unfold behind at h
  split at h
  · cases h
    exact .inr (.inl ⟨_, rfl, rfl⟩)
  · split at h
    · exact .inr (.inr ⟨_, _, rfl, h⟩)
    · cases h
      exact .inl rfl

/-- What is left of a file that is not UTF-8, behind a portion of it, is not. -/
theorem not_wellFormed_of_read {wanted : Nat} (hread : f.read wanted = .ok (cs, g))
    (hg : ¬g.WellFormed) : ¬f.WellFormed := by
  intro hf
  obtain ⟨cs', g', hread', hg'⟩ := TextFile.exists_read hf wanted
  cases hread.symm.trans hread'
  exact hg hg'

theorem not_wellFormed_of_read_error {wanted : Nat} {u : Undecodable}
    (hread : f.read wanted = .error u) : ¬f.WellFormed := by
  intro hf
  obtain ⟨_, _, hok, -⟩ := TextFile.exists_read hf wanted
  cases hread.symm.trans hok

theorem portions_broken {fuel : Nat} (h : (portions fuel f).broken = some fault) :
    fault = .malformed ∨ (∃ u, fault = .undecodable u) ∧ ¬f.WellFormed := by
  induction fuel generalizing f with
  | zero => cases h
  | succ fuel ih =>
      unfold portions at h
      split at h
      · cases h
      obtain rfl | ⟨u, hread, rfl⟩ | ⟨cs, g, hread, hbroken⟩ := behind_broken h
      · exact .inl rfl
      · exact .inr ⟨⟨u, rfl⟩, not_wellFormed_of_read_error hread⟩
      · exact (ih hbroken).imp_right fun ⟨hu, hg⟩ => ⟨hu, not_wellFormed_of_read hread hg⟩

/-- A file breaks off where it is malformed, or where it is not UTF-8. -/
theorem ofOctets_broken (h : (ofOctets bs).broken = some fault) :
    fault = .malformed ∨ (∃ u, fault = .undecodable u) ∧ ¬Utf8.WellFormed bs := by
  obtain rfl | ⟨u, hfirst, rfl⟩ | ⟨cs, g, hfirst, hbroken⟩ := behind_broken h
  · exact .inl rfl
  · refine .inr ⟨⟨u, rfl⟩, ?_⟩
    obtain hread | ⟨⟨cs, f⟩, hread, hmore⟩ := bind_eq_error_iff.mp hfirst
    · exact not_wellFormed_of_read_error hread
    obtain hread' | ⟨_, -, hmore⟩ := bind_eq_error_iff.mp hmore
    · exact not_wellFormed_of_read hread (not_wellFormed_of_read_error hread')
    · cases hmore
  · obtain ⟨⟨cs, f⟩, hread, hmore⟩ := bind_eq_ok_iff.mp hfirst
    obtain ⟨⟨ds, g'⟩, hread', hmore⟩ := bind_eq_ok_iff.mp hmore
    cases hmore
    exact (portions_broken hbroken).imp_right fun ⟨hu, hg⟩ =>
      ⟨hu, not_wellFormed_of_read hread (not_wellFormed_of_read hread' hg)⟩

end Source

/-! ### Documents -/

/-- What is wrong with the octets of a document that are not merely malformed. -/
inductive Defect (octets : List UInt8) : Fault → Prop where
  /-- They are not UTF-8. -/
  | encoding {u : Undecodable} : ¬Utf8.WellFormed octets → Defect octets (.undecodable u)
  /-- An escape names no character. -/
  | codePoint {n : Nat} : 0x110000 ≤ n → Defect octets (.codePoint n)
  /-- A part of the version in a directive is too long to be read. -/
  | version {n : Nat} : Text.Numeral.maxDigits < n → Defect octets (.overlongNumeral n)
  /-- A truth value, a number or a date, by its form or by its tag, has no value. -/
  | scalar {tag : Tag} {text : String} {f : Fault} : Scalar.isDemanding tag = true →
      IsText (tokens (.ofOctets octets)).1 text →
      IsScalarTag (tokens (.ofOctets octets)).1 text tag →
      Scalar.ofTagged tag text = .error f → Defect octets f
  /-- A tag asks for a date where a mapping stands. -/
  | dateOfMapping : IsTagged (tokens (.ofOctets octets)).1 → Defect octets .dateOfMapping
  /-- A mapping that stands for one of its values, by a tag, is that value. -/
  | endless : IsTagged (tokens (.ofOctets octets)).1 → Defect octets .endless

variable {octets : List UInt8} {f : Fault}

theorem Defect.ne_malformed (h : Defect octets f) : f ≠ .malformed := by
  cases h with
  | @scalar tag _ _ hdemanding _ _ hf =>
      have hscalar : tag.isScalar = true := by
        revert hdemanding
        cases tag <;> decide
      have hfault := Scalar.ofTagged_fault hscalar hf
      rwa [if_pos hdemanding] at hfault
  | _ => simp

/-- **Octets that are no document are malformed, or have one of six defects.** -/
theorem Document.ofOctets_fault (h : Document.ofSource (.ofOctets octets) = .error f) :
    f = .malformed ∨ Defect octets f := by
  have hgraph := Graph.ofTokens_ensures (tokens (.ofOctets octets)).1 (tokens (.ofOctets octets)).2
  obtain h | ⟨root, hroot, h⟩ := bind_eq_error_iff.mp h
  · obtain rfl | hfault := hgraph.failsOnly f h
    · exact .inl rfl
    obtain hlexical | hbroken := tokens_fault hfault
    · cases hlexical with
      | malformed => exact .inl rfl
      | codePoint hn => exact .inr (.codePoint hn)
      | version hn => exact .inr (.version hn)
    · exact (Source.ofOctets_broken hbroken).imp_right fun ⟨⟨u, hu⟩, hoctets⟩ =>
        hu ▸ .encoding hoctets
  · split at h
    · cases h
    rename_i g _
    cases FailsOnly.map (Builder.build_ensures (hgraph.yields _ hroot _ rfl) _).failsOnly f h with
    | malformed => exact .inl rfl
    | scalar hdemanding htext htag hf => exact .inr (.scalar hdemanding htext htag hf)
    | dateOfMapping htagged => exact .inr (.dateOfMapping htagged)
    | endless htagged => exact .inr (.endless htagged)

end Finality.Yaml
