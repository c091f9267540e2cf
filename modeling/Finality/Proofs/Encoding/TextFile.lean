import Finality.Encoding.TextFile
import Finality.Proofs.Encoding.Utf8
import Finality.Proofs.Except

/-! # Reading well-formed files

A file that is read in chunks may be cut within a character.  What is left to be decoded, the octets
of the character that goes on and those that have not been read, is well-formed as long as the file
is (`TextFile.WellFormed`), so reading a well-formed file never fails (`TextFile.exists_read`). -/

namespace Finality.Encoding.TextFile

open Utf8 (IsBegun)
open Except (bind_eq_ok_iff)

variable {f : TextFile} {bs rest : List UInt8} {wanted : Nat}

/-- What is left to be decoded is UTF-8. -/
def WellFormed (f : TextFile) : Prop := Utf8.WellFormed (f.begun ++ f.octets)

/-- A chunk is decoded up to a character that goes on behind it. -/
theorem exists_decode (h : Utf8.WellFormed (bs ++ rest)) {final : Bool}
    (hfinal : final = true → rest = []) :
    ∃ cs begun, decode final bs = .ok (cs, begun) ∧ Utf8.WellFormed (begun ++ rest) := by
  obtain ⟨front, s, rfl, hfront, hs, hrest⟩ := h.cut
  obtain ⟨cs, hcs⟩ := Utf8.exists_decode_iff.mpr hfront
  obtain rfl | hs := hs
  · exact ⟨cs, [], by simp [decode, hcs], hrest⟩
  · have hbegun := Utf8.decode_append_begun hfront hs
    cases final with
    | false =>
        have hgoes : goesOn ⟨front.length, s.length, .unexpectedEnd⟩ s = true := by
          unfold goesOn
          split <;> simp
        refine ⟨cs, s, ?_, hrest⟩
        simp [decode, hbegun, hgoes, hcs]
    | true =>
        -- at the end of the file no character is only begun
        rw [hfinal rfl, List.append_nil] at h
        obtain ⟨_, hok⟩ := Utf8.exists_decode_iff.mpr h
        rw [hok] at hbegun
        cases hbegun

theorem exists_readChunk (h : f.WellFormed) (wanted : Nat) :
    ∃ next, f.readChunk wanted = .ok next ∧ ∀ g ∈ next, g.WellFormed := by
  unfold readChunk
  extract_lets size chunk final
  have hchunk : chunk ++ f.octets.drop size = f.octets := List.take_append_drop ..
  have hfinal : final = true → f.octets.drop size = [] := by
    intro hempty
    have hsize : size ≠ 0 := by
      have : chunkSize ≤ size := Nat.le_max_left ..
      simp only [chunkSize] at this
      omega
    have hnil : f.octets = [] := by simpa [final, chunk, hsize] using hempty
    rw [hnil, List.drop_nil]
  rw [WellFormed, ← hchunk, ← List.append_assoc] at h
  obtain ⟨cs, begun, hdecode, hbegun⟩ := exists_decode h hfinal
  simp -zeta only [hdecode, bind, Except.bind]
  extract_lets
  split
  · exact ⟨none, rfl, by simp⟩
  · exact ⟨_, rfl, fun g hg => by cases hg; exact hbegun⟩

theorem exists_readUpTo (h : f.WellFormed) (fuel wanted : Nat) :
    ∃ cs g, readUpTo fuel wanted f = .ok (cs, g) ∧ g.WellFormed := by
  induction fuel generalizing f wanted with
  | zero => exact ⟨_, _, rfl, h⟩
  | succ fuel ih =>
      rw [readUpTo]
      split
      · exact ⟨_, _, rfl, h⟩
      · obtain ⟨next, hnext, hwell⟩ := exists_readChunk (f := { f with spare := f.spare.drop wanted }) h
          (wanted - (f.spare.take wanted).length)
        rw [hnext]
        cases next with
        | none => exact ⟨_, _, rfl, h⟩
        | some g =>
            obtain ⟨more, g', hmore, hg'⟩ := ih (hwell g rfl) (wanted - (f.spare.take wanted).length)
            refine ⟨f.spare.take wanted ++ more, g', ?_, hg'⟩
            simp only [hmore, Except.bind, bind]

theorem exists_read (h : f.WellFormed) (wanted : Nat) :
    ∃ cs g, f.read wanted = .ok (cs, g) ∧ g.WellFormed :=
  exists_readUpTo h _ wanted

end Finality.Encoding.TextFile
