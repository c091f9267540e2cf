import Mathlib.Tactic.Common
import Finality.Text.Character

/-! # Code units

No character is a surrogate.  One of the first 65536 is the code unit of its code point
(`charOf_toNat`), any other one is a pair of surrogates, which stand for it
(`joinSurrogates_halves`). -/

namespace Finality.Text

/-- The first surrogate of a character beyond the first 65536. -/
def highHalf (c : Char) : Nat := 0xD800 + (c.toNat - 0x10000) / 0x400

/-- The second one. -/
def lowHalf (c : Char) : Nat := 0xDC00 + (c.toNat - 0x10000) % 0x400

/-- The code units of a character. -/
def codeUnits (c : Char) : List Nat :=
  if c.toNat < 0x10000 then [c.toNat] else [highHalf c, lowHalf c]

theorem not_surrogate (c : Char) : c.toNat < 0xD800 ∨ 0xDFFF < c.toNat ∧ c.toNat < 0x110000 :=
  c.valid

theorem isHighSurrogate_toNat (c : Char) : isHighSurrogate c.toNat = false := by
  have := not_surrogate c
  simp only [isHighSurrogate, Bool.and_eq_false_iff, decide_eq_false_iff_not]
  omega

theorem isLowSurrogate_toNat (c : Char) : isLowSurrogate c.toNat = false := by
  have := not_surrogate c
  simp only [isLowSurrogate, Bool.and_eq_false_iff, decide_eq_false_iff_not]
  omega

theorem charOf_toNat (c : Char) : charOf c.toNat = c := by
  simp [charOf, isHighSurrogate_toNat, isLowSurrogate_toNat]

section beyond
variable {c : Char} (hc : 0x10000 ≤ c.toNat)
include hc

theorem isHighSurrogate_highHalf : isHighSurrogate (highHalf c) = true := by
  have := not_surrogate c
  have hbounds : 0xD800 ≤ highHalf c ∧ highHalf c ≤ 0xDBFF := by
    unfold highHalf
    omega
  simp [isHighSurrogate, hbounds]

omit hc in
theorem isLowSurrogate_lowHalf : isLowSurrogate (lowHalf c) = true := by
  have hbounds : 0xDC00 ≤ lowHalf c ∧ lowHalf c ≤ 0xDFFF := by
    unfold lowHalf
    omega
  simp [isLowSurrogate, hbounds]

theorem joinSurrogates_halves : joinSurrogates (highHalf c) (lowHalf c) = c := by
  have hsum : 0x10000 + (highHalf c - 0xD800) * 0x400 + (lowHalf c - 0xDC00) = c.toNat := by
    simp only [highHalf, lowHalf]
    omega
  rw [joinSurrogates, hsum, Char.ofNat_toNat]

end beyond

theorem codeUnits_lt {c : Char} {u : Nat} (hu : u ∈ codeUnits c) : u < 0x10000 := by
  have := not_surrogate c
  unfold codeUnits at hu
  split at hu
  · rename_i hc
    obtain rfl := List.mem_singleton.mp hu
    exact hc
  · simp only [highHalf, lowHalf, List.mem_cons, List.not_mem_nil, or_false] at hu
    omega

end Finality.Text
