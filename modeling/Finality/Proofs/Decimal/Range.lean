import Mathlib.Algebra.Order.Field.Rat
import Mathlib.Data.Nat.Cast.Order.Field
import Mathlib.Tactic.FieldSimp
import Mathlib.Tactic.GCongr
import Mathlib.Tactic.Positivity
import Finality.Proofs.Decimal.Exact
import Finality.Text.Numeral

/-! # The range of numbers that are read from decimals

Rounding a quotient at the place of a power of two adds at most this power (`roundDiv_mul_le`), and
the exponents of finite numbers are bounded.  Decimals of many places in front of the point are read
as infinity, so that an integer that is read in the notation of fractional numbers has not too many
digits (`natAbs_lt_of_ofDecimal`). -/

namespace Finality.Decimal.Binary64

open Text.Numeral (maxDigits)

variable {negative s : Bool} {num den m digits : Nat} {e exponent n : Int}

theorem roundDiv_le (num den : Nat) : (roundDiv num den : ℚ) ≤ num / den + 1 := by
  have hle : roundDiv num den ≤ num / den + 1 := by
    simp only [roundDiv]
    split <;> omega
  calc (roundDiv num den : ℚ) ≤ ((num / den : Nat) : ℚ) + 1 := by exact_mod_cast hle
    _ ≤ num / den + 1 := by gcongr; exact Nat.cast_div_le

theorem roundDiv_mul_le (num : Nat) (hden : 0 < den) (e : Int) :
    (roundDiv (num * (powRatio 2 e).2) (den * (powRatio 2 e).1) : ℚ) * 2 ^ e ≤ num / den + 2 ^ e := by
  obtain ⟨hp, hq⟩ := powRatio_pos Nat.two_pos e
  have hround := roundDiv_le (num * (powRatio 2 e).2) (den * (powRatio 2 e).1)
  have hp : (0 : ℚ) < (powRatio 2 e).1 := by exact_mod_cast hp
  have hq : (0 : ℚ) < (powRatio 2 e).2 := by exact_mod_cast hq
  have hden : (0 : ℚ) < den := by exact_mod_cast hden
  have hquotient : ((num * (powRatio 2 e).2 : Nat) : ℚ) / (den * (powRatio 2 e).1 : Nat) * 2 ^ e =
      num / den := by
    have hpow := zpow_eq_powRatio Nat.two_pos e
    rw [Nat.cast_two] at hpow
    rw [hpow]
    push_cast
    field_simp
  have hpow : (0 : ℚ) ≤ 2 ^ e := zpow_nonneg (by norm_num) e
  rw [← hquotient]
  linarith [mul_le_mul_of_nonneg_right hround hpow]

/-- The nearest number is not far above a quotient. -/
theorem value_ofRatio_le (hden : 0 < den) (h : ofRatio negative num den = .finite s m e) :
    (m : ℚ) * 2 ^ e ≤ num / den + 2 ^ maxExponent := by
  unfold ofRatio at h
  generalize maxExponent = most at h ⊢
  split at h
  · cases h
    have hpow : (0 : ℚ) ≤ 2 ^ most := zpow_nonneg (by norm_num) most
    have hquotient : (0 : ℚ) ≤ num / den := by positivity
    simpa using add_nonneg hquotient hpow
  dsimp only at h
  generalize max (floorLog2 num den - 52) minExponent = e₀ at h
  have hround := roundDiv_mul_le num hden e₀
  generalize roundDiv (num * (powRatio 2 e₀).2) (den * (powRatio 2 e₀).1) = m₀ at h hround
  have hpow : e₀ ≤ most → (2 : ℚ) ^ e₀ ≤ 2 ^ most :=
    fun hle => zpow_le_zpow_right₀ (by norm_num) hle
  split at h
  · rename_i hm
    split at h
    · cases h
    · rename_i hle
      cases h
      -- a significand that is full is halved, and the number stays the same
      have hsame : ((Nat.pow 2 (precision - 1) : Nat) : ℚ) * 2 ^ (e₀ + 1) = (m₀ : ℚ) * 2 ^ e₀ := by
        rw [hm, zpow_add_one₀ (by norm_num)]
        norm_num [precision]
        ring
      rw [hsame]
      linarith [hpow (by omega)]
  · split at h
    · cases h
    · rename_i hle
      cases h
      linarith [hpow (by omega)]

/-- Decimal digits with an exponent are worth less than the place in front of them. -/
theorem mul_zpow_lt (digits : Nat) (exponent : Int) :
    (digits : ℚ) * 10 ^ exponent < 10 ^ (exponent + (toString digits).length) := by
  have hdigits : digits < 10 ^ (toString digits).length := by
    have hlength : (Nat.toDigits 10 digits).length = (toString digits).length := by
      rw [Nat.toString_eq_ofList_toDigits, String.length_ofList]
    exact (Nat.length_toDigits_le_iff (by decide) (hlength ▸ Nat.length_toDigits_pos)).mp hlength.le
  have hcast : (digits : ℚ) < 10 ^ (toString digits).length := by exact_mod_cast hdigits
  have hpow : (0 : ℚ) < 10 ^ exponent := zpow_pos (by norm_num) exponent
  rw [zpow_add₀ (by norm_num), zpow_natCast, mul_comm]
  exact mul_lt_mul_of_pos_left hcast hpow

/-- A finite number that a decimal is read as has not too many places in front of the point. -/
theorem value_ofDecimal_lt (h : ofDecimal negative digits exponent = finite s m e) :
    (m : ℚ) * 2 ^ e < 10 ^ maxDigits := by
  have hpos : (0 : ℚ) < 10 ^ maxDigits := pow_pos (by norm_num) maxDigits
  have hzero : ∀ e : Int, ((0 : Nat) : ℚ) * 2 ^ e = 0 := by simp
  unfold ofDecimal at h
  split at h
  · cases h
    exact (hzero _).trans_lt hpos
  dsimp only at h
  split at h
  · cases h
  split at h
  · cases h
    exact (hzero _).trans_lt hpos
  rename_i hmagnitude _
  obtain ⟨-, hq⟩ := powRatio_pos (show 0 < 10 by decide) exponent
  have hle := value_ofRatio_le hq h
  have hpow := zpow_eq_powRatio (show 0 < 10 by decide) exponent
  rw [Nat.cast_ofNat] at hpow
  rw [Nat.cast_mul, mul_div_assoc, ← hpow] at hle
  calc (m : ℚ) * 2 ^ e ≤ digits * 10 ^ exponent + 2 ^ maxExponent := hle
    _ < 10 ^ maxExponent + 10 ^ maxExponent := by
        refine add_lt_add_of_lt_of_le ((mul_zpow_lt digits exponent).trans_le ?_) ?_
        · refine zpow_le_zpow_right₀ (by norm_num) ?_
          have hmost : maxExponent = 971 := rfl
          omega
        · exact zpow_le_zpow_left₀ (by decide) (by norm_num) (by norm_num)
    _ ≤ 10 ^ (maxExponent + 1) := by
        rw [zpow_add_one₀ (by norm_num)]
        linarith [zpow_pos (show (0 : ℚ) < 10 by norm_num) maxExponent]
    _ ≤ 10 ^ (maxDigits : Int) := zpow_le_zpow_right₀ (by norm_num) (by decide)
    _ = 10 ^ maxDigits := zpow_natCast 10 maxDigits

theorem natAbs_eq (h : (finite s m e).toInt? = some n) : (n.natAbs : ℚ) = m * 2 ^ e := by
  have hvalue := Option.some.inj (toInt?_eq_some_iff.mp h)
  have hnonneg : (0 : ℚ) ≤ m * 2 ^ e := mul_nonneg (Nat.cast_nonneg m) (zpow_nonneg (by norm_num) e)
  rw [Nat.cast_natAbs, Int.cast_abs, ← hvalue]
  cases s with
  | false => rw [if_neg Bool.false_ne_true, one_mul, abs_of_nonneg hnonneg]
  | true => rw [if_pos rfl, neg_one_mul, neg_mul, abs_neg, abs_of_nonneg hnonneg]

/-- An integer that is the nearest number to a decimal has not too many digits. -/
theorem natAbs_lt_of_ofDecimal (h : (ofDecimal negative digits exponent).toInt? = some n) :
    n.natAbs < 10 ^ maxDigits := by
  generalize hx : ofDecimal negative digits exponent = x at h
  cases x with
  | nan => cases h
  | infinity s => cases h
  | finite s m e =>
      have hlt := value_ofDecimal_lt hx
      rw [← natAbs_eq h] at hlt
      exact_mod_cast hlt

end Finality.Decimal.Binary64
