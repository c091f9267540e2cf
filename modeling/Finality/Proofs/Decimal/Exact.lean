import Mathlib.Algebra.Field.Rat
import Mathlib.Data.Rat.Cast.CharZero
import Mathlib.Tactic.Linarith
import Mathlib.Tactic.NormNum
import Mathlib.Tactic.Ring
import Finality.Decimal.Binary64

/-! # The exact value of a binary floating point number

A finite number stands for a rational (`Binary64.value?`): its significand times a power of two,
with its sign.  `Binary64.toInt?` decides on natural numbers whether this rational is an integer,
and which (`toInt?_eq_some_iff`). -/

namespace Finality.Decimal.Binary64

variable {x : Binary64} {n : Int}

/-- The rational that a finite number stands for. -/
def value? : Binary64 → Option ℚ
  | .finite negative m e => some ((if negative then -1 else 1) * m * 2 ^ e)
  | _ => none

section powRatio
variable {base : Nat} (hbase : 0 < base) (e : Int)
include hbase

theorem powRatio_pos : 0 < (powRatio base e).1 ∧ 0 < (powRatio base e).2 :=
  ⟨Nat.pow_pos hbase, Nat.pow_pos hbase⟩

theorem zpow_eq_powRatio : (base : ℚ) ^ e = (powRatio base e).1 / (powRatio base e).2 := by
  have hparts : e = (e.toNat : Int) - ((-e).toNat : Int) := by omega
  have hne : (base : ℚ) ≠ 0 := Nat.cast_ne_zero.mpr (Nat.ne_of_gt hbase)
  have hpow : ∀ k : Nat, ((Nat.pow base k : Nat) : ℚ) = base ^ k := fun k => Nat.cast_pow base k
  rw [powRatio, hpow, hpow]
  calc (base : ℚ) ^ e
      = base ^ ((e.toNat : Int) - ((-e).toNat : Int)) := by rw [← hparts]
    _ = base ^ (e.toNat : Int) / base ^ ((-e).toNat : Int) := zpow_sub₀ hne _ _
    _ = base ^ e.toNat / base ^ (-e).toNat := by rw [zpow_natCast, zpow_natCast]

end powRatio

/-- A quotient of naturals is an integer exactly if nothing remains. -/
theorem natCast_div_eq_iff {a q : Nat} (hq : 0 < q) :
    (a : ℚ) / q = n ↔ a % q = 0 ∧ n = ((a / q : Nat) : Int) := by
  have hq' : (q : ℚ) ≠ 0 := Nat.cast_ne_zero.mpr (Nat.ne_of_gt hq)
  rw [div_eq_iff hq']
  constructor
  · intro h
    have h : (a : Int) = n * q := by exact_mod_cast h
    have hn : 0 ≤ n := by
      by_contra hneg
      have : n * q < 0 := mul_neg_of_neg_of_pos (Int.lt_of_not_ge hneg) (by exact_mod_cast hq)
      omega
    obtain ⟨k, rfl⟩ := Int.eq_ofNat_of_zero_le hn
    have h : a = k * q := by exact_mod_cast h
    rw [h]
    refine ⟨Nat.mul_mod_left k q, ?_⟩
    rw [Nat.mul_div_cancel k hq]
  · rintro ⟨hmod, rfl⟩
    have h : a / q * q = a := Nat.div_mul_cancel (Nat.dvd_of_mod_eq_zero hmod)
    exact_mod_cast h.symm

/-- **A number has an integer value exactly if its rational is this integer.** -/
theorem toInt?_eq_some_iff : x.toInt? = some n ↔ x.value? = some (n : ℚ) := by
  cases x with
  | nan => simp [toInt?, value?]
  | infinity negative => simp [toInt?, value?]
  | finite negative m e =>
      obtain ⟨-, hq⟩ := powRatio_pos Nat.two_pos e
      have hvalue : (m : ℚ) * 2 ^ e = ((m * (powRatio 2 e).1 : Nat) : ℚ) / (powRatio 2 e).2 := by
        have hpow := zpow_eq_powRatio Nat.two_pos e
        rw [Nat.cast_two] at hpow
        rw [hpow]
        push_cast
        ring
      cases negative with
      | false =>
          simp only [toInt?, value?, Bool.false_eq_true, if_false, one_mul, hvalue,
            Option.some.injEq, natCast_div_eq_iff hq]
          split <;> simp_all [eq_comm]
      | true =>
          have hneg : (-1 : ℚ) * m * 2 ^ e = n ↔ (m : ℚ) * 2 ^ e = ((-n : Int) : ℚ) := by
            push_cast
            constructor <;> intro h <;> linarith
          simp only [toInt?, value?, if_true, Option.some.injEq, hneg]
          rw [hvalue, natCast_div_eq_iff hq]
          split <;> simp_all [neg_eq_iff_eq_neg, eq_comm]

end Finality.Decimal.Binary64
