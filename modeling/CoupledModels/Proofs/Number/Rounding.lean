import CoupledModels.Number.Rounding
import Mathlib.Algebra.Order.Floor.Ring
import Mathlib.Algebra.Order.Round
import Mathlib.Data.Rat.Floor
import Mathlib.Tactic.FieldSimp
import Mathlib.Tactic.Linarith
import Mathlib.Tactic.Ring

/-!
# Rounding to decimals, exactly

With exact arithmetic the scale of a number of decimals is a power of ten, and a rounded value is the
multiple of its reciprocal next to the value.  The exponent of the power is the number of decimals
only as long as that is below `2 ^ 31`.
-/

namespace CoupledModels.Scalar

/-! ## Powers -/

/-- The binary digits of the exponent select the factors, lowest first. -/
theorem powerInto_rat (a : Rat) (n : Nat) (acc : Rat) : powerInto a n acc = acc * a ^ n := by
  induction n using Nat.strong_induction_on generalizing a acc with
  | h n ih =>
      have hbit : (if n % 2 = 1 then acc * a else acc) = acc * a ^ (n % 2) := by
        rcases Nat.mod_two_eq_zero_or_one n with h | h <;> simp [h]
      rw [powerInto]
      simp only [hbit]
      split
      · have hlast : n % 2 = n := by omega
        rw [hlast]
      · have hmore : n / 2 < n := by omega
        rw [ih _ hmore, ← pow_two, ← pow_mul, mul_assoc, ← pow_add, Nat.mod_add_div]

theorem power_rat (a : Rat) (e : Int) : power a e = a ^ e := by
  rw [power, powerInto_rat, one_mul]
  split
  · have he : e = -(e.natAbs : Int) := by omega
    rw [he, zpow_neg, zpow_natCast, Int.natAbs_neg, Int.natAbs_natCast, one_div]
  · have he : e = (e.natAbs : Int) := by omega
    rw [he, zpow_natCast, Int.natAbs_natCast]

/-! ## The nearest integer -/

/-- Half a step up and down again to the next integer ends no further away. -/
theorem abs_floor_add_half_sub (q : Rat) : |((q + 1 / 2).floor : Rat) - q| ≤ 1 / 2 := by
  have hle := Rat.floor_le (q + 1 / 2)
  have hlt := Rat.lt_floor_add_one (q + 1 / 2)
  rw [abs_le]
  push_cast at hlt
  constructor <;> linarith

/-- A number is rounded to an integer that is at most one half away. -/
theorem round_rat (q : Rat) : ∃ z : Int, Scalar.round q = (z : Rat) ∧ |(z : Rat) - q| ≤ 1 / 2 := by
  by_cases hq : q < 0
  · refine ⟨-(-q + 1 / 2).floor, if_pos hq, ?_⟩
    have h := abs_floor_add_half_sub (-q)
    rw [← abs_neg] at h
    push_cast
    convert h using 2
    ring
  · exact ⟨_, if_neg hq, abs_floor_add_half_sub q⟩

/-- Integers are rounded to themselves: no other one is that close. -/
theorem round_intCast (z : Int) : Scalar.round (z : Rat) = (z : Rat) := by
  obtain ⟨w, hw, hnear⟩ := round_rat z
  have hlt : |((w - z : Int) : Rat)| < 1 := by
    push_cast
    linarith
  have heq : w - z = 0 := Int.abs_lt_one_iff.mp (by exact_mod_cast hlt)
  rw [hw, sub_eq_zero.mp heq]

/-! ## Decimals -/

/-- The exponent is the number of decimals unless that is `2 ^ 31` or more, and then it is
negative. -/
theorem decimalsExponent_eq (digits : UInt32) :
    decimalsExponent digits =
      if digits.toNat < 2 ^ 31 then (digits.toNat : Int) else (digits.toNat : Int) - 2 ^ 32 := by
  have hlt := digits.toNat_lt
  change digits.toBitVec.toInt = _
  rw [BitVec.toInt_eq_toNat_bmod, UInt32.toNat_toBitVec, Int.bmod_def]
  split <;> split <;> omega

theorem roundTo_rat (digits : UInt32) (v : Rat) :
    roundTo digits v = Scalar.round (v * 10 ^ decimalsExponent digits) /
      10 ^ decimalsExponent digits := by
  unfold roundTo
  rw [power_rat]
  rfl

/-- The number is a multiple of `10 ^ -e`, and no further from the value than half of that. -/
structure RoundsAt (e : Int) (v x : Rat) : Prop where
  near : |x - v| ≤ 1 / 2 * 10 ^ (-e)
  integral : ∃ z : Int, x * 10 ^ e = z

theorem roundsAt_roundTo (digits : UInt32) (v : Rat) :
    RoundsAt (decimalsExponent digits) v (roundTo digits v) := by
  obtain ⟨z, hz, hnear⟩ := round_rat (v * 10 ^ decimalsExponent digits)
  have hscale : (0 : Rat) < 10 ^ decimalsExponent digits := zpow_pos (by norm_num) _
  rw [roundTo_rat, hz]
  refine ⟨?_, z, div_mul_cancel₀ _ hscale.ne'⟩
  have hdiff : (z : Rat) / 10 ^ decimalsExponent digits - v =
      (z - v * 10 ^ decimalsExponent digits) / 10 ^ decimalsExponent digits := by
    field_simp
  rw [hdiff, abs_div, abs_of_pos hscale, zpow_neg, ← div_eq_mul_inv]
  exact div_le_div_of_nonneg_right hnear hscale.le

/-- A number with the decimals already is left alone. -/
theorem roundTo_of_integral {digits : UInt32} {x : Rat} {z : Int}
    (h : x * 10 ^ decimalsExponent digits = z) : roundTo digits x = x := by
  have hscale : (0 : Rat) < 10 ^ decimalsExponent digits := zpow_pos (by norm_num) _
  rw [roundTo_rat, h, round_intCast, ← h, mul_div_cancel_right₀ _ hscale.ne']

theorem roundTo_roundTo (digits : UInt32) (v : Rat) :
    roundTo digits (roundTo digits v) = roundTo digits v := by
  obtain ⟨z, hz⟩ := (roundsAt_roundTo digits v).integral
  exact roundTo_of_integral hz

/-- The multiples of a larger power of ten are among those of a smaller one. -/
theorem integral_of_le {e e' : Int} (he : e ≤ e') {x : Rat} (h : ∃ z : Int, x * 10 ^ e = z) :
    ∃ z : Int, x * 10 ^ e' = z := by
  obtain ⟨z, hz⟩ := h
  obtain ⟨n, rfl⟩ := Int.le.dest he
  refine ⟨z * 10 ^ n, ?_⟩
  rw [zpow_add₀ (by norm_num), ← mul_assoc, hz]
  push_cast
  rfl

/-- One is rounded to zero if the exponent is negative. -/
theorem roundTo_one {digits : UInt32} (h : decimalsExponent digits < 0) :
    roundTo digits (1 : Rat) = 0 := by
  obtain ⟨z, hz, hnear⟩ := round_rat (1 * 10 ^ decimalsExponent digits)
  have hpos : (0 : Rat) < 10 ^ decimalsExponent digits := zpow_pos (by norm_num) _
  have hle : (10 : Rat) ^ decimalsExponent digits ≤ 10 ^ (-1 : Int) :=
    zpow_le_zpow_right₀ (by norm_num) (by omega)
  have hlt : |(z : Rat)| < 1 := by
    rw [abs_le] at hnear
    rw [abs_lt]
    norm_num at hle hnear
    constructor <;> linarith
  have hzero : z = 0 := Int.abs_lt_one_iff.mp (by exact_mod_cast hlt)
  rw [roundTo_rat, hz, hzero, Int.cast_zero, zero_div]

/-- Half a unit in the last decimal bounds the error of all numbers if and only if the exponent is
the number of decimals. -/
theorem near_iff (digits : UInt32) :
    (∀ v : Rat, |roundTo digits v - v| ≤ 1 / 2 * 10 ^ (-(digits.toNat : Int))) ↔
      digits.toNat < 2 ^ 31 := by
  have he := decimalsExponent_eq digits
  constructor
  · intro h
    by_contra hlarge
    have hnegative : decimalsExponent digits < 0 := by
      have hlt := digits.toNat_lt
      rw [he, if_neg hlarge]
      omega
    have hunit : (10 : Rat) ^ (-(digits.toNat : Int)) ≤ 1 :=
      zpow_le_one_of_nonpos₀ (by norm_num) (by omega)
    have hone := h 1
    rw [roundTo_one hnegative] at hone
    norm_num at hone hunit
    linarith
  · intro hsmall v
    rw [if_pos hsmall] at he
    rw [← he]
    exact (roundsAt_roundTo digits v).near

end CoupledModels.Scalar
