import CoupledModels.Proofs.Number.Canonical
import CoupledModels.Proofs.Number.Compact
import CoupledModels.Proofs.Number.RoundedDoubles

/-!
# Literals of doubles

Every double is a whole multiple of the smallest one, `2 ^ -1074`, so it has a numeral with at most
1074 digits behind the point.  Reading a numeral is exact wherever it can be: the numeral of a double is
read as that double.
-/

namespace CoupledModels

open Float.Model (UnpackedFloat)
open Float.Model.Format (binary64)

/-- What is neither undefined nor negative has a positive sign. -/
theorem Double.sign_positive_iff (x : Float) : unpackedSign? x.toModel.unpack = some .positive ↔
    Scalar.isNaN x = false ∧ Decimal.signBit x = false := by
  refine ⟨fun h => ⟨?_, signBit_of_positive h⟩, fun ⟨hdefined, hbit⟩ => ?_⟩
  · rw [isNaN_eq, h]
    rfl
  obtain ⟨s, hs⟩ := Option.ne_none_iff_exists'.mp (sign_ne_none hdefined)
  rw [hs, unpackedSign?_unpack hs, (unpackSign_eq_zero_iff x).mpr hbit]
  rfl

namespace Decimal

theorem length_digitsOf_le_iff {n k : Nat} (hk : 0 < k) : (digitsOf n).length ≤ k ↔ n < 10 ^ k := by
  rw [digitsOf_eq]
  exact Nat.length_toDigits_le_iff (by decide) hk

theorem ten_pow_le_five_pow (j : Nat) : 10 ^ (2 * j) ≤ 5 ^ (3 * j) := by
  rw [Nat.pow_mul, Nat.pow_mul]
  exact Nat.pow_le_pow_left (by decide) j

theorem two_pow_le_ten_pow (j : Nat) : 2 ^ (3 * j) ≤ 10 ^ j := by
  rw [Nat.pow_mul]
  exact Nat.pow_le_pow_left (by decide) j

section Numerals

-- The number of digits behind the point is a variable, so that no power of it is ever computed.
variable {m : Nat} {e : Int} {p k : Nat} (h : Canonical m e) (hp : p = 1074) (hk : (k : Int) = e + p)

include h hp hk

/-- The digits of a double neither end long before the point nor begin long after it. -/
theorem numeral_bounds :
    10 ^ (p - 401) ≤ m * 2 ^ k * 5 ^ p ∧ m * 2 ^ k * 5 ^ p < 10 ^ (p + 400) := by
  have hgreatest := h.greatest
  constructor
  · calc 10 ^ (p - 401) ≤ 10 ^ (2 * (p / 3)) := Nat.pow_le_pow_right (by decide) (by omega)
      _ ≤ 5 ^ (3 * (p / 3)) := ten_pow_le_five_pow _
      _ ≤ 5 ^ p := Nat.pow_le_pow_right (by decide) (Nat.mul_div_le p 3)
      _ ≤ m * 2 ^ k * 5 ^ p := Nat.le_mul_of_pos_left _ (Nat.mul_pos h.pos (Nat.two_pow_pos k))
  · -- the distance is a variable here, so that no power of it is computed
    obtain ⟨q, hq⟩ : ∃ q, q = 400 := ⟨400, rfl⟩
    rw [← hq]
    refine Nat.lt_of_mul_lt_mul_right (a := 2 ^ p) ?_
    calc m * 2 ^ k * 5 ^ p * 2 ^ p = m * (2 ^ k * 10 ^ p) := by
          rw [Nat.mul_assoc, ← Nat.mul_pow, Nat.mul_assoc]
      _ < 2 ^ 53 * (2 ^ k * 10 ^ p) :=
          Nat.mul_lt_mul_of_pos_right h.lt (Nat.mul_pos (Nat.two_pow_pos k) (Nat.pow_pos (by decide)))
      _ = 2 ^ (53 + k) * 10 ^ p := by rw [Nat.pow_add, Nat.mul_assoc]
      _ ≤ 2 ^ (3 * q + p) * 10 ^ p :=
          Nat.mul_le_mul_right _ (Nat.pow_le_pow_right (by decide) (by omega))
      _ = 2 ^ (3 * q) * 10 ^ p * 2 ^ p := by rw [Nat.pow_add, Nat.mul_right_comm]
      _ ≤ 10 ^ q * 10 ^ p * 2 ^ p :=
          Nat.mul_le_mul_right _ (Nat.mul_le_mul_right _ (two_pow_le_ten_pow q))
      _ = 10 ^ (p + q) * 2 ^ p := by rw [← Nat.pow_add, Nat.add_comm]

omit h hp hk in
/-- A negative power of ten divides. -/
theorem ofScientific_neg {n : Nat} (hn : 0 < n) (hpos : 0 < p) (hp : p ≤ 2048) :
    UnpackedFloat.ofScientific binary64 n (.negOfNat p) =
      .div binary64 (.finite .positive n 0 hn)
        (.finite .positive (10 ^ p) 0 (Nat.pow_pos (by decide))) := by
  obtain ⟨j, rfl⟩ : ∃ j, p = j + 1 := ⟨p - 1, by omega⟩
  have hsmall : ¬ Int.negSucc j < -((2 ^ 11 : Int) + n.log2) := by omega
  unfold UnpackedFloat.ofScientific
  rw [dif_neg hn.ne']
  change (if Int.negSucc j > 2 ^ 11 then _ else
    if Int.negSucc j < -((2 ^ 11 : Int) + n.log2) then _ else
    if 0 ≤ Int.negSucc j then _ else _) = _
  rw [if_neg (by omega), if_neg hsmall, if_neg (by omega)]
  rfl

/-- The numeral of a double is read as the double. -/
theorem toFloat_numeral :
    toFloat ⟨false, m * 2 ^ k * 5 ^ p, -p⟩ = .ofModel (.pack (.finite .positive m e h.pos)) := by
  obtain ⟨hlow, hhigh⟩ := numeral_bounds h hp hk
  have hpos : 0 < m * 2 ^ k * 5 ^ p := Nat.lt_of_lt_of_le (Nat.pow_pos (by decide)) hlow
  have hvalue : m * 2 ^ k * 5 ^ p * 2 ^ p = m * 2 ^ k * 10 ^ p := by
    rw [Nat.mul_assoc, ← Nat.mul_pow]
  have hquotient := h.div_eq hpos (Nat.pow_pos (by decide)) hk hvalue hp.ge
  have hlong : (digitsOf (m * 2 ^ k * 5 ^ p)).length ≤ p + 400 :=
    (length_digitsOf_le_iff (by omega)).mpr hhigh
  have hshort : ¬ (digitsOf (m * 2 ^ k * 5 ^ p)).length ≤ p - 401 := fun hle =>
    absurd ((length_digitsOf_le_iff (by omega)).mp hle) (Nat.not_lt.mpr hlow)
  generalize m * 2 ^ k * 5 ^ p = n at *
  -- the numeral is neither cut off at the ends of the scale nor read by the fast way
  have hupper : ¬ (400 : Int) < (digitsOf n).length + -(p : Int) := by omega
  have hlower : ¬ (digitsOf n).length + -(p : Int) < -400 := by omega
  have hslow : ¬ (n < 2 ^ 53 ∧ (-(p : Int)).natAbs ≤ 22) := by omega
  unfold toFloat
  dsimp only
  rw [if_neg hpos.ne', if_neg hupper, if_neg hlower, decide_eq_true (by omega)]
  unfold Float.ofScientific
  rw [dif_neg hslow, Int.natAbs_neg, Int.natAbs_natCast]
  change Float.ofModel (.pack (.ofScientific binary64 n (.negOfNat p))) = _
  rw [ofScientific_neg hpos (by omega) (by omega), hquotient]

end Numerals

theorem toFloat_infinite :
    toFloat ⟨false, 1, 400⟩ = .ofModel (.pack (.infinity .positive)) := by
  have hlong : (400 : Int) < (digitsOf 1).length + 400 := by decide
  unfold toFloat
  dsimp only
  rw [if_neg Bool.false_ne_true, if_neg Nat.one_ne_zero, if_pos hlong]
  rfl

/-- What is read without a sign has a positive sign. -/
theorem sign_toFloat {d : Decimal} (h : d.negative = false) :
    unpackedSign? (toFloat d).toModel.unpack = some .positive := by
  unfold toFloat
  dsimp only
  rw [h, if_neg Bool.false_ne_true]
  split
  · rfl
  split
  · rfl
  split
  · rfl
  · exact unpackedSign?_scientific _ _ _

/-- The doubles with a numeral are those that are neither undefined nor negative. -/
theorem exists_toFloat_eq_iff (x : Float) : (∃ d : Decimal, d.negative = false ∧ toFloat d = x) ↔
    Scalar.isNaN x = false ∧ signBit x = false := by
  rw [← Double.sign_positive_iff]
  refine ⟨fun ⟨d, hd, hx⟩ => hx ▸ sign_toFloat hd, fun h => ?_⟩
  -- apart from infinity, such a double is exactly the number of a numeral
  cases hx : x.toModel.unpack with
  | notANumber =>
      rw [hx] at h
      cases h
  | infinity s =>
      rw [hx] at h
      cases h
      exact ⟨_, rfl, toFloat_infinite.trans (ofModel_pack hx)⟩
  | zero s =>
      rw [hx] at h
      cases h
      exact ⟨⟨false, 0, 0⟩, rfl, ofModel_pack hx⟩
  | finite s m e hm =>
      rw [hx] at h
      cases h
      have hcanonical := canonical_of_unpack hx
      have hleast := hcanonical.least
      obtain ⟨k, hk⟩ := Int.eq_ofNat_of_zero_le (show 0 ≤ e + (1074 : Nat) by omega)
      exact ⟨_, rfl, (toFloat_numeral hcanonical rfl hk.symm).trans (ofModel_pack hx)⟩

end Decimal

end CoupledModels
