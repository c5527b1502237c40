import CoupledModels.Number.Double
import Mathlib.Algebra.Order.Field.Rat
import Mathlib.Tactic.Positivity

/-!
# Positive doubles

Doubles are compared by the values that their bits stand for, and their exact value is read off the
same bits.  A double that is greater than zero has no sign bit, so its exact value is not negative.
-/

namespace CoupledModels

open Float.Model (UnpackedFloat)
open Float.Model.UnpackedFloat (Sign unpackSign unpackExponent unpackMantissa)

/-! ## Reading bits -/

/-- What an exponent, a mantissa and a sign are read as.  The leading bit of a number is not stored: it
is missing from the numbers with the smallest exponent, and all others have it. -/
inductive ReadAs (x : BitVec 11) (f : BitVec 52) (s : Sign) : UnpackedFloat → Prop
  | infinity (hx : x = -1#11) (hf : f = 0#52) : ReadAs x f s (.infinity s)
  | notANumber (hx : x = -1#11) (hf : f ≠ 0#52) : ReadAs x f s .notANumber
  | zero (hx : x = 0#11) (hf : f = 0#52) : ReadAs x f s (.zero s)
  | small (hx : x = 0#11) (hm : 0 < f.toNat) : ReadAs x f s (.finite s f.toNat (-1074) hm)
  | leading (hx : x ≠ 0#11) (hspecial : x ≠ -1#11) (hm : 0 < 2 ^ 52 + f.toNat) :
      ReadAs x f s (.finite s (2 ^ 52 + f.toNat) (x.toNat - 1075) hm)

theorem toNat_one_append (f : BitVec 52) : (1#1 ++ f).toNat = 2 ^ 52 + f.toNat := by
  rw [BitVec.toNat_append, ← Nat.shiftLeft_add_eq_or_of_lt f.isLt]
  rfl

theorem finite_congr {s : Sign} {m n : Nat} {e : Int} (hm : 0 < m) (h : m = n) :
    UnpackedFloat.finite s m e hm = .finite s n e (h ▸ hm) := by
  subst h
  rfl

theorem readAs_unpack (b : BitVec 64) :
    ReadAs (@unpackExponent .binary64 b) (@unpackMantissa .binary64 b)
      (Sign.ofBitVec (@unpackSign .binary64 b)) (UnpackedFloat.unpack .binary64 b) := by
  unfold UnpackedFloat.unpack
  dsimp only
  -- the exponent bits tell the two ends of the scale from the numbers with a leading one
  by_cases hspecial : @unpackExponent .binary64 b = -1#_
  · rw [if_pos hspecial]
    by_cases hinfinite : @unpackMantissa .binary64 b = 0#_
    · rw [if_pos hinfinite]
      exact .infinity hspecial hinfinite
    · rw [if_neg hinfinite]
      exact .notANumber hspecial hinfinite
  rw [if_neg hspecial]
  by_cases hsmall : @unpackExponent .binary64 b = 0#_
  · rw [if_pos hsmall]
    by_cases hzero : @unpackMantissa .binary64 b = 0#_
    · rw [dif_pos hzero]
      exact .zero hsmall hzero
    · rw [dif_neg hzero, hsmall]
      exact .small rfl _
  · rw [if_neg hsmall, finite_congr _ (toNat_one_append _)]
    exact .leading hsmall hspecial _

/-! ## Signs -/

/-- The sign of an unpacked double, if it has one. -/
def unpackedSign? : UnpackedFloat → Option Sign
  | .infinity s => some s
  | .notANumber => none
  | .zero s => some s
  | .finite s .. => some s

theorem unpackedSign?_unpack {b : BitVec 64} {s : Sign}
    (h : unpackedSign? (UnpackedFloat.unpack .binary64 b) = some s) :
    s = Sign.ofBitVec (@unpackSign .binary64 b) := by
  have hread := readAs_unpack b
  generalize UnpackedFloat.unpack .binary64 b = u at *
  cases hread with
  | notANumber => cases h
  | infinity | zero | small | leading => exact (Option.some.inj h).symm

/-- What is greater than zero has a positive sign. -/
theorem unpackedSign?_of_zero_lt {u : UnpackedFloat}
    (h : UnpackedFloat.lt (.zero .positive) u = true) : unpackedSign? u = some .positive := by
  cases u with
  | infinity s => cases s <;> first | rfl | cases h
  | notANumber => cases h
  | zero s => cases h
  | finite s m e hm => cases s <;> first | rfl | cases h

theorem unpackSign_eq_zero_iff (x : Float) :
    @unpackSign .binary64 x.toModel.toBits.toBitVec = 0#1 ↔ Decimal.signBit x = false := by
  have hbelow := x.toModel.toBits.toNat_lt
  have hhighest : (@unpackSign .binary64 x.toModel.toBits.toBitVec).toNat =
      x.toModel.toBits.toNat / 2 ^ 63 % 2 := by
    change ((x.toModel.toBits.toBitVec.extractLsb 63 63).cast _).toNat = _
    rw [BitVec.toNat_cast, BitVec.extractLsb_toNat, Nat.shiftRight_eq_div_pow]
    rfl
  have hbit : Decimal.signBit x = false ↔ ¬ x.toModel.toBits.toNat / 2 ^ 63 = 1 :=
    decide_eq_false_iff_not
  rw [hbit, ← BitVec.toNat_inj, hhighest]
  change _ % 2 = 0 ↔ _
  omega

/-- A double with a positive sign has no sign bit. -/
theorem signBit_of_positive {x : Float} (h : unpackedSign? x.toModel.unpack = some .positive) :
    Decimal.signBit x = false := by
  rw [← unpackSign_eq_zero_iff]
  have hsign := unpackedSign?_unpack h
  by_contra hne
  rw [Sign.ofBitVec, if_neg hne] at hsign
  cases hsign

/-- A double that is greater than zero has no sign bit. -/
theorem signBit_of_pos {x : Float} (h : Scalar.lt 0 x = true) : Decimal.signBit x = false := by
  have hfloat : (0.0 : Float) < x := of_decide_eq_true h
  have hmodel : (0.0 : Float).toModel < x.toModel := of_decide_eq_true hfloat
  have hzero : (0.0 : Float).toModel.unpack = .zero .positive := rfl
  have hunpacked : UnpackedFloat.lt (.zero .positive) x.toModel.unpack = true := hzero ▸ hmodel
  exact signBit_of_positive (unpackedSign?_of_zero_lt hunpacked)

/-- The exact value of a double that is greater than zero is not negative. -/
theorem nonneg_of_pos {x : Float} (h : Scalar.lt 0 x = true) {q : Rat}
    (hq : Scalar.rational? x = some q) : 0 ≤ q := by
  change Decimal.exactValue? x = some q at hq
  unfold Decimal.exactValue? at hq
  split at hq
  · cases hq
  · rw [signBit_of_pos h] at hq
    simp only [Bool.false_eq_true, if_false, Option.some.injEq] at hq
    subst hq
    split
    · exact Nat.cast_nonneg _
    · rw [Rat.mkRat_eq_div]
      positivity

end CoupledModels
