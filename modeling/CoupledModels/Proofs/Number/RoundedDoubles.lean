import CoupledModels.Number.Rounding
import CoupledModels.Proofs.Number.Arithmetic

/-!
# Rounded doubles

The exact value of a double is zero only for the two zeros.  Rounding to decimals keeps what is
undefined and what is not negative, as long as the power of ten that it scales with is finite and not
zero.
-/

namespace CoupledModels

open Float.Model (UnpackedFloat)
open Float.Model.UnpackedFloat (Sign unpackExponent unpackMantissa)

/-! ## Exact values -/

/-- Zeros are stored without a mantissa and with the smallest exponent. -/
theorem unpackedIsZero_unpack_iff (b : BitVec 64) :
    unpackedIsZero (.unpack .binary64 b) = true ↔
      @unpackExponent .binary64 b = 0#_ ∧ @unpackMantissa .binary64 b = 0#_ := by
  have hread := readAs_unpack b
  generalize UnpackedFloat.unpack .binary64 b = u at *
  cases hread with
  | zero hx hf => exact iff_of_true rfl ⟨hx, hf⟩
  | infinity hx | notANumber hx =>
      refine iff_of_false Bool.false_ne_true fun h => ?_
      exact absurd (hx.symm.trans h.1) (by decide)
  | small hx hm =>
      refine iff_of_false Bool.false_ne_true fun h => hm.ne' ?_
      rw [h.2]
      rfl
  | leading hx => exact iff_of_false Bool.false_ne_true fun h => hx h.1

namespace Double

open Scalar Decimal

variable {x : Float}

theorem binaryParts_eq_zero_iff (x : Float) : (binaryParts x).1 = 0 ↔ isZero x = true := by
  have hexponent : (@unpackExponent .binary64 x.toModel.toBits.toBitVec).toNat =
      x.toBits.toNat / 2 ^ 52 % 2 ^ 11 := by
    change ((x.toModel.toBits.toBitVec.extractLsb 62 52).cast _).toNat = _
    rw [BitVec.toNat_cast, BitVec.extractLsb_toNat, Nat.shiftRight_eq_div_pow]
    rfl
  have hmantissa : (@unpackMantissa .binary64 x.toModel.toBits.toBitVec).toNat =
      x.toBits.toNat % 2 ^ 52 := by
    change ((x.toModel.toBits.toBitVec.extractLsb 51 0).cast _).toNat = _
    rw [BitVec.toNat_cast, BitVec.extractLsb_toNat, Nat.shiftRight_zero]
    rfl
  have hzero : isZero x = true ↔ x.toBits.toNat / 2 ^ 52 % 2 ^ 11 = 0 ∧ x.toBits.toNat % 2 ^ 52 = 0 := by
    rw [isZero_eq, Float.Model.unpack, unpackedIsZero_unpack_iff, ← BitVec.toNat_inj,
      ← BitVec.toNat_inj, hexponent, hmantissa]
    rfl
  rw [hzero]
  unfold binaryParts
  change (if x.toBits.toNat / 2 ^ 52 % 2 ^ 11 = 0 then (x.toBits.toNat % 2 ^ 52, _) else
    (x.toBits.toNat % 2 ^ 52 + 2 ^ 52, _) : Nat × Int).1 = 0 ↔ _
  split <;> simp_all

theorem exactValue?_eq_zero_iff {q : Rat} (h : exactValue? x = some q) :
    q = 0 ↔ isZero x = true := by
  have hpow (n : Nat) : pow2 n ≠ 0 := (Nat.two_pow_pos n).ne'
  rw [← binaryParts_eq_zero_iff]
  unfold exactValue? at h
  split at h
  · cases h
  dsimp only at h
  generalize (binaryParts x).1 = m at h ⊢
  generalize (binaryParts x).2 = e at h
  have hvalue : (if 0 ≤ e then ((m * pow2 e.toNat : Nat) : Rat) else mkRat m (pow2 (-e).toNat)) = 0 ↔
      m = 0 := by
    split
    · rw [Nat.cast_eq_zero, Nat.mul_eq_zero, or_iff_left (hpow _)]
    · rw [Rat.mkRat_eq_zero (hpow _), Int.natCast_eq_zero]
  rw [← hvalue, ← Option.some.inj h]
  split
  · rw [neg_eq_zero]
  · rfl

theorem exactValue?_nonneg {q : Rat} (hx : le 0 x = true) (h : exactValue? x = some q) : 0 ≤ q := by
  by_cases hzero : isZero x = true
  · exact ((exactValue?_eq_zero_iff h).mpr hzero).ge
  · exact nonneg_of_pos (pos_of_nonneg hx (Bool.eq_false_iff.mpr hzero)) h

end Double

/-! ## Powers of ten and natural numbers -/

theorem unpackedSign?_mul_finite {u : UnpackedFloat} {s : Sign} (hu : unpackedSign? u = some s)
    (t : Sign) (m : Nat) (e : Int) (hm : 0 < m) :
    unpackedSign? (.mul .binary64 u (.finite t m e hm)) = some (s * t) := by
  cases u <;> cases hu
  · rfl
  · rfl
  · exact unpackedSign?_roundWithAccuracy _ _ _ _

theorem unpackedSign?_ofScientific (m : Nat) (e : Int) :
    unpackedSign? (.ofScientific .binary64 m e) = some .positive := by
  unfold UnpackedFloat.ofScientific
  refine unpackedSign?_dite (fun _ => rfl) fun _ => ?_
  refine unpackedSign?_ite (fun _ => rfl) fun _ => ?_
  refine unpackedSign?_ite (fun _ => rfl) fun _ => ?_
  refine unpackedSign?_ite (fun _ => ?_) fun _ => ?_
  · exact unpackedSign?_mul_finite (s := .positive) rfl .positive _ _ _
  · exact unpackedSign?_roundWithAccuracy _ _ _ _

theorem unpackedSign?_toFloat (n : UInt64) :
    unpackedSign? n.toFloat.toModel.unpack = some .positive := by
  change unpackedSign? (stored (.normalize .binary64 n.toNat 0 .positive)) = _
  rw [unpackedSign?_stored]
  exact unpackedSign?_normalize_of_nonneg (Int.natCast_nonneg _) 0

theorem Double.positive_powerOfTen {e : Nat}
    (h : e < Float.exactlyRepresentablePowersOfTen.size) :
    Double.Positive Float.exactlyRepresentablePowersOfTen[e] := by
  have hall : ∀ i : Fin 23, Scalar.lt 0 Float.exactlyRepresentablePowersOfTen[i] = true ∧
      Scalar.isFinite Float.exactlyRepresentablePowersOfTen[i] = true := by
    decide +kernel
  exact ⟨(hall ⟨e, h⟩).1, (hall ⟨e, h⟩).2⟩

/-- Small mantissas are scaled by one of the powers of ten that are doubles, the others are rounded. -/
theorem unpackedSign?_scientific (m : Nat) (negative : Bool) (e : Nat) :
    unpackedSign? (Float.ofScientific m negative e).toModel.unpack = some .positive := by
  unfold Float.ofScientific
  -- a quotient or a product of positive doubles is positive unless it is undefined
  split
  · rename_i hsmall
    have hpower := Double.positive_powerOfTen (e := e) (Nat.lt_succ_of_le hsmall.2)
    have hpositive := ((Double.pos_iff _).mp hpower.pos).1
    have hfactor := unpackedSign?_toFloat m.toUInt64
    have hdefined : Scalar.isNaN m.toUInt64.toFloat = false := by
      rw [Double.isNaN_eq, hfactor]
      rfl
    dsimp only
    split
    · have hquotient := Double.sign_ne_none ((hpower.isNaN_div _).trans hdefined)
      rw [unpack_div, unpackedSign?_stored] at hquotient ⊢
      exact unpackedSign?_div hfactor hpositive hquotient
    · have hproduct := Double.sign_ne_none ((hpower.isNaN_mul _).trans hdefined)
      rw [unpack_mul, unpackedSign?_stored] at hproduct ⊢
      exact unpackedSign?_mul hfactor hpositive hproduct
  · change unpackedSign? (stored (.ofScientific .binary64 m (if negative then _ else _))) = _
    rw [unpackedSign?_stored]
    exact unpackedSign?_ofScientific m _

theorem unpackedSign?_ofNat (n : Nat) :
    unpackedSign? (Float.ofNat n).toModel.unpack = some .positive :=
  unpackedSign?_scientific n false 0

/-! ## Rounding -/

namespace Double

open Scalar Decimal

variable {x : Float}

theorem nonneg_ofNat (n : Nat) : le 0 (Float.ofNat n) = true :=
  (nonneg_iff _).mpr (.positive (unpackedSign?_ofNat n))

theorem isNaN_round (x : Float) : isNaN (Scalar.round x) = isNaN x := by
  change isNaN (roundFloat x) = _
  unfold roundFloat
  split
  · rfl
  rename_i q hq
  split
  · rfl
  have hfinite : isFinite x = true := congrArg Option.isSome hq
  have hdefined := isNaN_of_nonneg (nonneg_ofNat (Scalar.round q).num.natAbs)
  dsimp only
  rw [isNaN_of_isFinite hfinite]
  split
  · rw [isNaN_neg, hdefined]
  · exact hdefined

theorem nonneg_round (hx : le 0 x = true) : le 0 (Scalar.round x) = true := by
  change le 0 (roundFloat x) = true
  unfold roundFloat
  split
  · exact hx
  rename_i q hq
  split
  · exact hx
  dsimp only
  rw [if_neg (exactValue?_nonneg hx hq).not_gt]
  exact nonneg_ofNat _

section Decimals

variable {digits : UInt32} (h : Positive (power (ofNat 10) (decimalsExponent digits)))

include h

theorem isNaN_roundTo (x : Float) : isNaN (Scalar.roundTo digits x) = isNaN x := by
  unfold roundTo
  dsimp only
  rw [h.isNaN_div, isNaN_round, h.isNaN_mul]

theorem nonneg_roundTo (hx : le 0 x = true) : le 0 (roundTo digits x) = true := by
  have hdefined := isNaN_of_nonneg hx
  have hscaled := nonneg_mul hx h.nonneg ((h.isNaN_mul x).trans hdefined)
  exact nonneg_div (nonneg_round hscaled) h.pos ((isNaN_roundTo h x).trans hdefined)

end Decimals

/-- Two decimals are scaled with a hundred. -/
theorem positive_hundred : Positive (power (ofNat 10) (decimalsExponent 2)) := by
  have hhundred : power (ofNat 10) (decimalsExponent 2) = (100.0 : Float) := by decide +kernel
  rw [hhundred]
  exact ⟨by decide +kernel, by decide +kernel⟩

end Double

end CoupledModels
