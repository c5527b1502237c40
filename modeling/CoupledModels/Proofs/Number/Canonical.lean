import CoupledModels.Proofs.Number.Arithmetic

/-!
# Canonical doubles

Of all ways to write a number as a mantissa and a power of two, a double is stored with one.  What has
been read is stored again without a change, and a result that is equal to a double is not rounded.
-/

namespace CoupledModels

open Float.Model (UnpackedFloat totalExponent)
open Float.Model.Format (binary64)
open Float.Model.UnpackedFloat

/-! ## Doubles as they are stored -/

theorem toBitVec_ofBitVec (v : BitVec 1) : (Sign.ofBitVec v).toBitVec = v := by
  revert v
  decide

/-- The sign, the exponent and the mantissa are all that is stored. -/
theorem packComponents_unpack (b : BitVec 64) :
    packComponents binary64 (Sign.ofBitVec (@unpackSign binary64 b)) (@unpackExponent binary64 b)
      (@unpackMantissa binary64 b) = b := by
  have hupper : b.extractLsb' 63 1 ++ b.extractLsb' 52 11 = b.extractLsb' 52 12 :=
    BitVec.extractLsb'_append_extractLsb'_eq_extractLsb' rfl
  have hall : b.extractLsb' 52 12 ++ b.extractLsb' 0 52 = b.extractLsb' 0 64 :=
    BitVec.extractLsb'_append_extractLsb'_eq_extractLsb' rfl
  change (Sign.ofBitVec (b.extractLsb' 63 1)).toBitVec ++ b.extractLsb' 52 11 ++ b.extractLsb' 0 52 = b
  rw [toBitVec_ofBitVec, hupper, hall, BitVec.extractLsb'_eq_self]

/-- A mantissa and an exponent that a double is stored with: the leading bit is missing only from the
smallest numbers. -/
structure Canonical (m : Nat) (e : Int) : Prop where
  pos : 0 < m
  lt : m < 2 ^ 53
  least : -1074 ≤ e
  greatest : e ≤ 971
  leading : 2 ^ 52 ≤ m ∨ e = -1074

theorem canonical_of_unpack {b : BitVec 64} {s : Sign} {m : Nat} {e : Int} {hm : 0 < m}
    (h : UnpackedFloat.unpack binary64 b = .finite s m e hm) : Canonical m e := by
  have hread := readAs_unpack b
  rw [h] at hread
  have hmantissa := (@unpackMantissa binary64 b).isLt
  have hexponent := (@unpackExponent binary64 b).isLt
  generalize @unpackMantissa binary64 b = f at *
  generalize @unpackExponent binary64 b = x at *
  change f.toNat < 2 ^ 52 at hmantissa
  change x.toNat < 2048 at hexponent
  cases hread with
  | small => exact ⟨hm, by omega, by decide, by decide, .inr rfl⟩
  | leading hx hspecial =>
      have hpos : x.toNat ≠ 0 := fun h => hx (BitVec.eq_of_toNat_eq h)
      have hmax : x.toNat ≠ 2047 := fun h => hspecial (BitVec.eq_of_toNat_eq h)
      exact ⟨hm, by omega, by omega, by omega, .inl (Nat.le_add_right _ _)⟩

theorem pack_small (s : Sign) (f : BitVec 52) (hm : 0 < f.toNat) :
    UnpackedFloat.pack binary64 (.finite s f.toNat (-1074) hm) = packComponents binary64 s 0#11 f := by
  have hlog := (Nat.log2_lt hm.ne').mpr f.isLt
  change (if f.toNat.log2 + 1 = 53 then _ else packComponents binary64 s 0#11 (.ofNat 52 f.toNat)) = _
  rw [if_neg (by omega), BitVec.ofNat_toNat, BitVec.setWidth_eq]

theorem pack_leading (s : Sign) {x : BitVec 11} (hx : x ≠ -1#11) (f : BitVec 52)
    (hm : 0 < 2 ^ 52 + f.toNat) :
    UnpackedFloat.pack binary64 (.finite s (2 ^ 52 + f.toNat) (x.toNat - 1075) hm) =
      packComponents binary64 s x f := by
  have hmantissa := f.isLt
  have hexponent := x.isLt
  have hmax : x.toNat ≠ 2047 := fun h => hx (BitVec.eq_of_toNat_eq h)
  have hbiased : ((x.toNat - 1075 : Int) + 1023 + 52).toNat = x.toNat := by omega
  have hlog : (2 ^ 52 + f.toNat).log2 = 52 := (Nat.log2_eq_iff hm.ne').mpr ⟨by omega, by omega⟩
  -- the leading bit is cut off
  have hcut : BitVec.ofNat 52 (2 ^ 52 + f.toNat) = f := by
    rw [← BitVec.toNat_inj, BitVec.toNat_ofNat, Nat.add_mod_left, Nat.mod_eq_of_lt f.isLt]
  unfold UnpackedFloat.pack
  dsimp only
  change (if 2048 ≤ ((x.toNat - 1075 : Int) + 1023 + 52).toNat + 1 then _
    else if (2 ^ 52 + f.toNat).log2 + 1 = 53 then
      packComponents binary64 s (.ofNat 11 ((x.toNat - 1075 : Int) + 1023 + 52).toNat)
        (.ofNat 52 (2 ^ 52 + f.toNat))
    else _) = _
  rw [hbiased, hlog, if_neg (by omega), if_pos rfl, hcut, BitVec.ofNat_toNat, BitVec.setWidth_eq]

/-- Storing what has been read gives back the same bits. -/
theorem pack_unpack {b : BitVec 64} (h : binary64.Valid b) :
    UnpackedFloat.pack binary64 (UnpackedFloat.unpack binary64 b) = b := by
  have hread := readAs_unpack b
  have hparts := packComponents_unpack b
  have hcanonical := h.eq_packedNaN
  generalize UnpackedFloat.unpack binary64 b = u at *
  generalize @unpackExponent binary64 b = x at *
  generalize @unpackMantissa binary64 b = f at *
  cases hread with
  | infinity hx hf | zero hx hf =>
      subst hx hf
      exact hparts
  | notANumber hx hf => exact (hcanonical hx hf).symm
  | small hx hm =>
      subst hx
      exact (pack_small _ f hm).trans hparts
  | leading _ hspecial hm => exact (pack_leading _ hspecial f hm).trans hparts

theorem model_ext {x y : Float.Model} (h : x.toBits = y.toBits) : x = y := by
  obtain ⟨bits, _⟩ := x
  obtain ⟨_, _⟩ := y
  subst h
  rfl

/-- A double is known from what it is read as. -/
theorem ofModel_pack {x : Float} {u : UnpackedFloat} (h : x.toModel.unpack = u) :
    Float.ofModel (.pack u) = x := by
  subst h
  exact congrArg Float.ofModel (model_ext (congrArg UInt64.ofBitVec (pack_unpack x.toModel.valid)))

/-! ## Exact rounding -/

theorem log2_mul_two_pow {m : Nat} (hm : 0 < m) (n : Nat) : (m * 2 ^ n).log2 = m.log2 + n := by
  have hpow := Nat.two_pow_pos n
  refine (Nat.log2_eq_iff (Nat.mul_pos hm hpow).ne').mpr ⟨?_, ?_⟩
  · rw [Nat.pow_add]
    exact Nat.mul_le_mul_right _ (Nat.log2_self_le hm.ne')
  · rw [Nat.add_right_comm, Nat.pow_add]
    exact Nat.mul_lt_mul_of_pos_right Nat.lt_log2_self hpow

/-- Shifting out zeros loses nothing. -/
theorem shiftRight_mul_two_pow (m n : Nat) :
    (⟨m * 2 ^ n, false, false⟩ : ExtendedMantissa) >>> n = ⟨m, false, false⟩ := by
  induction n generalizing m with
  | zero => rw [Nat.pow_zero, Nat.mul_one]; rfl
  | succ n ih =>
      have hstep : (⟨m * 2 ^ (n + 1), false, false⟩ : ExtendedMantissa) >>> (n + 1) =
          ((⟨m * 2 * 2 ^ n, false, false⟩ : ExtendedMantissa) >>> n).shiftRightOne := by
        rw [Nat.mul_assoc, ← Nat.pow_succ']
        rfl
      rw [hstep, ih]
      simp [ExtendedMantissa.shiftRightOne]

namespace Canonical

variable {m : Nat} {e : Int}

theorem targetExponent_eq (h : Canonical m e) :
    binary64.targetExponent (totalExponent m e) = e := by
  have hlt := (Nat.log2_lt h.pos.ne').mpr h.lt
  have hleast := h.least
  change max ((m.log2 : Int) + 1 + e - 53) (-1074) = e
  obtain hleading | rfl := h.leading
  · have := (Nat.le_log2 h.pos.ne').mpr hleading
    omega
  · omega

theorem shiftToTargetExponent_eq (h : Canonical m e) (n : Nat) :
    shiftToTargetExponent binary64 (m * 2 ^ n) (e - n) .exact = (⟨m, false, false⟩, e) := by
  have htotal : totalExponent (m * 2 ^ n) (e - n) = totalExponent m e := by
    rw [totalExponent, totalExponent, log2_mul_two_pow h.pos]
    omega
  have hamount : (e - (e - n)).toNat = n := by omega
  unfold shiftToTargetExponent shiftToExponent
  dsimp only
  rw [htotal, h.targetExponent_eq, hamount]
  exact Prod.ext (shiftRight_mul_two_pow m n) (Int.sub_add_cancel e n)

/-- A number that a double is stored with is not rounded, even if it is written with more bits. -/
theorem roundWithAccuracy_eq (h : Canonical m e) (s : Sign) (n : Nat) :
    roundWithAccuracy binary64 s (m * 2 ^ n) (e - n) .exact = .finite s m e h.pos := by
  have hagain : shiftToTargetExponent binary64 m e .exact = (⟨m, false, false⟩, e) := by
    have := h.shiftToTargetExponent_eq 0
    rwa [Nat.pow_zero, Nat.mul_one, Nat.cast_zero, Int.sub_zero] at this
  have hrounded : (⟨m, false, false⟩ : ExtendedMantissa).roundedMantissa = m := rfl
  unfold roundWithAccuracy
  dsimp only
  rw [h.shiftToTargetExponent_eq, hrounded, hagain]
  exact dif_neg h.pos.ne'

section Quotients

-- A quotient of whole numbers that is equal to the double.
variable (h : Canonical m e) {num den : Nat} (hnum : 0 < num) (hden : 0 < den) {p k : Nat}
  (hk : (k : Int) = e + p) (hvalue : num * 2 ^ p = m * 2 ^ k * den)

include h hnum hden hk hvalue

theorem log2_num_le : (num.log2 : Int) ≤ 53 + den.log2 + e := by
  have hproduct := Nat.mul_pos h.pos hden
  have hlt : m * den < 2 ^ (53 + (den.log2 + 1)) := by
    rw [Nat.pow_add]
    exact Nat.mul_lt_mul'' h.lt Nat.lt_log2_self
  have hlog := (Nat.log2_lt hproduct.ne').mpr hlt
  have hlogs := congrArg Nat.log2 hvalue
  rw [Nat.mul_right_comm, log2_mul_two_pow hnum, log2_mul_two_pow hproduct] at hlogs
  omega

variable (hp : 1074 ≤ p)

include hp

/-- The division appends enough zeros to the numerator for the last bit of the double. -/
theorem exists_divisionExponent :
    ∃ n : Nat, min (0 - 0) (binary64.targetExponent (totalExponent num 0 - totalExponent den 0)) =
      -(n : Int) ∧ n ≤ p ∧ 0 ≤ e + n := by
  have hleast := h.least
  have hlog := h.log2_num_le hnum hden hk hvalue
  change ∃ n : Nat, min (0 - 0) (max ((num.log2 : Int) + 1 + 0 - (den.log2 + 1 + 0) - 53) (-1074)) =
    -(n : Int) ∧ n ≤ p ∧ 0 ≤ e + n
  generalize hc : max ((num.log2 : Int) + 1 + 0 - (den.log2 + 1 + 0) - 53) (-1074) = c
  exact ⟨(-min (0 - 0) c).toNat, by omega, by omega, by omega⟩

/-- So the quotient has all bits of the double, perhaps with zeros behind them, and no rest. -/
theorem exists_divCore_eq :
    ∃ j : Nat, divCore binary64 num 0 den 0 = (m * 2 ^ j, e - j, .exact) := by
  obtain ⟨n, hn, hnp, hne⟩ := h.exists_divisionExponent hnum hden hk hvalue hp
  obtain ⟨j, hj⟩ := Int.eq_ofNat_of_zero_le hne
  have hshifted : num <<< n = m * 2 ^ j * den := by
    have hkj : k = j + (p - n) := by omega
    refine Nat.eq_of_mul_eq_mul_right (Nat.two_pow_pos (p - n)) ?_
    calc num <<< n * 2 ^ (p - n) = num * 2 ^ p := by
          rw [Nat.shiftLeft_eq, Nat.mul_assoc, ← Nat.pow_add, Nat.add_sub_of_le hnp]
      _ = m * 2 ^ k * den := hvalue
      _ = m * 2 ^ j * den * 2 ^ (p - n) := by
          rw [hkj, Nat.pow_add, ← Nat.mul_assoc, Nat.mul_right_comm]
  have hamount : (0 - 0 - -(n : Int)).toNat = n := by omega
  have hexponent : -(n : Int) = e - j := by omega
  refine ⟨j, ?_⟩
  unfold divCore
  dsimp only
  rw [hn, hamount, hshifted, Nat.mul_div_left _ hden, Nat.mul_mod_left, hexponent]
  rfl

/-- A quotient that is equal to a double is that double. -/
theorem div_eq :
    UnpackedFloat.div binary64 (.finite .positive num 0 hnum) (.finite .positive den 0 hden) =
      .finite .positive m e h.pos := by
  obtain ⟨j, hj⟩ := h.exists_divCore_eq hnum hden hk hvalue hp
  unfold UnpackedFloat.div
  dsimp only
  rw [hj]
  exact h.roundWithAccuracy_eq .positive j

end Quotients

end Canonical

end CoupledModels
