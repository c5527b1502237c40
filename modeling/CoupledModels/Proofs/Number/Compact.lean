import CoupledModels.Number.Double
import CoupledModels.Number.Numeral
import CoupledModels.Proofs.Text.Json
import Mathlib.Data.List.Basic
import Mathlib.Tactic.Set

/-!
# Numerals in compact form

The compact form of a decimal is a numeral of documents: there are digits on both sides of every
point, none of them is a zero that leads others, and an exponent has its sign.  So whatever float is
stored, its text is read as one number.
-/

namespace CoupledModels

open Json (Digits IsWhole IsFraction IsExponent IsMagnitude IsNumeral)

namespace Json

theorem Digits.append {ds es : List Char} (h : Digits ds) (hes : ∀ c ∈ es, c.isDigit = true) :
    Digits (ds ++ es) := by
  refine ⟨List.append_ne_nil_of_left_ne_nil h.1 es, fun c hc => ?_⟩
  exact (List.mem_append.mp hc).elim (h.2 c) (hes c)

theorem isDigit_of_mem_zeros {n : Nat} {c : Char} (h : c ∈ List.replicate n '0') :
    c.isDigit = true := by
  rw [List.eq_of_mem_replicate h]
  rfl

end Json

namespace Decimal

/-! ## Digits -/

theorem digitsOf_eq (n : Nat) : digitsOf n = Nat.toDigits 10 n := by
  rw [digitsOf, Nat.toString_eq_ofList_toDigits, String.toList_ofList]

theorem digits_digitsOf (n : Nat) : Digits (digitsOf n) := by
  rw [digitsOf_eq]
  exact ⟨Nat.toDigits_ne_nil, fun c => Nat.isDigit_of_mem_toDigits (by decide) (by decide)⟩

/-- Only zero is written with a zero in front. -/
theorem head?_digitsOf {n : Nat} (h : n ≠ 0) : (digitsOf n).head? ≠ some '0' := by
  rw [digitsOf_eq]
  induction n using Nat.strongRecOn with
  | ind n ih =>
      by_cases hn : n < 10
      · have hall : ∀ n < 10, n ≠ 0 → [n.digitChar].head? ≠ some '0' := by decide
        rw [Nat.toDigits_of_lt_base hn]
        exact hall n hn h
      · rw [Nat.toDigits_of_base_le (by decide) (by omega),
          List.head?_append_of_ne_nil _ Nat.toDigits_ne_nil]
        exact ih (n / 10) (by omega) (by omega)

theorem digits_take {n k : Nat} (hk : 0 < k) : Digits ((digitsOf n).take k) := by
  obtain ⟨hne, hds⟩ := digits_digitsOf n
  refine ⟨fun h => ?_, fun c hc => hds c (List.mem_of_mem_take hc)⟩
  exact (List.take_eq_nil_iff.mp h).elim (by omega) hne

theorem digits_drop {n k : Nat} (hk : k < (digitsOf n).length) : Digits ((digitsOf n).drop k) := by
  refine ⟨fun h => ?_, fun c hc => (digits_digitsOf n).2 c (List.mem_of_mem_drop hc)⟩
  exact absurd (List.drop_eq_nil_iff.mp h) (by omega)

theorem isWhole_take {n k : Nat} (hn : n ≠ 0) (hk : 0 < k) : IsWhole ((digitsOf n).take k) := by
  refine .inr ⟨digits_take hk, ?_⟩
  rw [List.head?_take, if_neg (by omega)]
  exact head?_digitsOf hn

theorem isWhole_append_zeros {n : Nat} (hn : n ≠ 0) (k : Nat) :
    IsWhole (digitsOf n ++ List.replicate k '0') := by
  refine .inr ⟨(digits_digitsOf n).append fun c => Json.isDigit_of_mem_zeros, ?_⟩
  rw [List.head?_append_of_ne_nil _ (digits_digitsOf n).1]
  exact head?_digitsOf hn

theorem digits_zeros_append (k n : Nat) : Digits (List.replicate k '0' ++ digitsOf n) := by
  refine ⟨List.append_ne_nil_of_right_ne_nil _ (digits_digitsOf n).1, fun c hc => ?_⟩
  exact (List.mem_append.mp hc).elim Json.isDigit_of_mem_zeros ((digits_digitsOf n).2 c)

/-! ## Forms -/

/-- Digits on both sides of a point. -/
theorem isMagnitude_point {whole ds : List Char} (hwhole : IsWhole whole) (hds : Digits ds) :
    IsMagnitude (whole ++ '.' :: ds) := by
  have h := IsMagnitude.parts hwhole (.inr ⟨ds, hds, rfl⟩) (.inl rfl)
  rwa [List.append_nil] at h

/-- An exponent is written with a sign, unless it is zero. -/
theorem isExponent_power {point : Int} (h : point ≠ 1) :
    IsExponent ('e' :: (if 1 < point then '+' :: (toString (point - 1)).toList
      else (toString (point - 1)).toList)) := by
  cases hpower : point - 1 with
  | ofNat n =>
      rw [Int.ofNat_eq_natCast] at hpower
      rw [if_pos (by omega)]
      exact .inr ⟨digitsOf n, digits_digitsOf n, .inl rfl⟩
  | negSucc n =>
      have htext : (toString (Int.negSucc n)).toList = '-' :: digitsOf (n + 1) :=
        String.toList_append
      rw [if_neg (by omega), htext]
      exact .inr ⟨digitsOf (n + 1), digits_digitsOf (n + 1), .inr rfl⟩

/-- The first digit before the point and the others after it, with an exponent. -/
theorem isMagnitude_scientific {n : Nat} (hn : n ≠ 0) {exponent : List Char}
    (h : IsExponent exponent) :
    IsMagnitude ((digitsOf n).take 1 ++
      (if ((digitsOf n).drop 1).isEmpty then [] else '.' :: (digitsOf n).drop 1) ++ exponent) := by
  refine .parts (isWhole_take hn Nat.one_pos) ?_ h
  split
  · exact .inl rfl
  · rename_i htail
    refine .inr ⟨_, ⟨by simpa using htail, fun c hc => ?_⟩, rfl⟩
    exact (digits_digitsOf n).2 c (List.mem_of_mem_drop hc)

theorem isNumeral_sign (negative : Bool) {body : List Char} (h : IsMagnitude body) :
    IsNumeral (if negative then '-' :: body else body) := by
  cases negative with
  | false => exact .positive h
  | true => exact .negative h

/-- The compact form of a decimal is a numeral. -/
theorem isNumeral_compact (d : Decimal) : IsNumeral d.compact.toList := by
  have hzero : Digits ['0'] := Json.digits_singleton rfl
  rw [compact, String.toList_ofList]
  refine isNumeral_sign d.negative ?_
  by_cases hmantissa : d.mantissa = 0
  · rw [if_pos hmantissa]
    exact isMagnitude_point (.inl rfl) hzero
  · rw [if_neg hmantissa]
    have hlength : 0 < (digitsOf d.mantissa).length :=
      List.length_pos_of_ne_nil (digits_digitsOf d.mantissa).1
    set point : Int := (digitsOf d.mantissa).length + d.exponent with hpoint
    simp only [Bool.and_eq_true, decide_eq_true_eq]
    -- the four layouts, by where the point stands among the digits
    by_cases hinteger : 0 ≤ d.exponent ∧ point ≤ 16
    · rw [if_pos hinteger]
      exact isMagnitude_point (isWhole_append_zeros hmantissa _) hzero
    rw [if_neg hinteger]
    by_cases hfraction : 0 < point ∧ point ≤ 16
    · rw [if_pos hfraction, List.append_assoc]
      exact isMagnitude_point (isWhole_take hmantissa (by omega)) (digits_drop (by omega))
    rw [if_neg hfraction]
    by_cases hsmall : -5 < point ∧ point ≤ 0
    · rw [if_pos hsmall, List.append_assoc]
      exact isMagnitude_point (.inl rfl) (digits_zeros_append _ _)
    rw [if_neg hsmall]
    exact isMagnitude_scientific hmantissa (isExponent_power (by omega))

end Decimal

/-! ## Stored numbers -/

/-- The numbers that have a numeral are the finite ones. -/
theorem isSome_write? (x : Float) : (StoredNumber.write? x).isSome = Scalar.isFinite x := by
  simp only [StoredNumber.write?, Scalar.isFinite, Scalar.rational?, Decimal.exactValue?]
  split <;> rfl

theorem isNumeral_of_write? {x : Float} {n : List Char} (h : StoredNumber.write? x = some n) :
    IsNumeral n := by
  simp only [StoredNumber.write?] at h
  split at h
  · cases h
  · cases h
    exact Decimal.isNumeral_compact _

end CoupledModels
