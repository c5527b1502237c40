import CoupledModels.Proofs.Number.Doubles

/-!
# Arithmetic of doubles

An operation works on unpacked doubles and stores what comes out.  Storing can make a number zero or
infinite, but it changes no sign and makes nothing undefined.  So it is known beforehand which
products and quotients are undefined, and what is computed from numbers that are not negative is not
negative either.
-/

namespace CoupledModels

open Float.Model (UnpackedFloat)
open Float.Model.UnpackedFloat (Sign Accuracy unpackSign packComponents
  unpackExponent_packComponents unpackMantissa_packComponents)

/-! ## Scalars -/

namespace Scalar

variable {K : Type} [Scalar K]

/-- Neither finite nor undefined. -/
def isInfinite (a : K) : Bool :=
  !isNaN a && !isFinite a

/-- A factor that is zero and one that is infinite. -/
def clash (a b : K) : Bool :=
  isZero a && isInfinite b || isInfinite a && isZero b

protected theorem le_of_lt {a b : K} (h : lt a b = true) : le a b = true := by
  rw [le, h, Bool.true_or]

/-- What holds of the sum without terms and of all numbers of a list holds of their sum, if it is
kept by addition. -/
theorem sum_induction {P : K → Prop} {xs : List K} (hempty : P emptySum)
    (hadd : ∀ {a b : K}, P a → P b → P (a + b)) (h : ∀ x ∈ xs, P x) : P (sum xs) :=
  List.foldlRecOn xs (· + ·) hempty fun _ hacc x hx => hadd hacc (h x hx)

end Scalar

/-! ## Storing -/

/-- What an unpacked double is once it has been stored. -/
def stored (u : UnpackedFloat) : UnpackedFloat :=
  .unpack .binary64 (UnpackedFloat.pack .binary64 u)

theorem unpackedSign?_dite {p : Prop} [Decidable p] {u : p → UnpackedFloat}
    {v : ¬ p → UnpackedFloat} {s : Sign} (hu : ∀ h, unpackedSign? (u h) = some s)
    (hv : ∀ h, unpackedSign? (v h) = some s) : unpackedSign? (dite p u v) = some s := by
  split
  · exact hu _
  · exact hv _

theorem unpackedSign?_ite {p : Prop} [Decidable p] {u v : UnpackedFloat} {s : Sign}
    (hu : p → unpackedSign? u = some s) (hv : ¬ p → unpackedSign? v = some s) :
    unpackedSign? (if p then u else v) = some s :=
  unpackedSign?_dite hu hv

theorem sign_packComponents (s : Sign) (e : BitVec 11) (m : BitVec 52) :
    Sign.ofBitVec (@unpackSign .binary64 (packComponents .binary64 s e m)) = s := by
  have hbit : @unpackSign .binary64 (packComponents .binary64 s e m) = s.toBitVec := by
    change (s.toBitVec ++ e ++ m).extractLsb' 63 1 = s.toBitVec
    rw [BitVec.extractLsb'_append_eq_of_le (by decide),
      BitVec.extractLsb'_append_eq_of_le (by decide)]
    cases s <;> rfl
  rw [hbit]
  cases s <;> rfl

/-- Bits that do not have the greatest exponent have the sign that they were put together with. -/
theorem unpackedSign?_packComponents (s : Sign) {e : BitVec 11} (he : e ≠ -1#11) (m : BitVec 52) :
    unpackedSign? (.unpack .binary64 (packComponents .binary64 s e m)) = some s := by
  have hread := readAs_unpack (packComponents .binary64 s e m)
  rw [unpackExponent_packComponents, unpackMantissa_packComponents, sign_packComponents] at hread
  generalize UnpackedFloat.unpack .binary64 (packComponents .binary64 s e m) = u at *
  cases hread with
  | infinity hx | notANumber hx => exact absurd hx he
  | zero | small | leading => rfl

/-- Storing changes no sign and makes nothing undefined. -/
theorem unpackedSign?_stored (u : UnpackedFloat) : unpackedSign? (stored u) = unpackedSign? u := by
  cases u with
  | infinity s => cases s <;> rfl
  | notANumber => rfl
  | zero s => cases s <;> rfl
  | finite s m e hm =>
      change unpackedSign? (stored (.finite s m e hm)) = some s
      unfold stored UnpackedFloat.pack
      dsimp only
      split
      · cases s <;> rfl
      rename_i hsmall
      split
      · -- the greatest exponent has just been excluded, and a smaller one is stored as it is
        refine unpackedSign?_packComponents s (fun h => hsmall ?_) _
        have hnat := congrArg BitVec.toNat h
        rw [BitVec.toNat_ofNat] at hnat
        change _ % 2048 = 2047 at hnat
        change 2048 ≤ _ + 1
        omega
      · exact unpackedSign?_packComponents s (by decide) _

theorem stored_zero (s : Sign) : stored (.zero s) = .zero s := by
  cases s <;> rfl

theorem stored_infinity (s : Sign) : stored (.infinity s) = .infinity s := by
  cases s <;> rfl

section Operations

variable (x y : Float)

theorem unpack_add :
    (x + y).toModel.unpack = stored (.add .binary64 x.toModel.unpack y.toModel.unpack) := rfl

theorem unpack_sub :
    (x - y).toModel.unpack = stored (.sub .binary64 x.toModel.unpack y.toModel.unpack) := rfl

theorem unpack_mul :
    (x * y).toModel.unpack = stored (.mul .binary64 x.toModel.unpack y.toModel.unpack) := rfl

theorem unpack_div :
    (x / y).toModel.unpack = stored (.div .binary64 x.toModel.unpack y.toModel.unpack) := rfl

theorem unpack_neg : (-x).toModel.unpack = stored x.toModel.unpack.neg := rfl

end Operations

/-! ## Signs of results -/

section Signs

variable {u v : UnpackedFloat} {s t : Sign}

theorem unpackedSign?_roundWithAccuracy (s : Sign) (m : Nat) (e : Int) (a : Accuracy) :
    unpackedSign? (.roundWithAccuracy .binary64 s m e a) = some s := by
  unfold UnpackedFloat.roundWithAccuracy
  exact unpackedSign?_dite (fun _ => rfl) fun _ => rfl

theorem exists_unpackedSign?_normalize (m e : Int) (s : Sign) :
    ∃ t, unpackedSign? (.normalize .binary64 m e s) = some t := by
  unfold UnpackedFloat.normalize
  split
  · exact ⟨_, unpackedSign?_roundWithAccuracy _ _ _ _⟩
  · exact ⟨_, rfl⟩
  · exact ⟨_, unpackedSign?_roundWithAccuracy _ _ _ _⟩

theorem unpackedSign?_normalize_of_nonneg {m : Int} (hm : 0 ≤ m) (e : Int) :
    unpackedSign? (.normalize .binary64 m e .positive) = some .positive := by
  unfold UnpackedFloat.normalize
  split
  · rename_i hneg
    rw [Int.compare_eq_lt] at hneg
    omega
  · rfl
  · exact unpackedSign?_roundWithAccuracy _ _ _ _

theorem unpackedSign?_mul (hu : unpackedSign? u = some s) (hv : unpackedSign? v = some t)
    (h : unpackedSign? (.mul .binary64 u v) ≠ none) :
    unpackedSign? (.mul .binary64 u v) = some (s * t) := by
  cases u <;> cases hu <;> cases v <;> cases hv
  all_goals first | exact absurd rfl h | rfl | exact unpackedSign?_roundWithAccuracy _ _ _ _

theorem unpackedSign?_div (hu : unpackedSign? u = some s) (hv : unpackedSign? v = some t)
    (h : unpackedSign? (.div .binary64 u v) ≠ none) :
    unpackedSign? (.div .binary64 u v) = some (s / t) := by
  cases u <;> cases hu <;> cases v <;> cases hv
  all_goals first | exact absurd rfl h | rfl | exact unpackedSign?_roundWithAccuracy _ _ _ _

end Signs

/-! ## Zeros, infinite numbers and undefined ones -/

/-- Zero of either sign. -/
def unpackedIsZero : UnpackedFloat → Bool
  | .zero _ => true
  | _ => false

namespace Double

open Scalar

section

variable (x y : Float)

/-- What has no sign is undefined. -/
theorem isNaN_eq : isNaN x = (unpackedSign? x.toModel.unpack).isNone := by
  change x.toModel.unpack.isNaN = _
  cases x.toModel.unpack <;> rfl

theorem isFinite_eq :
    isFinite x = !(x.toModel.unpack.isNaN || x.toModel.unpack.isInf) := by
  change (Decimal.exactValue? x).isSome = _
  unfold Decimal.exactValue?
  change (if (x.toModel.unpack.isNaN || x.toModel.unpack.isInf) = true then none else _).isSome = _
  cases x.toModel.unpack <;> rfl

theorem isInfinite_eq : isInfinite x = x.toModel.unpack.isInf := by
  change (!x.toModel.unpack.isNaN && !isFinite x) = _
  rw [isFinite_eq]
  cases x.toModel.unpack <;> rfl

theorem unpack_zero : (0 : Float).toModel.unpack = .zero .positive := rfl

theorem isZero_eq : isZero x = unpackedIsZero x.toModel.unpack := by
  change (x.toModel.unpack.compare (0 : Float).toModel.unpack == some .eq) = _
  rw [unpack_zero]
  generalize x.toModel.unpack = u
  rcases u with s | _ | _ | s
  · cases s <;> rfl
  · rfl
  · rfl
  · cases s <;> rfl

/-- A product is undefined if a factor is, and if a zero meets an infinite factor. -/
theorem isNaN_mul : isNaN (x * y) = (isNaN x || isNaN y || clash x y) := by
  simp only [clash, isNaN_eq, isZero_eq, isInfinite_eq, unpack_mul, unpackedSign?_stored]
  cases x.toModel.unpack <;> cases y.toModel.unpack <;> try rfl
  exact congrArg Option.isNone (unpackedSign?_roundWithAccuracy _ _ _ _)

theorem isNaN_div : isNaN (x / y) =
    (isNaN x || isNaN y || isZero x && isZero y || isInfinite x && isInfinite y) := by
  simp only [isNaN_eq, isZero_eq, isInfinite_eq, unpack_div, unpackedSign?_stored]
  cases x.toModel.unpack <;> cases y.toModel.unpack <;> try rfl
  exact congrArg Option.isNone (unpackedSign?_roundWithAccuracy _ _ _ _)

theorem isNaN_neg : isNaN (-x) = isNaN x := by
  simp only [isNaN_eq, unpack_neg, unpackedSign?_stored]
  cases x.toModel.unpack <;> rfl

end

variable {x y : Float}

theorem isNaN_of_isFinite (h : isFinite x = true) : isNaN x = false := by
  rw [isFinite_eq] at h
  rw [isNaN_eq]
  generalize x.toModel.unpack = u at *
  cases u <;> first | rfl | cases h

theorem isNaN_add_of_or (h : isNaN x = true ∨ isNaN y = true) : isNaN (x + y) = true := by
  simp only [isNaN_eq, unpack_add, unpackedSign?_stored] at *
  generalize x.toModel.unpack = u at *
  generalize y.toModel.unpack = v at *
  cases u <;> cases v <;> first | rfl | (rcases h with h | h <;> cases h)

theorem isNaN_sub_of_finite (hx : isNaN x = false) (hy : isNaN y = false)
    (hfinite : isInfinite y = false) : isNaN (x - y) = false := by
  simp only [isNaN_eq, isInfinite_eq, unpack_sub, unpackedSign?_stored] at *
  generalize x.toModel.unpack = u at *
  generalize y.toModel.unpack = v at *
  cases u <;> cases hx <;> cases v <;> cases hy <;> cases hfinite <;> try rfl
  · unfold UnpackedFloat.sub
    dsimp only
    split <;> rfl
  · obtain ⟨t, ht⟩ := exists_unpackedSign?_normalize _ _ _
    exact congrArg Option.isNone ht

end Double

/-! ## Numbers that are not negative -/

/-- Zeros of both signs, and whatever has a positive sign. -/
inductive IsNonneg : UnpackedFloat → Prop
  | zero (s : Sign) : IsNonneg (.zero s)
  | positive {u : UnpackedFloat} (h : unpackedSign? u = some .positive) : IsNonneg u

namespace IsNonneg

variable {u v : UnpackedFloat}

theorem stored (h : IsNonneg u) : IsNonneg (stored u) := by
  cases h with
  | zero s =>
      rw [stored_zero]
      exact .zero s
  | positive h => exact .positive ((unpackedSign?_stored u).trans h)

theorem add (hu : IsNonneg u) (hv : IsNonneg v) : IsNonneg (.add .binary64 u v) := by
  rcases hu with s | hu
  · rcases hv with t | hv
    -- the sum of two zeros is a zero of either sign
    · cases s <;> cases t <;> exact .zero _
    · cases v <;> cases hv
      · exact .positive rfl
      · cases s <;> exact .zero _
      · exact .positive rfl
  rcases hv with t | hv
  · cases u <;> cases hu
    · exact .positive rfl
    · cases t <;> exact .zero _
    · exact .positive rfl
  refine .positive ?_
  cases u <;> cases hu <;> cases v <;> cases hv <;> try rfl
  exact unpackedSign?_normalize_of_nonneg
    (Int.add_nonneg (Int.natCast_nonneg _) (Int.natCast_nonneg _)) _

theorem infinity_add {s : Sign} (hu : IsNonneg (.infinity s)) (hv : IsNonneg v) :
    UnpackedFloat.add .binary64 (.infinity s) v = .infinity s := by
  cases hu with
  | positive hs =>
      cases hs
      cases hv with
      | zero t => rfl
      | positive hv => cases v <;> cases hv <;> rfl

theorem add_infinity {s : Sign} (hu : IsNonneg u) (hv : IsNonneg (.infinity s)) :
    UnpackedFloat.add .binary64 u (.infinity s) = .infinity s := by
  cases hv with
  | positive hs =>
      cases hs
      cases hu with
      | zero t => rfl
      | positive hu => cases u <;> cases hu <;> rfl

theorem mul (hu : IsNonneg u) (hv : IsNonneg v)
    (h : unpackedSign? (.mul .binary64 u v) ≠ none) : IsNonneg (.mul .binary64 u v) := by
  rcases hu with s | hu
  · cases v <;> first | exact .zero _ | exact absurd rfl h
  rcases hv with t | hv
  · cases u <;> first | exact .zero _ | exact absurd rfl h
  · exact .positive (unpackedSign?_mul hu hv h)

theorem div (hu : IsNonneg u) (hv : unpackedSign? v = some .positive)
    (h : unpackedSign? (.div .binary64 u v) ≠ none) : IsNonneg (.div .binary64 u v) := by
  rcases hu with s | hu
  · cases v <;> first | exact .zero _ | exact absurd rfl h
  · exact .positive (unpackedSign?_div hu hv h)

end IsNonneg

namespace Double

open Scalar

section

variable (x y : Float)

theorem lt_eq : lt x y = UnpackedFloat.lt x.toModel.unpack y.toModel.unpack :=
  Bool.eq_iff_iff.mpr (decide_eq_true_iff.trans decide_eq_true_iff)

theorem pos_iff : lt 0 x = true ↔
    unpackedSign? x.toModel.unpack = some .positive ∧ isZero x = false := by
  rw [lt_eq, unpack_zero, isZero_eq]
  generalize x.toModel.unpack = u
  refine ⟨fun h => ⟨unpackedSign?_of_zero_lt h, ?_⟩, fun ⟨hsign, hzero⟩ => ?_⟩
  · cases u <;> first | rfl | cases h
  · cases u <;> cases hsign <;> first | rfl | cases hzero

theorem nonneg_iff : le 0 x = true ↔ IsNonneg x.toModel.unpack := by
  have heqv : eqv 0 x = UnpackedFloat.beq (.zero .positive) x.toModel.unpack := rfl
  unfold le
  rw [Bool.or_eq_true, pos_iff, isZero_eq, heqv]
  generalize x.toModel.unpack = u
  constructor
  · rintro (⟨hsign, -⟩ | hzero)
    · exact .positive hsign
    · rcases u with s | _ | s | s <;> first | exact .zero _ | (cases s <;> cases hzero) | cases hzero
  · rintro (s | hsign)
    · exact .inr rfl
    · cases u <;> cases hsign <;> first | exact .inr rfl | exact .inl ⟨rfl, rfl⟩

end

variable {x y : Float}

theorem isNaN_of_nonneg (h : le 0 x = true) : isNaN x = false := by
  rw [nonneg_iff] at h
  rw [isNaN_eq]
  generalize x.toModel.unpack = u at h
  rcases h with s | h
  · rfl
  · exact congrArg Option.isNone h

theorem pos_of_nonneg (h : le 0 x = true) (hzero : isZero x = false) : lt 0 x = true := by
  rw [pos_iff]
  refine ⟨?_, hzero⟩
  rw [nonneg_iff] at h
  rw [isZero_eq] at hzero
  generalize x.toModel.unpack = u at h hzero
  cases h with
  | zero s => cases hzero
  | positive h => exact h

/-- Of the numbers that are defined only those that are at most zero are not positive. -/
theorem pos_of_not_le (hdefined : isNaN x = false) (h : le x 0 = false) : lt 0 x = true := by
  have heqv : eqv x 0 = isZero x := rfl
  unfold le at h
  rw [lt_eq, unpack_zero, heqv, isZero_eq] at h
  rw [isNaN_eq] at hdefined
  rw [pos_iff, isZero_eq]
  generalize x.toModel.unpack = u at *
  rcases u with s | _ | s | s
  · cases s
    · cases h
    · exact ⟨rfl, rfl⟩
  · cases hdefined
  · cases s <;> cases h
  · cases s
    · cases h
    · exact ⟨rfl, rfl⟩

theorem sign_ne_none (h : isNaN x = false) : unpackedSign? x.toModel.unpack ≠ none := by
  intro hnone
  rw [isNaN_eq, hnone] at h
  cases h

theorem nonneg_add (hx : le 0 x = true) (hy : le 0 y = true) : le 0 (x + y) = true := by
  rw [nonneg_iff] at *
  exact (hx.add hy).stored

theorem nonneg_mul (hx : le 0 x = true) (hy : le 0 y = true) (h : isNaN (x * y) = false) :
    le 0 (x * y) = true := by
  have hsign := sign_ne_none h
  rw [nonneg_iff] at *
  rw [unpack_mul, unpackedSign?_stored] at hsign
  exact (hx.mul hy hsign).stored

theorem nonneg_div (hx : le 0 x = true) (hy : lt 0 y = true) (h : isNaN (x / y) = false) :
    le 0 (x / y) = true := by
  have hsign := sign_ne_none h
  rw [nonneg_iff] at *
  rw [unpack_div, unpackedSign?_stored] at hsign
  exact (hx.div ((pos_iff y).mp hy).1 hsign).stored

/-- Greater than zero and finite. -/
structure Positive (x : Float) : Prop where
  pos : lt 0 x = true
  finite : isFinite x = true

namespace Positive

/-- What is finite and not at most zero is greater. -/
theorem of_not_le (hfinite : isFinite x = true) (h : le x 0 = false) : Positive x :=
  ⟨pos_of_not_le (isNaN_of_isFinite hfinite) h, hfinite⟩

theorem nonneg (h : Positive x) : le 0 x = true :=
  Scalar.le_of_lt h.pos

theorem isNaN_eq_false (h : Positive x) : isNaN x = false :=
  isNaN_of_isFinite h.finite

theorem isZero_eq_false (h : Positive x) : isZero x = false :=
  ((pos_iff x).mp h.pos).2

theorem isInfinite_eq_false (h : Positive x) : isInfinite x = false := by
  rw [isInfinite, h.finite, Bool.not_true, Bool.and_false]

/-- A positive finite factor leaves it to the other one whether the product is undefined. -/
theorem isNaN_mul (h : Positive y) (x : Float) : isNaN (x * y) = isNaN x := by
  rw [Double.isNaN_mul, clash, h.isNaN_eq_false, h.isZero_eq_false, h.isInfinite_eq_false]
  simp

theorem isNaN_div (h : Positive y) (x : Float) : isNaN (x / y) = isNaN x := by
  rw [Double.isNaN_div, h.isNaN_eq_false, h.isZero_eq_false, h.isInfinite_eq_false]
  simp

end Positive

/-! ## Sums -/

theorem isZero_add (hx : isZero x = true) (hy : isZero y = true) : isZero (x + y) = true := by
  simp only [isZero_eq, unpack_add] at *
  generalize x.toModel.unpack = u at *
  generalize y.toModel.unpack = v at *
  cases u with
  | zero s =>
      cases v with
      | zero t => cases s <;> cases t <;> exact congrArg unpackedIsZero (stored_zero _)
      | _ => cases hy
  | _ => cases hx

theorem isInfinite_add (hx : le 0 x = true) (hy : le 0 y = true)
    (h : isInfinite x = true ∨ isInfinite y = true) : isInfinite (x + y) = true := by
  rw [nonneg_iff] at hx hy
  simp only [isInfinite_eq, unpack_add] at *
  generalize x.toModel.unpack = u at *
  generalize y.toModel.unpack = v at *
  rcases h with h | h
  · cases u <;> cases h
    rw [hx.infinity_add hy, stored_infinity]
    rfl
  · cases v <;> cases h
    rw [hx.add_infinity hy, stored_infinity]
    rfl

variable {xs : List Float} {acc : Float}

theorem isNaN_foldl_add (h : isNaN acc = true ∨ ∃ x ∈ xs, isNaN x = true) :
    isNaN (xs.foldl (· + ·) acc) = true := by
  induction xs generalizing acc with
  | nil => simpa using h
  | cons x xs ih =>
      rw [List.exists_mem_cons_iff, ← or_assoc] at h
      exact ih (h.imp_left isNaN_add_of_or)

theorem isInfinite_foldl_add (hacc : le 0 acc = true) (h : ∀ x ∈ xs, le 0 x = true)
    (hinfinite : isInfinite acc = true ∨ ∃ x ∈ xs, isInfinite x = true) :
    isInfinite (xs.foldl (· + ·) acc) = true := by
  induction xs generalizing acc with
  | nil => simpa using hinfinite
  | cons x xs ih =>
      obtain ⟨hx, hxs⟩ := List.forall_mem_cons.mp h
      rw [List.exists_mem_cons_iff, ← or_assoc] at hinfinite
      exact ih (nonneg_add hacc hx) hxs (hinfinite.imp_left (isInfinite_add hacc hx))

/-- A sum begins with the negative zero. -/
theorem emptySum_eq : (emptySum : Float).toModel.unpack = .zero .negative := rfl

theorem nonneg_emptySum : le 0 (emptySum : Float) = true :=
  (nonneg_iff _).mpr (emptySum_eq ▸ .zero _)

theorem isNaN_sum (h : ∃ x ∈ xs, isNaN x = true) : isNaN (sum xs) = true :=
  isNaN_foldl_add (.inr h)

theorem nonneg_sum (h : ∀ x ∈ xs, le 0 x = true) : le 0 (sum xs) = true :=
  sum_induction (P := fun x : Float => le 0 x = true) nonneg_emptySum nonneg_add h

theorem isZero_sum (h : ∀ x ∈ xs, isZero x = true) : isZero (sum xs) = true := by
  have hempty : isZero (emptySum : Float) = true := by
    rw [isZero_eq, emptySum_eq]
    rfl
  exact sum_induction (P := fun x : Float => isZero x = true) hempty isZero_add h

theorem isInfinite_sum (h : ∀ x ∈ xs, le 0 x = true) (hinfinite : ∃ x ∈ xs, isInfinite x = true) :
    isInfinite (sum xs) = true :=
  isInfinite_foldl_add nonneg_emptySum h (.inr hinfinite)

end Double

end CoupledModels
