import Mathlib.Algebra.Field.Rat
import Mathlib.Algebra.Order.Ring.Abs
import Mathlib.Algebra.Order.Ring.Rat
import CoupledModels.Number.Scalar

/-!
# Exact numbers with an undefined one

The rationals with one more number that stands for results that are not defined.  As on floating
point it makes every result undefined that it takes part in, and compares with nothing.  There are no
infinite numbers, so quotients by zero are undefined too.
-/

namespace CoupledModels

theorem Scalar.abs_rat (q : Rat) : Scalar.abs q = |q| := by
  simp only [Scalar.abs]
  split
  · exact (abs_of_neg ‹_›).symm
  · exact (abs_of_nonneg (not_lt.mp ‹_›)).symm

theorem Scalar.sum_rat (xs : List Rat) : Scalar.sum xs = xs.sum := by
  have hfold : ∀ (xs : List Rat) (acc : Rat), xs.foldl (· + ·) acc = acc + xs.sum := by
    intro xs
    induction xs with
    | nil => exact fun acc => (add_zero acc).symm
    | cons v xs ih => exact fun acc => by rw [List.foldl_cons, ih, List.sum_cons, add_assoc]
  exact (hfold xs 0).trans (zero_add _)

/-- A rational number, or the undefined number. -/
inductive Exact where
  | rational (q : Rat)
  | undefined
deriving DecidableEq, Repr

namespace Exact

/-- A function of a rational number. -/
def map (f : Rat → Rat) : Exact → Exact
  | rational q => rational (f q)
  | undefined => undefined

/-- A function of two rational numbers. -/
def map₂ (f : Rat → Rat → Rat) : Exact → Exact → Exact
  | rational p, rational q => rational (f p q)
  | _, _ => undefined

/-- A comparison of two rational numbers. -/
def compares (r : Rat → Rat → Bool) : Exact → Exact → Bool
  | rational p, rational q => r p q
  | _, _ => false

/-- The quotient, unless it is one by zero. -/
def quotient (a b : Exact) : Exact :=
  if b = rational 0 then undefined else map₂ (· / ·) a b

instance : Scalar Exact where
  zero := rational 0
  one := rational 1
  add := map₂ (· + ·)
  sub := map₂ (· - ·)
  mul := map₂ (· * ·)
  div := quotient
  neg := map (- ·)
  ofNat n := rational (Scalar.ofNat n)
  ofDecimal d := rational (Scalar.ofDecimal d)
  abs := map Scalar.abs
  eqv := compares Scalar.eqv
  lt := compares Scalar.lt
  isNaN a := a = undefined
  rational?
    | rational q => some q
    | undefined => none
  emptySum := rational 0
  round := map Scalar.round
  text
    | rational q => Scalar.text q
    | undefined => "NaN"

variable {p q : Rat}

@[simp] theorem zero_eq : (0 : Exact) = rational 0 := rfl

@[simp] theorem isNaN_rational : Scalar.isNaN (rational q) = false := rfl

@[simp] theorem isNaN_undefined : Scalar.isNaN undefined = true := rfl

@[simp] theorem isFinite_rational : Scalar.isFinite (rational q) = true := rfl

@[simp] theorem lt_rational : Scalar.lt (rational p) (rational q) = decide (p < q) := rfl

@[simp] theorem isZero_rational : Scalar.isZero (rational q) = decide (q = 0) := rfl

@[simp] theorem le_rational : Scalar.le (rational p) (rational q) = decide (p ≤ q) := by
  have hle : (decide (p < q) || decide (p = q)) = decide (p ≤ q) := by
    rw [← Bool.decide_or, decide_eq_decide]
    exact le_iff_lt_or_eq.symm
  exact hle

@[simp] theorem abs_rational : Scalar.abs (rational q) = rational |q| :=
  congrArg rational (Scalar.abs_rat q)

@[simp] theorem sub_rational : rational p - rational q = rational (p - q) := rfl

theorem div_rational (hq : q ≠ 0) : rational p / rational q = rational (p / q) :=
  if_neg fun h => hq (rational.inj h)

end Exact

end CoupledModels
