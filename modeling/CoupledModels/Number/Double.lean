import CoupledModels.Number.Scalar
import CoupledModels.Number.Binary

/-!
# Double precision scalars

The scalars that models run on.  A sum without terms is the negative zero, the only float that
leaves every other one unchanged when it is added.
-/

namespace CoupledModels

/-- A float in positional notation, with words for the values that have no digits. -/
def Decimal.textOf (x : Float) : String :=
  if x.isNaN then "NaN"
  else if x.isInf then (if Decimal.signBit x then "-inf" else "inf")
  else (Decimal.shortest x .up).positional

/-- The nearest integer; halves go away from zero.  What has no digits after the point stays as it
is, and so do the values that have no digits at all. -/
def Decimal.roundFloat (x : Float) : Float :=
  match Decimal.exactValue? x with
  | none => x
  | some q =>
      if q.den = 1 then x
      else
        let magnitude := Float.ofNat (Scalar.round q).num.natAbs
        if q < 0 then -magnitude else magnitude

instance : Scalar Float where
  zero := 0.0
  one := 1.0
  ofNat := Float.ofNat
  ofDecimal := Decimal.toFloat
  abs := Float.abs
  eqv a b := a == b
  lt a b := decide (a < b)
  isNaN := Float.isNaN
  rational? := Decimal.exactValue?
  emptySum := -0.0
  round := Decimal.roundFloat
  text := Decimal.textOf

instance : Transcendental Float where
  pow := Float.pow
  exp := Float.exp

end CoupledModels
