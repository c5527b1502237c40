import CoupledModels.Number.Scalar

/-!
# Rounding to decimals

Values are written to storage with a fixed number of decimals: the value is scaled by a power of
ten, rounded to an integer and scaled back.  The number of decimals is a 32-bit count that is read
as a signed exponent, so counts from `2 ^ 31` on scale by a negative power.
-/

namespace CoupledModels.Scalar

variable {K : Type} [Scalar K]

/-- Multiplies the squares of `a` that the binary digits of `n` select into `acc`, lowest first. -/
def powerInto (a : K) (n : Nat) (acc : K) : K :=
  let acc := if n % 2 = 1 then acc * a else acc
  if n / 2 = 0 then acc else powerInto (a * a) (n / 2) acc
termination_by n
decreasing_by omega

/-- Integer power by repeated squaring; a negative exponent takes the reciprocal at the end. -/
def power (a : K) (e : Int) : K :=
  let r := powerInto a e.natAbs 1
  if e < 0 then 1 / r else r

/-- The exponent that a number of decimals stands for. -/
def decimalsExponent (digits : UInt32) : Int :=
  digits.toInt32.toInt

/-- Rounds to a number of decimals, halves away from zero. -/
def roundTo (digits : UInt32) (v : K) : K :=
  let f := power (ofNat 10) (decimalsExponent digits)
  round (v * f) / f

end CoupledModels.Scalar
