import CoupledModels.Number.Decimal

/-!
# Scalars

The arithmetic that models are computed with.  Everything numeric in this library is written over
an arbitrary scalar type, so the same definitions run on binary floating point and are reasoned
about over exact rationals.

The class asks for operations only.  It has no laws: on floating point none of the usual ones hold.
-/

namespace CoupledModels

/-- Numbers that the coefficients, parameters and solutions of a model are made of. -/
class Scalar (K : Type) extends Zero K, One K, Add K, Sub K, Mul K, Div K, Neg K where
  /-- The number nearest to a natural number. -/
  ofNat : Nat → K
  /-- The number nearest to a numeral. -/
  ofDecimal : Decimal → K
  /-- Magnitude. -/
  abs : K → K
  /-- Equality of value; an undefined number equals nothing. -/
  eqv : K → K → Bool
  /-- Strictly smaller; false if either number is undefined. -/
  lt : K → K → Bool
  /-- The undefined number is the only one that answers true. -/
  isNaN : K → Bool
  /-- The exact value of a finite number. -/
  rational? : K → Option Rat
  /-- The value of a sum without terms. -/
  emptySum : K
  /-- The nearest integer; halves go away from zero. -/
  round : K → K
  /-- The number as messages write it. -/
  text : K → String

/-- Functions that are evaluated by an outside library and taken as given. -/
class Transcendental (K : Type) where
  /-- Power with a real exponent. -/
  pow : K → K → K
  /-- The exponential function. -/
  exp : K → K

namespace Scalar

variable {K : Type} [Scalar K]

/-- Smaller or of equal value; false if either number is undefined. -/
def le (a b : K) : Bool :=
  lt a b || eqv a b

/-- Zero of either sign. -/
def isZero (a : K) : Bool :=
  eqv a 0

/-- Neither infinite nor undefined. -/
def isFinite (a : K) : Bool :=
  (rational? a).isSome

/-- Finite, and without a fractional part. -/
def isInteger (a : K) : Bool :=
  match rational? a with
  | some q => q.den == 1
  | none => false

/-- The larger of two numbers; an undefined one gives way to the other. -/
def max (a b : K) : K :=
  if isNaN a then b else if lt a b then b else a

/-- Compares magnitudes in an order where an undefined number is the largest. -/
def magnitudeLe (a b : K) : Bool :=
  isNaN b || le (abs a) (abs b)

/-- Adds up a list from the left, starting from the sum without terms. -/
def sum (xs : List K) : K :=
  xs.foldl (· + ·) emptySum

/-- Cuts an exact value down to an integer, toward zero. -/
def truncate (q : Rat) : Int :=
  q.num.tdiv q.den

/-- Clamps an integer into a range. -/
def clamp (lo hi i : Int) : Int :=
  if i < lo then lo else if hi < i then hi else i

/-- The number cut toward zero and clamped into `lo … hi`; an undefined number gives zero. -/
def truncateInto (lo hi : Int) (a : K) : Int :=
  match rational? a with
  | some q => clamp lo hi (truncate q)
  | none => if isNaN a then 0 else if lt 0 a then hi else lo

/-- The count that a number stands for, in 64 bits. -/
def toCount (a : K) : Nat :=
  (truncateInto 0 (pow2 64 - 1) a).toNat

/-- The signed 64-bit amount that a number stands for. -/
def toAmount (a : K) : Int64 :=
  Int64.ofInt (truncateInto (-pow2 63) (pow2 63 - 1) a)

end Scalar

/-- The exact rationals.  Every rational is finite, and the empty sum is zero. -/
instance : Scalar Rat where
  zero := 0
  one := 1
  ofNat n := (n : Rat)
  ofDecimal := Decimal.toRat
  abs q := if q < 0 then -q else q
  eqv a b := a == b
  lt a b := decide (a < b)
  isNaN _ := false
  rational? q := some q
  emptySum := 0
  round q := if q < 0 then ((-((-q + 1 / 2).floor) : Int) : Rat) else (((q + 1 / 2).floor : Int) : Rat)
  text q := if q.den = 1 then toString q.num else toString q.num ++ "/" ++ toString q.den

end CoupledModels
