import CoupledModels.Number.Scalar

/-!
# Durations

Time spans in whole nanoseconds.  A number of seconds has a duration only if it is not negative
and its whole part fits in 64 bits.
-/

namespace CoupledModels

/-- A time span. -/
structure Duration where
  nanoseconds : Nat
deriving DecidableEq, Repr

namespace Duration

/-- Whole seconds of the span. -/
def seconds (d : Duration) : Nat :=
  d.nanoseconds / 1000000000

/-- Nanoseconds beyond the whole seconds. -/
def subsecond (d : Duration) : Nat :=
  d.nanoseconds % 1000000000

/-- The integer nearest to a nonnegative rational; a half goes to the even neighbour. -/
def nearestEven (q : Rat) : Nat :=
  let n := q.num.toNat
  let d := q.den
  let whole := n / d
  let twice := 2 * (n % d)
  if twice < d || (twice == d && whole % 2 == 0) then whole else whole + 1

/-- The duration of a number of seconds, to the nearest nanosecond. -/
def ofSeconds? {K : Type} [Scalar K] (s : K) : Option Duration :=
  match Scalar.rational? s with
  | none => none
  | some q =>
      if q < 0 || (pow2 64 : Rat) ≤ q then none
      else some ⟨nearestEven (q * 1000000000)⟩

end Duration

end CoupledModels
