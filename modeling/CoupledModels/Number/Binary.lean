import CoupledModels.Number.Decimal

/-!
# Binary floating point and decimals

Numerals are read as the nearest float, and a float is written with the fewest digits that read
back as the same float.  Both directions work on the exact value `m · 2 ^ q` of a float.
-/

namespace CoupledModels.Decimal

/-- Reads the number, correctly rounded.  Exponents far outside the range of floats are cut short
so that no huge power is ever computed. -/
def toFloat (d : Decimal) : Float :=
  let size : Int := (digitsOf d.mantissa).length + d.exponent
  let magnitude : Float :=
    if d.mantissa = 0 then 0.0
    else if 400 < size then 1.0 / 0.0
    else if size < -400 then 0.0
    else Float.ofScientific d.mantissa (decide (d.exponent < 0)) d.exponent.natAbs
  if d.negative then -magnitude else magnitude

/-- A finite float as `mantissa · 2 ^ exponent`. -/
def binaryParts (x : Float) : Nat × Int :=
  let bits : Nat := x.toBits.toNat
  let fraction : Nat := bits % pow2 52
  let biased : Nat := bits / pow2 52 % pow2 11
  if biased = 0 then (fraction, -1074) else (fraction + pow2 52, (biased : Int) - 1075)

/-- True if the sign bit is set. -/
def signBit (x : Float) : Bool :=
  x.toBits.toNat / pow2 63 = 1

/-- The exact value of a finite float. -/
def exactValue? (x : Float) : Option Rat :=
  if x.isNaN || x.isInf then none
  else
    let (m, q) := binaryParts x
    let v : Rat := if 0 ≤ q then ((m * pow2 q.toNat : Nat) : Rat) else mkRat m (pow2 (-q).toNat)
    some (if signBit x then -v else v)

/-- How an exact tie between two shortest candidates is settled. -/
inductive Tie where
  | even
  | up
deriving DecidableEq, Repr

/-- The positive reals that round to one float, as multiples of a common unit. -/
structure Interval where
  low : Nat
  value : Nat
  high : Nat
  /-- The ends themselves round to the float. -/
  closed : Bool

namespace Interval

/-- Membership of a multiple of the unit. -/
def contains (i : Interval) (x : Nat) : Bool :=
  if i.closed then decide (i.low ≤ x ∧ x ≤ i.high) else decide (i.low < x ∧ x < i.high)

/-- Of the two neighbours of the value on the grid of multiples of `step`, the one in the interval
that is nearest to the value, as a multiple of `step`. -/
def onGrid? (i : Interval) (step : Nat) (tie : Tie) : Option Nat :=
  let below := i.value / step
  let above := below + 1
  let downOk := i.contains (below * step)
  let upOk := i.contains (above * step)
  let downGap := i.value - below * step
  let upGap := above * step - i.value
  if downOk && upOk then
    if downGap < upGap then some below
    else if upGap < downGap then some above
    else match tie with
      | .up => some above
      | .even => some (if below % 2 = 0 then below else above)
  else if downOk then some below
  else if upOk then some above
  else none

end Interval

/-- Drops trailing zeros of the mantissa. -/
def normalize (mantissa : Nat) (exponent : Int) : Nat × Int :=
  if h : mantissa ≠ 0 ∧ mantissa % 10 = 0 then normalize (mantissa / 10) (exponent + 1)
  else (mantissa, exponent)
termination_by mantissa
decreasing_by omega

/-- Tries coarser grids first: `digits` significant digits, then one more, until a grid hits.  The
unit of the interval is `1 / scale`, the value has `size` digits before the point (which may be
negative), and `fuel` grids are left. -/
def firstGrid (i : Interval) (scale : Nat) (size : Int) (tie : Tie) : Nat → Nat → Option (Nat × Int)
  | 0, _ => none
  | fuel + 1, digits =>
      let k : Int := size - digits
      -- the grid of multiples of `10 ^ k`, with both sides scaled to whole numbers
      let (grow, step) : Nat × Nat :=
        if 0 ≤ k then (1, scale * pow10 k.toNat) else (pow10 (-k).toNat, scale)
      let grown : Interval := { i with low := i.low * grow, value := i.value * grow, high := i.high * grow }
      match grown.onGrid? step tie with
      | some m => some (m, k)
      | none => firstGrid i scale size tie fuel (digits + 1)

/-- Number of digits before the decimal point of `num / den`, zero or negative for small values. -/
def sizeOfRatio (num den : Nat) : Int :=
  let guess : Int := ((digitsOf num).length : Int) - (digitsOf den).length
  -- `num / den` lies between `10 ^ (guess - 1)` and `10 ^ (guess + 1)`
  let reached : Bool :=
    if 0 ≤ guess then decide (den * pow10 guess.toNat ≤ num) else decide (den ≤ num * pow10 (-guess).toNat)
  if reached then guess + 1 else guess

/-- The fewest digits that read back as a finite float, and of those the nearest ones. -/
def shortest (x : Float) (tie : Tie) : Decimal :=
  let (m, q) := binaryParts x
  if m = 0 then ⟨signBit x, 0, 0⟩
  else
    -- neighbours are half a unit away, a quarter below a power of two
    let gapBelow := if m = pow2 52 && decide (-1074 < q) then 1 else 2
    let lift : Nat := if 0 ≤ q then pow2 q.toNat else 1
    let scale : Nat := if 0 ≤ q then 4 else 4 * pow2 (-q).toNat
    let i : Interval :=
      { low := (4 * m - gapBelow) * lift
        value := 4 * m * lift
        high := (4 * m + 2) * lift
        closed := m % 2 = 0 }
    match firstGrid i scale (sizeOfRatio i.value scale) tie 18 1 with
    | some (mantissa, exponent) =>
        let (mantissa, exponent) := normalize mantissa exponent
        ⟨signBit x, mantissa, exponent⟩
    | none => ⟨signBit x, 0, 0⟩

end CoupledModels.Decimal
