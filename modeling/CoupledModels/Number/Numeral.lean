import CoupledModels.Number.Binary

/-!
# Numerals of stored values

Stored values are written with the fewest digits that read back, and read by scaling a significand
of at most 64 bits by a power of ten in floating point.  Reading is exact as long as the digits and
the power are small; beyond that the last digit of a float may be off.
-/

namespace CoupledModels

/-- Scalars that can be written into and read from a stored document. -/
class StoredNumber (K : Type) where
  /-- The numeral of a number; `none` for a number that has none. -/
  write? : K → Option (List Char)
  /-- The number of a numeral; `none` if it is out of range. -/
  read? : List Char → Option K

namespace Numeral

/-- The largest significand. -/
def maxSignificand : Nat :=
  pow2 64 - 1

/-- The largest exponent that is told apart from infinity. -/
def maxExponent : Nat :=
  pow2 31 - 1

/-- Reads digits into a significand as long as it stays within 64 bits; the digits left over. -/
def fill : Nat → List Char → Nat × List Char
  | significand, [] => (significand, [])
  | significand, c :: cs =>
      let next := significand * 10 + (c.toNat - '0'.toNat)
      if maxSignificand < next then (significand, c :: cs) else fill next cs

/-- Scales by a power of ten; `none` if the result is infinite. -/
def scale (f : Float) (e : Int) : Option Float :=
  if e.natAbs ≤ 308 then
    let p := Float.ofScientific 1 false e.natAbs
    if 0 ≤ e then
      let r := f * p
      if r.isInf then none else some r
    else some (f / p)
  else if f == 0.0 then some f
  else if 0 ≤ e then none
  else scale (f / 1e308) (e + 308)
termination_by e.natAbs
decreasing_by omega

/-- Applies a written exponent to a significand with a decimal exponent of its own. -/
def withExponent (significand : Nat) (own : Int) (negative : Bool) (digits : List Char) :
    Option Float :=
  let written := Decimal.ofDigits digits
  if maxExponent < written then
    if significand ≠ 0 && !negative then none else some 0.0
  else scale (Float.ofNat significand) (if negative then own - written else own + written)

/-- The parts of a numeral: whole digits, fraction digits, sign and digits of the exponent. -/
structure Parts where
  negative : Bool
  whole : List Char
  fraction : Option (List Char)
  exponent : Option (Bool × List Char)

/-- Takes a numeral apart. -/
def parts (cs : List Char) : Parts :=
  let (negative, cs) := match cs with
    | '-' :: rest => (true, rest)
    | _ => (false, cs)
  let whole := cs.takeWhile Char.isDigit
  let cs := cs.dropWhile Char.isDigit
  let (fraction, cs) := match cs with
    | '.' :: rest => (some (rest.takeWhile Char.isDigit), rest.dropWhile Char.isDigit)
    | _ => (none, cs)
  let exponent := match cs with
    | _ :: '-' :: rest => some (true, rest)
    | _ :: '+' :: rest => some (false, rest)
    | _ :: rest => some (false, rest)
    | [] => none
  ⟨negative, whole, fraction, exponent⟩

/-- The numeral's number in correct rounding. -/
def exact (cs : List Char) : Float :=
  let p := parts cs
  let fraction := p.fraction.getD []
  let exponent : Int := match p.exponent with
    | some (true, ds) => -(Decimal.ofDigits ds : Int)
    | some (false, ds) => Decimal.ofDigits ds
    | none => 0
  Decimal.toFloat ⟨p.negative, Decimal.ofDigits (p.whole ++ fraction), exponent - fraction.length⟩

/-- The numeral's number by scaling its significand. -/
def scaled? (cs : List Char) : Option Float :=
  let p := parts cs
  let (significand, dropped) := fill 0 p.whole
  let (significand, own) : Nat × Int := match p.fraction with
    | none => (significand, dropped.length)
    | some ds =>
        let (s, left) := fill significand ds
        (s, (dropped.length : Int) - ((ds.length - left.length : Nat) : Int))
  let magnitude := match p.exponent with
    | some (negative, ds) => withExponent significand own negative ds
    | none => scale (Float.ofNat significand) own
  magnitude.map fun f => if p.negative then -f else f

end Numeral

instance : StoredNumber Float where
  write? x := if x.isNaN || x.isInf then none else some (Decimal.shortest x .even).compact.toList
  read? := Numeral.scaled?

end CoupledModels
