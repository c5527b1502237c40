import CoupledModels.Number.Power

/-!
# Decimal numerals

A numeral is a sign, a whole number and a power of ten.  This module holds the two ways in which
numerals are written: without an exponent, as messages do, and in the compact form of documents.
-/

namespace CoupledModels

/-- A signed decimal numeral `± mantissa · 10 ^ exponent`. -/
structure Decimal where
  negative : Bool
  mantissa : Nat
  exponent : Int
deriving DecidableEq, Repr

namespace Decimal

/-- The number that ASCII decimal digits write. -/
def ofDigits (cs : List Char) : Nat :=
  cs.foldl (fun n c => 10 * n + (c.toNat - '0'.toNat)) 0

/-- The decimal digits of a number, without leading zeros. -/
def digitsOf (n : Nat) : List Char :=
  (toString n).toList

/-- The exact value of a numeral. -/
def toRat (d : Decimal) : Rat :=
  let magnitude : Rat :=
    if 0 ≤ d.exponent then ((d.mantissa * pow10 d.exponent.toNat : Nat) : Rat)
    else mkRat d.mantissa (pow10 (-d.exponent).toNat)
  if d.negative then -magnitude else magnitude

/-- Positional notation without an exponent; integers have no decimal point. -/
def positional (d : Decimal) : String :=
  let ds := digitsOf d.mantissa
  let body : List Char :=
    if 0 ≤ d.exponent then
      if d.mantissa = 0 then ['0'] else ds ++ List.replicate d.exponent.toNat '0'
    else
      let places := (-d.exponent).toNat
      if ds.length ≤ places then
        ['0', '.'] ++ List.replicate (places - ds.length) '0' ++ ds
      else
        ds.take (ds.length - places) ++ ['.'] ++ ds.drop (ds.length - places)
  String.ofList (if d.negative then '-' :: body else body)

/-- Positional from `1e-5` up to below `1e16`, always with a decimal point; a signed exponent
outside. -/
def compact (d : Decimal) : String :=
  let ds := digitsOf d.mantissa
  let point : Int := ds.length + d.exponent
  let body : List Char :=
    if d.mantissa = 0 then ['0', '.', '0']
    else if 0 ≤ d.exponent && point ≤ 16 then
      ds ++ List.replicate d.exponent.toNat '0' ++ ['.', '0']
    else if 0 < point && point ≤ 16 then
      ds.take point.toNat ++ ['.'] ++ ds.drop point.toNat
    else if -5 < point && point ≤ 0 then
      ['0', '.'] ++ List.replicate (-point).toNat '0' ++ ds
    else
      let tail := ds.drop 1
      let power := (toString (point - 1)).toList
      ds.take 1 ++ (if tail.isEmpty then [] else '.' :: tail) ++
        'e' :: (if 1 < point then '+' :: power else power)
  String.ofList (if d.negative then '-' :: body else body)

end Decimal

end CoupledModels
