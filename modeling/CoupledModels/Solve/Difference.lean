import CoupledModels.Store.Basic
import CoupledModels.Number.Scalar

/-!
# Relative differences

How far two versions of a stored table are apart, as a multiple of the old values.  A value that was
undefined, or zero, and is defined and not zero now is infinitely far.
-/

namespace CoupledModels

/-- A difference that may be infinite. -/
inductive Difference (K : Type) where
  | finite (d : K)
  | infinite
deriving Repr

namespace Difference

variable {K : Type} [Scalar K]

/-- No difference. -/
def none : Difference K :=
  finite 0

/-- The larger of two differences. -/
def max : Difference K → Difference K → Difference K
  | finite a, finite b => finite (Scalar.max a b)
  | _, _ => infinite

/-- True if a difference does not exceed a tolerance; an infinite one needs an infinite tolerance. -/
def within (d : Difference K) (tolerance : K) : Bool :=
  match d with
  | finite d => Scalar.le d tolerance
  | infinite => !Scalar.isNaN tolerance && !Scalar.isFinite tolerance && Scalar.lt 0 tolerance

/-- The largest of several differences. -/
def largest (ds : List (Difference K)) : Difference K :=
  ds.foldl max none

/-- A value that is defined and a number. -/
def number? (v : Option K) : Option K :=
  v.filter fun x => !Scalar.isNaN x

/-- How far a new value is from an old one. -/
def between (old : Option K) (new : K) : Difference K :=
  match number? old with
  | .none => infinite
  | some o =>
      if Scalar.isZero o then (if Scalar.isZero new then none else infinite)
      else finite (Scalar.abs (new - o) / Scalar.abs o)

omit [Scalar K] in
/-- The value of the last row with some coordinates. -/
def lastValue (rows : List (Row K)) (coords : List String) : Option K :=
  (rows.reverse.find? fun r => r.coords == coords).bind (·.value)

/-- The largest relative difference of a row.  Rows are paired by coordinates; new rows without a
number are skipped. -/
def ofRows (old new : List (Row K)) : Difference K :=
  largest <| new.filterMap fun r =>
    (number? r.value).map fun v => between (lastValue old r.coords) v

end Difference

end CoupledModels
