import CoupledModels.Error
import CoupledModels.Number.Rounding
import CoupledModels.Arrays.Matrix

/-!
# Weibull lifetimes

A Weibull lifetime distribution over the ages `1, 2, …`.  The density is evaluated at every age up
to twice the scale, or up to the length asked for if that is more, rounded to two decimals, divided
by its sum and cut to the length.
-/

namespace CoupledModels.Weibull

variable {K : Type} [Scalar K] [Transcendental K]

/-- The greatest age and the greatest length. -/
def limit : Nat :=
  10000

/-- The density at an age, to two decimals. -/
def density (scale shape : K) (age : Nat) : K :=
  let r := Scalar.ofNat age / scale
  Scalar.roundTo 2
    (shape / scale * Transcendental.pow r (shape - 1) *
      Transcendental.exp (-(Transcendental.pow r shape)))

/-- The density at the ages `1 … range`. -/
def densities (scale shape : K) (range : Nat) : List K :=
  (List.range range).map fun x => density scale shape (x + 1)

/-- The column of a distribution, or the square matrix whose column `j` is the distribution moved
down by `j` rows. -/
def arrange (dist : List K) (n dims : Nat) : Except WeibullError (Matrix K) :=
  match dims with
  | 1 => .ok (Tensor.dense ⟨n, 1⟩ dist)
  | 2 =>
      let xs := dist.toArray
      .ok (Matrix.ofFn ⟨n, n⟩ fun i j => if j ≤ i then xs.getD (i - j) 0 else 0)
  | d => .error (.dims d)

/-- The distribution of the first `n` ages, arranged in one or two dimensions. -/
def distribution (scale shape : K) (n dims : Nat) : Except WeibullError (Matrix K) :=
  let positive (v : K) : Bool := Scalar.isFinite v && !Scalar.le v 0
  if !(positive scale && positive shape) then
    .error (.parameters (Scalar.text scale) (Scalar.text shape))
  else if n = 0 then .error .length
  else if Scalar.lt (Scalar.ofNat limit) (Scalar.ofNat 2 * scale) || limit < n then
    .error (.tooLong (Scalar.text scale) n limit)
  else
    let pdf := densities scale shape (max (Scalar.toCount (Scalar.ofNat 2 * scale)) n)
    let total := Scalar.sum pdf
    if Scalar.le total 0 then .error (.vanishes (Scalar.text scale) (Scalar.text shape) n)
    else arrange ((pdf.take n).map (· / total)) n dims

end CoupledModels.Weibull
