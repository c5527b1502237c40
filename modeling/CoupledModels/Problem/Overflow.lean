import CoupledModels.Problem.SubProblem

/-!
# Overflow of shifts

The rows that a shift moves are found by a subtraction of signed 64-bit numbers.  A difference that
does not fit in 64 bits ends the program there and then, whatever it is lowering.  This module runs
the subtraction as it is, to tell when that happens; what a shift gives when it does not is
`Affine.shift`.
-/

namespace CoupledModels

namespace Affine

variable {K : Type} [Scalar K]

/-- The row that a shift by `k` moves to row `i`, in signed 64-bit numbers; `none` if the difference
does not fit. -/
def shiftSource? (i : Nat) (k : Int64) : Option Int64 :=
  if BitVec.ssubOverflow (Int64.ofNat i).toBitVec k.toBitVec then none else some (Int64.ofNat i - k)

/-- What a shift by `k` puts at row `i` and column `j`, by number of the element. -/
def shiftPart? (s : Shape) (k : Int64) (i j : Nat) : Option (List (Nat × K)) :=
  (shiftSource? i k).map fun src =>
    if 0 ≤ src ∧ src.toNatClampNeg < s.rows then [(src.toNatClampNeg * s.cols + j, 1)] else []

/-- Rows moved down, or up by a negative amount; `none` if some difference does not fit. -/
def shift? (e : Affine K) (k : Int64) : Option (Affine K) :=
  ((tabulate e.shape fun i j => (i, j)).mapM fun p => shiftPart? e.shape k p.1 p.2).map
    (e.combine e.shape)

end Affine

variable {K : Type} [Scalar K] [Transcendental K]

namespace Typed

/-- True if lowering the formula comes to a shift that overflows.  Operands are lowered one after the
other, and not any further once one of them fails. -/
def overflows (c : Catalog K) : Typed K → Bool
  | .number _ | .data _ | .binding _ _ => false
  | .negate _ e | .transpose _ e | .diagonal _ e | .sum _ e _ | .power _ e _ | .inverse _ e =>
      e.overflows c
  | .add _ l r | .sub _ l r => l.overflows c || ((l.lower c).isOk && r.overflows c)
  | .scale _ l r | .elementwise _ l r | .matmul _ l r =>
      if l.linear then l.overflows c || ((l.lower c).isOk && r.overflows c)
      else r.overflows c || ((r.lower c).isOk && l.overflows c)
  | .shift _ e k =>
      e.overflows c || match e.lower c with
        | .ok a => (a.shift? k).isNone
        | .error _ => false
  | .weibull _ e k _ _ => e.overflows c || ((e.value c).isOk && k.overflows c)

/-- True if lowering formulas one after the other comes to a shift that overflows. -/
def someOverflows (c : Catalog K) : List (Typed K) → Bool
  | [] => false
  | e :: rest => e.overflows c || ((e.lower c).isOk && someOverflows c rest)

end Typed

/-- True if lowering the sub-problem comes to a shift that overflows: the objective comes first, then
the constraints.  Sums and differences of what has been lowered never fail in a sub-problem that has
been built. -/
def SubProblem.overflows (p : SubProblem K) (c : Catalog K) : Bool :=
  Typed.someOverflows c (p.terms ++ p.constraints.flatMap fun k => [k.left, k.right])

end CoupledModels
