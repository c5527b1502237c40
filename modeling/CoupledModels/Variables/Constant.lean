import CoupledModels.Variables.Resolution
import CoupledModels.Arrays.Matrix

/-!
# Values of constants

The matrices that literal constants stand for.
-/

namespace CoupledModels

/-- How row items and column items are related, with the order of both. -/
structure Assignment where
  pairs : List (String × String)
  rows : List String
  cols : List String

namespace Assignment

/-- Row and column numbers of the related items; items that have no row or column are left out. -/
def indexes (a : Assignment) : List (List Nat) :=
  a.pairs.filterMap fun (r, c) =>
    match a.rows.idxOf? r, a.cols.idxOf? c with
    | some i, some j => some [i, j]
    | _, _ => none

end Assignment

namespace ConstantKind

variable {K : Type} [Scalar K]

/-- Consecutive numbers, column by column. -/
def arange (s : Shape) (start : Nat) : Matrix K :=
  Matrix.ofFn s fun i j => Scalar.ofNat (start + j * s.rows + i)

/-- The matrix of a constant for a variable of some shape. -/
def build (kind : ConstantKind) (s : Shape) (assigned : Option Assignment) :
    Except ConstantError (Matrix K) :=
  match kind with
  | identity => if s.isSquare then .ok (Matrix.sparseIdentity s.rows) else .error (.identity s)
  | lowerTriangular =>
      if s.isSquare then .ok (Matrix.lowerOnes s.rows) else .error (.lowerTriangular s)
  | sumVector => if s.isVector then .ok (Tensor.ones s) else .error (.sumVector s)
  | setLength =>
      if s.isVector then .ok (Tensor.dense .scalar [Scalar.ofNat (s.rows * s.cols)])
      else .error (.setLength s)
  | arangeZero => .ok (arange s 0)
  | arangeOne => .ok (arange s 1)
  | assignment =>
      match assigned with
      | none => .error .unrelated
      | some a =>
          (Tensor.ofEntries s a.indexes (List.replicate a.indexes.length 1)).mapError .assignment

end ConstantKind

namespace Variable

variable {K : Type} [Scalar K]

/-- The items of both sides with the relation between them; a single row or column counts as one
item without a name. -/
def assignment? (v : Variable) : Option Assignment :=
  v.aggregation.map fun pairs =>
    ⟨pairs, v.rowItems?.getD [""], v.colItems?.getD [""]⟩

/-- The matrix of a constant variable. -/
def constantValue (v : Variable) : Except ModelError (Matrix K) :=
  match v.value with
  | none => .error (.configuration (.notConstant v.symbol))
  | some kind =>
      (kind.build v.shape v.assignment?).mapError fun e => .conceptual (.constantOf v.symbol e)

end Variable

end CoupledModels
