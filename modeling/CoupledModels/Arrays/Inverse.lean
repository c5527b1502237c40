import CoupledModels.Arrays.Matrix

/-!
# Matrix inversion

Gauss-Jordan elimination with partial pivoting.  The matrix and the identity are transformed side
by side, one column after the other; when the left side has become the identity, the right side is
the inverse.  A pivot whose magnitude is below `1e-12` counts as zero.
-/

namespace CoupledModels.Matrix

variable {K : Type} [Scalar K]

/-- A row of the matrix beside the row of the same number of the growing inverse. -/
structure PairedRow (K : Type) where
  left : List K
  right : List K
deriving Inhabited

namespace PairedRow

/-- Divides both sides by a number. -/
def divide (r : PairedRow K) (d : K) : PairedRow K :=
  ⟨r.left.map (· / d), r.right.map (· / d)⟩

/-- Subtracts a multiple of another row from both sides. -/
def subtract (r : PairedRow K) (f : K) (pivot : PairedRow K) : PairedRow K :=
  ⟨List.zipWith (fun x p => x - f * p) r.left pivot.left,
    List.zipWith (fun x p => x - f * p) r.right pivot.right⟩

/-- The left element of a column. -/
def entry (r : PairedRow K) (c : Nat) : K :=
  r.left.getD c 0

end PairedRow

/-- Pivots of smaller magnitude count as zero. -/
def pivotLimit : K :=
  Scalar.ofDecimal ⟨false, 1, -12⟩

/-- The row, from `c` on, whose element in column `c` is largest in magnitude; of several equal ones
the last. -/
def pivotRow (rows : Array (PairedRow K)) (c : Nat) : Nat :=
  let candidate (i : Nat) : K := (rows.getD i ⟨[], []⟩).entry c
  (List.range' (c + 1) (rows.size - (c + 1))).foldl
    (fun best i => if Scalar.magnitudeLe (candidate best) (candidate i) then i else best) c

/-- Turns column `c` of the left side into a column of the identity. -/
def eliminate (rows : Array (PairedRow K)) (c : Nat) : Except ArrayError (Array (PairedRow K)) :=
  let p := pivotRow rows c
  let rows := rows.swapIfInBounds p c
  let pivot := rows.getD c ⟨[], []⟩
  let d := pivot.entry c
  if Scalar.lt (Scalar.abs d) pivotLimit then .error .singular
  else
    let pivot := pivot.divide d
    .ok <| rows.mapIdx fun i r =>
      if i = c then pivot
      else if Scalar.isZero (r.entry c) then r
      else r.subtract (r.entry c) pivot

/-- The inverse of a square matrix. -/
def inverse (a : Matrix K) : Except ArrayError (Matrix K) :=
  if !a.shape.isSquare then .error (.invertShape a.shape)
  else do
    let n := a.shape.rows
    let xs := a.elements
    let rows : Array (PairedRow K) := Array.ofFn fun i : Fin n =>
      ⟨(List.range n).map fun j => xs.getD (i * n + j) 0,
        (List.range n).map fun j => if i.val = j then 1 else 0⟩
    let rows ← (List.range n).foldlM eliminate rows
    return Tensor.dense ⟨n, n⟩ (rows.toList.flatMap PairedRow.right)

end CoupledModels.Matrix
