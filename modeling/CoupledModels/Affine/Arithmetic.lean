import CoupledModels.Affine.Basic

/-!
# Arithmetic of affine expressions

Sums, products with matrices of numbers, and rearrangements.  Every result is in normal form.
-/

namespace CoupledModels.Affine

variable {K : Type} [Scalar K]

/-- The sum of an expression and a multiple of another one; a single form stretches to the other
operand. -/
def addScaled (a b : Affine K) (f : K) : Except ArrayError (Affine K) :=
  match
    if a.shape = b.shape ∨ b.isScalar then some a.shape
    else if a.isScalar then some b.shape
    else none
  with
  | none => .error (.addition a.shape b.shape)
  | some shape => do
      let a ← a.broadcast shape
      let b ← b.broadcast shape
      let els := (a.elements.zip b.elements).map fun (l, r) =>
        normalizeTerms (l ++ r.map fun (j, c) => (j, c * f))
      return ofElements shape els

/-- The sum. -/
def add (a b : Affine K) : Except ArrayError (Affine K) :=
  addScaled a b 1

/-- The difference. -/
def sub (a b : Affine K) : Except ArrayError (Affine K) :=
  addScaled a b (-1)

/-- Every coefficient times a number. -/
def scale (e : Affine K) (f : K) : Affine K :=
  normalize { e with cof := e.cof.map (· * f) }

/-- The expression with all signs changed. -/
def negate (e : Affine K) : Affine K :=
  e.scale (-1)

/-- The matrix product with the numbers on the left. -/
def mulLeft (e : Affine K) (a : Matrix K) : Except ArrayError (Affine K) :=
  let k := a.shape.cols
  let n := e.shape.cols
  if k ≠ e.shape.rows then .error (.product a.shape e.shape)
  else
    let xs := a.elements
    let target : Shape := ⟨a.shape.rows, n⟩
    .ok <| e.combine target <| tabulate target fun i j =>
      (List.range k).filterMap fun p =>
        let x := xs.getD (i * k + p) 0
        if Scalar.isZero x then none else some (p * n + j, x)

/-- The matrix product with the numbers on the right. -/
def mulRight (e : Affine K) (a : Matrix K) : Except ArrayError (Affine K) :=
  let k := e.shape.cols
  let n := a.shape.cols
  if k ≠ a.shape.rows then .error (.product e.shape a.shape)
  else
    let xs := a.elements
    let target : Shape := ⟨e.shape.rows, n⟩
    .ok <| e.combine target <| tabulate target fun i j =>
      (List.range k).filterMap fun p =>
        let x := xs.getD (p * n + j) 0
        if Scalar.isZero x then none else some (i * k + p, x)

/-- The product element by element; a single form or number stretches to the other operand. -/
def mulElementwise (e : Affine K) (a : Matrix K) : Except ArrayError (Affine K) :=
  match
    if e.shape = a.shape ∨ a.shape.isScalar then some e.shape
    else if e.isScalar then some a.shape
    else none
  with
  | none => .error (.elementwise e.shape a.shape)
  | some shape => do
      let e ← e.broadcast shape
      let xs := a.elements
      return e.combine shape <| (List.range (shape.rows * shape.cols)).map fun i =>
        [(i, xs.getD (if xs.size = 1 then 0 else i) 0)]

/-- Rows and columns exchanged. -/
def transpose (e : Affine K) : Affine K :=
  e.combine e.shape.flip (tabulate e.shape.flip fun i j => [(j * e.shape.cols + i, 1)])

/-- The square matrix with a vector on its diagonal, or the diagonal of a square matrix as a
column. -/
def diagonal (e : Affine K) : Except ArrayError (Affine K) :=
  if e.shape.isVector then
    let k := e.shape.rows * e.shape.cols
    .ok (e.combine ⟨k, k⟩ (tabulate ⟨k, k⟩ fun i j => if i = j then [(i, 1)] else []))
  else if e.shape.isSquare then
    let n := e.shape.cols
    .ok (e.combine ⟨n, 1⟩ ((List.range n).map fun i => [(i * n + i, 1)]))
  else .error (.diagonal e.shape)

/-- The sum of all elements. -/
def total (e : Affine K) : Affine K :=
  e.combine .scalar [(List.range e.count).map fun i => (i, 1)]

/-- The sums of the columns (axis zero, a row) or of the rows (axis one, a column). -/
def sumAxis (e : Affine K) (axis : Nat) : Except ArrayError (Affine K) :=
  let m := e.shape.rows
  let n := e.shape.cols
  match axis with
  | 0 =>
      .ok <| e.combine ⟨1, n⟩ <| (List.range n).map fun j =>
        (List.range m).map fun i => (i * n + j, 1)
  | 1 =>
      .ok <| e.combine ⟨m, 1⟩ <| (List.range m).map fun i =>
        (List.range n).map fun j => (i * n + j, 1)
  | _ => .error (.axis axis)

/-- The row that a shift by `k` moves to row `i`; it may lie outside the matrix on either side. -/
def shiftSource (i : Nat) (k : Int64) : Int :=
  i - k.toInt

/-- Rows moved down, or up by a negative amount; vacated rows are zero. -/
def shift (e : Affine K) (k : Int64) : Affine K :=
  e.combine e.shape <| tabulate e.shape fun i j =>
    let src := shiftSource i k
    if 0 ≤ src ∧ src < e.shape.rows then [(src.toNat * e.shape.cols + j, 1)] else []

end CoupledModels.Affine
