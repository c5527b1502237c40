import CoupledModels.Arrays.Tensor

/-!
# Matrix algebra

Products, transposition and special matrices.  Sums of products run over the inner index in
ascending order and skip factors that are zero.
-/

namespace CoupledModels.Matrix

variable {K : Type} [Scalar K]

/-- The dense matrix of a function of row and column. -/
def ofFn (s : Shape) (f : Nat → Nat → K) : Matrix K :=
  Tensor.dense s (tabulate s f)

/-- The element in a row and a column. -/
def get (a : Matrix K) (i j : Nat) : K :=
  let p := i * a.shape.cols + j
  match a.pattern with
  | none => a.data.getD p 0
  | some ps =>
      match ps.idxOf? p with
      | some q => a.data.getD q 0
      | none => 0

/-- Rows and columns exchanged. -/
def transpose (a : Matrix K) : Matrix K :=
  let xs := a.elements
  ofFn a.shape.flip fun j i => xs.getD (i * a.shape.cols + j) 0

/-- The matrix product. -/
def product (a b : Matrix K) : Except ArrayError (Matrix K) :=
  if a.shape.cols ≠ b.shape.rows then .error (.product a.shape b.shape)
  else
    let xs := a.elements
    let ys := b.elements
    let k := a.shape.cols
    let n := b.shape.cols
    .ok <| ofFn ⟨a.shape.rows, n⟩ fun i j =>
      (List.range k).foldl
        (fun t p =>
          let x := xs.getD (i * k + p) 0
          if Scalar.isZero x then t else t + x * ys.getD (p * n + j) 0)
        0

/-- The product element by element. -/
def elementwise (a b : Matrix K) : Except ArrayError (Matrix K) :=
  if a.shape ≠ b.shape then .error (.elementwise a.shape b.shape)
  else
    .ok <| Tensor.dense a.shape <|
      (a.elements.toList.zip b.elements.toList).map fun (x, y) => x * y

/-- The identity, with only its diagonal stored. -/
def sparseIdentity (n : Nat) : Matrix K :=
  ⟨⟨n, n⟩, some ((List.range n).map fun i => i * (n + 1)), List.replicate n 1⟩

/-- The identity. -/
def identity (n : Nat) : Matrix K :=
  (sparseIdentity n).toDense

/-- Ones on and below the diagonal. -/
def lowerOnes (n : Nat) : Matrix K :=
  let ps := (List.range n).flatMap fun i => (List.range (i + 1)).map fun j => i * n + j
  ⟨⟨n, n⟩, some ps, List.replicate ps.length 1⟩

end CoupledModels.Matrix
