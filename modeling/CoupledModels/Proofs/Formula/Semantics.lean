import Mathlib.Algebra.BigOperators.Group.Finset.Basic
import Mathlib.Algebra.Order.Ring.Rat
import CoupledModels.Arrays.Inverse
import CoupledModels.Arrays.Weibull
import CoupledModels.Catalog.Basic
import CoupledModels.Formula.Typed

/-!
# Matrix semantics of typed formulas

What a typed formula means: the matrix that one gets by evaluating the tree with ordinary matrix
operations, once every decision column has a number.  Nothing here knows of affine expressions.
Inverses and lifetime distributions are the functions of data matrices that the library has for
them.
-/

namespace CoupledModels

/-- A matrix of exact numbers as a function of row and column.  What it gives outside of its shape
is of no account. -/
structure Grid where
  shape : Shape
  entry : Nat → Nat → Rat

namespace Grid

/-- The matrix of one number. -/
def number (v : Rat) : Grid :=
  ⟨.scalar, fun _ _ => v⟩

/-- The elements of an array. -/
def ofMatrix (m : Matrix Rat) : Grid :=
  ⟨m.shape, m.get⟩

/-- The array of a matrix, for functions of arrays. -/
def dense (g : Grid) : Matrix Rat :=
  Matrix.ofFn g.shape g.entry

/-- The numbers of columns, row by row. -/
def ofColumns (s : Shape) (columns : List Nat) (x : Nat → Rat) : Grid :=
  ⟨s, fun i j => x (columns.getD (i * s.cols + j) 0)⟩

/-- A function of every entry. -/
def map (f : Rat → Rat) (g : Grid) : Grid :=
  ⟨g.shape, fun i j => f (g.entry i j)⟩

/-- A single number fills any shape. -/
def stretch (s : Shape) (g : Grid) : Grid :=
  ⟨s, if g.shape = s then g.entry else fun _ _ => g.entry 0 0⟩

/-- A function of the entries of two matrices of one shape; a single number stretches. -/
def zipWith? (f : Rat → Rat → Rat) (g h : Grid) : Option Grid :=
  (Shape.broadcast? g.shape h.shape).map fun s =>
    ⟨s, fun i j => f ((g.stretch s).entry i j) ((h.stretch s).entry i j)⟩

/-- One number times every entry of a matrix. -/
def scale? (g h : Grid) : Option Grid :=
  if g.shape.isScalar then some (h.map fun v => g.entry 0 0 * v)
  else if h.shape.isScalar then some (g.map fun v => v * h.entry 0 0)
  else none

/-- The matrix product. -/
def product? (g h : Grid) : Option Grid :=
  if g.shape.cols = h.shape.rows then
    some ⟨⟨g.shape.rows, h.shape.cols⟩, fun i j =>
      ∑ k ∈ Finset.range g.shape.cols, g.entry i k * h.entry k j⟩
  else none

/-- Rows and columns exchanged. -/
def transpose (g : Grid) : Grid :=
  ⟨g.shape.flip, fun i j => g.entry j i⟩

/-- The square matrix with a vector on its diagonal, or the diagonal of a square matrix. -/
def diagonal? (g : Grid) : Option Grid :=
  if g.shape.cols = 1 then
    some ⟨⟨g.shape.rows, g.shape.rows⟩, fun i j => if i = j then g.entry i 0 else 0⟩
  else if g.shape.rows = 1 then
    some ⟨⟨g.shape.cols, g.shape.cols⟩, fun i j => if i = j then g.entry 0 i else 0⟩
  else if g.shape.rows = g.shape.cols then some ⟨⟨g.shape.rows, 1⟩, fun i _ => g.entry i i⟩
  else none

/-- The sum of all entries. -/
def total (g : Grid) : Grid :=
  number (∑ i ∈ Finset.range g.shape.rows, ∑ j ∈ Finset.range g.shape.cols, g.entry i j)

/-- The sums of the columns (axis zero) or of the rows (axis one). -/
def sumAxis? (axis : Nat) (g : Grid) : Option Grid :=
  match axis with
  | 0 => some ⟨⟨1, g.shape.cols⟩, fun _ j => ∑ i ∈ Finset.range g.shape.rows, g.entry i j⟩
  | 1 => some ⟨⟨g.shape.rows, 1⟩, fun i _ => ∑ j ∈ Finset.range g.shape.cols, g.entry i j⟩
  | _ => none

/-- Rows moved down by an amount, or up if it is negative; vacated rows are zero. -/
def shift (k : Int) (g : Grid) : Grid :=
  ⟨g.shape, fun i j =>
    if 0 ≤ (i : Int) - k ∧ (i : Int) - k < g.shape.rows then g.entry ((i : Int) - k).toNat j else 0⟩

end Grid

namespace Typed

/-- The matrix of a binding: the numbers of its columns, or its array. -/
def evalBinding (c : Catalog Rat) (x : Nat → Rat) (id : Nat) : Option Grid := do
  let b ← c.bindings[id]?
  match b.value with
  | .slice _ columns => return Grid.ofColumns b.shape columns x
  | .parameter p => return Grid.ofMatrix (← (← c.parameters[p]?).value)
  | .constant i => return Grid.ofMatrix (← c.constants[i]?)

/-- The matrix of a formula when decision column `j` has the number `x j`. -/
def eval [Transcendental Rat] (c : Catalog Rat) (x : Nat → Rat) : Typed Rat → Option Grid
  | .number v => some (Grid.number v)
  | .data m => some (Grid.ofMatrix m)
  | .binding _ id => evalBinding c x id
  | .negate _ e => (e.eval c x).map (Grid.map fun v => -v)
  | .add _ l r => do (← l.eval c x).zipWith? (· + ·) (← r.eval c x)
  | .sub _ l r => do (← l.eval c x).zipWith? (· - ·) (← r.eval c x)
  | .scale _ l r => do (← l.eval c x).scale? (← r.eval c x)
  | .matmul _ l r => do (← l.eval c x).product? (← r.eval c x)
  | .elementwise _ l r => do (← l.eval c x).zipWith? (· * ·) (← r.eval c x)
  | .transpose _ e => (e.eval c x).map Grid.transpose
  | .diagonal _ e => (e.eval c x).bind Grid.diagonal?
  | .sum _ e none => (e.eval c x).map Grid.total
  | .sum _ e (some axis) => (e.eval c x).bind (Grid.sumAxis? axis)
  | .shift _ e k => (e.eval c x).map (Grid.shift k.toInt)
  | .power _ e p => (e.eval c x).map (Grid.map fun v => Transcendental.pow v p)
  | .inverse _ e => do
      let g ← e.eval c x
      return Grid.ofMatrix (← (Matrix.inverse g.dense).toOption)
  | .weibull _ e k n dims => do
      let g ← e.eval c x
      let h ← k.eval c x
      return Grid.ofMatrix (← (Weibull.distribution (g.entry 0 0) (h.entry 0 0) n dims).toOption)

theorem eval_scale [Transcendental Rat] (c : Catalog Rat) (x : Nat → Rat) (t : FormulaType)
    (l r : Typed Rat) :
    eval c x (.scale t l r) = (eval c x l).bind fun g => (eval c x r).bind fun h => g.scale? h := by
  rw [eval]
  rfl

end Typed

end CoupledModels
