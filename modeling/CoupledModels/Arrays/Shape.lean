import CoupledModels.Text.Quoted

/-!
# Shapes

The sizes of an array.  Matrices have a `Shape`, two sizes with names; arrays of any number of
dimensions have a list of sizes.  What both have in common is `Extent`.
-/

namespace CoupledModels

/-- Rows and columns of a matrix. -/
structure Shape where
  rows : Nat
  cols : Nat
deriving DecidableEq, Repr, Inhabited

/-- Types whose values list the sizes of an array, outermost dimension first. -/
class Extent (S : Type) where
  dims : S → List Nat

namespace Extent

instance : Extent Shape where
  dims s := [s.rows, s.cols]

instance : Extent (List Nat) where
  dims s := s

variable {S : Type} [Extent S]

/-- Number of elements of an array, as an unbounded number; `Extent.size?` computes it in words. -/
def size (s : S) : Nat :=
  (dims s).foldl (· * ·) 1

/-- The sizes as messages write them. -/
def text (s : S) : String :=
  Text.numberList (dims s)

end Extent

namespace Shape

/-- The shape of a single number. -/
def scalar : Shape :=
  ⟨1, 1⟩

/-- True for the shape of a single number. -/
def isScalar (s : Shape) : Bool :=
  s == scalar

/-- True if there is one row or one column. -/
def isVector (s : Shape) : Bool :=
  s.rows == 1 || s.cols == 1

/-- True if there are as many rows as columns. -/
def isSquare (s : Shape) : Bool :=
  s.rows == s.cols

/-- Rows and columns exchanged. -/
def flip (s : Shape) : Shape :=
  ⟨s.cols, s.rows⟩

/-- The shape of an element-wise operation; a single number stretches to the other operand. -/
def broadcast? (a b : Shape) : Option Shape :=
  if a == b || b.isScalar then some a
  else if a.isScalar then some b
  else none

/-- The sizes as messages write them. -/
def text (s : Shape) : String :=
  Extent.text s

end Shape

end CoupledModels
