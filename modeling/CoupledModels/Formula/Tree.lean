import CoupledModels.Formula.Function
import CoupledModels.SortedMap
import CoupledModels.Number.Scalar

/-!
# Formulas

The trees that formula texts stand for.  A statement is a formula, or a relation between two.
-/

namespace CoupledModels

/-- Binary operators. -/
inductive Operator where
  | add
  | sub
  /-- Scaling if either side is a single number, else the matrix product. -/
  | mul
  /-- The matrix product. -/
  | matmul
deriving DecidableEq, Repr

/-- How the two sides of a constraint relate. -/
inductive Relation where
  | eq
  | ge
  | le
deriving DecidableEq, Repr

/-- A formula over named variables with literals of type `K`. -/
inductive Formula (K : Type) where
  | number (v : K)
  | name (id : String)
  | negate (e : Formula K)
  | binary (op : Operator) (left right : Formula K)
  | call (f : Function) (args : List (Formula K))
deriving Repr, Inhabited

/-- A formula or a relation. -/
inductive Statement (K : Type) where
  | relation (left : Formula K) (rel : Relation) (right : Formula K)
  | value (e : Formula K)
deriving Repr, Inhabited

namespace Formula

variable {K : Type}

mutual

/-- The names that occur, from left to right. -/
def names : Formula K → List String
  | number _ => []
  | name id => [id]
  | negate e => e.names
  | binary _ l r => l.names ++ r.names
  | call _ args => namesOfList args

/-- The names that occur in several formulas, from left to right. -/
def namesOfList : List (Formula K) → List String
  | [] => []
  | e :: rest => e.names ++ namesOfList rest

end

/-- The value of a literal, possibly under signs. -/
def literal? [Neg K] : Formula K → Option K
  | number v => some v
  | negate e => e.literal?.map (- ·)
  | _ => none

end Formula

/-- Ascending and without repetitions. -/
def distinctNames (names : List String) : List String :=
  (SortedMap.ofList (names.map fun n => (n, ()))).keys

namespace Statement

variable {K : Type}

/-- The distinct names that occur, ascending. -/
def names : Statement K → List String
  | relation l _ r => distinctNames (l.names ++ r.names)
  | value e => distinctNames e.names

end Statement

end CoupledModels
