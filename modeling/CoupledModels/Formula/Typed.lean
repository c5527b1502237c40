import CoupledModels.Formula.Tree
import CoupledModels.Arrays.Matrix

/-!
# Typed formulas

Formulas whose names have been tied to bindings.  Every node knows the shape of its value and
whether decision variables occur in it.
-/

namespace CoupledModels

/-- What is known of a value before it is computed. -/
structure FormulaType where
  shape : Shape
  /-- Decision variables occur in it. -/
  linear : Bool
deriving DecidableEq, Repr, Inhabited

namespace FormulaType

/-- True for a single number or a single affine form. -/
def isScalar (t : FormulaType) : Bool :=
  t.shape.isScalar

end FormulaType

/-- A formula over bindings. -/
inductive Typed (K : Type) where
  | number (v : K)
  | binding (type : FormulaType) (id : Nat)
  /-- A value that is known already. -/
  | data (value : Matrix K)
  | negate (type : FormulaType) (e : Typed K)
  | add (type : FormulaType) (left right : Typed K)
  | sub (type : FormulaType) (left right : Typed K)
  /-- A product where one side is a single number or form. -/
  | scale (type : FormulaType) (left right : Typed K)
  | matmul (type : FormulaType) (left right : Typed K)
  | elementwise (type : FormulaType) (left right : Typed K)
  | transpose (type : FormulaType) (e : Typed K)
  | diagonal (type : FormulaType) (e : Typed K)
  /-- The sum of all elements, or along an axis. -/
  | sum (type : FormulaType) (e : Typed K) (axis : Option Nat)
  | shift (type : FormulaType) (e : Typed K) (amount : Int64)
  | power (type : FormulaType) (e : Typed K) (exponent : K)
  | inverse (type : FormulaType) (e : Typed K)
  | weibull (type : FormulaType) (scale shape : Typed K) (n dims : Nat)
deriving DecidableEq, Repr

namespace Typed

variable {K : Type}

/-- The type of the value. -/
def type : Typed K → FormulaType
  | number _ => ⟨.scalar, false⟩
  | data m => ⟨m.shape, false⟩
  | binding t _ | negate t _ | add t _ _ | sub t _ _ | scale t _ _ | matmul t _ _
  | elementwise t _ _ | transpose t _ | diagonal t _ | sum t _ _ | shift t _ _ | power t _ _
  | inverse t _ | weibull t _ _ _ _ => t

/-- The shape of the value. -/
def shape (e : Typed K) : Shape :=
  e.type.shape

/-- True if decision variables occur. -/
def linear (e : Typed K) : Bool :=
  e.type.linear

end Typed

/-- Whether an objective is made small or large. -/
inductive Sense where
  | minimize
  | maximize
deriving DecidableEq, Repr

/-- What a statement says once it has been typed. -/
inductive Form (K : Type) where
  | constraint (left : Typed K) (rel : Relation) (right : Typed K)
  | objective (sense : Sense) (e : Typed K)
  | value (e : Typed K)
deriving DecidableEq, Repr

/-- One instance of a statement. -/
structure Instance (K : Type) where
  text : String
  /-- The item of the intra dimension that the instance is for. -/
  intra : Option String
  form : Form K
deriving DecidableEq, Repr

end CoupledModels
