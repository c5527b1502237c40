import CoupledModels.Error
import CoupledModels.SortedMap

/-!
# Kinds of tables

How the values of a table come into being, for the whole model or for each sub-problem.
-/

namespace CoupledModels

/-- The origin of a table's values. -/
inductive TableKind where
  /-- Computed from a literal constant. -/
  | constant
  /-- Read from storage. -/
  | exogenous
  /-- Decided by a solver and written to storage. -/
  | endogenous
deriving DecidableEq, Repr

/-- One kind for the whole model, or one for each sub-problem. -/
inductive KindRule where
  | fixed (kind : TableKind)
  | perProblem (kinds : SortedMap ProblemKey TableKind)
deriving DecidableEq, Repr

namespace KindRule

/-- The kind that holds in a sub-problem. -/
def kindFor (r : KindRule) (key : ProblemKey) : Except ModelError TableKind :=
  match r with
  | fixed k => .ok k
  | perProblem m =>
      match m.get? key with
      | some k => .ok k
      | none => .error (.configuration (.noKindFor key))

/-- True if the rule has the kind in some sub-problem. -/
def has (r : KindRule) (kind : TableKind) : Bool :=
  match r with
  | fixed k => k == kind
  | perProblem m => m.values.contains kind

/-- True if the table is constant in the whole model. -/
def isConstant (r : KindRule) : Bool :=
  r == fixed .constant

end KindRule

/-- The literal constants that a variable can hold. -/
inductive ConstantKind where
  | identity
  | sumVector
  | lowerTriangular
  /-- `0, 1, 2, …`, column by column. -/
  | arangeZero
  /-- `1, 2, 3, …`, column by column. -/
  | arangeOne
  /-- The number of items of a vector. -/
  | setLength
  /-- Ones where a row item and a column item are related by aggregation. -/
  | assignment
deriving DecidableEq, Repr

namespace ConstantKind

/-- The constant of a name; the assignment has two names. -/
def ofName? (name : String) : Option ConstantKind :=
  match name with
  | "identity" => some identity
  | "sum_vector" => some sumVector
  | "lower_triangular" => some lowerTriangular
  | "arange_0" => some arangeZero
  | "arange_1" => some arangeOne
  | "set_length" => some setLength
  | "identity_rcot" | "assignment" => some assignment
  | _ => none

/-- The constant of a name, or the error that there is none. -/
def ofName (name : String) : Except ModelError ConstantKind :=
  match ofName? name with
  | some k => .ok k
  | none => .error (.configuration (.unknownConstantKind name))

/-- The name under which the constant is written. -/
def name : ConstantKind → String
  | identity => "identity"
  | sumVector => "sum_vector"
  | lowerTriangular => "lower_triangular"
  | arangeZero => "arange_0"
  | arangeOne => "arange_1"
  | setLength => "set_length"
  | assignment => "identity_rcot"

end ConstantKind

end CoupledModels
