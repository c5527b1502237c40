import CoupledModels.Tables.Declaration
import CoupledModels.Problem.ModelText

/-!
# Configurations

A model as it is described in a document: sets, tables with their variables, and one or more
symbolic models.  A configuration is only a description; `Configuration.Declarations` turns it into
declarations.
-/

namespace CoupledModels

/-- A described dimension. -/
structure SetConfiguration where
  symbol : String
  tableName : Option String
  splits : Bool
  items : List String
  categories : SortedMap String String
  aggregation : SortedMap String String
  filters : SortedMap String (SortedMap String String)
  /-- Take the items of another set. -/
  copyFrom : Option String
deriving Repr

/-- The described kind of a table: one, or one for each sub-problem, by label. -/
inductive KindConfiguration where
  | fixed (kind : TableKind)
  | perLabel (kinds : SortedMap String TableKind)
deriving Repr

/-- The described rows or columns of a variable: a number or the name of a dimension. -/
inductive SideConfiguration where
  | number (n : Nat)
  | name (dim : String)
deriving DecidableEq, Repr

/-- A described variable. -/
structure VariableConfiguration where
  symbol : String
  rows : Option SideConfiguration
  cols : Option SideConfiguration
  value : Option ConstantKind
  filters : SortedMap String ItemFilter
deriving Repr

/-- A described table. -/
structure TableConfiguration where
  name : String
  kind : KindConfiguration
  coordinates : List String
  integer : Bool
  members : List VariableConfiguration
deriving Repr

/-- A described model. -/
structure Configuration where
  sets : List SetConfiguration
  tables : List TableConfiguration
  /-- A single symbolic model without a name. -/
  problem : Option ModelText
  /-- Named symbolic models. -/
  problems : SortedMap String ModelText
deriving Repr

namespace Configuration

/-- The configuration that describes nothing. -/
def empty : Configuration :=
  ⟨[], [], none, .empty⟩

end Configuration

end CoupledModels
