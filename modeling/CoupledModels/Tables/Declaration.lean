import CoupledModels.Sets.Registry
import CoupledModels.Tables.Kind

/-!
# Declarations of tables and variables

A table is keyed by the cartesian product of its coordinates, which are dimensions.  A variable is a
two-dimensional view of a table: one coordinate gives its rows, one its columns.
-/

namespace CoupledModels

/-- What the rows or the columns of a variable range over. -/
inductive Side where
  /-- A single row or column. -/
  | one
  /-- The items of a dimension. -/
  | dim (name : String)
deriving DecidableEq, Repr, Inhabited

namespace Side

/-- The dimension of a side, if it has one. -/
def dim? : Side → Option String
  | one => none
  | dim d => some d

/-- The side of a declared name; without a name, and under the name `1`, it is a single one. -/
def ofName (name : Option String) : Side :=
  match name with
  | none | some "1" => one
  | some d => dim d

end Side

/-- A variable as it is declared on a table. -/
structure VariableDeclaration where
  symbol : String
  rows : Side
  cols : Side
  /-- The literal, for variables of constant tables. -/
  value : Option ConstantKind
  /-- Restrictions of coordinates. -/
  filters : SortedMap String ItemFilter
deriving Repr, Inhabited

/-- A table with the variables declared on it. -/
structure TableDeclaration where
  name : String
  kind : KindRule
  coordinates : List String
  integer : Bool
  members : List VariableDeclaration
deriving Repr

/-- Rows of a table that belong to one combination of splitting items. -/
structure RowBlock where
  key : ProblemKey
  rows : List (List String)
deriving DecidableEq, Repr

namespace TableDeclaration

/-- The splitting dimensions among the coordinates, in coordinate order. -/
def splitDims (t : TableDeclaration) (sets : Registry) : List String :=
  t.coordinates.filter sets.isSplitting

/-- Every row of the table, one item for each coordinate; the last coordinate varies fastest. -/
def enumerate (t : TableDeclaration) (sets : Registry) : Except ModelError (List (List String)) := do
  let dims ← t.coordinates.mapM sets.get
  return Registry.product (dims.map Dimension.items)

/-- The items that a row has in the splitting coordinates. -/
def blockKey (t : TableDeclaration) (sets : Registry) (row : List String) : ProblemKey :=
  ⟨(t.coordinates.zip row).filter fun c => sets.isSplitting c.1⟩

/-- Appends a row to the block of its key, or as a new block after all others. -/
def addToBlock (key : ProblemKey) (row : List String) : List RowBlock → List RowBlock
  | [] => [⟨key, [row]⟩]
  | b :: rest =>
      if b.key = key then { b with rows := b.rows ++ [row] } :: rest
      else b :: addToBlock key row rest

/-- The rows grouped by the items of the splitting coordinates, groups and rows in the order of
enumeration. -/
def enumerateBlocks (t : TableDeclaration) (sets : Registry) : Except ModelError (List RowBlock) := do
  let rows ← t.enumerate sets
  return rows.foldl (fun bs row => addToBlock (t.blockKey sets row) row bs) []

end TableDeclaration

end CoupledModels
