import CoupledModels.Variables.Constant
import CoupledModels.Store.Basic

/-!
# The catalog

The concrete things that the variables of a model refer to.  A table that is decided by a solver has
one decision column for each of its rows, grouped into blocks by the items of its splitting
coordinates.  Exogenous variables have parameters, which storage fills, and constant variables have
constants.  A binding ties a variable to one of these, for one combination of inter items and one
intra item.

Decision columns are numbered from one; number zero is that of the constant term.
-/

namespace CoupledModels

/-- What a binding refers to. -/
inductive BindingValue where
  /-- Columns of a block, row by row in the shape of the binding. -/
  | slice (block : Nat) (columns : List Nat)
  | parameter (index : Nat)
  | constant (index : Nat)
deriving DecidableEq, Repr

/-- A variable at one combination of inter items and one intra item. -/
structure Binding where
  id : Nat
  symbol : String
  /-- The only sub-problem that the binding is for, if the kind of the table varies. -/
  scope : Option ProblemKey
  inter : List Coordinate
  intra : Option String
  /-- The items that select the binding's rows of the table. -/
  filter : RowFilter
  shape : Shape
  value : BindingValue
deriving DecidableEq, Repr

namespace Binding

/-- True if the binding is for a sub-problem: it is not scoped to another one, and its inter items
do not contradict the key. -/
def appliesTo (b : Binding) (key : ProblemKey) : Bool :=
  (match b.scope with
    | some s => s == key
    | none => true) && key.agreesWith b.inter

/-- True if the binding refers to decision columns. -/
def isDecision (b : Binding) : Bool :=
  match b.value with
  | .slice _ _ => true
  | _ => false

/-- The inter items and the intra item, separated by commas. -/
def label (b : Binding) : String :=
  let items := b.inter.map (·.2) ++ b.intra.toList
  if items.isEmpty then "default" else ",".intercalate items

end Binding

/-- The decision columns of the rows that belong to one combination of splitting items. -/
structure Block where
  table : String
  key : ProblemKey
  coords : List (List String)
  /-- The column of the first row; those of the others follow. -/
  first : Nat
  integer : Bool
deriving DecidableEq, Repr

namespace Block

/-- The columns of the block. -/
def columns (b : Block) : List Nat :=
  List.range' b.first b.coords.length

/-- Position of the last occurrence of an element. -/
def lastIndexOf? {α : Type} [BEq α] (a : α) (xs : List α) : Option Nat :=
  (xs.reverse.idxOf? a).map fun i => xs.length - 1 - i

/-- The column of a row. -/
def column? (b : Block) (row : List String) : Option Nat :=
  (lastIndexOf? row b.coords).map (b.first + ·)

end Block

/-- A matrix that is filled from storage. -/
structure Parameter (K : Type) where
  binding : Nat
  table : String
  shape : Shape
  value : Option (Matrix K)
deriving DecidableEq, Repr

/-- Variables, bindings and what they refer to. -/
structure Catalog (K : Type) where
  members : List Variable
  /-- Table names with their coordinates. -/
  tableCoordinates : List (String × List String)
  bindings : Array Binding
  blocks : Array Block
  parameters : Array (Parameter K)
  constants : Array (Matrix K)
  /-- The solution value of each column, the constant term first. -/
  values : Array (Option K)
  /-- Whether each column must be integral, the constant term first. -/
  integer : Array Bool
deriving DecidableEq, Repr

namespace Catalog

variable {K : Type}

/-- The variable of a symbol. -/
def variableNamed? (c : Catalog K) (symbol : String) : Option Variable :=
  c.members.find? fun v => v.symbol == symbol

/-- The coordinates that a table was declared with. -/
def coordinatesOf? (c : Catalog K) (table : String) : Option (List String) :=
  c.tableCoordinates.lookup table

/-- Number of decision columns. -/
def columnCount (c : Catalog K) : Nat :=
  c.values.size - 1

/-- True if a column must be integral. -/
def isInteger (c : Catalog K) (column : Nat) : Bool :=
  c.integer.getD column false

/-- The bindings of a symbol, in the order of their numbers. -/
def bindingsOf (c : Catalog K) (symbol : String) : List Binding :=
  c.bindings.toList.filter fun b => b.symbol == symbol

/-- The bindings of a symbol for a sub-problem, restricted to an intra item if one is given. -/
def candidates (c : Catalog K) (symbol : String) (key : ProblemKey) (intra : Option String) :
    List Binding :=
  (c.bindingsOf symbol).filter fun b =>
    b.appliesTo key && (intra.isNone || b.intra == intra)

/-- The decision block of a table for a combination of splitting items. -/
def blockIndex? (c : Catalog K) (table : String) (key : ProblemKey) : Option Nat :=
  c.blocks.findIdx? fun b => b.table == table && b.key == key

/-- The tables with decision blocks, each once, in the order of their first block. -/
def endogenousTables (c : Catalog K) : List String :=
  (c.blocks.toList.map (·.table)).eraseDups

/-- The symbol of a binding. -/
def symbolOf (c : Catalog K) (binding : Nat) : String :=
  match c.bindings[binding]? with
  | some b => b.symbol
  | none => ""

/-- The matrix of a parameter, or the error that it has no data yet. -/
def parameterValue (c : Catalog K) (index : Nat) : Except ModelError (Matrix K) :=
  match c.parameters[index]? with
  | some p =>
      match p.value with
      | some m => .ok m
      | none => .error (.missing (.parameter (c.symbolOf p.binding) p.table))
  | none => .error (.missing (.parameter "" ""))

/-- The solution value of a column. -/
def value? (c : Catalog K) (column : Nat) : Option K :=
  (c.values[column]?).join

end Catalog

end CoupledModels
