import CoupledModels.Catalog.Basic
import CoupledModels.Number.Rounding

/-!
# Data of the catalog

Filling parameters from storage, recording solution values, and handing both out again.
-/

namespace CoupledModels.Catalog

variable {K : Type} [Scalar K]

/-- Gives a parameter a matrix of its shape. -/
def setParameter (c : Catalog K) (index : Nat) (value : Matrix K) :
    Except ModelError (Catalog K) :=
  match c.parameters[index]? with
  | none => .ok c
  | some p =>
      if value.shape ≠ p.shape then .error (.conceptual (.parameterShape p.shape value.shape))
      else
        .ok { c with parameters := c.parameters.setIfInBounds index { p with value := some value } }

/-- The number of a stored row along one side of a variable: that of its item among the items of
the side, or zero if the side is a single row or column. -/
def sideIndex? (coordinates : List String) (dim : Option String) (items : Option (List String))
    (coords : List String) : Option Nat :=
  match dim.bind coordinates.idxOf?, items with
  | some i, some items => items.idxOf? (coords.getD i "")
  | _, _ => some 0

/-- A defined value, or nothing for an undefined number. -/
def definedValue (v : Option K) : Option K :=
  v.filter fun x => !Scalar.isNaN x

/-- The entries of a matrix of a variable's shape that stored rows define; of several rows for one
entry the last one counts. -/
def gather (v : Variable) (coordinates : List String) (s : Shape) (rows : List (Row K)) :
    Array (Option K) :=
  rows.foldl
    (fun data r =>
      match sideIndex? coordinates v.roles.rows v.rowItems? r.coords,
        sideIndex? coordinates v.roles.cols v.colItems? r.coords with
      | some i, some j => data.setIfInBounds (i * s.cols + j) (definedValue r.value)
      | _, _ => data)
    (Array.replicate (s.rows * s.cols) none)

/-- The matrix that the stored rows of a binding define; every entry must be defined. -/
def loadBinding (c : Catalog K) (store : Store K) (b : Binding) : Except ModelError (Matrix K) :=
  match c.variableNamed? b.symbol with
  | none => .error (.missing (.undefinedVariable b.symbol))
  | some v => do
      let rows ← store.getRows v.table b.filter
      let coordinates ← store.coordinates v.table
      let data := (gather v coordinates b.shape rows).toList
      match data.findIdx? Option.isNone with
      | some k =>
          throw (.missing (.entry b.symbol v.table (k / b.shape.cols) (k % b.shape.cols)
            b.filter.entries))
      | none =>
          (Tensor.ofStored b.shape none (data.filterMap id)).mapError fun e => .missing (.array e)

/-- Fills the parameters with the given numbers, in order, up to the first one that cannot be
filled. -/
def loadParameters (store : Store K) : List Nat → Catalog K → Except ModelError Unit × Catalog K
  | [], c => (.ok (), c)
  | index :: rest, c =>
      match c.parameters[index]? with
      | none => loadParameters store rest c
      | some p =>
          match c.bindings[p.binding]? with
          | none => loadParameters store rest c
          | some b =>
              match c.loadBinding store b with
              | .error e => (.error e, c)
              | .ok m =>
                  loadParameters store rest
                    { c with parameters := c.parameters.setIfInBounds index { p with value := some m } }

/-- Fills every parameter from storage.  Parameters before one that cannot be filled keep what they
were filled with. -/
def loadExogenous (c : Catalog K) (store : Store K) : Except ModelError Unit × Catalog K :=
  loadParameters store (List.range c.parameters.size) c

/-- Records the solution values of columns. -/
def setValues (c : Catalog K) (columns : List Nat) (values : List K) : Catalog K :=
  { c with
    values := (columns.zip values).foldl (fun vs e => vs.setIfInBounds e.1 (some e.2)) c.values }

/-- The values of a binding, row by row; columns without a solution have none. -/
def bindingValues (c : Catalog K) (b : Binding) : Except ModelError (List (Option K)) :=
  match b.value with
  | .slice _ columns => .ok (columns.map c.value?)
  | .parameter p => do return (← c.parameterValue p).elements.toList.map some
  | .constant i =>
      match c.constants[i]? with
      | some m => .ok (m.elements.toList.map some)
      | none => .ok []

/-- The rows of a block whose columns have a solution, rounded to a number of decimals. -/
def solvedRows (c : Catalog K) (digits : UInt32) (b : Block) : List (Row K) :=
  (b.coords.zip b.columns).filterMap fun (coords, column) =>
    (c.value? column).map fun v => ⟨coords, some (Scalar.roundTo digits v)⟩

/-- The solved rows of every table with decision columns. -/
def endogenousRows (c : Catalog K) (digits : UInt32) : SortedMap String (List (Row K)) :=
  c.blocks.foldl
    (fun m b => m.insert b.table ((m.get? b.table).getD [] ++ c.solvedRows digits b)) .empty

end CoupledModels.Catalog
