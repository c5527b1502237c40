import CoupledModels.Tables.Declaration

/-!
# Resolution of variables

A declared variable is resolved against its table and the registry: every coordinate of the table
becomes rows, columns, the intra dimension or an inter dimension.  Coordinates that are neither rows
nor columns are inter dimensions if they split the model; of the others there may be at most one,
the intra dimension.
-/

namespace CoupledModels

/-- The part that each coordinate of a table plays in a variable. -/
structure Roles where
  rows : Option String
  cols : Option String
  /-- The coordinate over whose items formulas are replicated. -/
  intra : Option String
  /-- The coordinates that a sub-problem fixes. -/
  inter : List String
deriving DecidableEq, Repr, Inhabited

namespace Roles

/-- The roles before any coordinate has been looked at. -/
def empty : Roles :=
  ⟨none, none, none, []⟩

/-- The dimensions that play a part. -/
def dims (r : Roles) : List String :=
  r.rows.toList ++ r.cols.toList ++ r.intra.toList ++ r.inter

end Roles

/-- A variable resolved against its table and the registry. -/
structure Variable where
  symbol : String
  table : String
  kind : KindRule
  integer : Bool
  value : Option ConstantKind
  roles : Roles
  /-- The items of each coordinate that pass its filter, in dimension order. -/
  items : SortedMap String (List String)
  shape : Shape
  /-- Row items with the column items related to them, if the two dimensions are related. -/
  aggregation : Option (List (String × String))
deriving DecidableEq, Repr

namespace Variable

/-- True if the variable belongs to a constant table. -/
def isConstant (v : Variable) : Bool :=
  v.kind.isConstant

/-- The items of a coordinate; a coordinate that the table lacks has none. -/
def itemsOf (v : Variable) (dim : String) : List String :=
  (v.items.get? dim).getD []

/-- The items of the rows, if they range over a dimension. -/
def rowItems? (v : Variable) : Option (List String) :=
  v.roles.rows.bind v.items.get?

/-- The items of the columns, if they range over a dimension. -/
def colItems? (v : Variable) : Option (List String) :=
  v.roles.cols.bind v.items.get?

/-- The items of the intra dimension, if there is one. -/
def intraItems? (v : Variable) : Option (List String) :=
  v.roles.intra.bind v.items.get?

/-- True if a dimension relates its items to those of another one: it maps some items, and all
parents are items of the other dimension. -/
def covers (child parent : Dimension) : Bool :=
  !child.aggregation.isEmpty && child.aggregation.values.all fun p => parent.items.contains p

/-- Row items with the column items related to them.  A dimension relates each item to itself; of
two dimensions one must map its items onto those of the other, and the columns have precedence. -/
def aggregationMap (rowsDim : String) (rows : List String) (colsDim : String) (cols : List String)
    (sets : Registry) : Except ModelError (Option (List (String × String))) := do
  if rowsDim = colsDim then
    return some ((rows.filter cols.contains).map fun r => (r, r))
  let rd ← sets.get rowsDim
  let cd ← sets.get colsDim
  if covers cd rd then
    return some <| cols.filterMap fun c =>
      ((cd.aggregation.get? c).filter rows.contains).map fun p => (p, c)
  else if covers rd cd then
    return some <| rows.filterMap fun r =>
      ((rd.aggregation.get? r).filter cols.contains).map fun p => (r, p)
  else return none

/-- A side must be a registered dimension and a coordinate of the table. -/
def checkSide (side : Side) (v : VariableDeclaration) (t : TableDeclaration) (sets : Registry) :
    Except ConfigurationError Unit :=
  match side.dim? with
  | none => .ok ()
  | some d =>
      if !sets.contains d then .error (.undefinedShapeDimension v.symbol d)
      else if !t.coordinates.contains d then .error (.shapeOffTable v.symbol d t.name)
      else .ok ()

/-- What a declaration must satisfy before its coordinates are looked at. -/
def checkDeclaration (v : VariableDeclaration) (t : TableDeclaration) (sets : Registry) :
    Except ConfigurationError Unit := do
  checkSide v.rows v t sets
  checkSide v.cols v t sets
  if v.rows.dim?.isSome ∧ v.rows = v.cols ∧ !t.kind.isConstant then
    throw (.sameRowsAndColumns v.symbol)
  if t.kind.isConstant && v.value.isNone then throw (.noValueKind v.symbol)
  if !t.kind.isConstant && v.value.isSome then throw (.uselessValueKind v.symbol t.name)
  match v.filters.keys.find? fun d => !t.coordinates.contains d with
  | some d => throw (.filterOffTable v.symbol d t.name)
  | none => return ()

/-- Gives a coordinate its part. -/
def assignRole (v : VariableDeclaration) (t : TableDeclaration) (sets : Registry) (r : Roles)
    (d : String) : Except ModelError Roles :=
  match sets.find? d with
  | none => .error (.configuration (.undefinedCoordinate t.name d))
  | some dim =>
      let asRows := v.rows.dim? = some d
      let asCols := v.cols.dim? = some d
      if asRows ∨ asCols then
        .ok
          { r with
            rows := if asRows then some d else r.rows
            cols := if asCols then some d else r.cols }
      else if dim.splits then .ok { r with inter := r.inter ++ [d] }
      else
        match r.intra with
        | some other => .error (.conceptual (.secondIntra v.symbol other d))
        | none => .ok { r with intra := some d }

/-- The items of a coordinate that pass its filter; a dimension without items has no data. -/
def coordinateItems (v : VariableDeclaration) (sets : Registry) (d : String) :
    Except ModelError (List String) := do
  let dim ← sets.get d
  if dim.items.isEmpty then throw (.missing (.items d))
  match v.filters.get? d with
  | some f => if f.isEmpty then return dim.items else dim.filteredItems f
  | none => return dim.items

/-- Resolves a declared variable against its table and the registry. -/
def resolve (v : VariableDeclaration) (t : TableDeclaration) (sets : Registry) :
    Except ModelError Variable := do
  (checkDeclaration v t sets).mapError ModelError.configuration
  let roles ← t.coordinates.foldlM (assignRole v t sets) Roles.empty
  if t.kind.has .endogenous then
    match (roles.rows.toList ++ roles.cols.toList).find? sets.isSplitting with
    | some d => throw (.conceptual (.splittingShape v.symbol t.name d))
    | none => pure ()
  let entries ← t.coordinates.mapM fun d => return (d, ← coordinateItems v sets d)
  let items := SortedMap.ofList entries
  let itemsOf (d : String) : List String := (items.get? d).getD []
  let extent (side : Option String) : Nat := match side with
    | some d => (itemsOf d).length
    | none => 1
  let aggregation ← match roles.rows, roles.cols with
    | some r, some c => aggregationMap r (itemsOf r) c (itemsOf c) sets
    | _, _ => pure none
  return {
    symbol := v.symbol
    table := t.name
    kind := t.kind
    integer := t.integer
    value := v.value
    roles := roles
    items := items
    shape := ⟨extent roles.rows, extent roles.cols⟩
    aggregation := aggregation }

end Variable

end CoupledModels
