import CoupledModels.Error
import CoupledModels.SortedMap

/-!
# The store

Tables of rows that outlive a model: each row has one item for each coordinate of its table, and a
value that may be undefined.  Beside the tables the store holds the items of dimensions.

Writing rows can fail in the middle.  The rows before the one that fails stay written, so a write
answers with the store that it leaves behind in either case.
-/

namespace CoupledModels

/-- Dimension to accepted items; dimensions that are not named are not restricted. -/
abbrev RowFilter := SortedMap String (List String)

/-- A row of a stored table. -/
structure Row (K : Type) where
  coords : List String
  value : Option K
deriving Repr

/-- A table with the names of its coordinates. -/
structure StoredTable (K : Type) where
  coordinates : List String
  rows : List (Row K)
deriving Repr

/-- Stored tables and the items of stored dimensions. -/
structure Store (K : Type) where
  tables : SortedMap String (StoredTable K)
  dimensions : SortedMap String (List String)
deriving Repr

/-- What a write does with a row whose coordinates exist. -/
inductive WriteMode where
  /-- Refuses it. -/
  | insert
  /-- Gives the existing row the new value. -/
  | replace
deriving DecidableEq, Repr

namespace StoredTable

variable {K : Type}

/-- The columns that a filter restricts, with the items it accepts there. -/
def restrictions (t : StoredTable K) (name : String) (filter : RowFilter) :
    Except ModelError (List (Nat × List String)) :=
  filter.entries.mapM fun (d, items) =>
    match t.coordinates.idxOf? d with
    | some i => .ok (i, items)
    | none => .error (.storage (.noCoordinate name d))

/-- True if a row has an accepted item in every restricted column. -/
def passes (restrictions : List (Nat × List String)) (r : Row K) : Bool :=
  restrictions.all fun (i, items) =>
    match r.coords[i]? with
    | some c => items.contains c
    | none => false

/-- Gives the last row with the coordinates a new value; `none` if there is no such row. -/
def setLast? (coords : List String) (value : Option K) : List (Row K) → Option (List (Row K))
  | [] => none
  | r :: rest =>
      match setLast? coords value rest with
      | some rest => some (r :: rest)
      | none => if r.coords = coords then some (⟨coords, value⟩ :: rest) else none

/-- Writes rows one after the other into a list of rows, up to the first one that is refused. -/
def writeRows (name : String) (mode : WriteMode) :
    List (Row K) → List (Row K) → List (Row K) × Option StorageError
  | rows, [] => (rows, none)
  | rows, r :: batch =>
      match setLast? r.coords r.value rows, mode with
      | none, _ => writeRows name mode (rows ++ [r]) batch
      | some rows, .replace => writeRows name mode rows batch
      | some _, .insert => (rows, some (.rowExists r.coords name))

end StoredTable

namespace Store

variable {K : Type}

/-- The store without tables and dimensions. -/
def empty : Store K :=
  ⟨.empty, .empty⟩

/-- The table of a name, or the error that there is none. -/
def table (s : Store K) (name : String) : Except ModelError (StoredTable K) :=
  match s.tables.get? name with
  | some t => .ok t
  | none => .error (.missing (.storedTable name))

/-- Creates a table without rows; a table that exists with the same coordinates is left alone. -/
def createTable (s : Store K) (name : String) (coordinates : List String) :
    Except ModelError (Store K) :=
  match s.tables.get? name with
  | some t =>
      if t.coordinates = coordinates then .ok s
      else .error (.storage (.coordinatesDiffer name t.coordinates))
  | none => .ok { s with tables := s.tables.insert name ⟨coordinates, []⟩ }

/-- The coordinates of a table. -/
def coordinates (s : Store K) (name : String) : Except ModelError (List String) :=
  (s.table name).map (·.coordinates)

/-- The rows of a table that pass a filter, in stored order. -/
def getRows (s : Store K) (name : String) (filter : RowFilter) : Except ModelError (List (Row K)) := do
  let t ← s.table name
  let restrictions ← t.restrictions name filter
  return t.rows.filter (StoredTable.passes restrictions)

/-- Writes rows into a table.  Every row must have as many coordinates as the table, or nothing is
written at all. -/
def putRows (s : Store K) (name : String) (rows : List (Row K)) (mode : WriteMode) :
    Except ModelError Unit × Store K :=
  match s.table name with
  | .error e => (.error e, s)
  | .ok t =>
      match rows.find? fun r => r.coords.length ≠ t.coordinates.length with
      | some r => (.error (.storage (.rowLength r.coords t.coordinates name)), s)
      | none =>
          let (written, refused) := StoredTable.writeRows name mode t.rows rows
          let s := { s with tables := s.tables.insert name { t with rows := written } }
          match refused with
          | some e => (.error (.storage e), s)
          | none => (.ok (), s)

/-- The names of the tables, ascending. -/
def tableNames (s : Store K) : List String :=
  s.tables.keys

/-- The items of a stored dimension. -/
def items (s : Store K) (dimension : String) : Except ModelError (List String) :=
  match s.dimensions.get? dimension with
  | some items => .ok items
  | none => .error (.missing (.storedDimension dimension))

/-- Stores the items of a dimension in place of earlier ones. -/
def putItems (s : Store K) (dimension : String) (items : List String) : Store K :=
  { s with dimensions := s.dimensions.insert dimension items }

/-- A copy of the rows of some tables. -/
abbrev Snapshot (K : Type) := SortedMap String (List (Row K))

/-- Copies the rows of tables. -/
def snapshot (s : Store K) (names : List String) : Except ModelError (Snapshot K) := do
  let entries ← names.mapM fun n => return (n, ← s.getRows n .empty)
  return SortedMap.ofList entries

end Store

end CoupledModels
