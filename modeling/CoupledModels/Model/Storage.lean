import CoupledModels.Model.Basic

/-!
# The storage layout of a model

A model expects the items of each dimension under the dimension's table name, and one stored table
for each declared one.  Tables that are decided by a solver hold a row for every combination of
items; a row that is missing is added without a value.
-/

namespace CoupledModels.Model

variable {K : Type}

/-- The rows of a table that a store lacks, without values. -/
def missingRows (sets : Registry) (t : TableDeclaration) (stored : List (Row K)) :
    Except ModelError (List (Row K)) := do
  let rows ← t.enumerate sets
  let existing := stored.map Row.coords
  return (rows.filter fun r => !existing.contains r).map fun r => ⟨r, none⟩

/-- Adds the rows that a table lacks. -/
def addMissingRows (sets : Registry) (t : TableDeclaration) (store : Store K) :
    Except ModelError Unit × Store K :=
  match store.getRows t.name .empty >>= missingRows sets t with
  | .ok rows => store.putRows t.name rows .insert
  | .error e => (.error e, store)

/-- Creates a table, with all its rows if a solver decides it. -/
def initializeTable (sets : Registry) (t : TableDeclaration) (store : Store K) :
    Except ModelError Unit × Store K :=
  match store.createTable t.name t.coordinates with
  | .ok store =>
      if t.kind.has .endogenous then addMissingRows sets t store else (.ok (), store)
  | .error e => (.error e, store)

/-- Creates tables, up to the first one that fails. -/
def initializeTables (sets : Registry) : List TableDeclaration → Store K →
    Except ModelError Unit × Store K
  | [], store => (.ok (), store)
  | t :: rest, store =>
      match initializeTable sets t store with
      | (.ok _, store) => initializeTables sets rest store
      | (.error e, store) => (.error e, store)

/-- Stores the items of every dimension. -/
def storeItems (sets : Registry) (store : Store K) : Store K :=
  sets.dims.foldl (fun s d => s.putItems d.tableName d.items) store

/-- Creates the storage layout.  What was created before a failure stays. -/
def initializeStorage (m : Model K) (store : Store K) : Except ModelError Unit × Store K :=
  initializeTables m.sets m.tables (storeItems m.sets store)

end CoupledModels.Model
