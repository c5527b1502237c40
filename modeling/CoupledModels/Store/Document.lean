import CoupledModels.Store.Basic
import CoupledModels.Text.JsonReader
import CoupledModels.Number.Scalar
import CoupledModels.Number.Numeral

/-!
# The store as a document

A store is saved as one JSON document and loaded from it.  Undefined values, and numbers that have
no numeral, are written as `null`.  When a document is loaded, members that are not known are
ignored, a member that is known must not occur twice, and a record may also be written as the array
of its members.
-/

namespace CoupledModels.Store

variable {K : Type} [StoredNumber K]

/-- The value of a row. -/
def valueDocument (v : Option K) : Json :=
  match v.bind StoredNumber.write? with
  | some n => .number n
  | none => .null

/-- A row with its value. -/
def rowDocument (r : Row K) : Json :=
  .object [("coords", Json.texts r.coords), ("value", valueDocument r.value)]

/-- A table with its rows, in stored order. -/
def tableDocument (t : StoredTable K) : Json :=
  .object
    [("coordinates", Json.texts t.coordinates), ("rows", .array (t.rows.map rowDocument))]

/-- The whole store, tables and dimensions in the order of their names. -/
def document (s : Store K) : Json :=
  .object
    [("tables", .object (s.tables.entries.map fun (n, t) => (n, tableDocument t))),
      ("dimensions", .object (s.dimensions.entries.map fun (n, items) => (n, Json.texts items)))]

/-- The text that a store is saved as. -/
def save (s : Store K) : String :=
  s.document.pretty

/-- The two members of a record, the second of which may be missing from an object. -/
def pair? (first second : String) (v : Json) : Option (Json × Option Json) :=
  match v with
  | .array [a, b] => some (a, some b)
  | .object members =>
      match members.filter (·.1 == first), members.filter (·.1 == second) with
      | [(_, a)], [] => some (a, none)
      | [(_, a)], [(_, b)] => some (a, some b)
      | _, _ => none
  | _ => none

/-- The two members of a record. -/
def bothOf? (first second : String) (v : Json) : Option (Json × Json) :=
  match pair? first second v with
  | some (a, some b) => some (a, b)
  | _ => none

/-- A text. -/
def text? (v : Json) : Option String :=
  match v with
  | .text s => some s
  | _ => none

/-- An array of things. -/
def list? {α : Type} (item? : Json → Option α) (v : Json) : Option (List α) :=
  match v with
  | .array items => items.mapM item?
  | _ => none

/-- An object whose members are things; of several with one name the last one counts. -/
def map? {α : Type} (item? : Json → Option α) (v : Json) : Option (SortedMap String α) :=
  match v with
  | .object members =>
      (members.mapM fun (m : String × Json) => (item? m.2).map fun a => (m.1, a)).map
        SortedMap.ofList
  | _ => none

/-- A value, which may be missing or `null`. -/
def value? (v : Option Json) : Option (Option K) :=
  match v with
  | none | some .null => some none
  | some (.number n) => (StoredNumber.read? n).map some
  | some _ => none

/-- A row; a value that is missing is undefined. -/
def row? (v : Json) : Option (Row K) := do
  let (coords, value) ← pair? "coords" "value" v
  return ⟨← list? text? coords, ← value? value⟩

/-- A table; its rows are taken as they are. -/
def table? (v : Json) : Option (StoredTable K) := do
  let (coordinates, rows) ← bothOf? "coordinates" "rows" v
  return ⟨← list? text? coordinates, ← list? row? rows⟩

/-- The store of a document. -/
def ofDocument? (v : Json) : Option (Store K) := do
  let (tables, dimensions) ← bothOf? "tables" "dimensions" v
  return ⟨← map? table? tables, ← map? (list? text?) dimensions⟩

/-- Reads the text of a saved store. -/
def load (text : String) : Except ModelError (Store K) :=
  match (Json.parse? text).bind ofDocument? with
  | some s => .ok s
  | none => .error .json

/-- True if two values are both undefined or of equal value. -/
def sameValue [Scalar K] : Option K → Option K → Bool
  | none, none => true
  | some a, some b => Scalar.eqv a b
  | _, _ => false

/-- True if two tables have the same coordinates and the same rows in the same order. -/
def sameTable [Scalar K] (s t : StoredTable K) : Bool :=
  s.coordinates == t.coordinates && s.rows.map Row.coords == t.rows.map Row.coords &&
    (s.rows.zip t.rows).all fun (a, b) => sameValue a.value b.value

/-- True if two stores hold the same tables and dimensions.  An undefined number equals nothing. -/
def same [Scalar K] (s t : Store K) : Bool :=
  s.dimensions == t.dimensions && s.tables.keys == t.tables.keys &&
    (s.tables.values.zip t.tables.values).all fun (a, b) => sameTable a b

end CoupledModels.Store
