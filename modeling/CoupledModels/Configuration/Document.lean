import CoupledModels.Configuration.Basic
import CoupledModels.Text.Json

/-!
# The configuration as a document

A configuration is written with every member, `null` where something was not given.  The values of
an item filter stand beside its category.
-/

namespace CoupledModels

/-- The name of a table kind. -/
def TableKind.name : TableKind → String
  | constant => "constant"
  | exogenous => "exogenous"
  | endogenous => "endogenous"

namespace Json

/-- A text, or `null`. -/
def ofText? : Option String → Json
  | some s => .text s
  | none => .null

/-- A map as an object. -/
def ofMap {α : Type} (f : α → Json) (m : SortedMap String α) : Json :=
  .object (m.entries.map fun (k, a) => (k, f a))

end Json

namespace Configuration

/-- A described set; a set that gives no table name of its own has `null` there. -/
def setDocument (s : SetConfiguration) : Json :=
  .object
    [("symbol", .text s.symbol), ("table_name", Json.ofText? s.tableName),
      ("split_problem", .bool s.splits), ("items", Json.texts s.items),
      ("categories", Json.ofMap Json.text s.categories),
      ("aggregation", Json.ofMap Json.text s.aggregation),
      ("filters", Json.ofMap (Json.ofMap Json.text) s.filters),
      ("copy_from", Json.ofText? s.copyFrom)]

/-- One word, or a word for each label. -/
def kindDocument : KindConfiguration → Json
  | .fixed k => .text k.name
  | .perLabel m => Json.ofMap (fun k => .text k.name) m

/-- A number, a name, or `null`. -/
def sideDocument : Option SideConfiguration → Json
  | none => .null
  | some (.number n) => Json.ofNat n
  | some (.name d) => .text d

/-- The category, and beside it each named filter with its accepted values. -/
def filterDocument (f : ItemFilter) : Json :=
  .object
    (("category", Json.ofText? f.category) ::
      f.values.entries.map fun (name, accepted) => (name, Json.texts accepted))

/-- A described variable; its constant is written by name. -/
def variableDocument (v : VariableConfiguration) : Json :=
  .object
    [("symbol", .text v.symbol), ("rows", sideDocument v.rows), ("cols", sideDocument v.cols),
      ("value", Json.ofText? (v.value.map ConstantKind.name)),
      ("filters", Json.ofMap filterDocument v.filters)]

/-- A described table with its variables. -/
def tableDocument (t : TableConfiguration) : Json :=
  .object
    [("name", .text t.name), ("type", kindDocument t.kind),
      ("coordinates", Json.texts t.coordinates), ("integer", .bool t.integer),
      ("variables", .array (t.members.map variableDocument))]

/-- The texts of a symbolic model. -/
def modelDocument (m : ModelText) : Json :=
  .object [("objective", Json.texts m.objective), ("expressions", Json.texts m.expressions)]

/-- The configuration with every member. -/
def document (c : Configuration) : Json :=
  .object
    [("sets", .array (c.sets.map setDocument)), ("tables", .array (c.tables.map tableDocument)),
      ("problem", match c.problem with
        | some m => modelDocument m
        | none => .null),
      ("problems", Json.ofMap modelDocument c.problems)]

end Configuration

end CoupledModels
