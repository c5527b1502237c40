import CoupledModels.Configuration.Basic

/-!
# Declarations of a configuration

A configuration is turned into the registry, the declared tables and the symbolic models of a model.

A set may take the items of another set, which may take those of a third one.  As a chain of sets
that repeats none is no longer than the list of sets, a longer one is cyclic.
-/

namespace CoupledModels.Configuration

/-- The described set of a symbol; of several the last one. -/
def setNamed? (sets : List SetConfiguration) (symbol : String) : Option SetConfiguration :=
  sets.reverse.find? fun s => s.symbol == symbol

/-- Follows references from a set to the one that has the items; `fuel` more references may be
followed. -/
def followCopies (sets : List SetConfiguration) (symbol : String) :
    Nat → SetConfiguration → Except ConfigurationError SetConfiguration
  | fuel, s =>
      match s.copyFrom with
      | none => .ok s
      | some other =>
          match setNamed? sets other with
          | none => .error (.copyOfUnknown symbol other)
          | some next =>
              match fuel with
              | 0 => .error (.cyclicCopy symbol)
              | fuel + 1 => followCopies sets symbol fuel next

/-- The dimension of a described set. -/
def dimensionOf (sets : List SetConfiguration) (s : SetConfiguration) :
    Except ConfigurationError Dimension := do
  let source ← followCopies sets s.symbol sets.length s
  return {
    id := s.symbol
    tableName := s.tableName.getD (Dimension.defaultTableName s.symbol)
    items := source.items
    splits := s.splits
    categories := s.categories
    aggregation := s.aggregation
    filters := s.filters }

/-- The registry of the described sets, in their order. -/
def registry (c : Configuration) : Except ModelError Registry :=
  c.sets.foldlM
    (fun r s => do
      let d ← (dimensionOf c.sets s).mapError ModelError.configuration
      r.insert d)
    Registry.empty

/-- The rows or columns that are described; a number must be one. -/
def sideOf (symbol : String) (side : Option SideConfiguration) : Except ConfigurationError Side :=
  match side with
  | none | some (.number 1) => .ok .one
  | some (.number n) => .error (.size symbol n)
  | some (.name d) => .ok (.ofName (some d))

/-- The sub-problem of a label. -/
def keyOf (keys : List ProblemKey) (table label : String) : Except ConfigurationError ProblemKey :=
  match keys.find? fun k => k.label == label with
  | some k => .ok k
  | none => .error (.unknownProblem table label)

/-- The kind of a table; labels must be those of sub-problems. -/
def kindOf (keys : List ProblemKey) (table : String) (kind : KindConfiguration) :
    Except ConfigurationError KindRule :=
  match kind with
  | .fixed k => .ok (.fixed k)
  | .perLabel m => do
      let entries ← m.entries.mapM fun (label, k) => return (← keyOf keys table label, k)
      return .perProblem (SortedMap.ofList entries)

/-- A declared variable. -/
def variableOf (v : VariableConfiguration) : Except ConfigurationError VariableDeclaration := do
  let rows ← sideOf v.symbol v.rows
  let cols ← sideOf v.symbol v.cols
  return ⟨v.symbol, rows, cols, v.value, v.filters⟩

/-- A declared table; its coordinates must be registered. -/
def tableOf (sets : Registry) (keys : List ProblemKey) (t : TableConfiguration) :
    Except ConfigurationError TableDeclaration := do
  match t.coordinates.find? fun d => !sets.contains d with
  | some d => throw (.unknownCoordinate t.name d)
  | none => pure ()
  let kind ← kindOf keys t.name t.kind
  let members ← t.members.mapM variableOf
  return ⟨t.name, kind, t.coordinates, t.integer, members⟩

/-- The declared tables, checked against a registry. -/
def declaredTables (c : Configuration) (sets : Registry) :
    Except ModelError (List TableDeclaration) :=
  (c.tables.mapM (tableOf sets sets.problemKeys)).mapError ModelError.configuration

/-- The name of a symbolic model that is described without one. -/
def defaultModel : String :=
  "default"

/-- The symbolic models by name.  A single one without a name and named ones exclude each other. -/
def modelTexts (c : Configuration) : Except ModelError (SortedMap String ModelText) :=
  match c.problem with
  | some m =>
      if c.problems.isEmpty then .ok (SortedMap.ofList [(defaultModel, m)])
      else .error (.configuration .problemAndProblems)
  | none =>
      if c.problems.isEmpty then .ok (SortedMap.ofList [(defaultModel, ModelText.empty)])
      else .ok c.problems

end CoupledModels.Configuration
