import CoupledModels.Problem.SubProblem
import CoupledModels.Catalog.Data
import CoupledModels.Catalog.Build

/-!
# Models

A model is a registry, tables and the texts of one or more named symbolic models, with the catalog
that these determine.  Its sub-problems are built on demand.  Exogenous data is loaded from a store,
and solved values are pushed to one.
-/

namespace CoupledModels

/-- The sub-problems of every symbolic model. -/
abbrev ProblemSet (K : Type) := SortedMap String (SubProblems K)

namespace ProblemSet

variable {K : Type}

/-- All sub-problems, by model name and key. -/
def all (ps : ProblemSet K) : List (SubProblem K) :=
  ps.values.flatMap SortedMap.values

/-- Gives the sub-problems of one model new values, in order. -/
def refillOne (ps : SubProblems K) (new : List (SubProblem K)) : SubProblems K :=
  ⟨List.zipWith (fun e p => (e.1, p)) ps.entries new⟩

/-- Gives the sub-problems of every model new values, in the order of `all`. -/
def refillEntries : List (String × SubProblems K) → List (SubProblem K) →
    List (String × SubProblems K)
  | [], _ => []
  | (name, ps) :: rest, new =>
      let n := ps.entries.length
      (name, refillOne ps (new.take n)) :: refillEntries rest (new.drop n)

/-- The same keys with new sub-problems, in the order of `all`. -/
def refill (ps : ProblemSet K) (new : List (SubProblem K)) : ProblemSet K :=
  ⟨refillEntries ps.entries new⟩

/-- Changes every sub-problem. -/
def map (f : SubProblem K → SubProblem K) (ps : ProblemSet K) : ProblemSet K :=
  ps.mapEntries fun _ => SortedMap.mapEntries fun _ => f

end ProblemSet

/-- A model with its catalog and the sub-problems that have been built. -/
structure Model (K : Type) where
  sets : Registry
  tables : List TableDeclaration
  texts : SortedMap String ModelText
  catalog : Catalog K
  problems : ProblemSet K

/-- What a build does with sub-problems that exist already. -/
inductive BuildPolicy where
  | keep
  | overwrite
deriving DecidableEq, Repr

/-- What a build has done. -/
inductive BuildOutcome where
  | built
  | kept
deriving DecidableEq, Repr

/-- The status of one sub-problem. -/
structure ProblemStatus where
  model : String
  key : ProblemKey
  status : Status
deriving DecidableEq, Repr

namespace Model

variable {K : Type} [Scalar K]

/-- Resolves every variable; no sub-problem is built yet. -/
def ofParts (sets : Registry) (tables : List TableDeclaration) (texts : SortedMap String ModelText) :
    Except ModelError (Model K) := do
  let catalog ← Catalog.build tables sets
  return ⟨sets, tables, texts, catalog, .empty⟩

/-- Builds the sub-problems of every symbolic model.  If that fails there are none afterwards. -/
def build [Transcendental K] (m : Model K) (policy : BuildPolicy) :
    Except ModelError BuildOutcome × Model K :=
  if !m.problems.isEmpty && policy == .keep then (.ok .kept, m)
  else
    match SubProblems.buildAll m.catalog m.sets m.texts with
    | .ok ps => (.ok .built, { m with problems := ps })
    | .error e => (.error e, { m with problems := .empty })

/-- Fills the parameters of the catalog from a store. -/
def loadExogenous (m : Model K) (store : Store K) : Except ModelError Unit × Model K :=
  let (r, catalog) := m.catalog.loadExogenous store
  (r, { m with catalog := catalog })

omit [Scalar K] in
/-- Writes rows into tables, up to the first table that refuses them. -/
def pushTables : List (String × List (Row K)) → Store K → Except ModelError Unit × Store K
  | [], store => (.ok (), store)
  | (table, rows) :: rest, store =>
      if rows.isEmpty then pushTables rest store
      else
        match store.putRows table rows .replace with
        | (.ok _, store) => pushTables rest store
        | (.error e, store) => (.error e, store)

/-- Writes solved values to a store, rounded to a number of decimals. -/
def pushEndogenous (m : Model K) (digits : UInt32) (store : Store K) :
    Except ModelError Unit × Store K :=
  pushTables (m.catalog.endogenousRows digits).entries store

omit [Scalar K] in
/-- The status of every sub-problem, by model name and key. -/
def statuses (m : Model K) : List ProblemStatus :=
  m.problems.entries.flatMap fun (name, ps) => ps.entries.map fun (key, p) => ⟨name, key, p.status⟩

omit [Scalar K] in
/-- Allows every sub-problem to be solved again. -/
def requestResolve (m : Model K) : Model K :=
  { m with problems := m.problems.map SubProblem.reset }

/-- Reads the items of a dimension from a store and resolves every variable anew.  Sub-problems are
given up.  A failure leaves what there is at that point. -/
def reloadDimension (m : Model K) (store : Store K) (id : String) :
    Except ModelError Unit × Model K :=
  match m.sets.get id with
  | .error e => (.error e, m)
  | .ok d =>
      match store.items d.tableName with
      | .error e => (.error e, m)
      | .ok items =>
          match m.sets.setItems id items with
          | .error e => (.error e, m)
          | .ok sets =>
              match Catalog.build m.tables sets with
              | .error e => (.error e, m)
              | .ok catalog =>
                  let m := { m with sets := sets, catalog := catalog, problems := .empty }
                  -- The message about the success asks for the dimension once more.
                  (m.sets.get id |>.map fun _ => (), m)

/-- The solved values of every decision binding of a variable, by the label of the binding. -/
def variableValues (m : Model K) (symbol : String) :
    Except ModelError (SortedMap String (List (Option K))) := do
  if (m.catalog.variableNamed? symbol).isNone then throw (.missing (.undefinedVariable symbol))
  let entries ← ((m.catalog.bindingsOf symbol).filter Binding.isDecision).mapM fun b =>
    return (b.label, ← m.catalog.bindingValues b)
  return SortedMap.ofList entries

end Model

end CoupledModels
