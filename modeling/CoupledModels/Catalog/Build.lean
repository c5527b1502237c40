import CoupledModels.Catalog.Basic

/-!
# Building the catalog

Tables are taken in order: each one is checked, gets its decision blocks, and has its variables
resolved.  Bindings come last, variable by variable.
-/

namespace CoupledModels.Catalog

variable {K : Type} [Scalar K]

/-- The first element that has occurred before. -/
def firstRepeat? (seen : List String) : List String → Option String
  | [] => none
  | a :: rest => if seen.contains a then some a else firstRepeat? (a :: seen) rest

/-- The catalog of some tables before anything has been added. -/
def start (tables : List TableDeclaration) : Catalog K where
  members := []
  tableCoordinates := tables.map fun t => (t.name, t.coordinates)
  bindings := #[]
  blocks := #[]
  parameters := #[]
  constants := #[]
  values := #[some 1]
  integer := #[false]

/-- A kind that varies must be given for every sub-problem and never be constant. -/
def checkKind (t : TableDeclaration) (keys : List ProblemKey) : Except ConfigurationError Unit :=
  match t.kind with
  | .fixed _ => .ok ()
  | .perProblem m =>
      if m.values.contains .constant then .error (.constantPerProblem t.name)
      else
        match keys.find? fun k => !m.contains k with
        | some k => .error (.kindMissing t.name k)
        | none => .ok ()

/-- Adds a decision block whose columns follow all others. -/
def addBlock (t : TableDeclaration) (c : Catalog K) (b : RowBlock) : Catalog K :=
  { c with
    blocks := c.blocks.push ⟨t.name, b.key, b.rows, c.values.size, t.integer⟩
    values := c.values ++ Array.replicate b.rows.length none
    integer := c.integer ++ Array.replicate b.rows.length t.integer }

/-- Resolves a variable; its symbol must be new. -/
def addVariable (t : TableDeclaration) (sets : Registry) (c : Catalog K) (v : VariableDeclaration) :
    Except ModelError (Catalog K) := do
  if (c.variableNamed? v.symbol).isSome then throw (.configuration (.duplicateSymbol v.symbol))
  let r ← Variable.resolve v t sets
  return { c with members := c.members ++ [r] }

/-- Adds the blocks and the variables of a table. -/
def addTable (sets : Registry) (keys : List ProblemKey) (c : Catalog K) (t : TableDeclaration) :
    Except ModelError (Catalog K) := do
  (checkKind t keys).mapError ModelError.configuration
  let c ← if t.kind.has .endogenous then do
      let bs ← t.enumerateBlocks sets
      pure (bs.foldl (addBlock t) c)
    else pure c
  t.members.foldlM (addVariable t sets) c

/-- The row of a table at a row item, a column item, an intra item and inter items. -/
def tableRow (coordinates : List String) (v : Variable) (row col intra : Option String)
    (inter : List Coordinate) : List String :=
  coordinates.map fun d =>
    if v.roles.rows = some d then row.getD ""
    else if v.roles.cols = some d then col.getD ""
    else if v.roles.intra = some d then intra.getD ""
    else (inter.lookup d).getD ""

/-- The items of a side, or no item if there is a single row or column. -/
def sideItems (items : Option (List String)) : List (Option String) :=
  match items with
  | some is => is.map some
  | none => [none]

/-- The columns of a variable at an intra item and inter items. -/
def slice (c : Catalog K) (v : Variable) (intra : Option String) (inter : List Coordinate) :
    Except ModelError BindingValue := do
  let key : ProblemKey := ⟨inter⟩
  match c.blockIndex? v.table key with
  | none => throw (.missing (.block v.table key))
  | some i =>
      match c.blocks[i]? with
      | none => throw (.missing (.block v.table key))
      | some block =>
          let coordinates := (c.coordinatesOf? v.table).getD []
          let cells := (sideItems v.rowItems?).flatMap fun r =>
            (sideItems v.colItems?).map fun k => tableRow coordinates v r k intra inter
          let columns ← cells.mapM fun cell =>
            match block.column? cell with
            | some column => Except.ok column
            | none => .error (.missing (.row v.table cell))
          return .slice i columns

/-- The items that select the rows of a binding. -/
def bindingFilter (v : Variable) (intra : Option String) (inter : List Coordinate) : RowFilter :=
  let sides := (v.roles.rows.toList ++ v.roles.cols.toList).map fun d => (d, v.itemsOf d)
  let single := match v.roles.intra, intra with
    | some d, some i => [(d, [i])]
    | _, _ => []
  SortedMap.ofList (sides ++ single ++ inter.map fun (d, i) => (d, [i]))

/-- Adds a binding after all others. -/
def pushBinding (c : Catalog K) (v : Variable) (scope : Option ProblemKey) (inter : List Coordinate)
    (intra : Option String) (value : BindingValue) : Catalog K :=
  { c with
    bindings := c.bindings.push
      { id := c.bindings.size
        symbol := v.symbol
        scope := scope
        inter := inter
        intra := intra
        filter := bindingFilter v intra inter
        shape := v.shape
        value := value } }

/-- One binding of a variable that is not constant. -/
structure Site where
  scope : Option ProblemKey
  kind : TableKind
  inter : List Coordinate
  intra : Option String

/-- Adds the binding of a site, with a parameter of its own if the table is exogenous there. -/
def addSite (v : Variable) (c : Catalog K) (s : Site) : Except ModelError (Catalog K) :=
  match s.kind with
  | .exogenous =>
      let index := c.parameters.size
      let c := { c with parameters := c.parameters.push ⟨c.bindings.size, v.table, v.shape, none⟩ }
      .ok (c.pushBinding v s.scope s.inter s.intra (.parameter index))
  | .endogenous => do
      let value ← c.slice v s.intra s.inter
      return c.pushBinding v s.scope s.inter s.intra value
  | .constant => .error (.configuration (.constantBinding v.symbol))

/-- The sub-problems for which bindings are made, each with the kind that the table has there. -/
def scopes (v : Variable) (keys : List ProblemKey) :
    Except ModelError (List (Option ProblemKey × TableKind)) :=
  match v.kind with
  | .fixed k => .ok [(none, k)]
  | .perProblem _ => keys.mapM fun key => do return (some key, ← v.kind.kindFor key)

/-- The sites of a variable: for each scope the inter items that agree with it, and for these each
intra item. -/
def sites (v : Variable) (scopes : List (Option ProblemKey × TableKind)) : List Site :=
  let inters := Registry.product (v.roles.inter.map fun d => (v.itemsOf d).map fun i => (d, i))
  scopes.flatMap fun (scope, kind) =>
    let agreeing := inters.filter fun inter => match scope with
      | some key => key.agreesWith inter
      | none => true
    agreeing.flatMap fun inter =>
      (sideItems v.intraItems?).map fun intra => ⟨scope, kind, inter, intra⟩

/-- Adds the bindings of a variable. -/
def addBindings (keys : List ProblemKey) (c : Catalog K) (v : Variable) :
    Except ModelError (Catalog K) := do
  if v.isConstant then
    let m ← v.constantValue
    let index := c.constants.size
    return { c with constants := c.constants.push m }.pushBinding v none [] none (.constant index)
  else
    let scopes ← scopes v keys
    (sites v scopes).foldlM (addSite v) c

/-- The catalog of a list of tables. -/
def build (tables : List TableDeclaration) (sets : Registry) : Except ModelError (Catalog K) := do
  match firstRepeat? [] (tables.map (·.name)) with
  | some t => throw (.configuration (.duplicateTable t))
  | none => pure ()
  let keys := sets.problemKeys
  let c ← tables.foldlM (addTable sets keys) (start tables)
  c.members.foldlM (addBindings keys) c

end CoupledModels.Catalog
