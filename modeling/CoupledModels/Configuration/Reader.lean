import CoupledModels.Configuration.Basic
import CoupledModels.Yaml.Decode

/-!
# Reading configurations

The configuration that a YAML document describes.  Most members may be left out.  The kind of a
table is one word or a map of words; the rows and columns of a variable are a number or a name, and
there the type of a scalar counts, as it does for the values of an item filter.
-/

namespace CoupledModels.Configuration

open Yaml (Document Node)

/-- The table kind of a name. -/
def kindNamed? (name : String) : Option TableKind :=
  match name with
  | "constant" => some .constant
  | "exogenous" => some .exogenous
  | "endogenous" => some .endogenous
  | _ => none

/-- A map from texts to texts. -/
def textMap? (d : Document) (n : Node) : Option (SortedMap String String) :=
  d.map? d.text? n

/-- A set, of which only the symbol must be given; the mark of a splitting set has two names. -/
def readSet? (d : Document) (n : Node) : Option SetConfiguration := do
  let r ← d.record? n
  let splits ← r.member? ["split_problem", "splits_problem"] d.bool?
  return {
    symbol := ← r.required? "symbol" d.text?
    tableName := ← r.optional? "table_name" d.text?
    splits := splits.getD false
    items := ← r.orElse? "items" (d.list? d.text?) []
    categories := ← r.orElse? "categories" (textMap? d) .empty
    aggregation := ← r.orElse? "aggregation" (textMap? d) .empty
    filters := ← r.orElse? "filters" (d.map? (textMap? d)) .empty
    copyFrom := ← r.optional? "copy_from" d.text? }

/-- A table kind where the type of a scalar counts: a word, or a word as the key of nothing. -/
def typedKind? (d : Document) (n : Node) : Option TableKind :=
  match d.resolve n with
  | .mapping tag [(k, v)] =>
      if Document.isLocal tag then none
      else
        match d.typed? v with
        | some .null => d.typedText? k >>= kindNamed?
        | _ => none
  | n => d.typedText? n >>= kindNamed?

/-- One kind for each label. -/
def kindMap? (d : Document) (n : Node) : Option (SortedMap String TableKind) :=
  match d.resolve n with
  | .mapping tag entries => do
      if Document.isLocal tag then none
      let entries ← entries.mapM fun (k, v) => do return (← d.typedText? k, ← typedKind? d v)
      return SortedMap.ofList entries
  | _ => none

/-- One kind where a single word is given, else one for each label. -/
def readKind? (d : Document) (n : Node) : Option KindConfiguration :=
  match typedKind? d n with
  | some k => some (.fixed k)
  | none => (kindMap? d n).map .perLabel

/-- A number that fits in 64 bits, or a name. -/
def readSide? (d : Document) (n : Node) : Option SideConfiguration :=
  match d.typed? n with
  | some (.integer i) => if 0 ≤ i ∧ i < pow2 64 then some (.number i.toNat) else none
  | some (.text s) => some (.name s)
  | _ => none

/-- The accepted values of a filter, where the type of a scalar counts. -/
def accepted? (d : Document) (n : Node) : Option (List String) :=
  match d.resolve n with
  | .sequence tag items =>
      if Document.isLocal tag then none else items.mapM d.typedText?
  | _ => none

/-- An item filter: a category, and every other member as a named filter. -/
def readFilter? (d : Document) (n : Node) : Option ItemFilter := do
  let r ← d.record? n
  let category ← r.optional? "category" d.text?
  let values ← (r.members.filter fun m => m.1 != "category").mapM fun (name, v) =>
    (accepted? d v).map fun accepted => (name, accepted)
  return ⟨category, SortedMap.ofList values⟩

/-- A variable, of which only the symbol must be given. -/
def readVariable? (d : Document) (n : Node) : Option VariableConfiguration := do
  let r ← d.record? n
  return {
    symbol := ← r.required? "symbol" d.text?
    rows := ← r.optional? "rows" (readSide? d)
    cols := ← r.optional? "cols" (readSide? d)
    value := ← r.optional? "value" (d.choice? ConstantKind.ofName?)
    filters := ← r.orElse? "filters" (d.map? (readFilter? d)) .empty }

/-- A table, whose name and kind must be given. -/
def readTable? (d : Document) (n : Node) : Option TableConfiguration := do
  let r ← d.record? n
  return {
    name := ← r.required? "name" d.text?
    kind := ← r.required? "type" (readKind? d)
    coordinates := ← r.orElse? "coordinates" (d.list? d.text?) []
    integer := ← r.orElse? "integer" d.bool? false
    members := ← r.orElse? "variables" (d.list? (readVariable? d)) [] }

/-- The texts of a symbolic model, either of which may be left out. -/
def readModel? (d : Document) (n : Node) : Option ModelText := do
  let r ← d.record? n
  return {
    objective := ← r.orElse? "objective" (d.list? d.text?) []
    expressions := ← r.orElse? "expressions" (d.list? d.text?) [] }

/-- The configuration of a document, of which every member may be left out. -/
def ofDocument? (d : Document) : Option Configuration := do
  let r ← d.record? d.root
  return {
    sets := ← r.orElse? "sets" (d.list? (readSet? d)) []
    tables := ← r.orElse? "tables" (d.list? (readTable? d)) []
    problem := ← r.optional? "problem" (readModel? d)
    problems := ← r.orElse? "problems" (d.map? (readModel? d)) .empty }

/-- Reads the configuration that a text describes. -/
def ofYaml (text : String) : Except ModelError Configuration :=
  match Document.ofText? text >>= ofDocument? with
  | some c => .ok c
  | none => .error .yaml

end CoupledModels.Configuration
