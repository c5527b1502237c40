import CoupledModels.Yaml.Schema
import CoupledModels.SortedMap

/-!
# Decoding documents

How nodes are turned into values.  Where a text is expected any scalar will do, by the way it is
written.  A plain scalar that is empty stands for an empty list and an empty map as well.  Members
of a record that are not known are passed over; a known one may be given once.
-/

namespace CoupledModels.Yaml.Document

/-- A text. -/
def text? (d : Document) (n : Node) : Option String :=
  match d.resolve n with
  | .scalar _ _ s => some s
  | _ => none

/-- A list of things. -/
def list? {α : Type} (d : Document) (item? : Node → Option α) (n : Node) : Option (List α) :=
  match d.resolve n with
  | .sequence _ items => items.mapM item?
  | .scalar _ .plain "" => some []
  | _ => none

/-- The entries of a mapping; keys are texts. -/
def members? (d : Document) (n : Node) : Option (List (String × Node)) :=
  match d.resolve n with
  | .mapping _ entries => entries.mapM fun (k, v) => (d.text? k).map fun k => (k, v)
  | .scalar _ .plain "" => some []
  | _ => none

/-- A map of things; of several entries with one key the last one counts. -/
def map? {α : Type} (d : Document) (item? : Node → Option α) (n : Node) :
    Option (SortedMap String α) := do
  let entries ← (← d.members? n).mapM fun (k, v) => (item? v).map fun a => (k, a)
  return SortedMap.ofList entries

/-- A thing, or nothing where nothing or a word for it is written. -/
def option? {α : Type} (d : Document) (item? : Node → Option α) (n : Node) : Option (Option α) :=
  let given := (item? n).map some
  match d.resolve n with
  | .scalar none .plain s => if s.isEmpty || Schema.isNull s then some none else given
  | .scalar (some tag) .plain s =>
      if tag == Schema.coreTag "null" then (if Schema.isNull s then some none else none) else given
  | _ => given

/-- A scalar that is plain, or a literal one with the tag of a type. -/
def plain? (d : Document) (type : String) (n : Node) : Option String :=
  match d.resolve n with
  | .scalar _ .plain s => some s
  | .scalar (some tag) .literal s => if tag == Schema.coreTag type then some s else none
  | _ => none

/-- A truth value. -/
def bool? (d : Document) (n : Node) : Option Bool :=
  d.plain? "bool" n >>= Schema.bool?

/-- A whole number below a limit. -/
def nat? (d : Document) (limit : Nat) (n : Node) : Option Nat :=
  d.plain? "int" n >>= Schema.unsigned? limit

/-- A float. -/
def float? (d : Document) (n : Node) : Option Float :=
  d.plain? "float" n >>= Schema.float?

/-- A scalar by its type. -/
def typed? (d : Document) (n : Node) : Option TypedScalar :=
  match d.resolve n with
  | .scalar tag style s => Schema.typed? tag style s
  | _ => none

/-- A scalar that is a text also by its type. -/
def typedText? (d : Document) (n : Node) : Option String :=
  match d.typed? n with
  | some (.text s) => some s
  | _ => none

/-- True for a tag that a document makes up for itself. -/
def isLocal (tag : Option String) : Bool :=
  match tag with
  | some t => t.startsWith "!"
  | none => false

/-- The tag of a node. -/
def tagOf? (n : Node) : Option String :=
  match n with
  | .scalar tag _ _ | .sequence tag _ | .mapping tag _ => tag
  | .alias _ => none

/-- A tag that a document makes up for itself, without its exclamation mark. -/
def localName? (tag : Option String) : Option String :=
  match tag.map String.toList with
  | some ('!' :: rest) => some (String.ofList rest)
  | _ => none

/-- True for a scalar that stands for nothing whatever its tag is. -/
def isNothing (n : Node) : Bool :=
  match n with
  | .scalar _ .plain s => s.isEmpty || Schema.isNull s
  | _ => false

/-- A name out of several, as a text or as the tag of a node without a value. -/
def choice? {α : Type} (d : Document) (ofName? : String → Option α) (n : Node) : Option α :=
  let n := d.resolve n
  match localName? (tagOf? n) with
  | some name => if isNothing n then ofName? name else none
  | none => d.text? n >>= ofName?

/-- The members of a record. -/
structure Record where
  document : Document
  members : List (String × Node)

/-- A node as a record. -/
def record? (d : Document) (n : Node) : Option Record :=
  (d.members? n).map fun ms => ⟨d, ms⟩

namespace Record

/-- A member, under one of several names, decoded if it is given; it may be given once. -/
def member? {α : Type} (r : Record) (names : List String) (decode? : Node → Option α) :
    Option (Option α) :=
  match r.members.filter fun m => names.contains m.1 with
  | [] => some none
  | [(_, n)] => (decode? n).map some
  | _ => none

/-- A member that must be given. -/
def required? {α : Type} (r : Record) (name : String) (decode? : Node → Option α) : Option α :=
  (r.member? [name] decode?).join

/-- A member with a value that it has unless another one is given. -/
def orElse? {α : Type} (r : Record) (name : String) (decode? : Node → Option α) (otherwise : α) :
    Option α :=
  (r.member? [name] decode?).map fun v => v.getD otherwise

/-- A member that may also be given as nothing. -/
def optional? {α : Type} (r : Record) (name : String) (decode? : Node → Option α) :
    Option (Option α) :=
  (r.member? [name] (r.document.option? decode?)).map Option.join

end Record

end CoupledModels.Yaml.Document
