import CoupledModels.Yaml.Stream

/-!
# Nodes

The tree of a YAML document.  An alias is kept as a reference to a node that carries an anchor; it
is looked up only where its value is needed, so a node may refer to itself.
-/

namespace CoupledModels.Yaml

/-- A node.  Tags are written out in full; a node without a tag has none. -/
inductive Node where
  | scalar (tag : Option String) (style : ScalarStyle) (text : String)
  | sequence (tag : Option String) (items : List Node)
  | mapping (tag : Option String) (entries : List (Node × Node))
  /-- A reference to an anchored node. -/
  | alias (number : Nat)
deriving Repr, Inhabited

/-- The node that stands where nothing is written. -/
def Node.blank : Node :=
  .scalar none .plain ""

/-- A document with the nodes that carry anchors, by number; of several with one number the first
one counts. -/
structure Document where
  root : Node
  anchored : List (Nat × Node)
deriving Repr

namespace Document

/-- The node that an alias refers to; any other node itself. -/
def resolve (d : Document) (n : Node) : Node :=
  match n with
  | .alias number => (d.anchored.lookup number).getD .blank
  | n => n

end Document

namespace Node

/-- The tokens that are left, with what earlier ones have declared. -/
structure Reading where
  tokens : List Token
  /-- Handles with the tag beginnings that they stand for. -/
  handles : List (String × String)
  /-- Anchor names with their numbers, the latest first. -/
  names : List (String × Nat)
  anchored : List (Nat × Node)

/-- A step that reads tokens and may fail. -/
abbrev Reader := StateT Reading Option

/-- The next token, which stays where it is. -/
def peek : Reader (Option Token) :=
  return (← get).tokens.head?

/-- Goes on by one token. -/
def skip : Reader Unit :=
  modify fun s => { s with tokens := s.tokens.drop 1 }

/-- The next token. -/
def next : Reader (Option Token) := do
  let t ← peek
  skip
  return t

/-- Handles that stand for something unless they are declared otherwise. -/
def defaultHandles : List (String × String) :=
  [("!", "!"), ("!!", "tag:yaml.org,2002:")]

/-- The tag of a handle and an ending; the handle must be known. -/
def fullTag (handle ending : String) : Reader String := do
  if handle.isEmpty then return ending
  match (← get).handles.lookup handle with
  | some expansion => return expansion ++ ending
  | none => failure

/-- An anchor and a tag, in either order. -/
def properties : Reader (Option String × Option String) := do
  match ← peek with
  | some (.anchor name) =>
      skip
      match ← peek with
      | some (.tag handle ending) =>
          skip
          return (some name, some (← fullTag handle ending))
      | _ => return (some name, none)
  | some (.tag handle ending) =>
      skip
      let tag ← fullTag handle ending
      match ← peek with
      | some (.anchor name) =>
          skip
          return (some name, some tag)
      | _ => return (none, some tag)
  | _ => return (none, none)

/-- Gives an anchor the number that counts the names before it. -/
def nameAnchor (name : String) : Reader Nat := do
  let names := (← get).names
  let number := (names.map (·.1)).eraseDups.length
  modify fun s => { s with names := (name, number) :: names }
  return number

/-- The reference of an alias, whose anchor must have come before. -/
def reference (name : String) : Reader Node := do
  match (← get).names.lookup name with
  | some number => return .alias number
  | none => failure

/-- A scalar.  The tag `!` says no more than no tag. -/
def ofScalar (tag : Option String) (style : ScalarStyle) (text : String) : Node :=
  .scalar (if tag == some "!" then none else tag) style text

/-- True if an entry of a block sequence is followed by nothing. -/
def endsBlockItem : Option Token → Bool
  | some .blockEntry | some .blockEnd => true
  | _ => false

/-- True if a key or a value of a block mapping is followed by nothing. -/
def endsBlockEntry : Option Token → Bool
  | some .key | some .value | some .blockEnd => true
  | _ => false

/-- True if an entry of a sequence without indentation is followed by nothing. -/
def endsIndentlessItem : Option Token → Bool
  | some .blockEntry => true
  | t => endsBlockEntry t

/-- True if nothing stands before a separator or the end of a flow collection. -/
def endsFlowValue (close : Token) : Option Token → Bool
  | some t => t == .flowEntry || t == close
  | none => false

/-- True if nothing stands before the value, a separator or the end of a flow collection. -/
def endsFlowKey (close : Token) (t : Option Token) : Bool :=
  t == some .value || endsFlowValue close t

mutual

/-- A node.  `block` says that block collections are allowed, and `indentless` that a sequence may
stand at the column of its key. -/
def node : Nat → Bool → Bool → Reader Node
  | 0, _, _ => failure
  | fuel + 1, block, indentless => do
      match ← peek with
      | some (.alias name) =>
          skip
          reference name
      | _ =>
          let (anchor, tag) ← properties
          match anchor with
          | none => content fuel block indentless tag.isSome tag
          | some name =>
              let number ← nameAnchor name
              let n ← content fuel block indentless true tag
              modify fun s => { s with anchored := (number, n) :: s.anchored }
              return n

/-- What follows the properties of a node; nothing has to follow if there are some. -/
def content : Nat → Bool → Bool → Bool → Option String → Reader Node
  | 0, _, _, _, _ => failure
  | fuel + 1, block, indentless, optional, tag => do
      let t ← peek
      match t with
      | some (.scalar style text) =>
          skip
          return ofScalar tag style text
      | some .flowSequenceStart =>
          skip
          return .sequence tag (← flowItems fuel true)
      | some .flowMappingStart =>
          skip
          return .mapping tag (← flowEntries fuel true)
      | _ =>
          if indentless && t == some .blockEntry then
            return .sequence tag (← indentlessItems fuel)
          else if block && t == some .blockSequenceStart then
            skip
            return .sequence tag (← blockItems fuel)
          else if block && t == some .blockMappingStart then
            skip
            return .mapping tag (← blockEntries fuel)
          else if optional then return .scalar tag .plain ""
          else failure

/-- A node, or a blank one if a token says that there is none. -/
def nodeUnless (ends : Option Token → Bool) : Nat → Bool → Bool → Reader Node
  | 0, _, _ => failure
  | fuel + 1, block, indentless => do
      if ends (← peek) then return .blank
      node fuel block indentless

/-- The entries of a block sequence up to its end. -/
def blockItems : Nat → Reader (List Node)
  | 0 => failure
  | fuel + 1 => do
      match ← next with
      | some .blockEntry =>
          let item ← nodeUnless endsBlockItem fuel true false
          return item :: (← blockItems fuel)
      | some .blockEnd => return []
      | _ => failure

/-- The entries of a sequence without indentation. -/
def indentlessItems : Nat → Reader (List Node)
  | 0 => failure
  | fuel + 1 => do
      if (← peek) != some .blockEntry then return []
      skip
      let item ← nodeUnless endsIndentlessItem fuel true false
      return item :: (← indentlessItems fuel)

/-- The entries of a block mapping up to its end. -/
def blockEntries : Nat → Reader (List (Node × Node))
  | 0 => failure
  | fuel + 1 => do
      match ← next with
      | some .key =>
          let k ← nodeUnless endsBlockEntry fuel true true
          let v ← valueAfter endsBlockEntry fuel true
          return (k, v) :: (← blockEntries fuel)
      | some .blockEnd => return []
      | _ => failure

/-- The value after a colon, or a blank one if no colon follows. -/
def valueAfter (ends : Option Token → Bool) : Nat → Bool → Reader Node
  | 0, _ => failure
  | fuel + 1, block => do
      if (← peek) != some .value then return .blank
      skip
      nodeUnless ends fuel block block

/-- The items of a flow sequence up to its end; all but the first one follow a comma. -/
def flowItems : Nat → Bool → Reader (List Node)
  | 0, _ => failure
  | fuel + 1, first => do
      if (← peek) == some .flowSequenceEnd then
        skip
        return []
      if !first then
        if (← next) != some .flowEntry then failure
      match ← peek with
      | some .flowSequenceEnd =>
          skip
          return []
      | some .key =>
          skip
          let item ← singlePair fuel
          return item :: (← flowItems fuel false)
      | _ =>
          let item ← node fuel false false
          return item :: (← flowItems fuel false)

/-- A mapping of one entry that stands in a flow sequence without brackets.  If its key is left out
the token that follows is passed over. -/
def singlePair : Nat → Reader Node
  | 0 => failure
  | fuel + 1 => do
      let k ←
        if endsFlowKey .flowSequenceEnd (← peek) then
          skip
          pure .blank
        else node fuel false false
      let v ← valueAfter (endsFlowValue .flowSequenceEnd) fuel false
      return .mapping none [(k, v)]

/-- The entries of a flow mapping up to its end; all but the first one follow a comma. -/
def flowEntries : Nat → Bool → Reader (List (Node × Node))
  | 0, _ => failure
  | fuel + 1, first => do
      if (← peek) == some .flowMappingEnd then
        skip
        return []
      if !first then
        if (← next) != some .flowEntry then failure
      match ← peek with
      | some .flowMappingEnd =>
          skip
          return []
      | some .key =>
          skip
          let k ← nodeUnless (endsFlowKey .flowMappingEnd) fuel false false
          let v ← valueAfter (endsFlowValue .flowMappingEnd) fuel false
          return (k, v) :: (← flowEntries fuel false)
      | _ =>
          let k ← node fuel false false
          return (k, .blank) :: (← flowEntries fuel false)

end

end Node

namespace Document

open Node (Reader)

/-- Adds the default handles after the declared ones. -/
def closeDirectives : Reader Unit :=
  modify fun s => { s with handles := s.handles ++ Node.defaultHandles }

/-- The directives before a document: one version at most, which must be known, and distinct
handles. -/
def directives : Nat → Bool → Reader Bool
  | 0, _ => failure
  | fuel + 1, versioned => do
      match ← Node.peek with
      | some (.version major minor) =>
          if versioned || major ≠ 1 || (minor ≠ 1 && minor ≠ 2) then failure
          Node.skip
          let _ ← directives fuel true
          return true
      | some (.handle name expansion) =>
          if ((← get).handles.lookup name).isSome then failure
          modify fun s => { s with handles := s.handles ++ [(name, expansion)] }
          Node.skip
          let _ ← directives fuel versioned
          return true
      | _ => return false

/-- True if a marked document has no content. -/
def endsDocument : Option Token → Bool
  | some (.version _ _) | some (.handle _ _) | some .documentStart | some .documentEnd | none => true
  | _ => false

/-- The root of the first document.  A text without any document has a blank root. -/
def firstRoot (fuel : Nat) : Reader Node := do
  if (← Node.peek).isNone then return .blank
  let declared ← directives fuel false
  closeDirectives
  if (← Node.peek) == some .documentStart then
    Node.skip
    if endsDocument (← Node.peek) then return .blank
    Node.node fuel true false
  else if declared then failure
  else Node.node fuel true false

/-- What may follow the only document: nothing but marks that end it. -/
def atStreamEnd (ts : List Token) : Bool :=
  ts.all fun t => t == .documentEnd

/-- The only document of a text; nothing if there are several, or if the text is no YAML. -/
def ofText? (text : String) : Option Document := do
  let ts ← tokens? text
  let (root, s) ← (firstRoot (4 * ts.length + 8)).run ⟨ts, [], [], []⟩
  if atStreamEnd s.tokens then return ⟨root, s.anchored⟩ else none

end Document

end CoupledModels.Yaml
