import CoupledModels.Yaml.Token

/-!
# Token streams

The tokens of a whole text, in order.  Reading stops with nothing as soon as some character cannot
begin a token or stands where its token is not allowed.
-/

namespace CoupledModels.Yaml

/-- A place where a mapping key may have begun. -/
structure PendingKey where
  /-- Number of tokens before it. -/
  position : Nat
  line : Nat
  column : Nat
  index : Nat
  /-- A key must come here: the place is the indentation of a block mapping. -/
  required : Bool
deriving Repr

/-- The tokens so far, with what decides about the next ones. -/
structure Stream where
  cursor : Cursor
  tokens : Array Token
  /-- The column of the innermost block collection; `-1` outside all of them. -/
  indent : Int
  /-- The columns of the surrounding block collections. -/
  outer : List Int
  /-- The pending key outside flow collections. -/
  blockKey : Option PendingKey
  /-- The pending key of each open flow collection, the innermost first. -/
  flowKeys : List (Option PendingKey)
  /-- A key may begin here. -/
  keyAllowed : Bool

namespace Stream

/-- The stream before the first token. -/
def start (text : String) : Stream :=
  ⟨Cursor.ofText text, #[], -1, [], none, [], true⟩

/-- True inside a flow collection. -/
def inFlow (s : Stream) : Bool :=
  !s.flowKeys.isEmpty

/-- The pending key of the innermost level. -/
def pending (s : Stream) : Option PendingKey :=
  match s.flowKeys with
  | k :: _ => k
  | [] => s.blockKey

/-- Replaces the pending key of the innermost level. -/
def setPending (s : Stream) (k : Option PendingKey) : Stream :=
  match s.flowKeys with
  | _ :: rest => { s with flowKeys := k :: rest }
  | [] => { s with blockKey := k }

/-- Gives up the pending key, which must not be required. -/
def dropPending (s : Stream) : Option Stream :=
  match s.pending with
  | some k => if k.required then none else some (s.setPending none)
  | none => some s

/-- A token that may begin a key is next. -/
def notePending (s : Stream) : Option Stream :=
  if s.keyAllowed then do
    let s ← s.dropPending
    let c := s.cursor
    let required := !s.inFlow && s.indent == (c.column : Int)
    return s.setPending (some ⟨s.tokens.size, c.line, c.column, c.index, required⟩)
  else some s

/-- True if the colon of a key can come no more. -/
def isStale (c : Cursor) (k : PendingKey) : Bool :=
  decide (k.line < c.line) || decide (k.index + 1024 < c.index)

/-- A pending key without those that can come no more, which must not be required. -/
def refresh (c : Cursor) (k : Option PendingKey) : Option (Option PendingKey) :=
  match k with
  | some k => if isStale c k then (if k.required then none else some none) else some (some k)
  | none => some none

/-- Gives up all pending keys whose colon can come no more. -/
def dropStale (s : Stream) : Option Stream := do
  let blockKey ← refresh s.cursor s.blockKey
  let flowKeys ← s.flowKeys.mapM (refresh s.cursor)
  return { s with blockKey := blockKey, flowKeys := flowKeys }

/-- Ends the block collections that are indented deeper than a column. -/
def closeTo (column : Int) : Int → List Int → Array Token → Int × List Int × Array Token
  | indent, [], ts => (indent, [], ts)
  | indent, o :: rest, ts =>
      if column < indent then closeTo column o rest (ts.push .blockEnd) else (indent, o :: rest, ts)

/-- Ends block collections, except inside a flow collection. -/
def unroll (s : Stream) (column : Int) : Stream :=
  if s.inFlow then s
  else
    let (indent, outer, tokens) := closeTo column s.indent s.outer s.tokens
    { s with indent := indent, outer := outer, tokens := tokens }

/-- Begins a block collection at a column that is deeper than the indentation, with its token at a
place among the tokens. -/
def roll (s : Stream) (column : Nat) (position : Nat) (t : Token) : Stream :=
  if s.inFlow || decide ((column : Int) ≤ s.indent) then s
  else
    { s with
      indent := column
      outer := s.indent :: s.outer
      tokens := s.tokens.insertIdxIfInBounds position t }

/-- Adds a token of some length. -/
def push (s : Stream) (t : Token) (length : Nat) : Stream :=
  { s with tokens := s.tokens.push t, cursor := s.cursor.advance length }

/-- Says whether a key may begin next. -/
def allowKey (s : Stream) (allowed : Bool) : Stream :=
  { s with keyAllowed := allowed }

/-- Goes on over blanks, comments and line breaks, and over byte order marks that start a line.  A
tab is no blank where a key may begin. -/
def skipBlanks : Nat → Stream → Stream
  | 0, s => s
  | fuel + 1, s =>
      let tabs := s.inFlow || !s.keyAllowed
      let c := s.cursor.skipMark.advanceWhile fun ch => ch == ' ' || (tabs && ch == '\t')
      let c := if c.looksAt 0 '#' then c.advanceToBreak else c
      if c.atEnd || !c.endsLine then { s with cursor := c }
      else skipBlanks fuel { s with cursor := c.advanceLine, keyAllowed := s.keyAllowed || !s.inFlow }

/-- A directive, or a mark between documents: all block collections end. -/
def boundary (s : Stream) : Option Stream := do
  let s ← (s.unroll (-1)).dropPending
  return s.allowKey false

/-- A directive ends every open block and stands on a line of its own. -/
def directive (s : Stream) : Option Stream := do
  let s ← s.boundary
  let (t, c) ← Token.readDirective (s.cursor.advance 1)
  return { s with tokens := s.tokens.push t, cursor := c }

/-- The mark that starts a document, or the one that ends it; either ends every open block. -/
def documentMark (s : Stream) : Option Stream := do
  let s ← s.boundary
  return s.push (if s.cursor.looksAt 0 '-' then .documentStart else .documentEnd) 3

/-- An opening bracket may itself begin a key. -/
def flowStart (s : Stream) (t : Token) : Option Stream := do
  let s ← s.notePending
  return ({ s with flowKeys := none :: s.flowKeys }.allowKey true).push t 1

/-- A closing bracket; no key may follow it directly. -/
def flowEnd (s : Stream) (t : Token) : Option Stream := do
  let s ← s.dropPending
  return ({ s with flowKeys := s.flowKeys.drop 1 }.allowKey false).push t 1

/-- A comma between items in brackets. -/
def flowEntry (s : Stream) : Option Stream := do
  let s ← s.dropPending
  return (s.allowKey true).push .flowEntry 1

/-- A dash, which begins a block sequence unless one of its column is open. -/
def blockEntry (s : Stream) : Option Stream := do
  if !s.inFlow && !s.keyAllowed then none
  let s ← (s.roll s.cursor.column s.tokens.size .blockSequenceStart).dropPending
  return (s.allowKey true).push .blockEntry 1

/-- A question mark, which begins a block mapping unless one of its column is open. -/
def explicitKey (s : Stream) : Option Stream := do
  if !s.inFlow && !s.keyAllowed then none
  let s ← (s.roll s.cursor.column s.tokens.size .blockMappingStart).dropPending
  return (s.allowKey !s.inFlow).push .key 1

/-- A colon.  It turns the pending key into a key, or else follows an explicit one. -/
def value (s : Stream) : Option Stream :=
  match s.pending with
  | some k =>
      let s := { s with tokens := s.tokens.insertIdxIfInBounds k.position .key }
      let s := s.roll k.column k.position .blockMappingStart
      some (((s.setPending none).allowKey false).push .value 1)
  | none => do
      if !s.inFlow && !s.keyAllowed then none
      let s := s.roll s.cursor.column s.tokens.size .blockMappingStart
      return (s.allowKey !s.inFlow).push .value 1

/-- An alias, an anchor or a tag. -/
def spelled (s : Stream) (read : Cursor → Token.Spelled) : Option Stream := do
  let s ← s.notePending
  let (t, c) ← read s.cursor
  return { s with tokens := s.tokens.push t, cursor := c, keyAllowed := false }

/-- A plain or quoted scalar. -/
def flowScalar (s : Stream) (style : ScalarStyle) (read : Cursor → Option ScannedScalar) :
    Option Stream := do
  let s ← s.notePending
  let r ← read s.cursor
  return { s with
    tokens := s.tokens.push (.scalar style (String.ofList r.text))
    cursor := r.cursor
    keyAllowed := r.broken }

/-- A block scalar. -/
def blockScalar (s : Stream) (style : ScalarStyle) : Option Stream := do
  let s ← s.dropPending
  let r ← Block.read (style == .folded) s.indent (s.cursor.advance 1)
  return { s with
    tokens := s.tokens.push (.scalar style (String.ofList r.text))
    cursor := r.cursor
    keyAllowed := true }

/-- True where a plain scalar may begin. -/
def beginsPlain (s : Stream) (ch : Char) : Bool :=
  let c := s.cursor
  let next := match c.peek? 1 with
    | some n => isSpace n
    | none => false
  if ch == '-' then !next
  else if ch == '?' || ch == ':' then !s.inFlow && !c.stopsAt 1
  else
    !(isFlowIndicator ch || ['#', '&', '*', '!', '|', '>', '\x27', '"', '%', '@', '\x60'].contains ch ||
      isSpace ch || isBreak ch)

/-- The token that begins with a character. -/
def tokenAt (s : Stream) (ch : Char) : Option Stream :=
  let c := s.cursor
  if c.column = 0 ∧ ch = '%' then s.directive
  else if c.atDocumentMark then s.documentMark
  else
    match ch with
    | '[' => s.flowStart .flowSequenceStart
    | '\x7b' => s.flowStart .flowMappingStart
    | ']' => s.flowEnd .flowSequenceEnd
    | '\x7d' => s.flowEnd .flowMappingEnd
    | ',' => s.flowEntry
    | '*' => s.spelled fun c => Token.readName .alias (c.advance 1)
    | '&' => s.spelled fun c => Token.readName .anchor (c.advance 1)
    | '!' => s.spelled (Token.readTag s.inFlow)
    | '\x27' => s.flowScalar .quoted fun c => Quoted.read true (c.advance 1)
    | '"' => s.flowScalar .quoted fun c => Quoted.read false (c.advance 1)
    | _ =>
        if ch == '-' && c.stopsAt 1 then s.blockEntry
        else if ch == '?' && (s.inFlow || c.stopsAt 1) then s.explicitKey
        else if ch == ':' && (s.inFlow || c.stopsAt 1) then s.value
        else if ch == '|' && !s.inFlow then s.blockScalar .literal
        else if ch == '>' && !s.inFlow then s.blockScalar .folded
        else if s.beginsPlain ch then
          s.flowScalar .plain (Plain.read s.inFlow (s.indent + 1).toNat)
        else none

/-- The end of the text. -/
def finish (s : Stream) : Option (Array Token) := do
  let s ← (s.unroll (-1)).dropPending
  return s.tokens

/-- Adds tokens until the text ends. -/
def run : Nat → Stream → Option (Array Token)
  | 0, _ => none
  | fuel + 1, s => do
      let s := skipBlanks (s.cursor.rest.length + 1) s
      let s ← s.dropStale
      let s := s.unroll s.cursor.column
      match s.cursor.rest with
      | [] => s.finish
      | ch :: _ => run fuel (← s.tokenAt ch)

end Stream

/-- The tokens of a text, or nothing if it is no YAML. -/
def tokens? (text : String) : Option (List Token) := do
  if !text.toList.all isAllowed then none
  let ts ← (Stream.start text).run (text.length + 2)
  return ts.toList

end CoupledModels.Yaml
