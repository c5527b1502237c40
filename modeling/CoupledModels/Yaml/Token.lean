import CoupledModels.Yaml.Scalar
import CoupledModels.Number.Decimal

/-!
# Tokens

The tokens of a YAML stream.  Indentation is made explicit: a block collection starts and ends with
a token of its own.

A mapping key is recognized by the colon after it, so a token that may begin a key is remembered
until the colon comes or can come no more: a key must stay on one line and within 1024 characters.
One key can be open for each level of flow collections.
-/

namespace CoupledModels.Yaml

/-- A token. -/
inductive Token where
  /-- The version that a stream asks for. -/
  | version (major minor : Nat)
  /-- A handle with the tag beginning that it stands for. -/
  | handle (name expansion : String)
  | documentStart
  | documentEnd
  | blockSequenceStart
  | blockMappingStart
  | blockEnd
  | flowSequenceStart
  | flowSequenceEnd
  | flowMappingStart
  | flowMappingEnd
  | blockEntry
  | flowEntry
  | key
  | value
  | alias (name : String)
  | anchor (name : String)
  | tag (handle ending : String)
  | scalar (style : ScalarStyle) (text : String)
deriving DecidableEq, Repr

namespace Token

/-- A token that is spelled with letters, with the position after it. -/
abbrev Spelled := Option (Token × Cursor)

/-- The name of an anchor or alias; it ends at a blank or one of a few indicators. -/
def readName (make : String → Token) (c : Cursor) : Spelled :=
  let name := c.rest.takeWhile isWord
  let c := c.advance name.length
  let ends := match c.rest with
    | ch :: _ => c.stopsAt 0 || ['?', ':', ',', ']', '\x7d', '%', '@', '\x60'].contains ch
    | [] => true
  if name.isEmpty || !ends then none else some (make (String.ofList name), c)

/-- Punctuation that the name of a tag may contain. -/
def isTagPunctuation (c : Char) : Bool :=
  [';', '/', '?', ':', '@', '&', '=', '+', '$', '.', '!', '~', '*', '\x27', '(', ')'].contains c

/-- The byte of an escape in the name of a tag: a percent sign and two hexadecimal digits. -/
def escapedByte? (cs : List Char) : Option UInt8 :=
  match cs with
  | '%' :: a :: b :: _ => do
      let a ← Json.hexValue? a
      let b ← Json.hexValue? b
      return UInt8.ofNat (16 * a + b)
  | _ => none

/-- Number of bytes of the character that a byte begins; zero for a byte that begins none. -/
def byteCount (b : UInt8) : Nat :=
  if b &&& 0x80 = 0 then 1
  else if b &&& 0xE0 = 0xC0 then 2
  else if b &&& 0xF0 = 0xE0 then 3
  else if b &&& 0xF8 = 0xF0 then 4
  else 0

/-- A character written as escaped bytes. -/
def readEscapedChar (c : Cursor) : Option (Char × Cursor) := do
  let first ← escapedByte? c.rest
  let n := byteCount first
  let bytes ← (List.range n).mapM fun i => escapedByte? (c.rest.drop (3 * i))
  match (String.fromUTF8? ⟨bytes.toArray⟩).map String.toList with
  | some [ch] => some (ch, c.advance (3 * n))
  | _ => none

/-- The characters of a tag; a verbatim one may also contain a few flow indicators. -/
def readTagChars (verbatim : Bool) : Nat → Cursor → Option (List Char × Cursor)
  | 0, c => some ([], c)
  | fuel + 1, c =>
      match c.rest with
      | [] => some ([], c)
      | '%' :: _ => do
          let (ch, c) ← readEscapedChar c
          let (cs, c) ← readTagChars verbatim fuel c
          return (ch :: cs, c)
      | ch :: _ =>
          if isWord ch || isTagPunctuation ch ||
              (verbatim && (ch == ',' || ch == '[' || ch == ']')) then do
            let (cs, c) ← readTagChars verbatim fuel (c.advance 1)
            return (ch :: cs, c)
          else some ([], c)

/-- Word characters after an exclamation mark, and the mark that makes them a handle. -/
def readHandle (c : Cursor) : List Char × Bool × Cursor :=
  let word := c.rest.takeWhile isWord
  let c := c.advance word.length
  if c.looksAt 0 '!' then ('!' :: word ++ ['!'], true, c.advance 1) else ('!' :: word, false, c)

/-- A tag in angle brackets, after the first of them. -/
def readVerbatimTag (c : Cursor) : Spelled := do
  let (cs, c) ← readTagChars true c.rest.length c
  if cs.isEmpty || !c.looksAt 0 '>' then none
  return (.tag "" (String.ofList cs), c.advance 1)

/-- A tag that may begin with a handle, after its exclamation mark. -/
def readShortTag (c : Cursor) : Spelled := do
  let (head, isHandle, c) := readHandle c
  let (cs, c) ← readTagChars false c.rest.length c
  if isHandle then
    if cs.isEmpty then none else return (.tag (String.ofList head) (String.ofList cs), c)
  else
    let ending := head.drop 1 ++ cs
    if ending.isEmpty then return (.tag "" "!", c)
    else return (.tag "!" (String.ofList ending), c)

/-- A tag, which must be followed by a blank, or by a comma in a flow collection. -/
def readTag (inFlow : Bool) (c : Cursor) : Spelled := do
  let (t, c) ←
    if c.looksAt 1 '<' then readVerbatimTag (c.advance 2) else readShortTag (c.advance 1)
  if (inFlow && c.looksAt 0 ',') || c.stopsAt 0 then return (t, c) else none

/-- A number of a version. -/
def readVersionNumber (c : Cursor) : Option (Nat × Cursor) :=
  let digits := c.rest.takeWhile Char.isDigit
  if digits.isEmpty || decide (9 < digits.length) then none
  else some (Decimal.ofDigits digits, c.advance digits.length)

/-- The value of a version directive. -/
def readVersion (c : Cursor) : Spelled := do
  let (major, c) ← readVersionNumber (c.advanceWhile isSpace)
  if !c.looksAt 0 '.' then none
  let (minor, c) ← readVersionNumber (c.advance 1)
  return (.version major minor, c)

/-- The value of a directive that declares a handle. -/
def readHandleDeclaration (c : Cursor) : Spelled := do
  let c := c.advanceWhile isSpace
  if !c.looksAt 0 '!' then none
  let (head, isHandle, c) := readHandle (c.advance 1)
  if !isHandle && head != ['!'] then none
  match c.rest with
  | ch :: _ => if !isSpace ch then none
  | [] => none
  let (expansion, c) ← readTagChars true c.rest.length (c.advanceWhile isSpace)
  if expansion.isEmpty || !c.stopsAt 0 then none
  return (.handle (String.ofList head) (String.ofList expansion), c)

/-- A directive, after its percent sign, with the rest of its line. -/
def readDirective (c : Cursor) : Spelled := do
  let name := c.rest.takeWhile isWord
  let c := c.advance name.length
  if !c.stopsAt 0 then none
  let (t, c) ← match String.ofList name with
    | "YAML" => readVersion c
    | "TAG" => readHandleDeclaration c
    | _ => none
  return (t, ← Block.readLineEnd c)

end Token

end CoupledModels.Yaml
