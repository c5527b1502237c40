/-!
# Reading YAML text

The characters that YAML tells apart, and a position in a text.  A position knows the characters
that are left, and its line, column and index, all counted in characters from zero.
-/

namespace CoupledModels.Yaml

/-- A space or a tab. -/
def isSpace (c : Char) : Bool :=
  c == ' ' || c == '\t'

/-- A line break: line feed, carriage return, next line, line or paragraph separator. -/
def isBreak (c : Char) : Bool :=
  c == '\n' || c == '\r' || c == '\x85' || c == '\u2028' || c == '\u2029'

/-- A letter, a digit, an underscore or a hyphen, in ASCII. -/
def isWord (c : Char) : Bool :=
  c.isAlphanum || c == '_' || c == '-'

/-- A character that structures a flow collection. -/
def isFlowIndicator (c : Char) : Bool :=
  c == ',' || c == '[' || c == ']' || c == '\x7b' || c == '\x7d'

/-- A character that a text may contain; control characters are refused. -/
def isAllowed (c : Char) : Bool :=
  let n := c.toNat
  n == 0x09 || n == 0x0A || n == 0x0D || decide (0x20 ≤ n ∧ n ≤ 0x7E) || n == 0x85 ||
    decide (0xA0 ≤ n ∧ n ≤ 0xFFFD) || decide (0x10000 ≤ n)

/-- What a line break contributes to a scalar: separators stand for themselves, all other breaks
for a line feed. -/
def breakValue (c : Char) : Char :=
  if c == '\u2028' || c == '\u2029' then c else '\n'

/-- A position in a text. -/
structure Cursor where
  rest : List Char
  line : Nat
  column : Nat
  index : Nat
deriving Repr

namespace Cursor

/-- The start of a text. -/
def ofText (text : String) : Cursor :=
  ⟨text.toList, 0, 0, 0⟩

/-- The character some places ahead. -/
def peek? (c : Cursor) (n : Nat) : Option Char :=
  c.rest[n]?

/-- True if a character is some places ahead. -/
def looksAt (c : Cursor) (n : Nat) (ch : Char) : Bool :=
  c.peek? n == some ch

/-- True if the text ends here. -/
def atEnd (c : Cursor) : Bool :=
  c.rest.isEmpty

/-- True at a space, a tab or a line break. -/
def atBlank (c : Cursor) : Bool :=
  match c.rest with
  | ch :: _ => isSpace ch || isBreak ch
  | [] => false

/-- True if a blank or the end of the text is some places ahead. -/
def stopsAt (c : Cursor) (n : Nat) : Bool :=
  match c.peek? n with
  | some ch => isSpace ch || isBreak ch
  | none => true

/-- True at a line break and at the end of the text. -/
def endsLine (c : Cursor) : Bool :=
  match c.rest with
  | ch :: _ => isBreak ch
  | [] => true

/-- Goes on by characters that are no line breaks. -/
def advance (c : Cursor) (n : Nat) : Cursor :=
  { c with rest := c.rest.drop n, column := c.column + n, index := c.index + n }

/-- Goes on over a line break; a carriage return takes a line feed with it. -/
def advanceLine (c : Cursor) : Cursor :=
  match c.rest with
  | '\r' :: '\n' :: rest => ⟨rest, c.line + 1, 0, c.index + 2⟩
  | _ :: rest => ⟨rest, c.line + 1, 0, c.index + 1⟩
  | [] => c

/-- Goes on over the characters of a class, which holds no line breaks. -/
def advanceWhile (c : Cursor) (p : Char → Bool) : Cursor :=
  c.advance (c.rest.takeWhile p).length

/-- Goes on over a byte order mark at the start of a line.  It takes up a column like any other
character. -/
def skipMark (c : Cursor) : Cursor :=
  if c.column == 0 && c.looksAt 0 '\uFEFF' then c.advance 1 else c

/-- Goes on to the end of the line. -/
def advanceToBreak (c : Cursor) : Cursor :=
  c.advanceWhile fun ch => !isBreak ch

/-- True at the start of a line with one of the marks that stand between documents. -/
def atDocumentMark (c : Cursor) : Bool :=
  c.column == 0 && c.stopsAt 3 &&
    (c.rest.take 3 == ['-', '-', '-'] || c.rest.take 3 == ['.', '.', '.'])

end Cursor

end CoupledModels.Yaml
