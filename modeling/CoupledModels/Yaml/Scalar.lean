import CoupledModels.Yaml.Cursor
import CoupledModels.Text.JsonReader

/-!
# Scalars

How the text of a scalar is read off a document.  Plain and quoted scalars may go on over several
lines: a single line break counts as a space, and of several ones the first is dropped.  Block
scalars are indented lines, kept as they are or folded in the same way.
-/

namespace CoupledModels.Yaml

/-- How a scalar was written. -/
inductive ScalarStyle where
  | plain
  | quoted
  | literal
  | folded
deriving DecidableEq, Repr

/-- Spaces, tabs and line breaks between two pieces of a scalar. -/
structure Gap where
  /-- The blanks before any line break. -/
  blanks : List Char
  /-- The values of the line breaks. -/
  breaks : List Char
  /-- There was a line break. -/
  broken : Bool
  /-- The first line break was escaped and has no value. -/
  escaped : Bool

namespace Gap

/-- No gap. -/
def empty : Gap :=
  ⟨[], [], false, false⟩

/-- A gap that begins with an escaped line break. -/
def afterEscape : Gap :=
  ⟨[], [], true, true⟩

/-- What a gap contributes to the text of the scalar. -/
def text (g : Gap) : List Char :=
  if !g.broken then g.blanks
  else if g.escaped then g.breaks
  else
    match g.breaks with
    | ['\n'] => [' ']
    | '\n' :: rest => rest
    | breaks => breaks

/-- Reads blanks and line breaks.  After a line break no tab may stand left of the given column. -/
def read (indent : Nat) : Nat → Gap → Cursor → Option (Gap × Cursor)
  | 0, g, c => some (g, c)
  | fuel + 1, g, c =>
      match c.rest with
      | [] => some (g, c)
      | ch :: _ =>
          if isSpace ch then
            if g.broken then
              if ch == '\t' && decide (c.column < indent) then none
              else read indent fuel g (c.advance 1)
            else read indent fuel { g with blanks := g.blanks ++ [ch] } (c.advance 1)
          else if isBreak ch then
            read indent fuel
              { g with blanks := [], breaks := g.breaks ++ [breakValue ch], broken := true }
              c.advanceLine
          else some (g, c)

end Gap

/-- A scalar that has been read. -/
structure ScannedScalar where
  text : List Char
  /-- The scalar was followed by a line break that belongs to no piece of it. -/
  broken : Bool
  cursor : Cursor

namespace Plain

/-- True where a plain scalar ends within a line: at a colon before a blank, and in a flow
collection at a character that structures it. -/
def ends (inFlow : Bool) (c : Cursor) : Bool :=
  match c.rest with
  | [] => true
  | ch :: _ =>
      isSpace ch || isBreak ch || (ch == ':' && c.stopsAt 1) || (inFlow && isFlowIndicator ch)

/-- True at a colon in a flow collection that is followed by a structuring character. -/
def isStrayColon (inFlow : Bool) (c : Cursor) : Bool :=
  inFlow && c.looksAt 0 ':' &&
    match c.peek? 1 with
    | some ch => isFlowIndicator ch || ch == '?'
    | none => false

/-- The characters up to where the scalar ends or a blank stands. -/
def readWord (inFlow : Bool) : Nat → Cursor → Option (List Char × Cursor)
  | 0, c => some ([], c)
  | fuel + 1, c =>
      match c.rest with
      | [] => some ([], c)
      | ch :: _ =>
          if isStrayColon inFlow c then none
          else if ends inFlow c then some ([], c)
          else do
            let (cs, c) ← readWord inFlow fuel (c.advance 1)
            return (ch :: cs, c)

/-- Reads pieces and the gaps between them. -/
def readPieces (inFlow : Bool) (indent : Nat) :
    Nat → List Char → Gap → Cursor → Option ScannedScalar
  | 0, text, g, c => some ⟨text, g.broken, c⟩
  | fuel + 1, text, g, c =>
      if c.atDocumentMark || c.looksAt 0 '#' then some ⟨text, g.broken, c⟩
      else do
        let (word, c) ← readWord inFlow c.rest.length c
        if word.isEmpty then return ⟨text, g.broken, c⟩
        let text := text ++ g.text ++ word
        if !c.atBlank then return ⟨text, false, c⟩
        let (g, c) ← Gap.read indent c.rest.length .empty c
        if !inFlow && decide (c.column < indent) then return ⟨text, g.broken, c⟩
        readPieces inFlow indent fuel text g c

/-- Reads a plain scalar.  Outside flow collections its lines must reach the given column. -/
def read (inFlow : Bool) (indent : Nat) (c : Cursor) : Option ScannedScalar :=
  readPieces inFlow indent (c.rest.length + 1) [] .empty c

end Plain

namespace Quoted

/-- The character of an escape with one letter. -/
def shortEscape? (c : Char) : Option Char :=
  match c with
  | '0' => some '\x00'
  | 'a' => some '\x07'
  | 'b' => some '\x08'
  | 't' | '\t' => some '\t'
  | 'n' => some '\n'
  | 'v' => some '\x0b'
  | 'f' => some '\x0c'
  | 'r' => some '\r'
  | 'e' => some '\x1b'
  | ' ' => some ' '
  | '"' => some '"'
  | '/' => some '/'
  | '\\' => some '\\'
  | 'N' => some '\x85'
  | '_' => some '\xa0'
  | 'L' => some '\u2028'
  | 'P' => some '\u2029'
  | _ => none

/-- Number of hexadecimal digits after the letter of an escape. -/
def codeLength? (c : Char) : Option Nat :=
  match c with
  | 'x' => some 2
  | 'u' => some 4
  | 'U' => some 8
  | _ => none

/-- The character of hexadecimal digits, which must name one. -/
def codeChar? (digits : List Char) : Option Char := do
  let values ← digits.mapM Json.hexValue?
  let n := values.foldl (fun n d => 16 * n + d) 0
  if h : n.isValidChar then return Char.ofNatAux n h else none

/-- An escape, after its backslash. -/
def readEscape (c : Cursor) : Option (Char × Cursor) :=
  match c.rest with
  | [] => none
  | letter :: more =>
      match shortEscape? letter with
      | some ch => some (ch, c.advance 1)
      | none => do
          let n ← codeLength? letter
          let digits := more.take n
          if digits.length < n then none
          let ch ← codeChar? digits
          return (ch, c.advance (n + 1))

/-- Why a piece of a quoted scalar ends. -/
inductive Stop where
  | closed
  | blank
  | escapedBreak

/-- A piece of a scalar in single quotes, where a quote is written twice. -/
def readSinglePiece : Nat → Cursor → Option (List Char × Stop × Cursor)
  | 0, c => some ([], .blank, c)
  | fuel + 1, c =>
      match c.rest with
      | [] => some ([], .blank, c)
      | '\x27' :: '\x27' :: _ => do
          let (cs, stop, c) ← readSinglePiece fuel (c.advance 2)
          return ('\x27' :: cs, stop, c)
      | '\x27' :: _ => some ([], .closed, c.advance 1)
      | ch :: _ =>
          if isSpace ch || isBreak ch then some ([], .blank, c)
          else do
            let (cs, stop, c) ← readSinglePiece fuel (c.advance 1)
            return (ch :: cs, stop, c)

/-- A piece of a scalar in double quotes, where a backslash begins an escape. -/
def readDoublePiece : Nat → Cursor → Option (List Char × Stop × Cursor)
  | 0, c => some ([], .blank, c)
  | fuel + 1, c =>
      match c.rest with
      | [] => some ([], .blank, c)
      | '"' :: _ => some ([], .closed, c.advance 1)
      | '\\' :: next :: _ =>
          if isBreak next then some ([], .escapedBreak, (c.advance 1).advanceLine)
          else do
            let (ch, c) ← readEscape (c.advance 1)
            let (cs, stop, c) ← readDoublePiece fuel c
            return (ch :: cs, stop, c)
      | ['\\'] => none
      | ch :: _ =>
          if isSpace ch || isBreak ch then some ([], .blank, c)
          else do
            let (cs, stop, c) ← readDoublePiece fuel (c.advance 1)
            return (ch :: cs, stop, c)

/-- A piece of a quoted scalar. -/
def readPiece (single : Bool) (c : Cursor) : Option (List Char × Stop × Cursor) :=
  if single then readSinglePiece c.rest.length c else readDoublePiece c.rest.length c

/-- Reads pieces and the gaps between them up to the closing quote. -/
def readPieces (single : Bool) : Nat → List Char → Cursor → Option ScannedScalar
  | 0, _, _ => none
  | fuel + 1, text, c =>
      if c.atDocumentMark || c.atEnd then none
      else do
        let (piece, stop, c) ← readPiece single c
        let text := text ++ piece
        match stop with
        | .closed => return ⟨text, false, c⟩
        | .blank =>
            let (g, c) ← Gap.read 0 c.rest.length .empty c
            readPieces single fuel (text ++ g.text) c
        | .escapedBreak =>
            if c.looksAt 0 '"' then return ⟨text, false, c.advance 1⟩
            let (g, c) ← Gap.read 0 c.rest.length .afterEscape c
            readPieces single fuel (text ++ g.text) c

/-- Reads a quoted scalar, after its opening quote. -/
def read (single : Bool) (c : Cursor) : Option ScannedScalar :=
  readPieces single (c.rest.length + 1) [] c

end Quoted

namespace Block

/-- What becomes of the line breaks at the end of a block scalar. -/
inductive Chomping where
  /-- One of them is kept. -/
  | clip
  | strip
  | keep
deriving DecidableEq

/-- The sign of a header, if one stands there. -/
def readChomping? (c : Cursor) : Option (Chomping × Cursor) :=
  match c.rest with
  | '+' :: _ => some (.keep, c.advance 1)
  | '-' :: _ => some (.strip, c.advance 1)
  | _ => none

/-- The indentation that a header gives, or zero; the digit zero is refused. -/
def readIncrement (c : Cursor) : Option (Nat × Cursor) :=
  match c.rest with
  | ch :: _ =>
      if ch == '0' then none
      else if ch.isDigit then some (ch.toNat - '0'.toNat, c.advance 1)
      else some (0, c)
  | [] => some (0, c)

/-- The header of a block scalar: sign and digit in either order. -/
def readHeader (c : Cursor) : Option (Chomping × Nat × Cursor) :=
  match readChomping? c with
  | some (chomping, c) => do
      let (increment, c) ← readIncrement c
      return (chomping, increment, c)
  | none => do
      let (increment, c) ← readIncrement c
      match if increment = 0 then none else readChomping? c with
      | some (chomping, c) => return (chomping, increment, c)
      | none => return (.clip, increment, c)

/-- Blanks, a comment and the line break after a header. -/
def readLineEnd (c : Cursor) : Option Cursor :=
  let c := c.advanceWhile isSpace
  let c := if c.looksAt 0 '#' then c.advanceToBreak else c
  if c.endsLine then some c.advanceLine else none

/-- Skips the spaces of an indentation; without a known one, all spaces. -/
def skipIndentation (indent : Nat) (c : Cursor) : Cursor :=
  let spaces := (c.rest.takeWhile (· == ' ')).length
  c.advance (if indent = 0 then spaces else min spaces (indent - c.column))

/-- Reads empty lines and the indentation of the next line; the deepest column that was reached and
the values of the line breaks.  No tab may stand within the indentation. -/
def readEmptyLines (indent : Nat) : Nat → Nat → List Char → Cursor →
    Option (Nat × List Char × Cursor)
  | 0, deepest, breaks, c => some (deepest, breaks, c)
  | fuel + 1, deepest, breaks, c =>
      let c := skipIndentation indent c
      let deepest := max deepest c.column
      if (indent = 0 || decide (c.column < indent)) && c.looksAt 0 '\t' then none
      else
        match c.rest with
        | ch :: _ =>
            if isBreak ch then
              readEmptyLines indent fuel deepest (breaks ++ [breakValue ch]) c.advanceLine
            else some (deepest, breaks, c)
        | [] => some (deepest, breaks, c)

/-- What has been read of a block scalar. -/
structure Progress where
  text : List Char
  /-- The break after the last line. -/
  lineBreak : List Char
  /-- The breaks of the empty lines after it. -/
  emptyLines : List Char
  /-- The last line began with a blank. -/
  indented : Bool

/-- The breaks before a line: folded if neither neighbour begins with a blank. -/
def joint (folds : Bool) (p : Progress) (indented : Bool) : List Char :=
  if folds && p.lineBreak == ['\n'] && !p.indented && !indented then
    if p.emptyLines.isEmpty then [' '] else p.emptyLines
  else p.lineBreak ++ p.emptyLines

/-- Reads the lines that are indented to a column. -/
def readLines (folds : Bool) (indent : Nat) : Nat → Progress → Cursor → Option (Progress × Cursor)
  | 0, p, c => some (p, c)
  | fuel + 1, p, c =>
      if c.column ≠ indent || c.atEnd then some (p, c)
      else do
        let indented := match c.rest with
          | ch :: _ => isSpace ch
          | [] => false
        let line := c.rest.takeWhile fun ch => !isBreak ch
        let c := c.advance line.length
        let lineBreak := (c.rest.take 1).map breakValue
        let (_, breaks, c) ← readEmptyLines indent (c.rest.length + 1) 0 [] c.advanceLine
        readLines folds indent fuel
          ⟨p.text ++ joint folds p indented ++ line, lineBreak, breaks, indented⟩ c

/-- Drops or keeps the breaks at the end. -/
def chomped (chomping : Chomping) (p : Progress) : List Char :=
  match chomping with
  | .strip => p.text
  | .clip => p.text ++ p.lineBreak
  | .keep => p.text ++ p.lineBreak ++ p.emptyLines

/-- Reads a block scalar, after its indicator.  Without an indentation in the header that of the
first line counts; it must be deeper than the surrounding one. -/
def read (folds : Bool) (parent : Int) (c : Cursor) : Option ScannedScalar := do
  let (chomping, increment, c) ← readHeader c
  let c ← readLineEnd c
  let given : Nat := if increment = 0 then 0 else (max parent 0).toNat + increment
  let (deepest, breaks, c) ← readEmptyLines given (c.rest.length + 1) 0 [] c
  let indent : Nat := if given = 0 then max deepest (max (parent + 1).toNat 1) else given
  let (p, c) ← readLines folds indent (c.rest.length + 1) ⟨[], [], breaks, false⟩ c
  return ⟨chomped chomping p, false, c⟩

end Block

end CoupledModels.Yaml
