import CoupledModels.Text.Json

/-!
# Reading JSON

A recursive descent reader.  Each step takes the characters that are left and returns what it read
and the characters after it.  Blanks may stand before and after every token; nothing but blanks may
follow the document.

Half a surrogate pair in a text value is kept as `Json.brokenText`; in the name of a member it is
refused.
-/

namespace CoupledModels.Json

/-- The blanks of JSON: space, tab, line feed, carriage return. -/
def isSpace (c : Char) : Bool :=
  c == ' ' || c == '\t' || c == '\n' || c == '\r'

/-- Drops leading blanks. -/
def skipSpace (cs : List Char) : List Char :=
  cs.dropWhile isSpace

/-- The value of a hexadecimal digit of either case. -/
def hexValue? (c : Char) : Option Nat :=
  if '0' ≤ c ∧ c ≤ '9' then some (c.toNat - 48)
  else if 'a' ≤ c ∧ c ≤ 'f' then some (c.toNat - 87)
  else if 'A' ≤ c ∧ c ≤ 'F' then some (c.toNat - 55)
  else none

/-- Four hexadecimal digits. -/
def hexUnit? (a b c d : Char) : Option Nat := do
  let a ← hexValue? a
  let b ← hexValue? b
  let c ← hexValue? c
  let d ← hexValue? d
  return ((a * 16 + b) * 16 + c) * 16 + d

/-- What an escape with one letter stands for. -/
def shortEscape? (c : Char) : Option Char :=
  match c with
  | '"' => some '"'
  | '\\' => some '\\'
  | '/' => some '/'
  | 'b' => some '\x08'
  | 'f' => some '\x0c'
  | 'n' => some '\n'
  | 'r' => some '\r'
  | 't' => some '\t'
  | _ => none

/-- A 16-bit unit that starts or ends a surrogate pair. -/
def isSurrogate (u : Nat) : Bool :=
  decide (0xD800 ≤ u ∧ u < 0xE000)

/-- The code point of a surrogate pair. -/
def pairValue (high low : Nat) : Nat :=
  0x10000 + (high - 0xD800) * 0x400 + (low - 0xDC00)

/-- A character of a text, or half a surrogate pair. -/
abbrev Unit16 := Option Char

/-- The rest of a text up to its closing quote.  Control characters must be escaped. -/
def readUnits : List Char → Option (List Unit16 × List Char)
  | [] => none
  | '"' :: rest => some ([], rest)
  | '\\' :: 'u' :: a :: b :: c :: d :: '\\' :: 'u' :: e :: f :: g :: h :: rest =>
      match hexUnit? a b c d with
      | none => none
      | some u =>
          if isSurrogate u then
            match hexUnit? e f g h with
            | none => none
            | some l =>
                if u < 0xDC00 && decide (0xDC00 ≤ l ∧ l < 0xE000) then
                  (readUnits rest).map fun (us, r) => (some (Char.ofNat (pairValue u l)) :: us, r)
                else
                  (readUnits ('\\' :: 'u' :: e :: f :: g :: h :: rest)).map fun (us, r) =>
                    (none :: us, r)
          else
            (readUnits ('\\' :: 'u' :: e :: f :: g :: h :: rest)).map fun (us, r) =>
              (some (Char.ofNat u) :: us, r)
  | '\\' :: 'u' :: a :: b :: c :: d :: rest =>
      match hexUnit? a b c d with
      | none => none
      | some u =>
          (readUnits rest).map fun (us, r) =>
            ((if isSurrogate u then none else some (Char.ofNat u)) :: us, r)
  | '\\' :: x :: rest =>
      match shortEscape? x with
      | none => none
      | some y => (readUnits rest).map fun (us, r) => (some y :: us, r)
  | c :: rest =>
      if c == '\\' || c.toNat < 0x20 then none
      else (readUnits rest).map fun (us, r) => (some c :: us, r)

/-- The characters of a text without halves of surrogate pairs. -/
def wholeText? (units : List Unit16) : Option String :=
  (units.mapM id).map String.ofList

/-- Splits off the leading decimal digits. -/
def takeDigits (cs : List Char) : List Char × List Char :=
  (cs.takeWhile Char.isDigit, cs.dropWhile Char.isDigit)

/-- A fraction, if a point follows; a digit must come after the point. -/
def readFraction (cs : List Char) : Option (List Char × List Char) :=
  match cs with
  | '.' :: rest =>
      match takeDigits rest with
      | ([], _) => none
      | (ds, rest) => some ('.' :: ds, rest)
  | _ => some ([], cs)

/-- The digits of an exponent, which must not be missing. -/
def readExponentDigits (start : List Char) (cs : List Char) : Option (List Char × List Char) :=
  match takeDigits cs with
  | ([], _) => none
  | (ds, rest) => some (start ++ ds, rest)

/-- An exponent, if one follows. -/
def readExponent (cs : List Char) : Option (List Char × List Char) :=
  match cs with
  | e :: rest =>
      if e == 'e' || e == 'E' then
        match rest with
        | '+' :: rest => readExponentDigits [e, '+'] rest
        | '-' :: rest => readExponentDigits [e, '-'] rest
        | rest => readExponentDigits [e] rest
      else some ([], cs)
  | [] => some ([], cs)

/-- The digits before the point: a single zero, or digits that do not start with zero. -/
def readWhole (cs : List Char) : Option (List Char × List Char) :=
  match takeDigits cs with
  | ([], _) => none
  | (['0'], rest) => some (['0'], rest)
  | ('0' :: _, _) => none
  | (ds, rest) => some (ds, rest)

/-- A numeral. -/
def readNumeral (cs : List Char) : Option (List Char × List Char) := do
  let (sign, cs) := match cs with
    | '-' :: rest => (['-'], rest)
    | _ => ([], cs)
  let (whole, cs) ← readWhole cs
  let (fraction, cs) ← readFraction cs
  let (exponent, cs) ← readExponent cs
  return (sign ++ whole ++ fraction ++ exponent, cs)

mutual

/-- A value with its leading blanks.  Every call spends one unit of fuel. -/
def readValue : Nat → List Char → Option (Json × List Char)
  | 0, _ => none
  | fuel + 1, cs =>
      match skipSpace cs with
      | 'n' :: 'u' :: 'l' :: 'l' :: rest => some (.null, rest)
      | 't' :: 'r' :: 'u' :: 'e' :: rest => some (.bool true, rest)
      | 'f' :: 'a' :: 'l' :: 's' :: 'e' :: rest => some (.bool false, rest)
      | '"' :: rest =>
          match readUnits rest with
          | none => none
          | some (units, rest) =>
              match wholeText? units with
              | some s => some (.text s, rest)
              | none => some (.brokenText, rest)
      | '[' :: rest =>
          match skipSpace rest with
          | ']' :: rest => some (.array [], rest)
          | rest => (readItems fuel rest).map fun (vs, r) => (.array vs, r)
      | '\x7b' :: rest =>
          match skipSpace rest with
          | '\x7d' :: rest => some (.object [], rest)
          | rest => (readMembers fuel rest).map fun (ms, r) => (.object ms, r)
      | cs => (readNumeral cs).map fun (n, r) => (.number n, r)

/-- The items of an array, from the first one to the closing bracket. -/
def readItems : Nat → List Char → Option (List Json × List Char)
  | 0, _ => none
  | fuel + 1, cs =>
      match readValue fuel cs with
      | none => none
      | some (v, rest) =>
          match skipSpace rest with
          | ',' :: rest => (readItems fuel rest).map fun (vs, r) => (v :: vs, r)
          | ']' :: rest => some ([v], rest)
          | _ => none

/-- The members of an object, from the first one to the closing brace. -/
def readMembers : Nat → List Char → Option (List (String × Json) × List Char)
  | 0, _ => none
  | fuel + 1, cs =>
      match skipSpace cs with
      | '"' :: rest =>
          match readUnits rest with
          | none => none
          | some (units, rest) =>
              match wholeText? units, skipSpace rest with
              | some k, ':' :: rest =>
                  match readValue fuel rest with
                  | none => none
                  | some (v, rest) =>
                      match skipSpace rest with
                      | ',' :: rest => (readMembers fuel rest).map fun (ms, r) => ((k, v) :: ms, r)
                      | '\x7d' :: rest => some ([(k, v)], rest)
                      | _ => none
              | _, _ => none
      | _ => none

end

/-- Reads a document; `none` if the text is not one. -/
def parse? (s : String) : Option Json :=
  let cs := s.toList
  match readValue (2 * cs.length + 2) cs with
  | some (v, rest) => if (skipSpace rest).isEmpty then some v else none
  | none => none

end CoupledModels.Json
