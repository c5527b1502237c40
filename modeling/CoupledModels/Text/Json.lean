/-!
# JSON values

The value type of JSON documents and two ways to write one: on one line, and spread over lines with
an indentation of two spaces.  A number is kept as the characters that write it, so that no digit
is lost between reading a document and deciding what its numbers stand for.
-/

namespace CoupledModels

/-- A JSON value.  Members of an object keep the order in which they were written. -/
inductive Json where
  | null
  | bool (b : Bool)
  | number (numeral : List Char)
  | text (s : String)
  /-- A text that names half a surrogate pair, and so is no sequence of characters. -/
  | brokenText
  | array (items : List Json)
  | object (members : List (String × Json))
deriving Inhabited

namespace Json

/-- A whole number. -/
def ofNat (n : Nat) : Json :=
  .number (toString n).toList

/-- An integer. -/
def ofInt (i : Int) : Json :=
  .number (toString i).toList

/-- A list of texts. -/
def texts (ss : List String) : Json :=
  .array (ss.map .text)

/-- A hexadecimal digit, lower case. -/
def hexDigit (n : Nat) : Char :=
  if n < 10 then Char.ofNat (48 + n) else Char.ofNat (87 + n)

/-- One character of a text: quotes, backslashes and control characters are escaped. -/
def escapedChar (c : Char) : List Char :=
  match c with
  | '"' => ['\\', '"']
  | '\\' => ['\\', '\\']
  | '\n' => ['\\', 'n']
  | '\r' => ['\\', 'r']
  | '\t' => ['\\', 't']
  | '\x08' => ['\\', 'b']
  | '\x0c' => ['\\', 'f']
  | c =>
      if c.toNat < 0x20 then ['\\', 'u', '0', '0', hexDigit (c.toNat / 16), hexDigit (c.toNat % 16)]
      else [c]

/-- A text in double quotes. -/
def quoteChars (cs : List Char) : List Char :=
  '"' :: cs.flatMap escapedChar ++ ['"']

/-- A line break followed by the indentation of a nesting depth. -/
def lineBreak (depth : Nat) : List Char :=
  '\n' :: List.replicate (2 * depth) ' '

/-- Pieces with a separator between each two. -/
def separated (separator : List Char) : List (List Char) → List Char
  | [] => []
  | [p] => p
  | p :: q :: rest => p ++ separator ++ separated separator (q :: rest)

/-- A text that names half a surrogate pair. -/
def brokenChars : List Char :=
  ['"', '\\', 'u', 'd', '8', '0', '0', '"']

mutual

/-- The value on one line, without blanks. -/
def lineChars : Json → List Char
  | .null => "null".toList
  | .bool b => if b then "true".toList else "false".toList
  | .number n => n
  | .text s => quoteChars s.toList
  | .brokenText => brokenChars
  | .array items => '[' :: separated [','] (lineItems items) ++ [']']
  | .object members => '\x7b' :: separated [','] (lineMembers members) ++ ['\x7d']

/-- The items of an array, each on one line. -/
def lineItems : List Json → List (List Char)
  | [] => []
  | v :: rest => lineChars v :: lineItems rest

/-- The members of an object, each on one line. -/
def lineMembers : List (String × Json) → List (List Char)
  | [] => []
  | (k, v) :: rest => (quoteChars k.toList ++ ':' :: lineChars v) :: lineMembers rest

end

mutual

/-- The value over several lines; `depth` is the nesting depth of the line it starts on. -/
def prettyChars (depth : Nat) : Json → List Char
  | .array [] => ['[', ']']
  | .array (v :: rest) =>
      '[' :: lineBreak (depth + 1) ++
        separated (',' :: lineBreak (depth + 1)) (prettyItems (depth + 1) (v :: rest)) ++
        lineBreak depth ++ [']']
  | .object [] => ['\x7b', '\x7d']
  | .object (m :: rest) =>
      '\x7b' :: lineBreak (depth + 1) ++
        separated (',' :: lineBreak (depth + 1)) (prettyMembers (depth + 1) (m :: rest)) ++
        lineBreak depth ++ ['\x7d']
  | .null => "null".toList
  | .bool b => if b then "true".toList else "false".toList
  | .number n => n
  | .text s => quoteChars s.toList
  | .brokenText => brokenChars

/-- The items of an array, each over several lines. -/
def prettyItems (depth : Nat) : List Json → List (List Char)
  | [] => []
  | v :: rest => prettyChars depth v :: prettyItems depth rest

/-- The members of an object, each over several lines. -/
def prettyMembers (depth : Nat) : List (String × Json) → List (List Char)
  | [] => []
  | (k, v) :: rest =>
      (quoteChars k.toList ++ ':' :: ' ' :: prettyChars depth v) :: prettyMembers depth rest

end

/-- The value on one line. -/
def line (v : Json) : String :=
  String.ofList (lineChars v)

/-- The value over several lines. -/
def pretty (v : Json) : String :=
  String.ofList (prettyChars 0 v)

/-- The member of an object with a name; of several, the first. -/
def member? (v : Json) (name : String) : Option Json :=
  match v with
  | .object members => (members.find? fun m => m.1 == name).map (·.2)
  | _ => none

end Json

end CoupledModels
