import CoupledModels.Text.Hidden

/-!
# Quoted text

How messages show names, lists, maps and shapes: in double quotes, with characters that have no
visible form written by their number.
-/

namespace CoupledModels.Text

/-- The digits of a number in base sixteen, lower case, without leading zeros. -/
def hexDigits (n : Nat) : List Char :=
  Nat.toDigits 16 n

/-- One character inside double quotes. -/
def quotedChar (c : Char) : List Char :=
  match c with
  | '\t' => ['\\', 't']
  | '\r' => ['\\', 'r']
  | '\n' => ['\\', 'n']
  | '"' => ['\\', '"']
  | '\\' => ['\\', '\\']
  | '\x00' => ['\\', '0']
  | c => if isHidden c then ['\\', 'u', '\x7b'] ++ hexDigits c.toNat ++ ['\x7d'] else [c]

/-- A text in double quotes. -/
def quoted (s : String) : String :=
  String.ofList ('"' :: s.toList.flatMap quotedChar ++ ['"'])

/-- Items in brackets, separated by commas. -/
def bracketed (items : List String) : String :=
  "[" ++ ", ".intercalate items ++ "]"

/-- A list of texts. -/
def quotedList (items : List String) : String :=
  bracketed (items.map quoted)

/-- A map from names to lists of texts, in the order given. -/
def quotedMap (entries : List (String × List String)) : String :=
  "\x7b" ++ ", ".intercalate (entries.map fun (k, v) => quoted k ++ ": " ++ quotedList v) ++ "\x7d"

/-- A list of numbers. -/
def numberList (ns : List Nat) : String :=
  bracketed (ns.map toString)

end CoupledModels.Text
