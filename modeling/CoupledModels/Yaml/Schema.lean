import CoupledModels.Yaml.Node
import CoupledModels.Number.Numeral

/-!
# Typed scalars

What plain scalars stand for under the core schema: `null`, booleans, integers of any common base,
floats, and texts.  Quoted scalars and block scalars are texts.
-/

namespace CoupledModels.Yaml

/-- A scalar by its type.  Only what tells the types apart is kept of a float. -/
inductive TypedScalar where
  | null
  | bool (b : Bool)
  | integer (i : Int)
  | float
  | text (s : String)
deriving DecidableEq, Repr

namespace Schema

/-- The words for nothing. -/
def isNull (s : String) : Bool :=
  s == "null" || s == "Null" || s == "NULL" || s == "~"

/-- The words for truth values. -/
def bool? (s : String) : Option Bool :=
  match s with
  | "true" | "True" | "TRUE" => some true
  | "false" | "False" | "FALSE" => some false
  | _ => none

/-- The number that digits of a base write; nothing without digits. -/
def digits? (base : Nat) (cs : List Char) : Option Nat := do
  if cs.isEmpty then none
  cs.foldlM
    (fun n c => do
      let d ← Json.hexValue? c
      if d < base then return base * n + d else none)
    0

/-- True for several digits that begin with a zero, which are no number. -/
def hasIdleZero (cs : List Char) : Bool :=
  let cs := match cs with
    | '+' :: rest | '-' :: rest => rest
    | cs => cs
  decide (1 < cs.length) && cs.head? == some '0' && cs.all Char.isDigit

/-- A number below a limit, after a base mark if there is one. -/
def magnitude? (limit : Nat) (cs : List Char) : Option Nat :=
  let r := match cs with
    | '0' :: 'x' :: ds => digits? 16 ds
    | '0' :: 'o' :: ds => digits? 8 ds
    | '0' :: 'b' :: ds => digits? 2 ds
    | ds => if hasIdleZero ds then none else digits? 10 ds
  r.filter fun n => decide (n < limit)

/-- An integer that is not negative, below a limit. -/
def unsigned? (limit : Nat) (s : String) : Option Nat :=
  match s.toList with
  | '+' :: rest => magnitude? limit rest
  | cs => magnitude? limit cs

/-- A negative integer that fits in 128 bits. -/
def negative? (s : String) : Option Int :=
  match s.toList with
  | '-' :: rest => (magnitude? (pow2 127 + 1) rest).map fun n => -(n : Int)
  | _ => none

/-- An integer that fits in 128 bits. -/
def integer? (s : String) : Option Int :=
  match unsigned? (pow2 128) s with
  | some n => some n
  | none => negative? s

/-- True for an exponent, its sign and at least one digit. -/
def isExponent (cs : List Char) : Bool :=
  let ds := match cs with
    | '+' :: rest | '-' :: rest => rest
    | ds => ds
  !ds.isEmpty && ds.all Char.isDigit

/-- True for a decimal numeral without sign: digits around an optional point, and an optional
exponent. -/
def isNumeral (cs : List Char) : Bool :=
  let whole := cs.takeWhile Char.isDigit
  let cs := cs.dropWhile Char.isDigit
  let (fraction, cs) := match cs with
    | '.' :: rest => (rest.takeWhile Char.isDigit, rest.dropWhile Char.isDigit)
    | cs => ([], cs)
  !(whole.isEmpty && fraction.isEmpty) &&
    match cs with
    | [] => true
    | c :: rest => (c == 'e' || c == 'E') && isExponent rest

/-- The sign of a numeral and the characters after it. -/
def signed (cs : List Char) : Bool × List Char :=
  match cs with
  | '-' :: rest => (true, rest)
  | '+' :: rest => (false, rest)
  | cs => (false, cs)

/-- A float: a finite decimal numeral, or a word for an infinity or for an undefined number. -/
def float? (s : String) : Option Float :=
  match s with
  | ".inf" | ".Inf" | ".INF" | "+.inf" | "+.Inf" | "+.INF" => some (1.0 / 0.0)
  | "-.inf" | "-.Inf" | "-.INF" => some (-1.0 / 0.0)
  | ".nan" | ".NaN" | ".NAN" => some (0.0 / 0.0)
  | s =>
      let (negative, cs) := signed s.toList
      if isNumeral cs then
        let f := Numeral.exact (if negative then '-' :: cs else cs)
        if f.isInf then none else some f
      else none

/-- The type of a plain scalar without a tag. -/
def typedPlain (s : String) : TypedScalar :=
  if s.isEmpty || isNull s then .null
  else
    match bool? s with
    | some b => .bool b
    | none =>
        match integer? s with
        | some i => .integer i
        | none =>
            if !hasIdleZero s.toList && (float? s).isSome then .float else .text s

/-- The tag of a type of the core schema. -/
def coreTag (name : String) : String :=
  "tag:yaml.org,2002:" ++ name

/-- A scalar by its type; nothing if its tag does not fit. -/
def typed? (tag : Option String) (style : ScalarStyle) (text : String) : Option TypedScalar :=
  match tag with
  | none => some (if style == .plain then typedPlain text else .text text)
  | some t =>
      if t.startsWith "!" then none
      else if t == coreTag "bool" then (bool? text).map .bool
      else if t == coreTag "int" then (integer? text).map .integer
      else if t == coreTag "float" then (float? text).map fun _ => .float
      else if t == coreTag "null" then (if isNull text then some .null else none)
      else some (.text text)

end Schema

end CoupledModels.Yaml
