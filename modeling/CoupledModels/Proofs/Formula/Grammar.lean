import CoupledModels.Formula.Parser

/-!
# The grammar of formulas

The grammar that formula texts obey, as a relation between token lists and trees that does not
mention the readers:

    statement = sum [ ("==" | ">=" | "<=") sum ]
    sum       = product { ("+" | "-") product }
    product   = unary { ("*" | "@") unary }
    unary     = "-" unary | primary
    primary   = NUMBER | NAME | NAME "(" args ")" | "(" sum ")"
    args      = sum { "," sum }

Chains are left-recursive here, which says how they group.  A text writes a token list if it is the
texts of the tokens with any number of blanks before, between and after them.  A numeral may have a
plus sign of its own; a minus sign is always the operator.
-/

namespace CoupledModels.Formula

/-! ## Tokens -/

/-- The text of an optional sign, true for a minus sign. -/
def signText : Option Bool → List Char
  | some true => ['-']
  | some false => ['+']
  | none => []

/-- The exponent of a numeral. -/
structure ExponentText where
  letter : Char
  sign : Option Bool
  digits : List Char
  letter_eq : letter = 'e' ∨ letter = 'E'
  digits_ne : digits ≠ []
  isDigit_digits : ∀ c ∈ digits, isDigit c = true

namespace ExponentText

def text (e : ExponentText) : List Char :=
  e.letter :: (signText e.sign ++ e.digits)

/-- The power of ten that the exponent stands for. -/
def value (e : ExponentText) : Int :=
  if e.sign = some true then -(Decimal.ofDigits e.digits : Int) else Decimal.ofDigits e.digits

end ExponentText

/-- A numeral as it is written: digits with an optional point among them, an optional plus sign and
an optional exponent. -/
structure NumberText where
  plus : Bool
  whole : List Char
  /-- The digits behind the point, if there is a point. -/
  fraction : Option (List Char)
  exponent : Option ExponentText
  isDigit_whole : ∀ c ∈ whole, isDigit c = true
  isDigit_fraction : ∀ c ∈ fraction.getD [], isDigit c = true
  digits_ne : whole ++ fraction.getD [] ≠ []

namespace NumberText

/-- The point and the digits behind it. -/
def fractionText : Option (List Char) → List Char
  | some ds => '.' :: ds
  | none => []

def exponentText : Option ExponentText → List Char
  | some e => e.text
  | none => []

/-- The power of ten of an exponent that may be missing. -/
def exponentValue : Option ExponentText → Int
  | some e => e.value
  | none => 0

def text (n : NumberText) : List Char :=
  (if n.plus then ['+'] else []) ++ (n.whole ++ (fractionText n.fraction ++ exponentText n.exponent))

/-- The number that the numeral stands for. -/
def value (n : NumberText) : Decimal where
  negative := false
  mantissa := Decimal.ofDigits (n.whole ++ n.fraction.getD [])
  exponent := exponentValue n.exponent - (n.fraction.getD []).length

end NumberText

/-- A letter or an underscore, and then letters, underscores and digits. -/
def isName (id : String) : Bool :=
  match id.toList with
  | c :: cs => startsName c && cs.all continuesName
  | [] => false

/-- The smallest pieces of a text. -/
inductive Token where
  | number (n : NumberText)
  | name (id : String)
  | operator (op : Operator)
  | openParen
  | closeParen
  | comma
  | relation (rel : Relation)

/-- The sign of an operator. -/
def operatorSign : Operator → Char
  | .add => '+'
  | .sub => '-'
  | .mul => '*'
  | .matmul => '@'

/-- The sign of a relation. -/
def relationText : Relation → List Char
  | .eq => ['=', '=']
  | .ge => ['>', '=']
  | .le => ['<', '=']

namespace Token

def text : Token → List Char
  | number n => n.text
  | name id => id.toList
  | operator op => [operatorSign op]
  | openParen => ['(']
  | closeParen => [')']
  | comma => [',']
  | relation rel => relationText rel

end Token

/-- Nothing but blanks. -/
def Blank (cs : List Char) : Prop :=
  ∀ c ∈ cs, isSpace c = true

/-- The texts of tokens, each with any number of blanks behind it. -/
inductive Spells : List Token → List Char → Prop
  | nil : Spells [] []
  | cons (t : Token) {ts : List Token} {blanks cs : List Char} (hblanks : Blank blanks)
      (h : Spells ts cs) : Spells (t :: ts) (t.text ++ (blanks ++ cs))

/-- The texts of tokens, with any number of blanks before, between and after them. -/
def Writes (ts : List Token) (text : String) : Prop :=
  ∃ blanks cs, Blank blanks ∧ Spells ts cs ∧ text.toList = blanks ++ cs

/-! ## Derivations -/

/-- The nonterminals that formulas are derived from, the tightest first. -/
inductive Level where
  | primary
  | unary
  | product
  | sum
deriving DecidableEq, Repr

/-- Operators of sums and of products. -/
def Level.operators : Level → List Operator
  | sum => [.add, .sub]
  | product => [.mul, .matmul]
  | _ => []

/-- Token lists with commas between them. -/
def separated : List (List Token) → List Token
  | [] => []
  | [ts] => ts
  | ts :: us :: rest => ts ++ .comma :: separated (us :: rest)

variable {K : Type} [Scalar K]

/-- The tree of a token list that is derived from a nonterminal. -/
inductive Derives : Level → List Token → Formula K → Prop
  | number (n : NumberText) :
      Derives .primary [.number n] (.number (Scalar.ofDecimal n.value))
  | name {id : String} (valid : isName id = true) : Derives .primary [.name id] (.name id)
  | group {ts : List Token} {e : Formula K} (h : Derives .sum ts e) :
      Derives .primary (.openParen :: (ts ++ [.closeParen])) e
  | call {id : String} {f : Function} (parts : List (List Token × Formula K))
      (valid : isName id = true) (known : Function.ofName? id = some f)
      (allowed : f.allows parts.length = true)
      (h : ∀ part ∈ parts, Derives .sum part.1 part.2) :
      Derives .primary
        (.name id :: .openParen :: (separated (parts.map (·.1)) ++ [.closeParen]))
        (.call f (parts.map (·.2)))
  | primary {ts : List Token} {e : Formula K} (h : Derives .primary ts e) : Derives .unary ts e
  | negate {ts : List Token} {e : Formula K} (h : Derives .unary ts e) :
      Derives .unary (.operator .sub :: ts) (.negate e)
  | unary {ts : List Token} {e : Formula K} (h : Derives .unary ts e) : Derives .product ts e
  | times {ts us : List Token} {l r : Formula K} {op : Operator} (hl : Derives .product ts l)
      (hop : op ∈ Level.product.operators) (hr : Derives .unary us r) :
      Derives .product (ts ++ .operator op :: us) (.binary op l r)
  | product {ts : List Token} {e : Formula K} (h : Derives .product ts e) : Derives .sum ts e
  | plus {ts us : List Token} {l r : Formula K} {op : Operator} (hl : Derives .sum ts l)
      (hop : op ∈ Level.sum.operators) (hr : Derives .product us r) :
      Derives .sum (ts ++ .operator op :: us) (.binary op l r)

/-- The statement of a token list. -/
inductive DerivesStatement : List Token → Statement K → Prop
  | value {ts : List Token} {e : Formula K} (h : Derives .sum ts e) :
      DerivesStatement ts (.value e)
  | relation {ts us : List Token} {l r : Formula K} (rel : Relation) (hl : Derives .sum ts l)
      (hr : Derives .sum us r) :
      DerivesStatement (ts ++ .relation rel :: us) (.relation l rel r)

end CoupledModels.Formula
