import CoupledModels.Error
import CoupledModels.Formula.Tree
import CoupledModels.Text.Blank

/-!
# Reading formulas

The grammar, with any amount of space, tab, carriage return and line feed around tokens:

    statement = sum [ ("==" | ">=" | "<=") sum ]
    sum       = product { ("+" | "-") product }
    product   = unary { ("*" | "@") unary }
    unary     = "-" unary | primary
    primary   = "(" sum ")" | NUMBER | NAME | NAME "(" [ sum { "," sum } ] ")"

The readers work on the characters that are left and expect no blank in front of them: each one
skips the blanks after its last token.  A reader that finds no operand `misses`, which leaves it to
its caller to stop there instead; once a parenthesis has been opened or a call has been read, what
is wrong is wrong for good and the reader `fails`.
-/

namespace CoupledModels.Formula

/-- What a reader found: a value and the characters left, no operand where one had to start, or a
mistake that nothing can mend.  Places are given by the characters left there. -/
inductive Reply (α : Type) where
  | done (a : α) (rest : List Char)
  | miss (at_ : List Char)
  | fail (what : Expectation) (at_ : List Char)

/-- The blanks between tokens. -/
def isSpace (c : Char) : Bool :=
  c == ' ' || c == '\t' || c == '\n' || c == '\r'

/-- Drops leading blanks. -/
def skipSpace (cs : List Char) : List Char :=
  cs.dropWhile isSpace

/-- An ASCII digit. -/
def isDigit (c : Char) : Bool :=
  decide ('0' ≤ c ∧ c ≤ '9')

/-- A letter of the ASCII alphabet or an underscore. -/
def startsName (c : Char) : Bool :=
  decide ('a' ≤ c ∧ c ≤ 'z') || decide ('A' ≤ c ∧ c ≤ 'Z') || c == '_'

/-- A character that a name may go on with. -/
def continuesName (c : Char) : Bool :=
  startsName c || isDigit c

/-- Splits off leading digits. -/
def takeDigits (cs : List Char) : List Char × List Char :=
  (cs.takeWhile isDigit, cs.dropWhile isDigit)

/-- Splits off an optional sign; true for a minus sign. -/
def takeSign (cs : List Char) : Bool × List Char :=
  match cs with
  | '+' :: rest => (false, rest)
  | '-' :: rest => (true, rest)
  | _ => (false, cs)

/-- The digits of a numeral before its exponent: digits with an optional point, before which or
after which, but not on both sides, digits may be missing. -/
def readMantissa (cs : List Char) : Option ((List Char × List Char) × List Char) :=
  match takeDigits cs with
  | ([], '.' :: rest) =>
      match takeDigits rest with
      | ([], _) => none
      | (ds, rest) => some (([], ds), rest)
  | ([], _) => none
  | (ds, '.' :: rest) =>
      let (fs, rest) := takeDigits rest
      some ((ds, fs), rest)
  | (ds, rest) => some ((ds, []), rest)

/-- The exponent of a numeral.  After the letter the digits must not be missing. -/
def readExponent (cs : List Char) : Reply Int :=
  match cs with
  | e :: rest =>
      if e == 'e' || e == 'E' then
        let (negative, rest) := takeSign rest
        match takeDigits rest with
        | ([], _) => .fail .operand cs
        | (ds, rest) =>
            let n : Int := Decimal.ofDigits ds
            .done (if negative then -n else n) rest
      else .done 0 cs
  | [] => .done 0 []

/-- A numeral with an optional sign. -/
def readNumeral (cs : List Char) : Reply Decimal :=
  let (negative, body) := takeSign cs
  match readMantissa body with
  | none => .miss cs
  | some ((ds, fs), rest) =>
      match readExponent rest with
      | .done e rest => .done ⟨negative, Decimal.ofDigits (ds ++ fs), e - fs.length⟩ rest
      | .miss _ => .miss cs
      | .fail what _ => .fail what cs

/-- The additive operator of a character. -/
def additive? (c : Char) : Option Operator :=
  if c == '+' then some .add else if c == '-' then some .sub else none

/-- The multiplicative operator of a character. -/
def multiplicative? (c : Char) : Option Operator :=
  if c == '*' then some .mul else if c == '@' then some .matmul else none

/-- The operator that stands next, if any, and what follows it. -/
def readOperator (op? : Char → Option Operator) (cs : List Char) : Option (Operator × List Char) :=
  match cs with
  | c :: rest => (op? c).map fun op => (op, skipSpace rest)
  | [] => none

/-- The relation sign that stands next, if any, and what follows it. -/
def readRelation (cs : List Char) : Option (Relation × List Char) :=
  match cs with
  | '=' :: '=' :: rest => some (.eq, skipSpace rest)
  | '>' :: '=' :: rest => some (.ge, skipSpace rest)
  | '<' :: '=' :: rest => some (.le, skipSpace rest)
  | _ => none

/-- What was expected of a call with the wrong number of arguments. -/
def arityExpectation (f : Function) : Expectation :=
  match f.arity with
  | (1, 1) => .oneArgument
  | (2, 2) => .twoArguments
  | (4, 4) => .fourArguments
  | _ => .oneOrTwoArguments

variable {K : Type} [Scalar K]

/-- A call of a function by its name, if there is one that takes the arguments. -/
def makeCall (start : List Char) (name : String) (args : List (Formula K)) (rest : List Char) :
    Reply (Formula K) :=
  match Function.ofName? name with
  | none => .fail .function start
  | some f => if f.allows args.length then .done (.call f args) rest else .fail (arityExpectation f) start

mutual

/-- Products joined by `+` and `-`, grouped from the left. -/
def readSum : Nat → List Char → Reply (Formula K)
  | 0, cs => .miss cs
  | fuel + 1, cs =>
      match readProduct fuel cs with
      | .done l rest => readSumTail fuel l rest
      | r => r

/-- The summands after the first. -/
def readSumTail : Nat → Formula K → List Char → Reply (Formula K)
  | 0, l, cs => .done l cs
  | fuel + 1, l, cs =>
      match readOperator additive? cs with
      | none => .done l cs
      | some (op, rest) =>
          match readProduct fuel rest with
          | .done r rest => readSumTail fuel (.binary op l r) rest
          | r => r

/-- Signed operands joined by `*` and `@`, grouped from the left. -/
def readProduct : Nat → List Char → Reply (Formula K)
  | 0, cs => .miss cs
  | fuel + 1, cs =>
      match readUnary fuel cs with
      | .done l rest => readProductTail fuel l rest
      | r => r

/-- The factors after the first. -/
def readProductTail : Nat → Formula K → List Char → Reply (Formula K)
  | 0, l, cs => .done l cs
  | fuel + 1, l, cs =>
      match readOperator multiplicative? cs with
      | none => .done l cs
      | some (op, rest) =>
          match readUnary fuel rest with
          | .done r rest => readProductTail fuel (.binary op l r) rest
          | r => r

/-- An operand behind any number of minus signs. -/
def readUnary : Nat → List Char → Reply (Formula K)
  | 0, cs => .miss cs
  | fuel + 1, cs =>
      match cs with
      | '-' :: rest =>
          match readUnary fuel (skipSpace rest) with
          | .done e rest => .done (.negate e) rest
          | r => r
      | _ => readPrimary fuel cs

/-- A sum in parentheses, a numeral, a name or a call. -/
def readPrimary : Nat → List Char → Reply (Formula K)
  | 0, cs => .miss cs
  | fuel + 1, cs =>
      match cs with
      | '(' :: rest =>
          match readSum fuel (skipSpace rest) with
          | .done e (')' :: rest) => .done e (skipSpace rest)
          | .done _ rest => .fail .closing rest
          | .miss rest => .fail .operand rest
          | r => r
      | _ =>
          match readNumeral cs with
          | .done d rest => .done (.number (Scalar.ofDecimal d)) (skipSpace rest)
          | .fail what rest => .fail what rest
          | .miss _ => readName fuel cs

/-- A name, or a call if an opening parenthesis follows. -/
def readName : Nat → List Char → Reply (Formula K)
  | 0, cs => .miss cs
  | fuel + 1, cs =>
      match cs with
      | [] => .miss cs
      | c :: _ =>
          if startsName c then
            let name := String.ofList (cs.takeWhile continuesName)
            match skipSpace (cs.dropWhile continuesName) with
            | '(' :: rest =>
                match readArguments fuel (skipSpace rest) with
                | .done args (')' :: rest) => makeCall cs name args (skipSpace rest)
                | .done _ rest => .fail .closing rest
                | .miss rest => .fail .closing rest
                | .fail what rest => .fail what rest
            | rest => .done (.name name) rest
          else .miss cs

/-- Arguments up to the closing parenthesis; if no operand starts here there are none. -/
def readArguments : Nat → List Char → Reply (List (Formula K))
  | 0, cs => .done [] cs
  | fuel + 1, cs =>
      match readSum fuel cs with
      | .done e rest => readMoreArguments fuel [e] rest
      | .miss _ => .done [] cs
      | .fail what rest => .fail what rest

/-- The arguments after the first, each behind a comma; a comma without an argument is left. -/
def readMoreArguments : Nat → List (Formula K) → List Char → Reply (List (Formula K))
  | 0, args, cs => .done args cs
  | fuel + 1, args, cs =>
      match cs with
      | ',' :: rest =>
          match readSum fuel (skipSpace rest) with
          | .done e rest => readMoreArguments fuel (args ++ [e]) rest
          | .miss _ => .done args cs
          | .fail what rest => .fail what rest
      | _ => .done args cs

end

/-- A formula, and a relation to a second one if a relation sign follows. -/
def readStatement (fuel : Nat) (cs : List Char) : Reply (Statement K) :=
  match readSum fuel cs with
  | .done l rest =>
      match readRelation rest with
      | none => .done (.value l) rest
      | some (rel, rest) =>
          match readSum fuel rest with
          | .done r rest => .done (.relation l rel r) rest
          | .miss rest => .fail .operand rest
          | .fail what rest => .fail what rest
  | .miss rest => .miss rest
  | .fail what rest => .fail what rest

/-- Number of bytes of a character sequence in UTF-8. -/
def byteLength (cs : List Char) : Nat :=
  cs.foldl (fun n c => n + c.utf8Size) 0

/-- Every character read costs at most a fixed number of reader calls. -/
def fuelFor (cs : List Char) : Nat :=
  8 * cs.length + 8

/-- Reads one formula or relation. -/
def parse (text : String) : Except ExpressionError (Statement K) :=
  if Text.allBlank text then .error .empty
  else
    let cs := text.toList
    let expected (what : Expectation) (rest : List Char) : Except ExpressionError (Statement K) :=
      .error (.expected what (byteLength cs - byteLength rest) text)
    match readStatement (fuelFor cs) (skipSpace cs) with
    | .done s [] => .ok s
    | .done _ rest => expected .nothing rest
    | .miss rest => expected .operand rest
    | .fail what rest => expected what rest

end CoupledModels.Formula
