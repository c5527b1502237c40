import CoupledModels.Formula.Parser
import CoupledModels.Formula.Typed
import CoupledModels.Arrays.Weibull
import CoupledModels.Catalog.Basic

/-!
# Compiling formulas

A formula text is compiled for one sub-problem.  Every name must have one binding there.  If some
variable of the text has an intra dimension the text is replicated, once for each of its items; a
text with a variable that has no binding in the sub-problem has no instance at all.

Shapes and the places of decision variables are settled here.  Values are looked up later, when an
instance is evaluated.
-/

namespace CoupledModels.Formula

variable {K : Type}

/-- What the names of a text stand for in one instance. -/
structure Scope where
  text : String
  /-- Names with their bindings. -/
  bindings : List (String × Binding)

namespace Scope

/-- A mistake in the text. -/
def mistake {α : Type} (s : Scope) (e : TypingError) : Except ExpressionError α :=
  .error (.typing s.text e)

end Scope

section Typing

variable [Scalar K] [Transcendental K]

/-- The node of a name. -/
def typeName (s : Scope) (id : String) : Except ExpressionError (Typed K) :=
  match s.bindings.lookup id with
  | some b => .ok (.binding ⟨b.shape, b.isDecision⟩ b.id)
  | none => s.mistake (.identifier id)

/-- The node of a sum or difference. -/
def typeAdditive (s : Scope) (node : FormulaType → Typed K → Typed K → Typed K) (l r : Typed K) :
    Except ExpressionError (Typed K) :=
  match Shape.broadcast? l.shape r.shape with
  | some shape => .ok (node ⟨shape, l.linear || r.linear⟩ l r)
  | none => s.mistake (.addition l.shape r.shape)

/-- The node of a product; `scales` if a single number or form on either side scales the other. -/
def typeProduct (s : Scope) (scales : Bool) (l r : Typed K) : Except ExpressionError (Typed K) :=
  let linear := l.linear || r.linear
  if l.linear && r.linear then s.mistake .decisionProduct
  else if scales && (l.shape.isScalar || r.shape.isScalar) then
    .ok (.scale ⟨if l.shape.isScalar then r.shape else l.shape, linear⟩ l r)
  else if l.shape.cols = r.shape.rows then
    .ok (.matmul ⟨⟨l.shape.rows, r.shape.cols⟩, linear⟩ l r)
  else s.mistake (.multiplication l.shape r.shape)

/-- The node of a binary operator. -/
def typeBinary (s : Scope) (op : Operator) (l r : Typed K) : Except ExpressionError (Typed K) :=
  match op with
  | .add => typeAdditive s .add l r
  | .sub => typeAdditive s .sub l r
  | .mul => typeProduct s true l r
  | .matmul => typeProduct s false l r

/-- A call whose arguments have been typed already.  An argument that must be a literal is taken
from its formula instead. -/
structure Call (K : Type) where
  scope : Scope
  function : Function
  args : List (Formula K)
  typedArgs : List (Except ExpressionError (Typed K))

namespace Call

/-- The node of an argument. -/
def node (c : Call K) (i : Nat) : Except ExpressionError (Typed K) :=
  match c.typedArgs[i]? with
  | some r => r
  | none => c.scope.mistake (.notNumber (i + 1) c.function.name)

/-- The literal that an argument is, if it is one. -/
def literal? (c : Call K) (i : Nat) : Option K :=
  (c.args[i]?).bind Formula.literal?

/-- An argument that must be a literal. -/
def literal (c : Call K) (i : Nat) : Except ExpressionError K :=
  match c.literal? i with
  | some v => .ok v
  | none => c.scope.mistake (.notNumber (i + 1) c.function.name)

/-- An argument that must be an integral literal. -/
def integer (c : Call K) (i : Nat) : Except ExpressionError Int64 := do
  let v ← c.literal i
  if Scalar.isInteger v then return Scalar.toAmount v
  else c.scope.mistake (.notInteger (i + 1) c.function.name)

/-- The length of a lifetime distribution: a positive literal, or that of a vector of data. -/
def weibullLength (c : Call K) : Except ExpressionError Nat := do
  if (c.literal? 2).isSome then
    let n ← c.integer 2
    if n ≤ 0 then c.scope.mistake .weibullLength else return n.toNatClampNeg
  else
    let r ← c.node 2
    if r.linear || !r.shape.isVector then c.scope.mistake (.weibullRange r.shape)
    else return r.shape.rows * r.shape.cols

/-- The scale or the shape of a lifetime distribution, a single number of data. -/
def weibullFactor (c : Call K) (i : Nat) : Except ExpressionError (Typed K) := do
  let e ← c.node i
  if e.linear || !e.shape.isScalar then c.scope.mistake (.weibullFactor (i + 1) e.shape)
  else return e

/-- A lifetime distribution, evaluated at once if its scale and shape are literals. -/
def weibull (c : Call K) : Except ExpressionError (Typed K) := do
  let dims ← c.integer 3
  if dims ≠ 1 ∧ dims ≠ 2 then c.scope.mistake (.weibullDims dims.toInt)
  else
    let dims := dims.toNatClampNeg
    let n ← c.weibullLength
    if Weibull.limit < n then c.scope.mistake (.weibullTooLong n Weibull.limit)
    else
      match c.literal? 0, c.literal? 1 with
      | some scale, some shape =>
          match Weibull.distribution scale shape n dims with
          | .ok m => return .data m
          | .error e => throw (.weibull e)
      | _, _ =>
          let scale ← c.weibullFactor 0
          let shape ← c.weibullFactor 1
          return .weibull ⟨if dims = 1 then ⟨n, 1⟩ else ⟨n, n⟩, false⟩ scale shape n dims

/-- The diagonal matrix of a vector, or the diagonal of a square matrix. -/
def diagonal (c : Call K) : Except ExpressionError (Typed K) := do
  let e ← c.node 0
  let k := e.shape.rows * e.shape.cols
  if e.shape.isVector then return .diagonal ⟨⟨k, k⟩, e.linear⟩ e
  else if e.shape.isSquare then return .diagonal ⟨⟨e.shape.cols, 1⟩, e.linear⟩ e
  else c.scope.mistake (.diagonal e.shape)

/-- A sum of all elements, or along the axis that a second argument names. -/
def sum (c : Call K) : Except ExpressionError (Typed K) := do
  let e ← c.node 0
  if c.args.length ≤ 1 then return .sum ⟨.scalar, e.linear⟩ e none
  else
    let axis ← c.integer 1
    if axis = 0 then return .sum ⟨⟨1, e.shape.cols⟩, e.linear⟩ e (some 0)
    else if axis = 1 then return .sum ⟨⟨e.shape.rows, 1⟩, e.linear⟩ e (some 1)
    else c.scope.mistake (.axis axis.toInt)

/-- A product element by element. -/
def multiply (c : Call K) : Except ExpressionError (Typed K) := do
  let l ← c.node 0
  let r ← c.node 1
  if l.linear && r.linear then c.scope.mistake .decisionProduct
  else
    match Shape.broadcast? l.shape r.shape with
    | some shape => return .elementwise ⟨shape, l.linear || r.linear⟩ l r
    | none => c.scope.mistake (.elementwise l.shape r.shape)

/-- The node of a call. -/
def typed (c : Call K) : Except ExpressionError (Typed K) :=
  match c.function with
  | .minimize | .maximize => c.scope.mistake (.misplacedObjective c.function.name)
  | .weibull => c.weibull
  | .diagonal => c.diagonal
  | .sum => c.sum
  | .multiply => c.multiply
  | .transpose => do
      let e ← c.node 0
      return .transpose ⟨e.shape.flip, e.linear⟩ e
  | .shift => do
      let e ← c.node 0
      let k ← c.integer 1
      return .shift e.type e k
  | .power => do
      let e ← c.node 0
      if e.linear then c.scope.mistake .decisionPower
      else return .power ⟨e.shape, false⟩ e (← c.literal 1)
  | .inverse => do
      let e ← c.node 0
      if e.linear then c.scope.mistake .decisionInverse
      else if !e.shape.isSquare then c.scope.mistake (.inverseShape e.shape)
      else return .inverse ⟨e.shape, false⟩ e

end Call

mutual

/-- The node of a formula. -/
def typed (s : Scope) : Formula K → Except ExpressionError (Typed K)
  | number v => .ok (.number v)
  | name id => typeName s id
  | negate e => do
      let e ← e.typed s
      return .negate e.type e
  | binary op l r => do
      let l ← l.typed s
      let r ← r.typed s
      typeBinary s op l r
  | call f args => Call.typed ⟨s, f, args, typedAll s args⟩

/-- The nodes of arguments. -/
def typedAll (s : Scope) : List (Formula K) → List (Except ExpressionError (Typed K))
  | [] => []
  | e :: rest => e.typed s :: typedAll s rest

end

/-- The sense of a function that marks an objective. -/
def senseOf? (f : Function) : Option Sense :=
  match f with
  | .minimize => some .minimize
  | .maximize => some .maximize
  | _ => none

/-- An objective, which must be a single form. -/
def typeObjective (s : Scope) (sense : Sense) (e : Formula K) : Except ExpressionError (Form K) := do
  let e ← e.typed s
  if e.shape.isScalar then return .objective sense e else s.mistake (.objective e.shape)

/-- What a formula says on its own: an objective if it is marked as one, else a value. -/
def typeValue (s : Scope) (e : Formula K) : Except ExpressionError (Form K) :=
  match e with
  | call f (arg :: _) =>
      match senseOf? f with
      | some sense => typeObjective s sense arg
      | none => (e.typed s).map .value
  | e => (e.typed s).map .value

/-- What a statement says. -/
def typeStatement (s : Scope) : Statement K → Except ExpressionError (Form K)
  | .relation l rel r => do
      let l ← l.typed s
      let r ← r.typed s
      if l.shape = r.shape ∨ l.shape.isScalar ∨ r.shape.isScalar then
        return .constraint l rel r
      else s.mistake (.relation l.shape r.shape)
  | .value e => typeValue s e

end Typing

/-- The intra dimension of a text, with a variable that has it and its items. -/
structure IntraDimension where
  symbol : String
  dim : String
  items : List String

/-- Looks at one more variable: all intra dimensions of a text must be the same, with the same
items. -/
def joinIntra (c : Catalog K) (text : String) (found : Option IntraDimension) (symbol : String) :
    Except ModelError (Option IntraDimension) :=
  match c.variableNamed? symbol with
  | none => .error (.expression (.identifier symbol text))
  | some v =>
      if v.isConstant then .ok found
      else
        match v.roles.intra, v.intraItems?, found with
        | some d, some items, none => .ok (some ⟨symbol, d, items⟩)
        | some d, some items, some i =>
            if i.dim ≠ d then .error (.conceptual (.intraDimensions text i.symbol symbol i.dim d))
            else if i.items ≠ items then .error (.conceptual (.intraItems text i.symbol symbol d))
            else .ok found
        | _, _, _ => .ok found

/-- The bindings of names for a sub-problem and an intra item; `none` if some name has no binding
there. -/
def bindNames (c : Catalog K) (text : String) (key : ProblemKey) (item : Option String) :
    List String → Except ModelError (Option (List (String × Binding)))
  | [] => .ok (some [])
  | symbol :: rest =>
      match c.variableNamed? symbol with
      | none => .error (.expression (.identifier symbol text))
      | some v =>
          let restrict := if v.isConstant || v.roles.intra.isNone then none else item
          match c.candidates symbol key restrict with
          | [] => .ok none
          | [b] => do
              let bs ← bindNames c text key item rest
              return bs.map ((symbol, b) :: ·)
          | bs => .error (.expression (.ambiguous symbol bs.length key text))

variable [Scalar K] [Transcendental K]

/-- The instances of a text for a sub-problem. -/
def compile (c : Catalog K) (text : String) (key : ProblemKey) :
    Except ModelError (List (Instance K)) := do
  let statement ← (parse text).mapError ModelError.expression
  let names := statement.names
  let intra ← names.foldlM (joinIntra c text) none
  let items : List (Option String) := match intra with
    | some i => i.items.map some
    | none => [none]
  let instances ← items.mapM fun item => do
    match ← bindNames c text key item names with
    | none => return none
    | some bindings =>
        let form ← (typeStatement ⟨text, bindings⟩ statement).mapError ModelError.expression
        return some (Instance.mk text item form)
  return instances.filterMap id

end CoupledModels.Formula
