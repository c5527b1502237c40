import CoupledModels.Formula.Compile
import CoupledModels.Formula.Lowering
import CoupledModels.Problem.Linear
import CoupledModels.Problem.ModelText

/-!
# Sub-problems

The objective and the constraints of a model, compiled for every key of the registry.  A sub-problem
keeps typed formulas; they are lowered to a linear problem each time it is solved.
-/

namespace CoupledModels

/-- How far solving a sub-problem has come. -/
inductive Status where
  | unsolved
  | solving
  | optimal
  | infeasible
  | unbounded
  | solverError (detail : String)
deriving DecidableEq, Repr

namespace Status

/-- True for the states in which a solve ends. -/
def isFinal : Status → Bool
  | unsolved | solving => false
  | _ => true

/-- True if a solution was found. -/
def isOptimal (s : Status) : Bool :=
  s == optimal

/-- The status in words. -/
def text : Status → String
  | unsolved => "unsolved"
  | solving => "solving"
  | optimal => "optimal"
  | infeasible => "infeasible"
  | unbounded => "unbounded"
  | solverError detail => "solver error: " ++ detail

end Status

/-- A constraint of a sub-problem. -/
structure Constraint (K : Type) where
  text : String
  intra : Option String
  left : Typed K
  rel : Relation
  right : Typed K
deriving DecidableEq, Repr

/-- One concrete optimization problem. -/
structure SubProblem (K : Type) where
  key : ProblemKey
  /-- The name of the model it belongs to. -/
  model : String
  sense : Sense
  /-- The summands of the objective; without any it is zero. -/
  terms : List (Typed K)
  constraints : List (Constraint K)
  status : Status
deriving DecidableEq, Repr

/-- The sub-problems of one model. -/
abbrev SubProblems (K : Type) := SortedMap ProblemKey (SubProblem K)

namespace SubProblem

variable {K : Type}

/-- Starts solving.  Only an unsolved sub-problem can be started. -/
def begin? (p : SubProblem K) : Option (SubProblem K) :=
  if p.status = .unsolved then some { p with status := .solving } else none

/-- Ends solving. -/
def finish (p : SubProblem K) (status : Status) : SubProblem K :=
  { p with status := status }

/-- Allows the sub-problem to be solved again. -/
def reset (p : SubProblem K) : SubProblem K :=
  { p with status := .unsolved }

variable [Scalar K] [Transcendental K]

/-- The sum of the objective's terms. -/
def lowerObjective (p : SubProblem K) (c : Catalog K) : Except ModelError (Affine K) :=
  p.terms.foldlM
    (fun sum e => do
      let e ← e.lower c
      Typed.lift (sum.add e))
    (.scalar 0)

/-- The left side of a constraint less its right side, to be related to zero. -/
def lowerConstraint (c : Catalog K) (k : Constraint K) : Except ModelError (Affine K × Relation) := do
  let l ← k.left.lower c
  let r ← k.right.lower c
  let e ← (l.sub r).mapError fun e => ModelError.expression (.arrayIn k.text e)
  return (e, k.rel)

/-- The linear problem with the data that the catalog holds. -/
def lower (p : SubProblem K) (c : Catalog K) : Except ModelError (LinearProblem K) := do
  let objective ← p.lowerObjective c
  let constraints ← p.constraints.mapM (lowerConstraint c)
  LinearProblem.ofParts (p.model ++ p.key.display) p.sense objective constraints c

end SubProblem

namespace SubProblems

variable {K : Type} [Scalar K] [Transcendental K]

/-- The constraints of a text. -/
def constraintsOf (c : Catalog K) (key : ProblemKey) (text : String) :
    Except ModelError (List (Constraint K)) := do
  let instances ← Formula.compile c text key
  instances.mapM fun i => match i.form with
    | .constraint l rel r => .ok ⟨i.text, i.intra, l, rel, r⟩
    | _ => .error (.expression (.notComparison text))

/-- An objective that is still growing. -/
structure Objective (K : Type) where
  sense : Option Sense
  terms : List (Typed K)

/-- Adds one instance of a text to the objective; all senses must be the same. -/
def addInstance (text : String) (o : Objective K) (i : Instance K) :
    Except ModelError (Objective K) :=
  match i.form with
  | .objective sense e =>
      if o.sense = none ∨ o.sense = some sense then .ok ⟨some sense, o.terms ++ [e]⟩
      else .error (.expression (.mixedObjectives text))
  | _ => .error (.expression (.notObjective text))

/-- Adds the instances of a text to the objective. -/
def addObjective (c : Catalog K) (key : ProblemKey) (o : Objective K) (text : String) :
    Except ModelError (Objective K) := do
  let instances ← Formula.compile c text key
  instances.foldlM (addInstance text) o

/-- The sub-problem of a model for a key. -/
def buildOne (c : Catalog K) (name : String) (m : ModelText) (key : ProblemKey) :
    Except ModelError (SubProblem K) := do
  let constraints ← m.expressions.mapM (constraintsOf c key)
  let objective ← m.objective.foldlM (addObjective c key) ⟨none, []⟩
  return {
    key := key
    model := name
    sense := objective.sense.getD .minimize
    terms := objective.terms
    constraints := constraints.flatten
    status := .unsolved }

/-- The sub-problems of a model, one for each key. -/
def build (c : Catalog K) (sets : Registry) (name : String) (m : ModelText) :
    Except ModelError (SubProblems K) := do
  let ps ← sets.problemKeys.mapM (buildOne c name m)
  return SortedMap.ofList (ps.map fun p => (p.key, p))

/-- The sub-problems of several models. -/
def buildAll (c : Catalog K) (sets : Registry) (models : SortedMap String ModelText) :
    Except ModelError (SortedMap String (SubProblems K)) := do
  let entries ← models.entries.mapM fun (name, m) => do return (name, ← build c sets name m)
  return SortedMap.ofList entries

end SubProblems

end CoupledModels
