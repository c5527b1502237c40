import CoupledModels.Problem.Linear
import CoupledModels.Number.Duration

/-!
# Solver backends

A backend answers one linear problem at a time.  What it remembers between two calls is a state that
is passed through; a backend without memory is a function of the problem.
-/

namespace CoupledModels

/-- Options of a solve. -/
structure SolveOptions where
  /-- Which of its solvers a backend should use. -/
  solver : Option String
  timeLimit : Option Duration
  verbose : Bool
deriving DecidableEq, Repr

namespace SolveOptions

/-- No choice, no limit, no messages. -/
def default : SolveOptions :=
  ⟨none, none, false⟩

end SolveOptions

/-- How a solve ended. -/
inductive SolutionStatus where
  | optimal
  | infeasible
  | unbounded
  /-- Anything else: a time limit, numerical trouble. -/
  | error (detail : String)
deriving DecidableEq, Repr

/-- The answer of a backend; values count only if the status is optimal. -/
structure Solution (K : Type) where
  status : SolutionStatus
  /-- A value for each local column. -/
  values : List K
  objective : Option K
deriving Repr

namespace Solution

variable {K : Type} [Scalar K]

/-- A solution with its objective. -/
def optimal (p : LinearProblem K) (values : List K) : Solution K :=
  ⟨.optimal, values, some (p.objectiveValue values)⟩

/-- An answer without values. -/
def failed (status : SolutionStatus) : Solution K :=
  ⟨status, [], none⟩

end Solution

/-- A solver with a memory of type `σ`. -/
structure Backend (σ K : Type) where
  name : String
  solve : LinearProblem K → SolveOptions → σ → Except ModelError (Solution K) × σ

namespace Backend

variable {K : Type}

/-- The backend of a function of the problem. -/
def ofFunction (name : String) (f : LinearProblem K → SolveOptions → Except ModelError (Solution K)) :
    Backend Unit K :=
  ⟨name, fun p o s => (f p o, s)⟩

/-- Answers every problem with zeros. -/
def zeros [Scalar K] : Backend Unit K :=
  ofFunction "dummy" fun p _ => .ok (.optimal p (List.replicate p.columnCount 0))

end Backend

end CoupledModels
