import CoupledModels.Solve.Backend
import CoupledModels.Solve.Convergence

/-!
# Settings of a run

What a run may be told.  Settings are checked before a run; settings that pass can still ask for a
number of seconds that is too long to be a duration, which is why options and loop are partial.
-/

namespace CoupledModels

/-- The settings of a run. -/
structure Settings (K : Type) where
  /-- Which of its solvers a backend should use. -/
  solver : Option String
  verbose : Bool
  /-- Iterate coupled sub-problems to a fixed point. -/
  integrated : Bool
  tolerance : K
  maxIterations : Nat
  /-- Limit of one call of the backend, in seconds. -/
  solveDeadline : Option K
  /-- Limit of one iteration, in seconds. -/
  iterationTimeout : Option K
  /-- Let the backend work on several problems at a time; no result depends on it. -/
  parallel : Bool
  /-- Decimals that are kept when values are written to the store. -/
  roundDigits : UInt32
deriving Repr

namespace Settings

variable {K : Type} [Scalar K]

/-- The settings that hold unless others are given. -/
def default : Settings K where
  solver := none
  verbose := false
  integrated := false
  tolerance := Scalar.ofDecimal ⟨false, 1, -2⟩
  maxIterations := 20
  solveDeadline := none
  iterationTimeout := none
  parallel := true
  roundDigits := 5

/-- A limit in seconds, if one is given, must be positive and finite. -/
def checkLimit (name : String) (limit : Option K) : Except ConfigurationError Unit :=
  match limit with
  | none => .ok ()
  | some v =>
      if Scalar.lt 0 v && Scalar.isFinite v then .ok ()
      else .error (.notPositive name (Scalar.text v))

/-- The check that settings must pass before a run. -/
def validate (s : Settings K) : Except ConfigurationError Unit := do
  if !Scalar.le 0 s.tolerance then throw (.negativeTolerance (Scalar.text s.tolerance))
  if s.maxIterations = 0 then throw .noIterations
  checkLimit "solve_deadline_secs" s.solveDeadline
  checkLimit "iteration_timeout_secs" s.iterationTimeout

/-- The duration of a limit, if one is given; outside `some` for a limit that has no duration. -/
def duration? (limit : Option K) : Option (Option Duration) :=
  match limit with
  | none => some none
  | some v => (Duration.ofSeconds? v).map some

/-- The options for the backend; `none` if the deadline has no duration. -/
def solveOptions? (s : Settings K) : Option SolveOptions :=
  (duration? s.solveDeadline).map fun limit => ⟨s.solver, limit, s.verbose⟩

/-- The convergence loop; `none` if the timeout has no duration. -/
def convergenceLoop? (s : Settings K) : Option (ConvergenceLoop K) :=
  (duration? s.iterationTimeout).map fun limit => ⟨s.tolerance, s.maxIterations, limit⟩

end Settings

end CoupledModels
