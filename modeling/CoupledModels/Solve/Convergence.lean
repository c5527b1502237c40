import CoupledModels.Solve.Difference
import CoupledModels.Number.Duration

/-!
# Iterating to a fixed point

Sub-problems that read what other ones write are solved again and again, with their results handed
over through the store, until the stored results hardly change.
-/

namespace CoupledModels

/-- What the iteration drives.  `σ` is the state of the driven system; the store is beside it. -/
structure CoupledSystem (σ K : Type) where
  /-- Reads exogenous data from the store. -/
  refresh : Store K → σ → Except ModelError Unit × σ
  /-- Allows every sub-problem to be solved again. -/
  reset : σ → σ
  solveAll : σ → Except ModelError Unit × σ
  /-- Writes results to the store. -/
  push : Store K → σ → Except ModelError Unit × Store K × σ
  /-- The tables that are compared between iterations. -/
  monitored : σ → List String

/-- Why an iteration ended, with the number of iterations. -/
inductive LoopOutcome where
  | converged (iterations : Nat)
  | maxIterations (iterations : Nat)
  | timedOut (iterations : Nat)
deriving DecidableEq, Repr

namespace LoopOutcome

/-- True if the results hardly changed any more. -/
def isConverged : LoopOutcome → Bool
  | converged _ => true
  | _ => false

/-- Number of iterations. -/
def iterations : LoopOutcome → Nat
  | converged n | maxIterations n | timedOut n => n

end LoopOutcome

/-- What happened in one iteration. -/
structure IterationRecord (K : Type) where
  iteration : Nat
  /-- Monitored tables with their differences. -/
  differences : SortedMap String (Difference K)
  elapsed : Duration
deriving Repr

namespace IterationRecord

variable {K : Type} [Scalar K]

/-- The largest difference of a table. -/
def maxDifference (r : IterationRecord K) : Difference K :=
  Difference.largest r.differences.values

end IterationRecord

/-- The course of an iteration. -/
structure LoopReport (K : Type) where
  outcome : LoopOutcome
  history : List (IterationRecord K)
deriving Repr

/-- When an iteration ends. -/
structure ConvergenceLoop (K : Type) where
  tolerance : K
  maxIterations : Nat
  iterationTimeout : Option Duration
deriving Repr

namespace ConvergenceLoop

variable {σ K : Type} [Scalar K]

/-- True if an iteration took longer than it may. -/
def exceeds (l : ConvergenceLoop K) (elapsed : Duration) : Bool :=
  match l.iterationTimeout with
  | some limit => decide (limit.nanoseconds < elapsed.nanoseconds)
  | none => false

/-- Gives way to the next step unless a step has failed. -/
def andThen {α β γ : Type} (r : Except ModelError α × β) (next : α → β → Except ModelError γ × β) :
    Except ModelError γ × β :=
  match r with
  | (.ok a, s) => next a s
  | (.error e, s) => (.error e, s)

/-- Reads exogenous data and allows solving again, before every iteration but the first. -/
def renew (sys : CoupledSystem σ K) (iteration : Nat) (s : σ × Store K) :
    Except ModelError Unit × σ × Store K :=
  if iteration ≤ 1 then (.ok (), s)
  else
    match sys.refresh s.2 s.1 with
    | (.ok _, t) => (.ok (), sys.reset t, s.2)
    | (.error e, t) => (.error e, t, s.2)

/-- Solves, writes the results, and compares each table with its rows before. -/
def solveAndCompare (sys : CoupledSystem σ K) (tables : List String) (s : σ × Store K) :
    Except ModelError (SortedMap String (Difference K)) × σ × Store K :=
  match s.2.snapshot tables with
  | .error e => (.error e, s)
  | .ok before =>
      match sys.solveAll s.1 with
      | (.error e, t) => (.error e, t, s.2)
      | (.ok _, t) =>
          match sys.push s.2 t with
          | (.error e, store, t) => (.error e, t, store)
          | (.ok _, store, t) =>
              let compared := tables.mapM fun name => do
                let rows ← store.getRows name .empty
                return (name, Difference.ofRows ((before.get? name).getD []) rows)
              (compared.map SortedMap.ofList, t, store)

/-- The iterations from number `iteration` on, of which `left` may still be made.  The clock says
how long each iteration takes. -/
def runFrom (l : ConvergenceLoop K) (sys : CoupledSystem σ K) (clock : Nat → Duration)
    (tables : List String) : Nat → Nat → List (IterationRecord K) → σ × Store K →
    Except ModelError (LoopReport K) × σ × Store K
  | 0, _, history, s => (.ok ⟨.maxIterations l.maxIterations, history⟩, s)
  | left + 1, iteration, history, s =>
      andThen (renew sys iteration s) fun _ s =>
        andThen (solveAndCompare sys tables s) fun differences s =>
          let record : IterationRecord K := ⟨iteration, differences, clock iteration⟩
          let history := history ++ [record]
          if record.maxDifference.within l.tolerance then (.ok ⟨.converged iteration, history⟩, s)
          else if l.exceeds record.elapsed then (.ok ⟨.timedOut iteration, history⟩, s)
          else runFrom l sys clock tables left (iteration + 1) history s

/-- Iterates until every monitored table changes by at most the tolerance, the limit of iterations
is reached, or an iteration takes too long.  An error of any step ends the iteration. -/
def run (l : ConvergenceLoop K) (sys : CoupledSystem σ K) (clock : Nat → Duration)
    (s : σ × Store K) : Except ModelError (LoopReport K) × σ × Store K :=
  runFrom l sys clock (sys.monitored s.1) l.maxIterations 1 [] s

end ConvergenceLoop

end CoupledModels
