import CoupledModels.Problem.Overflow
import CoupledModels.Model.Run

/-!
# Runs that overflow

A shift that overflows ends the program, so a run gives nothing if it comes to one: in its only
solve, or in that of any iteration.  `solve?` is `solve` with an eye on the shifts; it goes on after
an overflow, but makes a note of it, and `none` stands for a program that has ended.
-/

namespace CoupledModels

variable {σ K : Type}

/-- The system with a note of whether it was ever to solve a state that fails a test. -/
def CoupledSystem.noting (sys : CoupledSystem σ K) (fails : σ → Bool) :
    CoupledSystem (σ × Bool) K where
  refresh store s :=
    let (r, t) := sys.refresh store s.1
    (r, t, s.2)
  reset s := (sys.reset s.1, s.2)
  solveAll s :=
    let (r, t) := sys.solveAll s.1
    (r, t, s.2 || fails s.1)
  push store s :=
    let (r, store, t) := sys.push store s.1
    (r, store, t, s.2)
  monitored s := sys.monitored s.1

variable [Scalar K] [Transcendental K]

/-- True if solving the sub-problems comes to a shift that overflows.  Those that are not unsolved
are not lowered. -/
def Solve.overflows (ps : List (SubProblem K)) (c : Catalog K) : Bool :=
  ps.any fun p => decide (p.status = .unsolved) && p.overflows c

namespace Model

/-- True if solving the model comes to a shift that overflows. -/
def overflows (m : Model K) : Bool :=
  Solve.overflows m.problems.all m.catalog

/-- Iterates the sub-problems of a run. -/
def runIntegrated? (b : Backend σ K) (settings : Settings K) (o : SolveOptions)
    (clock : Nat → Duration) (s : RunState σ K) :
    Option (Except ModelError (RunReport K) × RunState σ K) :=
  match settings.convergenceLoop? with
  | none => some (.error (limitError "iteration_timeout_secs"), s)
  | some l =>
      let sys := (coupled b o settings.roundDigits).noting fun t => t.1.overflows
      let (r, ((m, memory), overflown), store) :=
        l.run sys clock (((s.model, s.backend), false), s.store)
      if overflown then none
      else some (r.map fun report => ⟨m.statuses, some report⟩, ⟨m, store, memory⟩)

/-- Solves the sub-problems of a run once and writes the results. -/
def runOnce? (b : Backend σ K) (settings : Settings K) (o : SolveOptions) (s : RunState σ K) :
    Option (Except ModelError (RunReport K) × RunState σ K) :=
  if s.model.overflows then none else some (runOnce b settings o s)

/-- Runs a model whose sub-problems are built and whose data is loaded. -/
def runBuilt? (b : Backend σ K) (settings : Settings K) (clock : Nat → Duration)
    (s : RunState σ K) : Option (Except ModelError (RunReport K) × RunState σ K) :=
  match settings.solveOptions? with
  | none => some (.error (limitError "solve_deadline_secs"), s)
  | some o =>
      if settings.integrated then runIntegrated? b settings o clock s else runOnce? b settings o s

/-- Checks the settings, builds, loads and runs. -/
def solve? (b : Backend σ K) (settings : Settings K) (policy : BuildPolicy)
    (clock : Nat → Duration) (s : RunState σ K) :
    Option (Except ModelError (RunReport K) × RunState σ K) :=
  match settings.validate with
  | .error e => some (.error (.configuration e), s)
  | .ok _ =>
      match s.model.build policy with
      | (.error e, m) => some (.error e, { s with model := m })
      | (.ok _, m) =>
          match m.loadExogenous s.store with
          | (.error e, m) => some (.error e, { s with model := m })
          | (.ok _, m) => runBuilt? b settings clock { s with model := m }

end Model

end CoupledModels
