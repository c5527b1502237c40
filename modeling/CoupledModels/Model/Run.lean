import CoupledModels.Model.Basic
import CoupledModels.Solve.Independent
import CoupledModels.Solve.Settings

/-!
# Runs

A run builds the sub-problems, loads exogenous data, and solves: once, with the results written to
the store afterwards, or again and again until the store reaches a fixed point.

A run changes the model, the store and the memory of the backend; what it did before it failed
remains.
-/

namespace CoupledModels

/-- Everything that a run changes. -/
structure RunState (σ K : Type) where
  model : Model K
  store : Store K
  backend : σ

/-- What a run has achieved. -/
structure RunReport (K : Type) where
  statuses : List ProblemStatus
  /-- The course of the iteration, if there was one. -/
  convergence : Option (LoopReport K)

namespace RunReport

variable {K : Type}

/-- True if every sub-problem was solved. -/
def allOptimal (r : RunReport K) : Bool :=
  r.statuses.all fun s => s.status.isOptimal

/-- The sub-problems that were not solved. -/
def failed (r : RunReport K) : List ProblemStatus :=
  r.statuses.filter fun s => !s.status.isOptimal

end RunReport

namespace Model

variable {σ K : Type} [Scalar K] [Transcendental K]

/-- Solves every unsolved sub-problem and records the solutions. -/
def solveOnce (b : Backend σ K) (o : SolveOptions) (m : Model K) (memory : σ) : Model K × σ :=
  let (ps, catalog, memory) := Solve.independent b o m.problems.all m.catalog memory
  ({ m with catalog := catalog, problems := m.problems.refill ps }, memory)

/-- The model as a system that is iterated; its state is the model and the backend's memory. -/
def coupled (b : Backend σ K) (o : SolveOptions) (digits : UInt32) :
    CoupledSystem (Model K × σ) K where
  refresh store s :=
    let (r, m) := s.1.loadExogenous store
    (r, m, s.2)
  reset s := (s.1.requestResolve, s.2)
  solveAll s := (.ok (), solveOnce b o s.1 s.2)
  push store s :=
    let (r, store) := s.1.pushEndogenous digits store
    (r, store, s)
  monitored s := s.1.catalog.endogenousTables

/-- A limit that is no duration. -/
def limitError (setting : String) : ModelError :=
  .configuration (.limitRange setting)

/-- Iterates the sub-problems of a run. -/
def runIntegrated (b : Backend σ K) (settings : Settings K) (o : SolveOptions)
    (clock : Nat → Duration) (s : RunState σ K) :
    Except ModelError (RunReport K) × RunState σ K :=
  match settings.convergenceLoop? with
  | none => (.error (limitError "iteration_timeout_secs"), s)
  | some l =>
      let (r, (m, memory), store) :=
        l.run (coupled b o settings.roundDigits) clock ((s.model, s.backend), s.store)
      (r.map fun report => ⟨m.statuses, some report⟩, ⟨m, store, memory⟩)

/-- Solves the sub-problems of a run once and writes the results. -/
def runOnce (b : Backend σ K) (settings : Settings K) (o : SolveOptions) (s : RunState σ K) :
    Except ModelError (RunReport K) × RunState σ K :=
  let (m, memory) := solveOnce b o s.model s.backend
  let (r, store) := m.pushEndogenous settings.roundDigits s.store
  (r.map fun _ => ⟨m.statuses, none⟩, ⟨m, store, memory⟩)

/-- Runs a model whose sub-problems are built and whose data is loaded. -/
def runBuilt (b : Backend σ K) (settings : Settings K) (clock : Nat → Duration)
    (s : RunState σ K) : Except ModelError (RunReport K) × RunState σ K :=
  match settings.solveOptions? with
  | none => (.error (limitError "solve_deadline_secs"), s)
  | some o =>
      if settings.integrated then runIntegrated b settings o clock s else runOnce b settings o s

/-- Checks the settings, builds, loads and runs.  The clock says how long each iteration takes. -/
def solve (b : Backend σ K) (settings : Settings K) (policy : BuildPolicy)
    (clock : Nat → Duration) (s : RunState σ K) :
    Except ModelError (RunReport K) × RunState σ K :=
  match settings.validate with
  | .error e => (.error (.configuration e), s)
  | .ok _ =>
      match s.model.build policy with
      | (.error e, m) => (.error e, { s with model := m })
      | (.ok _, m) =>
          match m.loadExogenous s.store with
          | (.error e, m) => (.error e, { s with model := m })
          | (.ok _, m) => runBuilt b settings clock { s with model := m }

end Model

end CoupledModels
