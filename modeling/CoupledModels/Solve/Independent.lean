import CoupledModels.Solve.Backend
import CoupledModels.Problem.SubProblem
import CoupledModels.Catalog.Data

/-!
# Solving sub-problems one by one

Every unsolved sub-problem is lowered and given to a backend; then the answers are applied, in the
order of the sub-problems.  All lowering comes before the first answer is applied.  What goes wrong
with one sub-problem is recorded in its status and does not touch the others.
-/

namespace CoupledModels.Solve

variable {σ K : Type} [Scalar K] [Transcendental K]

/-- A sub-problem on its way through a solve: with a linear problem if it is to be solved. -/
structure Job (K : Type) where
  problem : SubProblem K
  linear : Option (LinearProblem K)

/-- Starts an unsolved sub-problem and lowers it; any other one is left alone. -/
def prepare (c : Catalog K) (p : SubProblem K) : Job K :=
  match p.begin? with
  | none => ⟨p, none⟩
  | some p =>
      match p.lower c with
      | .ok l => ⟨p, some l⟩
      | .error e => ⟨p.finish (.solverError e.message), none⟩

omit [Transcendental K] in
/-- The status that an answer leads to. -/
def statusOf (l : LinearProblem K) (answer : Except ModelError (Solution K)) : Status :=
  match answer with
  | .error e => .solverError e.message
  | .ok s =>
      match s.status with
      | .optimal =>
          if s.values.length = l.columnCount then .optimal
          else .solverError
            s!"backend returned {s.values.length} values for {l.columnCount} columns"
      | .infeasible => .infeasible
      | .unbounded => .unbounded
      | .error detail => .solverError detail

omit [Transcendental K] in
/-- The catalog after an answer: a solution of the right length is recorded. -/
def record (c : Catalog K) (l : LinearProblem K) (answer : Except ModelError (Solution K)) :
    Catalog K :=
  match answer with
  | .ok s => if statusOf l answer = .optimal then c.setValues l.columns s.values else c
  | .error _ => c

omit [Scalar K] [Transcendental K] in
/-- The answers to the jobs that have a linear problem, in order. -/
def ask (b : Backend σ K) (o : SolveOptions) :
    List (Job K) → σ → List (Job K × Option (LinearProblem K × Except ModelError (Solution K))) × σ
  | [], s => ([], s)
  | j :: rest, s =>
      match j.linear with
      | none =>
          let (answers, s) := ask b o rest s
          ((j, none) :: answers, s)
      | some l =>
          let (r, s) := b.solve l o s
          let (answers, s) := ask b o rest s
          ((j, some (l, r)) :: answers, s)

omit [Transcendental K] in
/-- Applies answers, in order. -/
def apply : List (Job K × Option (LinearProblem K × Except ModelError (Solution K))) → Catalog K →
    List (SubProblem K) × Catalog K
  | [], c => ([], c)
  | (j, none) :: rest, c =>
      let (ps, c) := apply rest c
      (j.problem :: ps, c)
  | (j, some (l, answer)) :: rest, c =>
      let (ps, c) := apply rest (record c l answer)
      (j.problem.finish (statusOf l answer) :: ps, c)

/-- Solves every unsolved sub-problem. -/
def independent (b : Backend σ K) (o : SolveOptions) (ps : List (SubProblem K)) (c : Catalog K)
    (s : σ) : List (SubProblem K) × Catalog K × σ :=
  let (answers, s) := ask b o (ps.map (prepare c)) s
  let (ps, c) := apply answers c
  (ps, c, s)

end CoupledModels.Solve
