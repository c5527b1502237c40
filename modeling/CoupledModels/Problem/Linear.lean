import CoupledModels.Formula.Typed
import CoupledModels.Affine.Arithmetic
import CoupledModels.Catalog.Basic

/-!
# Linear problems

The flat form that is handed to a solver: minimize or maximize `c x + c0` such that every row of
`A x` lies between its bounds.  Columns are numbered anew from zero, in the ascending order of the
decision columns that occur.  The rows of `A` are stored one after the other, with pointers to where
each one starts.
-/

namespace CoupledModels

/-- A linear, or mixed integer linear, problem. -/
structure LinearProblem (K : Type) where
  name : String
  sense : Sense
  /-- The decision column of each local column, ascending. -/
  columns : List Nat
  integer : List Bool
  /-- The coefficient of each column in the objective. -/
  c : List K
  /-- The constant term of the objective. -/
  c0 : K
  ptr : List Nat
  subj : List Nat
  cof : List K
  /-- Lower bounds; `none` where there is none. -/
  lb : List (Option K)
  /-- Upper bounds; `none` where there is none. -/
  ub : List (Option K)
deriving DecidableEq, Repr

/-- A row of a linear problem: local columns with coefficients, and bounds. -/
structure LinearRow (K : Type) where
  terms : List (Term K)
  lb : Option K
  ub : Option K
deriving DecidableEq, Repr

namespace LinearProblem

variable {K : Type} [Scalar K]

/-- The sum of the constant terms among terms. -/
def constantPart (ts : List (Term K)) : K :=
  ts.foldl (fun k t => if t.1 = Affine.constantTerm then k + t.2 else k) 0

/-- The terms of decision columns, renumbered to local columns. -/
def variablePart (columns : List Nat) (ts : List (Term K)) : List (Term K) :=
  ts.filterMap fun t =>
    if t.1 = Affine.constantTerm then none
    else (columns.idxOf? t.1).map fun j => (j, t.2)

/-- The row that says how an affine form relates to zero: its constant term goes to the other
side. -/
def rowOf (columns : List Nat) (rel : Relation) (ts : List (Term K)) : LinearRow K :=
  let bound := -constantPart ts
  { terms := variablePart columns ts
    lb := if rel = .le then none else some bound
    ub := if rel = .ge then none else some bound }

/-- The objective coefficients of the local columns. -/
def coefficients (columns : List Nat) (ts : List (Term K)) : List K :=
  ((variablePart columns ts).foldl
    (fun (c : Array K) t => c.setIfInBounds t.1 (c.getD t.1 0 + t.2))
    (Array.replicate columns.length 0)).toList

/-- The problem of an objective, which must be a single form, and of constraints that relate
expressions to zero. -/
def ofParts (name : String) (sense : Sense) (objective : Affine K)
    (constraints : List (Affine K × Relation)) (catalog : Catalog K) :
    Except ModelError (LinearProblem K) :=
  if !objective.isScalar then .error (.expression (.objectiveShape name objective.shape))
  else
    let columns := Affine.sortedDistinct
      (objective.support ++ constraints.flatMap fun (e, _) => e.support)
    let target := objective.elements.headD []
    let rows := constraints.flatMap fun (e, rel) => e.elements.map (rowOf columns rel)
    .ok
      { name := name
        sense := sense
        columns := columns
        integer := columns.map catalog.isInteger
        c := coefficients columns target
        c0 := constantPart target
        ptr := Affine.starts 0 (rows.map fun r => r.terms.length)
        subj := rows.flatMap fun r => r.terms.map (·.1)
        cof := rows.flatMap fun r => r.terms.map (·.2)
        lb := rows.map (·.lb)
        ub := rows.map (·.ub) }

omit [Scalar K] in
/-- Number of local columns. -/
def columnCount (p : LinearProblem K) : Nat :=
  p.columns.length

omit [Scalar K] in
/-- Number of rows. -/
def rowCount (p : LinearProblem K) : Nat :=
  p.lb.length

omit [Scalar K] in
/-- The rows. -/
def rows (p : LinearProblem K) : List (LinearRow K) :=
  let ts := (p.subj.zip p.cof).toArray
  ((p.ptr.zip p.ptr.tail).zip (p.lb.zip p.ub)).map fun ((a, b), (l, u)) =>
    ⟨(ts.extract a b).toList, l, u⟩

/-- The objective at values of the local columns. -/
def objectiveValue (p : LinearProblem K) (x : List K) : K :=
  p.c0 + Scalar.sum (List.zipWith (· * ·) p.c x)

/-- How far a row is from its bounds at values of the local columns. -/
def violation (r : LinearRow K) (x : Array K) : K :=
  let v := Scalar.sum (r.terms.map fun t => t.2 * x.getD t.1 0)
  match r.lb, r.ub with
  | some l, some u => Scalar.max (Scalar.max (l - v) (v - u)) 0
  | some l, none => Scalar.max (l - v) 0
  | none, some u => Scalar.max (v - u) 0
  | none, none => 0

/-- The largest violation of any row. -/
def maxViolation (p : LinearProblem K) (x : List K) : K :=
  let xs := x.toArray
  p.rows.foldl (fun m r => Scalar.max m (violation r xs)) 0

end LinearProblem

end CoupledModels
