import CoupledModels.Proofs.Affine.Support
import CoupledModels.Proofs.Model.Ownership
import CoupledModels.Proofs.Solve.Independent

/-!
# Failures stay where they are

A solve goes through a list of sub-problems, some of which are skipped and some of which cannot be
lowered.  With a backend whose answers are a function of the problem, what becomes of a sub-problem
depends on its own problem and its own answer; a column takes its value from the last sub-problem of
the list that has been solved and contains it; and another answer to one sub-problem changes nothing
but its status and the values of its own columns.
-/

namespace CoupledModels

variable {σ K : Type}

variable [Scalar K] [Transcendental K]

section Lookup

variable {α β : Type}

end Lookup

namespace Solve

/-- The linear problem that the backend is asked about, if the sub-problem is unsolved and can be
lowered. -/
def asked? (c : Catalog K) (p : SubProblem K) : Option (LinearProblem K) :=
  if p.status = .unsolved then (p.lower c).toOption else none

variable {b : Backend σ K} {o : SolveOptions} {c : Catalog K} {ps : List (SubProblem K)}
  {p : SubProblem K} {l : LinearProblem K} {r : Except ModelError (Solution K)} {s : σ}
  {f : LinearProblem K → Except ModelError (Solution K)}

/-! ## One sub-problem -/

theorem linear_prepare (c : Catalog K) (p : SubProblem K) : (prepare c p).linear = asked? c p := by
  unfold asked?
  by_cases hp : p.status = .unsolved
  · rw [if_pos hp]
    cases hlower : p.lower c with
    | ok l => rw [prepare_of_lower hp hlower, Except.toOption]
    | error e => rw [prepare_of_error hp hlower, Except.toOption]
  · rw [if_neg hp, prepare_of_begun hp]

theorem lower_of_asked? (h : asked? c p = some l) : p.lower c = .ok l := by
  unfold asked? at h
  split at h
  · cases hlower : p.lower c with
    | error e => simp [hlower, Except.toOption] at h
    | ok l' =>
        rw [hlower] at h
        exact congrArg Except.ok (Option.some.inj h)
  · cases h

/-! ## Backends that are functions of the problem -/

section Ask

omit [Scalar K] [Transcendental K]

variable {j : Job K} {jobs : List (Job K)}

end Ask

/-- No column of a linear problem is outside a built catalog. -/
theorem columns_lt_of_lower {tables : List TableDeclaration} {sets : Registry} {b₀ : Catalog K}
    (hbuild : Catalog.build tables sets = .ok b₀) (hlater : b₀.Later c) (hl : p.lower c = .ok l) :
    ∀ column ∈ l.columns, 0 < column ∧ column < c.values.size := by
  have hconsistent := Catalog.consistent_of_build hbuild hlater
  have hnumbered := Catalog.numbered_of_build hbuild hlater
  refine SubProblem.forall_columns_of_lower (fun e _ => ?_) hl
  refine Typed.outcome_lower_names e fun id _ b hb i columns hvalue column hcolumn => ?_
  obtain ⟨v, -, hbinds⟩ := hconsistent.bound b (Array.mem_of_getElem? hb)
  obtain ⟨block, hblock, -, -, hcolumns⟩ := hbinds.exists_block hvalue
  exact hnumbered.column_lt hblock (hcolumns column hcolumn)

end Solve

/-! ## Stocks of two regions -/

namespace Catalog.Stocks

open Purchases Solve

/-- Gives every column its own number. -/
def numberOf (l : LinearProblem Rat) : Except ModelError (Solution Rat) :=
  .ok ⟨.optimal, l.columns.map Nat.cast, none⟩

/-- The backend that gives every column its own number. -/
def numbers : Backend Unit Rat :=
  .ofFunction "numbers" fun l _ => numberOf l

end Catalog.Stocks

end CoupledModels
