import CoupledModels.Proofs.Problem.Linear
import CoupledModels.Proofs.Problem.Typing

/-!
# Linear problems of sub-problems

A sub-problem hands its linear problem nothing but differences, so the rows are in normal form.
Whatever well-formed expressions a linear problem is made of, it represents them.
-/

namespace CoupledModels

namespace SubProblem

variable [Transcendental Rat] {p : SubProblem Rat} {d : Catalog Rat} {lp : LinearProblem Rat}

/-- The left side of a lowered constraint is a difference, which is in normal form. -/
theorem outcome_lowerConstraint_normal (k : Constraint Rat) :
    Outcome (fun r : Affine Rat × Relation => ∀ ts ∈ r.1.elements, Affine.NormalTerms ts) AnyError
      (lowerConstraint d k) := by
  unfold lowerConstraint
  refine Outcome.bind_any fun l => Outcome.bind_any fun r => ?_
  cases hsub : l.sub r with
  | error err => trivial
  | ok e => exact Affine.normalTerms_of_sub hsub

/-- The rows of a sub-problem's linear problem are in normal form. -/
theorem normalRow_of_lower (h : p.lower d = .ok lp) :
    ∀ r ∈ lp.rows, LinearProblem.NormalRow r := by
  refine Outcome.value (E := AnyError)
    (P := fun lp : LinearProblem Rat => ∀ r ∈ lp.rows, LinearProblem.NormalRow r) ?_ h
  unfold lower
  refine Outcome.bind_any fun objective => ?_
  refine (Outcome.mapM_forall fun k _ => outcome_lowerConstraint_normal k).bind
    fun constraints hconstraints => Outcome.of_forall fun lp hlp r hr => ?_
  rw [LinearProblem.rows_of_ofParts hlp] at hr
  obtain ⟨form, hform, rfl⟩ := List.mem_map.mp hr
  obtain ⟨c, hc, hform⟩ := List.mem_flatMap.mp hform
  obtain ⟨ts, hts, rfl⟩ := List.mem_map.mp hform
  exact LinearProblem.normalRow_rowOf (Affine.pairwise_sortedDistinct _) _
    (hconstraints c hc ts hts)

end SubProblem

/-- A linear problem is made of every single form and all constraints whose stored form starts at
the first term, and it represents them.  The rows of those that sub-problems are lowered to are in
normal form. -/
theorem linearProblem_represents [Transcendental Rat] :
    (∀ (name : String) (sense : Sense) (catalog : Catalog Rat) (objective : Affine Rat)
      (constraints : List (Affine Rat × Relation)),
      objective.isScalar = true →
      (∀ e ∈ objective :: constraints.map (·.1),
        Affine.ofStored e.shape e.ptr e.subj e.cof = .ok e ∧ e.ptr.head? = some 0) →
      ∃ p, LinearProblem.ofParts name sense objective constraints catalog = .ok p ∧
        p.Represents objective constraints) ∧
    (∀ (p : SubProblem Rat) (d : Catalog Rat) (lp : LinearProblem Rat), p.lower d = .ok lp →
      ∀ r ∈ lp.rows, (r.terms.map (·.1)).Pairwise (· < ·) ∧ ∀ t ∈ r.terms, t.2 ≠ 0) := by
  constructor
  · intro name sense catalog objective constraints hscalar hstored
    have hwellFormed : ∀ e ∈ objective :: constraints.map (·.1), e.WellFormed := fun e he =>
      Affine.wellFormed_of_ofStored (hstored e he).1 (hstored e he).2
    obtain ⟨p, hp⟩ : ∃ p, LinearProblem.ofParts name sense objective constraints catalog = .ok p :=
      LinearProblem.exists_ofParts name sense catalog hscalar
    refine ⟨p, hp, LinearProblem.represents_of_ofParts (hwellFormed _ List.mem_cons_self) hscalar
      (fun c hc => ?_) hp⟩
    exact hwellFormed _ (List.mem_cons_of_mem _ (List.mem_map_of_mem hc))
  · intro p d lp h r hr
    have hnormal := SubProblem.normalRow_of_lower h r hr
    exact ⟨hnormal.ascending, hnormal.nonzero⟩

namespace Catalog.Purchases

/-- How much is bought of the first item. -/
def firstAmount : Affine Rat :=
  ⟨.scalar, [0, 1], [1], [1]⟩

/-- Twice as much of the first item, less three. -/
def doubled : Affine Rat :=
  ⟨.scalar, [0, 2], [1, 0], [2, -3]⟩

theorem isSome_lower_spending : (spending.lower priced).toOption.isSome = true := by
  decide +kernel

theorem linearProblem_represents_purchases :
    (∃ p, LinearProblem.ofParts "shop" .minimize firstAmount [(doubled, .ge)] priced = .ok p ∧
      p.Represents firstAmount [(doubled, .ge)]) ∧
    ∃ lp, spending.lower priced = .ok lp ∧
      ∀ r ∈ lp.rows, (r.terms.map (·.1)).Pairwise (· < ·) ∧ ∀ t ∈ r.terms, t.2 ≠ 0 := by
  obtain ⟨hparts, hnormal⟩ := linearProblem_represents
  constructor
  · refine hparts "shop" .minimize priced firstAmount [(doubled, .ge)] rfl ?_
    simp only [List.map_cons, List.map_nil, List.forall_mem_cons]
    exact ⟨by decide +kernel, by decide +kernel, by simp⟩
  · have hsome := isSome_lower_spending
    cases hlower : spending.lower priced with
    | error e => simp [hlower, Except.toOption] at hsome
    | ok lp => exact ⟨lp, rfl, hnormal spending priced lp hlower⟩

end Catalog.Purchases

end CoupledModels
