import CoupledModels.Model.Basic
import CoupledModels.Proofs.Formula.Names
import CoupledModels.Proofs.Problem.Typing

/-!
# Trees of sub-problems

Every tree of a sub-problem has been compiled for its key, and the columns of its linear problem are
those of the bindings that the trees name.
-/

namespace CoupledModels

variable {K : Type} [Scalar K] [Transcendental K]

/-- A tree is part of what some text has been compiled to for a key. -/
def Typed.CompiledFor (c : Catalog K) (key : ProblemKey) (e : Typed K) : Prop :=
  ∃ text instances, Formula.compile c text key = .ok instances ∧
    ∃ i ∈ instances, e ∈ i.form.trees

/-! ## Building -/

namespace SubProblems

variable {c : Catalog K} {key : ProblemKey}

theorem outcome_constraintsOf_trees (c : Catalog K) (key : ProblemKey) (text : String) :
    Outcome (fun ks => ∀ k ∈ ks, k.left.CompiledFor c key ∧ k.right.CompiledFor c key) AnyError
      (constraintsOf c key text) := by
  unfold constraintsOf
  refine Outcome.bind_ok fun instances hinstances => ?_
  refine Outcome.mapM_forall fun i hi => ?_
  split
  · rename_i l rel r hform
    have htrees : ∀ e ∈ [l, r], e.CompiledFor c key := fun e he =>
      ⟨text, instances, hinstances, i, hi, by rwa [hform]⟩
    exact ⟨htrees l (by simp), htrees r (by simp)⟩
  · trivial

theorem outcome_addObjective_trees {o : Objective K} (ho : ∀ e ∈ o.terms, e.CompiledFor c key)
    (text : String) :
    Outcome (fun o => ∀ e ∈ o.terms, e.CompiledFor c key) AnyError
      (addObjective c key o text) := by
  unfold addObjective
  refine Outcome.bind_ok fun instances hinstances => ?_
  refine Outcome.foldlM ho fun o ho i hi => ?_
  unfold addInstance
  split
  · rename_i sense e hform
    split
    · intro e' he'
      rcases List.mem_append.mp he' with he' | he'
      · exact ho e' he'
      · exact ⟨text, instances, hinstances, i, hi, by rwa [hform]⟩
    · trivial
  · trivial

theorem outcome_buildOne_trees (c : Catalog K) (name : String) (m : ModelText)
    (key : ProblemKey) :
    Outcome (fun p => p.key = key ∧ ∀ e ∈ p.trees, e.CompiledFor c key) AnyError
      (buildOne c name m key) := by
  unfold buildOne
  refine (Outcome.mapM_forall fun text _ => outcome_constraintsOf_trees c key text).bind
    fun constraints hconstraints => ?_
  refine (Outcome.foldlM (I := fun o : Objective K => ∀ e ∈ o.terms, e.CompiledFor c key)
    (by simp) fun o ho text _ => outcome_addObjective_trees ho text).bind
    fun objective hobjective => ⟨rfl, fun e he => ?_⟩
  rcases List.mem_append.mp he with he | he
  · exact hobjective e he
  · obtain ⟨k, hk, he⟩ := List.mem_flatMap.mp he
    obtain ⟨ks, hks, hk⟩ := List.mem_flatten.mp hk
    obtain ⟨hleft, hright⟩ := hconstraints ks hks k hk
    rcases List.mem_pair.mp he with rfl | rfl
    · exact hleft
    · exact hright

/-- Sub-problems belong to keys of the registry, and their trees have been compiled for these. -/
theorem compiledFor_of_buildAll {sets : Registry} {texts : SortedMap String ModelText}
    {ps : ProblemSet K} (h : buildAll c sets texts = .ok ps) :
    ∀ p ∈ ps.all, p.key ∈ sets.problemKeys ∧ ∀ e ∈ p.trees, e.CompiledFor c p.key := by
  have hone : ∀ name m, Outcome (fun ps : SubProblems K => ∀ p ∈ ps.values,
      p.key ∈ sets.problemKeys ∧ ∀ e ∈ p.trees, e.CompiledFor c p.key) AnyError
      (build c sets name m) := by
    intro name m
    unfold build
    refine (Outcome.mapM_forall (Q := fun p : SubProblem K =>
      p.key ∈ sets.problemKeys ∧ ∀ e ∈ p.trees, e.CompiledFor c p.key) fun key hkey => ?_).bind
      fun built hbuilt p hp => ?_
    · refine (outcome_buildOne_trees c name m key).imp fun p hp => ?_
      obtain ⟨rfl, htrees⟩ := hp
      exact ⟨hkey, htrees⟩
    · obtain ⟨key, hkey⟩ := SortedMap.mem_values_ofList hp
      obtain ⟨q, hq, heq⟩ := List.mem_map.mp hkey
      cases heq
      exact hbuilt _ hq
  refine Outcome.value (E := AnyError) (P := fun ps : ProblemSet K => ∀ p ∈ ps.all,
    p.key ∈ sets.problemKeys ∧ ∀ e ∈ p.trees, e.CompiledFor c p.key) ?_ h
  unfold buildAll
  refine (Outcome.mapM_forall (Q := fun entry : String × SubProblems K => ∀ p ∈ entry.2.values,
    p.key ∈ sets.problemKeys ∧ ∀ e ∈ p.trees, e.CompiledFor c p.key) fun entry _ => ?_).bind
    fun entries hentries p hp => ?_
  · exact (hone entry.1 entry.2).bind fun ps hps => hps
  · obtain ⟨one, hone, hp⟩ := List.mem_flatMap.mp hp
    obtain ⟨name, hname⟩ := SortedMap.mem_values_ofList hone
    exact hentries _ hname p hp

end SubProblems

/-! ## Lowering -/

namespace SubProblem

variable {p : SubProblem K} {c : Catalog K} {S : Nat → Prop}

theorem outcome_lowerObjective_trees
    (h : ∀ e ∈ p.trees, Outcome (Affine.VariablesIn S) AnyError (e.lower c)) :
    Outcome (Affine.VariablesIn S) AnyError (p.lowerObjective c) := by
  unfold lowerObjective
  refine Outcome.foldlM (Affine.variablesIn_scalar 0) fun sum hsum e he => ?_
  exact (h e (List.mem_append_left _ he)).bind fun a ha =>
    Typed.outcome_lift_any (hsum.addScaled ha _)

theorem outcome_lowerConstraint_trees
    (h : ∀ e ∈ p.trees, Outcome (Affine.VariablesIn S) AnyError (e.lower c)) {k : Constraint K}
    (hk : k ∈ p.constraints) :
    Outcome (fun r => r.1.VariablesIn S) AnyError (lowerConstraint c k) := by
  have hmem : ∀ e ∈ [k.left, k.right], e ∈ p.trees := fun e he =>
    List.mem_append_right _ (List.mem_flatMap.mpr ⟨k, hk, he⟩)
  unfold lowerConstraint
  refine (h _ (hmem k.left (by simp))).bind fun l hl => ?_
  refine (h _ (hmem k.right (by simp))).bind fun r hr => ?_
  exact ((hl.addScaled hr _).mapError fun _ _ => trivial).bind fun e he => he

/-- The columns of a linear problem are variables of the lowered trees. -/
theorem forall_columns_of_lower
    (h : ∀ e ∈ p.trees, Outcome (Affine.VariablesIn S) AnyError (e.lower c))
    {l : LinearProblem K} (hl : p.lower c = .ok l) : ∀ column ∈ l.columns, S column := by
  refine Outcome.value (E := AnyError)
    (P := fun l : LinearProblem K => ∀ column ∈ l.columns, S column) ?_ hl
  unfold lower
  refine (outcome_lowerObjective_trees h).bind fun objective hobjective => ?_
  refine (Outcome.mapM_forall fun k hk => outcome_lowerConstraint_trees h hk).bind
    fun constraints hconstraints => ?_
  unfold LinearProblem.ofParts
  split
  · trivial
  · intro column hcolumn
    rw [Affine.mem_sortedDistinct] at hcolumn
    rcases List.mem_append.mp hcolumn with hcolumn | hcolumn
    · exact hobjective.mem_support hcolumn
    · obtain ⟨k, hk, hcolumn⟩ := List.mem_flatMap.mp hcolumn
      exact (hconstraints k hk).mem_support hcolumn

end SubProblem

end CoupledModels
