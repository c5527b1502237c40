import CoupledModels.Solve.Independent
import CoupledModels.Proofs.Catalog.Values

/-!
# One solve of all sub-problems

A solve lowers every unsolved sub-problem, asks the backend for each linear problem, and settles each
sub-problem with its answer.  What a sub-problem is lowered to depends on the data of the catalog and
not on its solution values, so the jobs of a solve stay the same when nothing but values changes.
-/

namespace CoupledModels

variable {σ K : Type} [Scalar K] [Transcendental K]

/-! ## Lowering -/

namespace Typed

/-- Formulas see a catalog through the expressions of its bindings. -/
theorem lower_congr {c d : Catalog K} (h : ∀ id, lowerBinding c id = lowerBinding d id)
    (e : Typed K) : e.lower c = e.lower d := by
  induction e with
  | number v => rfl
  | data m => rfl
  | binding type id => exact h id
  | negate type e ih | transpose type e ih | diagonal type e ih | shift type e k ih
  | power type e p ih | inverse type e ih => simp only [lower, ih]
  | add type l r ihl ihr | sub type l r ihl ihr | scale type l r ihl ihr
  | elementwise type l r ihl ihr | matmul type l r ihl ihr | weibull type l r n dims ihl ihr =>
      simp only [lower, ihl, ihr]
  | sum type e axis ih => cases axis <;> simp only [lower, ih]

end Typed

namespace SubProblem

variable {p : SubProblem K} {c : Catalog K}

/-- Solution values do not matter to a linear problem. -/
theorem lower_withValues (p : SubProblem K) (c : Catalog K) (vs : Array (Option K)) :
    p.lower (c.withValues vs) = p.lower c := by
  have hlower : ∀ e : Typed K, e.lower (c.withValues vs) = e.lower c :=
    Typed.lower_congr fun _ => rfl
  have hobjective : p.lowerObjective (c.withValues vs) = p.lowerObjective c := by
    simp only [lowerObjective, hlower]
  have hconstraint : lowerConstraint (c.withValues vs) = lowerConstraint c := by
    funext k
    simp only [lowerConstraint, hlower]
  unfold lower
  rw [hobjective, hconstraint]
  rfl

/-- The status does not matter to a linear problem. -/
theorem lower_finish (p : SubProblem K) (s : Status) (c : Catalog K) :
    (p.finish s).lower c = p.lower c := rfl

end SubProblem

namespace Solve

variable {c : Catalog K} {p : SubProblem K}

theorem prepare_withValues (c : Catalog K) (vs : Array (Option K)) :
    prepare (c.withValues vs) = prepare c := by
  funext p
  unfold prepare
  cases p.begin? with
  | none => rfl
  | some p => simp only [SubProblem.lower_withValues]

/-- A sub-problem that is not to be solved is left alone. -/
theorem prepare_of_begun (h : p.status ≠ .unsolved) : prepare c p = ⟨p, none⟩ := by
  have hbegin : p.begin? = none := if_neg h
  simp only [prepare, hbegin]

theorem prepare_of_lower {l : LinearProblem K} (hp : p.status = .unsolved)
    (h : p.lower c = .ok l) : prepare c p = ⟨p.finish .solving, some l⟩ := by
  have hbegin : p.begin? = some (p.finish .solving) := if_pos hp
  simp only [prepare, hbegin, SubProblem.lower_finish, h]

theorem prepare_of_error {e : ModelError} (hp : p.status = .unsolved) (h : p.lower c = .error e) :
    prepare c p = ⟨p.finish (.solverError e.message), none⟩ := by
  have hbegin : p.begin? = some (p.finish .solving) := if_pos hp
  simp only [prepare, hbegin, SubProblem.lower_finish, h]
  rfl

/-! ## Answers -/

/-- A job with the linear problem that was handed out for it and the answer. -/
abbrev Answered (K : Type) :=
  Job K × Option (LinearProblem K × Except ModelError (Solution K))

namespace Answered

omit [Transcendental K] in
/-- The assignments that an answer leads to. -/
def assignments (a : Answered K) : List (Nat × K) :=
  match a.2 with
  | some (l, .ok s) => if statusOf l (.ok s) = .optimal then l.columns.zip s.values else []
  | _ => []

omit [Transcendental K] in
/-- The sub-problem once its answer has been applied. -/
def settled (a : Answered K) : SubProblem K :=
  match a.2 with
  | none => a.1.problem
  | some (l, r) => a.1.problem.finish (statusOf l r)

end Answered

omit [Scalar K] [Transcendental K] in
theorem record_eq (c : Catalog K) (j : Job K) (l : LinearProblem K)
    (r : Except ModelError (Solution K)) :
    record c l r = c.withValues (assign c.values (Answered.assignments (j, some (l, r)))) := by
  cases r with
  | error e => rfl
  | ok s =>
      unfold record Answered.assignments
      dsimp only
      split
      · exact Catalog.setValues_eq c l.columns s.values
      · rfl

omit [Scalar K] [Transcendental K] in
/-- Answers settle their sub-problems one by one, and make their assignments in order. -/
theorem apply_eq (answers : List (Answered K)) (c : Catalog K) :
    apply answers c = (answers.map Answered.settled,
      c.withValues (assign c.values (answers.flatMap Answered.assignments))) := by
  induction answers generalizing c with
  | nil => rfl
  | cons a answers ih =>
      obtain ⟨j, _ | ⟨l, r⟩⟩ := a
      · simp only [apply, ih]
        rfl
      · simp only [apply, ih, record_eq c j, List.flatMap_cons, assign_append]
        rfl

omit [Scalar K] [Transcendental K] in
/-- Every job is answered in its place, with an answer to its own linear problem. -/
theorem forall₂_ask (b : Backend σ K) (o : SolveOptions) (jobs : List (Job K)) (s : σ) :
    List.Forall₂ (fun j (a : Answered K) => a.1 = j ∧ a.2.map Prod.fst = j.linear) jobs
      (ask b o jobs s).1 := by
  induction jobs generalizing s with
  | nil => exact List.Forall₂.nil
  | cons j jobs ih =>
      unfold ask
      cases hlinear : j.linear with
      | none => exact List.Forall₂.cons ⟨rfl, hlinear.symm⟩ (ih s)
      | some l => exact List.Forall₂.cons ⟨rfl, hlinear.symm⟩ (ih _)

omit [Scalar K] [Transcendental K] in
/-- A backend whose answers depend on the problem only answers each job on its own. -/
theorem ask_of_function {b : Backend σ K} {o : SolveOptions}
    {f : LinearProblem K → Except ModelError (Solution K)} (hf : ∀ l s, (b.solve l o s).1 = f l)
    (jobs : List (Job K)) (s : σ) :
    (ask b o jobs s).1 = jobs.map fun j => (j, j.linear.map fun l => (l, f l)) := by
  induction jobs generalizing s with
  | nil => rfl
  | cons j jobs ih =>
      unfold ask
      cases hlinear : j.linear with
      | none => simp [hlinear, ih]
      | some l => simp [hlinear, ih, hf]

/-- What becomes of an unsolved sub-problem: nothing but its status changes, and its columns are
assigned values if and only if it has been solved. -/
structure Settles (c : Catalog K) (p : SubProblem K) (a : Answered K) : Prop where
  settled : a.settled = p.finish a.settled.status
  columns : ∀ column, column ∈ a.assignments.map Prod.fst ↔
    a.settled.status = .optimal ∧ ∃ l, p.lower c = .ok l ∧ column ∈ l.columns

omit [Scalar K] [Transcendental K] in
/-- A solved problem has a value for each of its columns. -/
theorem length_of_statusOf {l : LinearProblem K} {s : Solution K}
    (h : statusOf l (.ok s) = .optimal) : s.values.length = l.columns.length := by
  unfold statusOf at h
  cases hs : s.status <;> simp only [hs, reduceCtorEq] at h
  split at h
  · assumption
  · cases h

theorem settles_of_answer (hp : p.status = .unsolved) {a : Answered K} (hjob : a.1 = prepare c p)
    (hlinear : a.2.map Prod.fst = (prepare c p).linear) : Settles c p a := by
  obtain ⟨j, answer⟩ := a
  obtain rfl : j = prepare c p := hjob
  cases hlower : p.lower c with
  | error e =>
      rw [prepare_of_error hp hlower] at hlinear ⊢
      obtain rfl : answer = none := by simpa using hlinear
      exact ⟨rfl, fun column => by simp [Answered.assignments, Answered.settled, SubProblem.finish]⟩
  | ok l =>
      rw [prepare_of_lower hp hlower] at hlinear ⊢
      obtain ⟨⟨l', r⟩, rfl, rfl⟩ := Option.map_eq_some_iff.mp hlinear
      refine ⟨rfl, fun column => ?_⟩
      simp only [hlower, Except.ok.injEq, exists_eq_left', Answered.settled, SubProblem.finish]
      cases r with
      | error e => simp [Answered.assignments, statusOf]
      | ok s =>
          by_cases hstatus : statusOf l' (.ok s) = .optimal
          · have hlength := length_of_statusOf hstatus
            simp [Answered.assignments, hstatus, List.map_fst_zip (Nat.le_of_eq hlength.symm)]
          · simp [Answered.assignments, hstatus]

/-- A solve settles every unsolved sub-problem. -/
theorem forall₂_settles (b : Backend σ K) (o : SolveOptions) {ps : List (SubProblem K)}
    (h : ∀ p ∈ ps, p.status = .unsolved) (s : σ) :
    List.Forall₂ (Settles c) ps (ask b o (ps.map (prepare c)) s).1 := by
  have hask := List.forall₂_map_left_iff.mp (forall₂_ask b o (ps.map (prepare c)) s)
  generalize (ask b o (ps.map (prepare c)) s).1 = answers at hask ⊢
  induction hask with
  | nil => exact List.Forall₂.nil
  | cons hanswer _ ih =>
      obtain ⟨hp, hps⟩ := List.forall_mem_cons.mp h
      exact List.Forall₂.cons (settles_of_answer hp hanswer.1 hanswer.2) (ih hps)

end Solve

end CoupledModels
