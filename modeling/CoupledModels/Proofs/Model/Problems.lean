import CoupledModels.Model.Run
import CoupledModels.Proofs.Solve.Independent

/-!
# Sub-problems of a model

Sub-problems are kept by model and key, and a solve works on the list of all of them.  A build leaves
unsolved sub-problems only.  A solve changes the statuses of sub-problems and the solution values of
the catalog; if the backend is a function of the problem, solving again gives the same.
-/

namespace CoupledModels

variable {σ K : Type}

namespace ProblemSet

theorem all_cons (name : String) (one : SubProblems K) (rest : List (String × SubProblems K)) :
    all ⟨(name, one) :: rest⟩ = one.entries.map Prod.snd ++ all ⟨rest⟩ := rfl

theorem all_map (f : SubProblem K → SubProblem K) (ps : ProblemSet K) :
    (ps.map f).all = ps.all.map f := by
  obtain ⟨entries⟩ := ps
  induction entries with
  | nil => rfl
  | cons entry entries ih =>
      rw [all_cons, List.map_append, ← ih, List.map_map]
      refine congrArg (· ++ all (map f ⟨entries⟩)) ?_
      simp [SortedMap.mapEntries, SortedMap.values]

/-- The list of all sub-problems can be exchanged as a whole. -/
theorem all_refill {ps : ProblemSet K} {new : List (SubProblem K)}
    (h : new.length = ps.all.length) : (ps.refill new).all = new := by
  obtain ⟨entries⟩ := ps
  induction entries generalizing new with
  | nil => exact (List.length_eq_zero_iff.mp h).symm
  | cons entry entries ih =>
      obtain ⟨name, one⟩ := entry
      rw [all_cons, List.length_append, List.length_map] at h
      have htake : (new.take one.entries.length).length = one.entries.length := by
        rw [List.length_take]
        omega
      have hdrop : (new.drop one.entries.length).length =
          (all ⟨entries⟩ : List (SubProblem K)).length := by
        rw [List.length_drop]
        omega
      have hone : (refillOne one (new.take one.entries.length)).entries.map Prod.snd =
          new.take one.entries.length := by
        rw [refillOne, List.map_zipWith, ← List.map_uncurry_zip_eq_zipWith]
        exact List.map_snd_zip (Nat.le_of_eq htake)
      calc all (refill ⟨(name, one) :: entries⟩ new)
          = (refillOne one (new.take one.entries.length)).entries.map Prod.snd ++
              all (refill ⟨entries⟩ (new.drop one.entries.length)) := all_cons ..
        _ = new := by rw [hone, ih hdrop, List.take_append_drop]

/-- Exchanging every sub-problem for a function of itself changes each in its place. -/
theorem refill_map (f : SubProblem K → SubProblem K) (ps : ProblemSet K) :
    ps.refill (ps.all.map f) = ps.map f := by
  obtain ⟨entries⟩ := ps
  have hentries : ∀ entries : List (String × SubProblems K),
      refillEntries entries ((all ⟨entries⟩).map f) = SortedMap.entries (map f ⟨entries⟩) := by
    intro entries
    induction entries with
    | nil => rfl
    | cons entry entries ih =>
        obtain ⟨name, ⟨one⟩⟩ := entry
        have hlength : ((one.map Prod.snd).map f).length = one.length := by simp
        rw [all_cons, List.map_append, refillEntries, List.take_left' hlength,
          List.drop_left' hlength, ih]
        refine congrArg (fun ps => (name, ps) :: SortedMap.entries (map f ⟨entries⟩)) ?_
        rw [refillOne, List.map_map, List.zipWith_map_right, List.zipWith_self]
        rfl
  exact congrArg SortedMap.mk (hentries entries)

theorem map_map (f g : SubProblem K → SubProblem K) (ps : ProblemSet K) :
    (ps.map f).map g = ps.map (g ∘ f) := by
  simp [map, SortedMap.mapEntries]

theorem map_eq_self {f : SubProblem K → SubProblem K} {ps : ProblemSet K}
    (h : ∀ p ∈ ps.all, f p = p) : ps.map f = ps := by
  have hone : ∀ e ∈ ps.entries, SortedMap.mapEntries (fun _ => f) e.2 = e.2 := by
    intro e he
    have hfix : ∀ x ∈ e.2.entries, (x.1, f x.2) = x := fun x hx => by
      rw [h x.2 (List.mem_flatMap.mpr ⟨e.2, List.mem_map_of_mem he, List.mem_map_of_mem hx⟩)]
    exact congrArg SortedMap.mk ((List.map_congr_left hfix).trans (List.map_id _))
  have hall : ∀ e ∈ ps.entries, (e.1, SortedMap.mapEntries (fun _ => f) e.2) = e := fun e he => by
    rw [hone e he]
  exact congrArg SortedMap.mk ((List.map_congr_left hall).trans (List.map_id _))

/-- Every sub-problem may be solved. -/
def Unsolved (ps : ProblemSet K) : Prop :=
  ∀ p ∈ ps.all, p.status = .unsolved

theorem unsolved_reset (ps : ProblemSet K) : (ps.map SubProblem.reset).Unsolved := by
  intro p hp
  rw [all_map] at hp
  obtain ⟨q, -, rfl⟩ := List.mem_map.mp hp
  rfl

end ProblemSet

variable [Scalar K] [Transcendental K]

/-! ## Building -/

namespace SubProblems

theorem unsolved_buildAll {c : Catalog K} {sets : Registry} {texts : SortedMap String ModelText}
    {ps : ProblemSet K} (h : buildAll c sets texts = .ok ps) : ps.Unsolved := by
  obtain ⟨es, hes, heq⟩ := exists_of_bind_eq_ok h
  cases heq
  intro p hp
  obtain ⟨one, hone, hp⟩ := List.mem_flatMap.mp hp
  obtain ⟨name, hname⟩ := SortedMap.mem_values_ofList hone
  obtain ⟨⟨_, text⟩, -, hbuild⟩ := exists_left_of_forall₂ (forall₂_of_mapM hes) hname
  obtain ⟨built, hbuilt, heq⟩ := exists_of_bind_eq_ok hbuild
  cases heq
  obtain ⟨problems, hproblems, heq⟩ := exists_of_bind_eq_ok hbuilt
  cases heq
  obtain ⟨key, hkey⟩ := SortedMap.mem_values_ofList hp
  obtain ⟨q, hq, heq⟩ := List.mem_map.mp hkey
  cases heq
  obtain ⟨key, -, hproblem⟩ := exists_left_of_forall₂ (forall₂_of_mapM hproblems) hq
  obtain ⟨constraints, -, hproblem⟩ := exists_of_bind_eq_ok hproblem
  obtain ⟨objective, -, heq⟩ := exists_of_bind_eq_ok hproblem
  cases heq
  rfl

end SubProblems

namespace Model

variable {m : Model K} {b : Backend σ K} {o : SolveOptions} {s : σ}

/-- A build that gives up what there is leaves nothing but unsolved sub-problems. -/
theorem build_overwrite {outcome : BuildOutcome} {d : Model K}
    (h : m.build .overwrite = (.ok outcome, d)) :
    d.problems.Unsolved ∧ d = { m with problems := d.problems } := by
  unfold build at h
  have hkeep : (BuildPolicy.overwrite == .keep) = false := rfl
  simp only [hkeep, Bool.and_false, Bool.false_eq_true, if_false] at h
  split at h
  · rename_i ps hps
    cases h
    exact ⟨SubProblems.unsolved_buildAll hps, rfl⟩
  · cases h

/-! ## Solving -/

omit [Transcendental K] in
/-- The model once its sub-problems have been answered, in order. -/
def settle (m : Model K) (answers : List (Solve.Answered K)) : Model K :=
  { m with
    catalog := m.catalog.withValues
      (assign m.catalog.values (answers.flatMap Solve.Answered.assignments))
    problems := m.problems.refill (answers.map Solve.Answered.settled) }

/-- The answers that a solve gets. -/
def answers (b : Backend σ K) (o : SolveOptions) (m : Model K) (s : σ) : List (Solve.Answered K) :=
  (Solve.ask b o (m.problems.all.map (Solve.prepare m.catalog)) s).1

theorem solveOnce_eq (b : Backend σ K) (o : SolveOptions) (m : Model K) (s : σ) :
    (solveOnce b o m s).1 = m.settle (answers b o m s) := by
  simp only [solveOnce, Solve.independent, Solve.apply_eq]
  rfl

/-- A backend that is a function of the problem gives the same answers again, so solving again
changes neither a status nor a value. -/
theorem solveOnce_requestResolve {f : LinearProblem K → Except ModelError (Solution K)}
    (hf : ∀ l s, (b.solve l o s).1 = f l) (hm : m.problems.Unsolved) (s s' : σ) :
    (solveOnce b o (solveOnce b o m s).1.requestResolve s').1 = (solveOnce b o m s).1 := by
  let answer (p : SubProblem K) : Solve.Answered K :=
    (Solve.prepare m.catalog p, (Solve.prepare m.catalog p).linear.map fun l => (l, f l))
  have hanswers : ∀ (vs : Array (Option K)) (s : σ),
      answers b o { m with catalog := m.catalog.withValues vs } s = m.problems.all.map answer := by
    intro vs s
    rw [answers, Solve.ask_of_function hf, Solve.prepare_withValues, List.map_map]
    rfl
  have hfirst : (solveOnce b o m s).1 = m.settle (m.problems.all.map answer) := by
    rw [solveOnce_eq]
    exact congrArg m.settle (hanswers m.catalog.values s)
  -- Apart from the values a reset leads back to the model before the solve.
  have hreset : (m.settle (m.problems.all.map answer)).requestResolve =
      { m with catalog := (m.settle (m.problems.all.map answer)).catalog } := by
    have hproblems : (m.settle (m.problems.all.map answer)).problems.map SubProblem.reset =
        m.problems := by
      rw [settle, List.map_map, ProblemSet.refill_map, ProblemSet.map_map]
      refine ProblemSet.map_eq_self fun p hp => ?_
      have hsettles : Solve.Settles m.catalog p (answer p) :=
        Solve.settles_of_answer (hm p hp) rfl (by simp [answer, Function.comp_def])
      calc SubProblem.reset (answer p).settled
          = SubProblem.reset (p.finish (answer p).settled.status) := by rw [← hsettles.settled]
        _ = p.finish .unsolved := rfl
        _ = p := by rw [SubProblem.finish, ← hm p hp]
    rw [requestResolve, hproblems]
    rfl
  rw [hfirst, hreset, solveOnce_eq]
  refine (congrArg _ (hanswers _ s')).trans ?_
  unfold settle
  simp only [Catalog.values_withValues, Catalog.withValues_withValues, assign_assign]

end Model

end CoupledModels
