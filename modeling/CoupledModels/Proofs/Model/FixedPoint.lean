import CoupledModels.Proofs.Model.Pushing
import CoupledModels.Proofs.Model.Runs
import CoupledModels.Proofs.Solve.Iteration
import Mathlib

/-!
# Convergence is a fixed point

An iteration of a run solves sub-problems that are all unsolved, with the data that the store holds,
and writes the results into the store.  If the comparison finds no difference then the write has left
the store as it was; so the data is the same in the next iteration, a backend that is a function of
the problem gives the same answers, and the same rows are written again.
-/

namespace CoupledModels

namespace Model

variable {σ : Type} [Transcendental Rat]

/-- The state in which an iteration starts, if the tables are those with decision columns. -/
structure Prepared (tables : List String) (s : (Model Rat × σ) × Store Rat) : Prop where
  unsolved : s.1.1.problems.Unsolved
  loaded : s.1.1.catalog.Loaded s.2
  wellFormed : s.2.WellFormed
  tables : s.1.1.catalog.endogenousTables = tables

variable {b : Backend σ Rat} {o : SolveOptions} {digits : UInt32} {tables : List String}
  {s s' u : (Model Rat × σ) × Store Rat}

/-- Solving and writing settles the model and pushes what it then holds. -/
theorem solveAndPush_coupled_ok (h : (coupled b o digits).solveAndPush s = (.ok (), s')) :
    s'.1.1 = (solveOnce b o s.1.1 s.1.2).1 ∧
      pushTables (s'.1.1.catalog.endogenousRows digits).entries s.2 = (.ok (), s'.2) := by
  obtain ⟨m, store⟩ := s
  simp only [CoupledSystem.solveAndPush, coupled, pushEndogenous] at h
  obtain ⟨hpush, rfl⟩ := Prod.mk.inj h
  exact ⟨rfl, Prod.ext hpush rfl⟩

omit [Transcendental Rat] in
theorem endogenousTables_settle (m : Model Rat) (answers : List (Solve.Answered Rat)) :
    (m.settle answers).catalog.endogenousTables = m.catalog.endogenousTables := rfl

/-- From one iteration to the next the data is loaded anew and every sub-problem is reset. -/
theorem Prepared.renew {i : Nat} (h : Prepared tables s) (hi : 1 < i)
    (hsolve : (coupled b o digits).solveAndPush s = (.ok (), s'))
    (hrenew : ConvergenceLoop.renew (coupled b o digits) i s' = (.ok (), u)) :
    Prepared tables u := by
  obtain ⟨hmodel, hpush⟩ := solveAndPush_coupled_ok hsolve
  rw [solveOnce_eq] at hmodel
  obtain ⟨⟨m, memory⟩, store⟩ := s'
  simp only at hmodel hpush
  subst hmodel
  -- from the second iteration on the catalog is loaded again and all sub-problems are reset
  simp only [ConvergenceLoop.renew, if_neg (Nat.not_le.mpr hi), coupled, loadExogenous] at hrenew
  generalize hm : s.1.1.settle (answers b o s.1.1 s.1.2) = m at hpush hrenew
  rcases hload : m.catalog.loadExogenous store with ⟨r, d⟩
  rw [hload] at hrenew
  cases r with
  | error e => simp at hrenew
  | ok _ =>
      simp only [Prod.mk.injEq, true_and] at hrenew
      subst hrenew
      obtain ⟨hd, hloaded⟩ := Catalog.loaded_of_loadExogenous hload
      refine ⟨ProblemSet.unsolved_reset _, hloaded, ?_, ?_⟩
      · have hpushed : (pushTables (m.catalog.endogenousRows digits).entries s.2).2.WellFormed :=
          wellFormed_pushTables h.wellFormed
        rwa [hpush] at hpushed
      · calc d.endogenousTables = m.catalog.endogenousTables := by rw [hd]; rfl
          _ = tables := by rw [← hm, endogenousTables_settle, h.tables]

/-- An iteration that makes no difference leaves the store as it was. -/
theorem Prepared.store_eq (h : Prepared tables s) {differences : SortedMap String (Difference Rat)}
    (hsolve : ConvergenceLoop.solveAndCompare (coupled b o digits) tables s =
      (.ok differences, s'))
    (hwithin : (Difference.largest differences.values).within 0 = true) : s'.2 = s.2 := by
  obtain ⟨hpushed, hcompared⟩ := ConvergenceLoop.solveAndCompare_ok hsolve
  obtain ⟨hmodel, hpush⟩ := solveAndPush_coupled_ok hpushed
  have hascending := Catalog.ascending_endogenousRows s'.1.1.catalog digits
  refine eq_of_pushTables hpush h.wellFormed hascending.nodup_keys
    (fun e he => Catalog.isSome_of_mem_endogenousRows he) fun e he old new hold hnew => ?_
  have hmem : e.1 ∈ tables := by
    rw [← h.tables, ← endogenousTables_settle s.1.1 (answers b o s.1.1 s.1.2), ← solveOnce_eq,
      ← hmodel]
    exact Catalog.mem_endogenousTables.mpr (Catalog.mem_endogenousRows he).1
  obtain ⟨old', new', hold', hnew', hdifference⟩ := hcompared e.1 hmem
  obtain rfl : old' = old := Except.ok.inj (hold'.symm.trans hold)
  obtain rfl : new' = new := Except.ok.inj (hnew'.symm.trans hnew)
  exact Difference.within_of_largest hwithin _ hdifference

/-- After an iteration that has left the store as it was, another one changes nothing. -/
theorem Prepared.iterate (h : Prepared tables s)
    {f : LinearProblem Rat → Except ModelError (Solution Rat)}
    (hf : ∀ l s, (b.solve l o s).1 = f l)
    (hsolve : (coupled b o digits).solveAndPush s = (.ok (), s')) (hstore : s'.2 = s.2) :
    ∃ memory, (coupled b o digits).iterate s' = (.ok (), (s'.1.1, memory), s'.2) := by
  obtain ⟨hmodel, hpush⟩ := solveAndPush_coupled_ok hsolve
  have hloaded : s'.1.1.catalog.Loaded s'.2 := by
    rw [hmodel, hstore, solveOnce_eq]
    exact h.loaded.withValues _
  have hload : s'.1.1.loadExogenous s'.2 = (.ok (), s'.1.1) := by
    rw [loadExogenous, hloaded.loadExogenous]
  have hagain : (solveOnce b o s'.1.1.requestResolve s'.1.2).1 = s'.1.1 := by
    rw [hmodel]
    exact solveOnce_requestResolve hf h.unsolved _ _
  rcases hsecond : solveOnce b o s'.1.1.requestResolve s'.1.2 with ⟨m, memory⟩
  rw [hsecond] at hagain
  simp only at hagain
  subst hagain
  refine ⟨memory, ?_⟩
  rw [← hstore] at hpush
  simp only [CoupledSystem.iterate, CoupledSystem.solveAndPush, coupled, hload, hsecond,
    pushEndogenous, hpush]

/-- If an integrated run with tolerance zero reports convergence, and the backend's answer is a
function of the problem, then one more iteration changes no sub-problem, no value and nothing in the
store. -/
theorem iterate_of_solve_converged {settings : Settings Rat} {clock : Nat → Duration}
    {s s' : RunState σ Rat} {report : RunReport Rat} {n : Nat}
    {history : List (IterationRecord Rat)}
    (hstore : s.store.WellFormed)
    (hb : ∀ l o t t', (b.solve l o t).1 = (b.solve l o t').1)
    (hintegrated : settings.integrated = true) (htolerance : settings.tolerance = 0)
    (hrun : solve b settings .overwrite clock s = (.ok report, s'))
    (hconverged : report.convergence = some ⟨.converged n, history⟩) :
    ∃ o memory, settings.solveOptions? = some o ∧
      (coupled b o settings.roundDigits).iterate ((s'.model, s'.backend), s'.store) =
        (.ok (), (s'.model, memory), s'.store) := by
  obtain ⟨m, o, hstarted, ho, hrun⟩ := solve_overwrite_ok hrun
  rw [if_pos hintegrated] at hrun
  obtain ⟨l, loop, hl, hreport, hloop⟩ := runIntegrated_ok hrun
  obtain rfl : loop = ⟨.converged n, history⟩ := Option.some.inj (hreport.symm.trans hconverged)
  have hprepared : Prepared m.catalog.endogenousTables ((m, s.backend), s.store) :=
    ⟨hstarted.unsolved, hstarted.loaded, hstore, rfl⟩
  obtain ⟨t, differences, ht, hsolve, hwithin⟩ := ConvergenceLoop.runFrom_converged
    (I := Prepared m.catalog.endogenousTables) hloop rfl Nat.one_pos
    (fun t ht => (Prod.mk.inj ht).2 ▸ hprepared)
    fun t d t' i u ht hsolve hi hrenew =>
      ht.renew hi (ConvergenceLoop.solveAndCompare_ok hsolve).1 hrenew
  have hzero : l.tolerance = 0 := by
    obtain ⟨limit, -, rfl⟩ := Option.map_eq_some_iff.mp hl
    exact htolerance
  rw [hzero] at hwithin
  let f (p : LinearProblem Rat) : Except ModelError (Solution Rat) := (b.solve p o s.backend).1
  obtain ⟨memory, hiterate⟩ := ht.iterate (f := f) (fun l t => hb l o t s.backend)
    (ConvergenceLoop.solveAndCompare_ok hsolve).1 (ht.store_eq hsolve hwithin)
  exact ⟨o, memory, ho, hiterate⟩

end Model

namespace Catalog.Purchases

/-- Buys three of the first item, whatever is asked. -/
def threeOfTheFirst : Backend Unit Rat :=
  .ofFunction "three" fun _ _ => .ok ⟨.optimal, [3, 0], none⟩

/-- Iterates until nothing changes, with whole numbers. -/
def exactly : Settings Rat :=
  { Settings.default with integrated := true, tolerance := 0, roundDigits := 0 }

theorem wellFormed_stock : stock.WellFormed where
  ascending := by decide +kernel
  distinct := by
    intro name t ht
    have hmem := SortedMap.mem_entries_of_get? ht
    simp only [stock, List.mem_cons, Prod.mk.injEq, List.not_mem_nil, or_false] at hmem
    rcases hmem with ⟨-, rfl⟩ | ⟨-, rfl⟩
    · simp [DistinctRows]
    · simp [DistinctRows]

theorem outcome_shop :
    ((Model.runBuilt threeOfTheFirst exactly (fun _ => ⟨0⟩) ⟨opened, stock, ()⟩).1.toOption.bind
      fun r => r.convergence.map (·.outcome)) = some (.converged 2) := by
  cbv

theorem iterate_of_solve_converged_shop :
    ∃ s report o memory,
      Model.solve threeOfTheFirst exactly .overwrite (fun _ => ⟨0⟩) ⟨shop, stock, ()⟩ =
        (.ok report, s) ∧
      report.convergence.map (·.outcome) = some (.converged 2) ∧
      exactly.solveOptions? = some o ∧
      (Model.coupled threeOfTheFirst o exactly.roundDigits).iterate ((s.model, s.backend), s.store) =
        (.ok (), (s.model, memory), s.store) := by
  have hsolve := solve_shop threeOfTheFirst exactly (fun _ => ⟨0⟩) () (by decide +kernel)
  have houtcome := outcome_shop
  rw [← hsolve] at houtcome
  rcases hrun : Model.solve threeOfTheFirst exactly .overwrite (fun _ => ⟨0⟩) ⟨shop, stock, ()⟩ with
    ⟨r, s⟩
  rw [hrun] at houtcome
  cases r with
  | error e => cases houtcome
  | ok report =>
      obtain ⟨⟨outcome, history⟩, hconverged, rfl⟩ := Option.map_eq_some_iff.mp houtcome
      obtain ⟨o, memory, ho, hiterate⟩ := Model.iterate_of_solve_converged wellFormed_stock
        (fun _ _ _ _ => rfl) rfl rfl hrun hconverged
      exact ⟨s, report, o, memory, rfl, houtcome, ho, hiterate⟩

end Catalog.Purchases

end CoupledModels
