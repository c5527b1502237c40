import CoupledModels.Proofs.Model.Pushing
import CoupledModels.Proofs.Model.Runs
import Mathlib

/-!
# Solution values after a run

A run that solves once gives new values to the columns of the sub-problems that it has solved.  A
column that none of them has keeps the value of an earlier run, if there is one: a build gives up
sub-problems, not solution values.  What the run writes to the store are the values of all columns
that have one, the older ones among them.
-/

namespace CoupledModels

variable {σ K : Type} [Scalar K]

namespace Model

section

variable [Transcendental K]

/-- A column of the linear problem of a sub-problem that is solved. -/
def Decided (m : Model K) (column : Nat) : Prop :=
  ∃ p ∈ m.problems.all, p.status = .optimal ∧ ∃ l, p.lower m.catalog = .ok l ∧ column ∈ l.columns

end

/-- A row of a table is that of a column, with the rounded value of the column. -/
def Presents (m : Model K) (digits : UInt32) (name : String) (column : Nat) (r : Row K) : Prop :=
  ∃ b ∈ m.catalog.blocks, b.table = name ∧ (r.coords, column) ∈ b.coords.zip b.columns ∧
    ∃ v, m.catalog.value? column = some v ∧ r.value = some (Scalar.roundTo digits v)

theorem presents_of_mem {m : Model K} {digits : UInt32} {name : String} {r : Row K}
    (h : r ∈ (m.catalog.blocksOf name).flatMap (m.catalog.solvedRows digits)) :
    ∃ column, m.Presents digits name column r := by
  obtain ⟨b, hb, hr⟩ := List.mem_flatMap.mp h
  obtain ⟨column, v, hcolumn, hv, hvalue⟩ := Catalog.mem_solvedRows hr
  obtain ⟨hb, hname⟩ := List.mem_filter.mp hb
  exact ⟨column, b, Array.mem_toList_iff.mp hb, by simpa using hname, hcolumn, v, hv, hvalue⟩

variable [Transcendental K]

/-- A column has a value after sub-problems have been answered if one of them has been solved with
it, or if it had a value before. -/
theorem isSome_value?_settle {b : Backend σ K} {o : SolveOptions} {m : Model K} {memory : σ}
    (hm : m.problems.Unsolved) {column : Nat} (hcolumn : column < m.catalog.values.size) :
    ((m.settle (answers b o m memory)).catalog.value? column).isSome = true ↔
      (m.settle (answers b o m memory)).Decided column ∨
        (m.catalog.value? column).isSome = true := by
  have hsettles := Solve.forall₂_settles (c := m.catalog) b o hm memory
  have hall : (m.settle (answers b o m memory)).problems.all =
      (answers b o m memory).map Solve.Answered.settled := by
    refine ProblemSet.all_refill ?_
    rw [List.length_map]
    exact hsettles.length_eq.symm
  have hassigned : column ∈ ((answers b o m memory).flatMap
      Solve.Answered.assignments).map Prod.fst ↔
        (m.settle (answers b o m memory)).Decided column := by
    rw [List.map_flatMap, List.mem_flatMap]
    unfold Decided
    rw [hall]
    constructor
    · rintro ⟨a, ha, hmem⟩
      obtain ⟨p, -, hp⟩ := exists_left_of_forall₂ hsettles ha
      obtain ⟨hstatus, l, hl, hmem⟩ := (hp.columns column).mp hmem
      refine ⟨a.settled, List.mem_map_of_mem ha, hstatus, l, ?_, hmem⟩
      rw [hp.settled, SubProblem.lower_finish]
      exact (SubProblem.lower_withValues p m.catalog _).trans hl
    · rintro ⟨p', hp', hstatus, l, hl, hmem⟩
      obtain ⟨a, ha, rfl⟩ := List.mem_map.mp hp'
      obtain ⟨p, -, hp⟩ := exists_left_of_forall₂ hsettles ha
      rw [hp.settled, SubProblem.lower_finish] at hl
      refine ⟨a, ha, (hp.columns column).mpr ⟨hstatus, l, ?_, hmem⟩⟩
      exact (SubProblem.lower_withValues p m.catalog _).symm.trans hl
  rw [← hassigned]
  exact Catalog.isSome_value?_assign hcolumn

/-- After a run that solves once, the columns with a value are those of the sub-problems that have
been solved and those that had a value before the run.  The run has written the values of such
columns to the rows of their tables, and nothing else. -/
theorem solve_once_values {b : Backend σ K} {settings : Settings K} {clock : Nat → Duration}
    {s s' : RunState σ K} {report : RunReport K} (hintegrated : settings.integrated = false)
    (hrun : solve b settings .overwrite clock s = (.ok report, s')) :
    (∀ column, 0 < column → column ≤ s.model.catalog.columnCount →
      ((s'.model.catalog.value? column).isSome = true ↔
        s'.model.Decided column ∨ (s.model.catalog.value? column).isSome = true)) ∧
    s'.store.dimensions = s.store.dimensions ∧
    ∀ name, (s.store.tables.get? name = none → s'.store.tables.get? name = none) ∧
      ∀ t, s.store.tables.get? name = some t → ∃ rows batch,
        s'.store.tables.get? name = some { t with rows := rows } ∧
        StoredTable.Writes batch t.rows rows ∧
        ∀ r ∈ batch, ∃ column, s'.model.Presents settings.roundDigits name column r := by
  obtain ⟨m, o, hstarted, -, hrun⟩ := solve_overwrite_ok hrun
  rw [hintegrated] at hrun
  obtain ⟨hmodel, hpush⟩ := runOnce_ok hrun
  have hvalues : m.catalog.values = s.model.catalog.values := by
    rw [hstarted.rest]
    rfl
  refine ⟨fun column hpos hcolumn => ?_, ?_, fun name => ⟨fun hnone => ?_, fun t ht => ?_⟩⟩
  · have hsize : column < m.catalog.values.size := by
      rw [hvalues]
      unfold Catalog.columnCount at hcolumn
      omega
    rw [hmodel, isSome_value?_settle hstarted.unsolved hsize, Catalog.value?, Catalog.value?,
      hvalues]
  · have hdimensions := dimensions_pushTables
      (s'.model.catalog.endogenousRows settings.roundDigits).entries s.store
    rwa [show pushTables _ s.store = _ from hpush] at hdimensions
  · rw [get?_pushEndogenous hpush, hnone]
    rfl
  · let batch := (s'.model.catalog.blocksOf name).flatMap
      (s'.model.catalog.solvedRows settings.roundDigits)
    refine ⟨_, batch, ?_, StoredTable.writes_writeRows name .replace t.rows batch,
      fun r hr => presents_of_mem hr⟩
    rw [get?_pushEndogenous hpush, ht]
    rfl

end Model

namespace Catalog.Purchases

/-- Gives the answers that it has been told, and none when these have run out. -/
def scripted : Backend (List (Solution Rat)) Rat :=
  ⟨"scripted", fun _ _ answers => (.ok (answers.headD (.failed .infeasible)), answers.tail)⟩

/-- Solves once, with whole numbers. -/
def once : Settings Rat :=
  { Settings.default with roundDigits := 0 }

/-- The shop, and the answer that three of the first item are bought. -/
def firstRun : RunState (List (Solution Rat)) Rat :=
  ⟨shop, stock, [⟨.optimal, [3, 0], none⟩]⟩

/-- The shop once three of the first item have been bought. -/
def bought : Model Rat :=
  { opened with
    catalog := priced.withValues #[some 1, some 3, some 0]
    problems := opened.problems.map fun p => p.finish .optimal }

/-- What is bought, with an amount of the first item. -/
def stockWith (amount : Rat) : Store Rat :=
  { stock with tables := ⟨[("price", ⟨["item"], [⟨["a"], some 1⟩, ⟨["b"], some 2⟩]⟩),
    ("purchase", ⟨["item"], [⟨["a"], some amount⟩, ⟨["b"], some 0⟩]⟩)]⟩ }

/-- The purchases are decided by the first run. -/
theorem solve_firstRun :
    Model.solve scripted once .overwrite (fun _ => ⟨0⟩) firstRun =
      (.ok ⟨[⟨"shop", ⟨[]⟩, .optimal⟩], none⟩, ⟨bought, stockWith 3, []⟩) := by
  rw [firstRun, solve_shop scripted once _ _ (by decide +kernel)]
  cbv

/-- The second run finds no solution, and keeps the values of the first one. -/
theorem solve_bought :
    Model.solve scripted once .overwrite (fun _ => ⟨0⟩) ⟨bought, stockWith 7, []⟩ =
      (.ok ⟨[⟨"shop", ⟨[]⟩, .infeasible⟩], none⟩,
        ⟨{ bought with problems := opened.problems.map fun p => p.finish .infeasible },
          stockWith 3, []⟩) := by
  rw [Model.solve_overwrite_eq scripted _ _ (by decide +kernel)
    (by decide +kernel : SubProblems.buildAll bought.catalog bought.sets bought.texts =
      .ok opened.problems)
    (by decide +kernel : bought.catalog.loadExogenous (stockWith 7) = (.ok (), bought.catalog))]
  cbv

theorem solve_once_values_firstRun :
    ∃ report s, Model.solve scripted once .overwrite (fun _ => ⟨0⟩) firstRun = (.ok report, s) ∧
      ∀ column, 0 < column → column ≤ 2 →
        ((s.model.catalog.value? column).isSome = true ↔
          s.model.Decided column ∨ (firstRun.model.catalog.value? column).isSome = true) :=
  ⟨_, _, solve_firstRun, (Model.solve_once_values rfl solve_firstRun).1⟩

/-- A value can outlive the run that has found it: three of the first item are bought, then the amount
in the store is set to seven, and the next run finds no solution.  It still reports three, for a
column that it has not decided, and writes three over the seven. -/
theorem stale_value_is_kept :
    ∃ s₁ s₂ r₁ r₂ edited,
      Model.solve scripted once .overwrite (fun _ => ⟨0⟩) firstRun = (.ok r₁, s₁) ∧
      s₁.store.putRows "purchase" [⟨["a"], some 7⟩] .replace = (.ok (), edited) ∧
      Model.solve scripted once .overwrite (fun _ => ⟨0⟩) ⟨s₁.model, edited, s₁.backend⟩ =
        (.ok r₂, s₂) ∧
      r₂.allOptimal = false ∧ s₂.model.catalog.value? 1 = some 3 ∧ ¬ s₂.model.Decided 1 ∧
      edited.getRows "purchase" .empty = .ok [⟨["a"], some 7⟩, ⟨["b"], some 0⟩] ∧
      s₂.store.getRows "purchase" .empty = .ok [⟨["a"], some 3⟩, ⟨["b"], some 0⟩] := by
  refine ⟨_, _, _, _, stockWith 7, solve_firstRun, by cbv, solve_bought, by decide, by decide, ?_,
    by cbv, by cbv⟩
  rintro ⟨p, hp, hstatus, -⟩
  simp only [ProblemSet.all_map, List.mem_map] at hp
  obtain ⟨q, -, rfl⟩ := hp
  cases hstatus

end Catalog.Purchases

end CoupledModels
