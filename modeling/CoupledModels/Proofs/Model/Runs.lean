import CoupledModels.Proofs.Model.Problems
import CoupledModels.Proofs.Problem.Typing

/-!
# Runs of a model

What a run that succeeds has done before it solves anything: the sub-problems are built anew, so none
is solved yet, and every parameter holds what the store has for it.  Solution values are those of
before the run.
-/

namespace CoupledModels

namespace Model

variable {σ K : Type} [Scalar K]

/-- A load that succeeds changes nothing but parameters, which hold what the store has. -/
theorem loadExogenous_ok {m d : Model K} {store : Store K}
    (h : m.loadExogenous store = (.ok (), d)) :
    d.catalog.Loaded store ∧
      d = { m with catalog := m.catalog.withParameters d.catalog.parameters } := by
  unfold loadExogenous at h
  obtain ⟨hcatalog, rfl⟩ := Prod.mk.inj h
  obtain ⟨hparameters, hloaded⟩ := Catalog.loaded_of_loadExogenous (Prod.ext hcatalog rfl)
  exact ⟨hloaded, congrArg (fun c => { m with catalog := c }) hparameters⟩

variable [Transcendental K]

/-- A model that has been built anew and loaded. -/
structure Started (m : Model K) (store : Store K) (d : Model K) : Prop where
  unsolved : d.problems.Unsolved
  loaded : d.catalog.Loaded store
  rest : d = { m with
    catalog := m.catalog.withParameters d.catalog.parameters
    problems := d.problems }

/-- A run that succeeds has started the model, and has then iterated or solved once. -/
theorem solve_overwrite_ok {b : Backend σ K} {settings : Settings K} {clock : Nat → Duration}
    {s s' : RunState σ K} {report : RunReport K}
    (h : solve b settings .overwrite clock s = (.ok report, s')) :
    ∃ m o, s.model.Started s.store m ∧ settings.solveOptions? = some o ∧
      (if settings.integrated then runIntegrated b settings o clock { s with model := m }
        else runOnce b settings o { s with model := m }) = (.ok report, s') := by
  unfold solve at h
  split at h
  · cases h
  split at h
  · cases h
  rename_i built hbuild
  obtain ⟨hunsolved, hbuilt⟩ := build_overwrite hbuild
  split at h
  · cases h
  rename_i m hload
  obtain ⟨hloaded, hm⟩ := loadExogenous_ok hload
  unfold runBuilt at h
  split at h
  · cases h
  rename_i o ho
  refine ⟨m, o, ⟨?_, hloaded, ?_⟩, ho, h⟩
  · rw [hm]
    exact hunsolved
  · rw [hm, hbuilt]
    rfl

/-- If the settings pass their check, and building and loading succeed, what they give is run. -/
theorem solve_overwrite_eq {m : Model K} {ps : ProblemSet K} {c : Catalog K} {store : Store K}
    {settings : Settings K} (b : Backend σ K) (clock : Nat → Duration) (memory : σ)
    (hvalid : settings.validate = .ok ())
    (hbuild : SubProblems.buildAll m.catalog m.sets m.texts = .ok ps)
    (hload : m.catalog.loadExogenous store = (.ok (), c)) :
    solve b settings .overwrite clock ⟨m, store, memory⟩ =
      runBuilt b settings clock ⟨{ m with catalog := c, problems := ps }, store, memory⟩ := by
  have hkeep : (BuildPolicy.overwrite == .keep) = false := rfl
  simp only [solve, hvalid, build, hkeep, Bool.and_false, Bool.false_eq_true, if_false, hbuild,
    loadExogenous, hload]

/-- An iterated run that succeeds has run the loop to its end. -/
theorem runIntegrated_ok {b : Backend σ K} {settings : Settings K} {o : SolveOptions}
    {clock : Nat → Duration} {s s' : RunState σ K} {report : RunReport K}
    (h : runIntegrated b settings o clock s = (.ok report, s')) :
    ∃ l loop, settings.convergenceLoop? = some l ∧ report.convergence = some loop ∧
      l.run (coupled b o settings.roundDigits) clock ((s.model, s.backend), s.store) =
        (.ok loop, (s'.model, s'.backend), s'.store) := by
  unfold runIntegrated at h
  split at h
  · cases h
  rename_i l hl
  generalize hrun : l.run (coupled b o settings.roundDigits) clock
    ((s.model, s.backend), s.store) = result at h
  obtain ⟨r, ⟨m, memory⟩, store⟩ := result
  obtain ⟨hreport, rfl⟩ := Prod.mk.inj h
  obtain ⟨loop, rfl, rfl⟩ := exists_of_map_eq_ok hreport
  exact ⟨l, loop, hl, rfl, hrun⟩

/-- A single solve that succeeds has settled every sub-problem and written the results. -/
theorem runOnce_ok {b : Backend σ K} {settings : Settings K} {o : SolveOptions}
    {s s' : RunState σ K} {report : RunReport K}
    (h : runOnce b settings o s = (.ok report, s')) :
    s'.model = s.model.settle (answers b o s.model s.backend) ∧
      s'.model.pushEndogenous settings.roundDigits s.store = (.ok (), s'.store) := by
  unfold runOnce at h
  rw [← solveOnce_eq]
  generalize hsolve : solveOnce b o s.model s.backend = solved at h
  obtain ⟨m, memory⟩ := solved
  simp only at h
  generalize hpush : m.pushEndogenous settings.roundDigits s.store = pushed at h
  obtain ⟨r, store⟩ := pushed
  obtain ⟨hreport, rfl⟩ := Prod.mk.inj h
  obtain ⟨_, rfl, -⟩ := exists_of_map_eq_ok hreport
  exact ⟨rfl, hpush⟩

end Model

namespace Catalog.Purchases

/-- A shop that must spend something. -/
def shop : Model Rat where
  sets := sets
  tables := tables
  texts := ⟨[("shop", ⟨[], [least.text]⟩)]⟩
  catalog := catalog
  problems := .empty

/-- The prices, and the rows for what is bought. -/
def stock : Store Rat where
  tables := ⟨[("price", ⟨["item"], [⟨["a"], some 1⟩, ⟨["b"], some 2⟩]⟩),
    ("purchase", ⟨["item"], [⟨["a"], none⟩, ⟨["b"], none⟩]⟩)]⟩
  dimensions := .empty

/-- The shop once it has been built and the prices are known. -/
def opened : Model Rat :=
  { shop with catalog := priced, problems := ⟨[("shop", ⟨[(⟨[]⟩, spending)]⟩)]⟩ }

theorem solve_shop {σ : Type} (b : Backend σ Rat) (settings : Settings Rat)
    (clock : Nat → Duration) (memory : σ) (h : settings.validate = .ok ()) :
    Model.solve b settings .overwrite clock ⟨shop, stock, memory⟩ =
      Model.runBuilt b settings clock ⟨opened, stock, memory⟩ :=
  Model.solve_overwrite_eq b clock memory h
    (by decide +kernel : SubProblems.buildAll shop.catalog shop.sets shop.texts = .ok opened.problems)
    (by decide +kernel : shop.catalog.loadExogenous stock = (.ok (), priced))

end Catalog.Purchases

end CoupledModels
