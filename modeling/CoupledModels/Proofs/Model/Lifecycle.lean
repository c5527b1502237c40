import CoupledModels.Proofs.Model.Operations
import CoupledModels.Proofs.Solve.Isolation

/-!
# The life of a model

Whatever is done to a model, and whatever fails on the way, its sub-problems hold numbers that lead
into its catalog, and none of them is being solved when an operation has ended.  A run that succeeds
leaves final statuses only.  A final status is taken back by a reset, by an iterated run and by a new
build, and by nothing else.
-/

namespace CoupledModels

variable {σ K : Type}

/-! ## Numbers that lead into a catalog -/

namespace Catalog

/-- A decision column of a catalog. -/
def IsColumn (c : Catalog K) (column : Nat) : Prop :=
  1 ≤ column ∧ column ≤ c.columnCount

/-- What a binding refers to exists. -/
def InRange (c : Catalog K) : BindingValue → Prop
  | .slice _ columns => ∀ column ∈ columns, c.IsColumn column
  | .parameter p => p < c.parameters.size
  | .constant i => i < c.constants.size

theorem isColumn_iff {c : Catalog K} {column : Nat} :
    c.IsColumn column ↔ 0 < column ∧ column < c.values.size := by
  unfold IsColumn columnCount
  omega

variable [Scalar K] {tables : List TableDeclaration} {sets : Registry} {c : Catalog K}

theorem Consistent.inRange (h : c.Consistent tables sets) (hnumbered : c.Numbered) {b : Binding}
    (hb : b ∈ c.bindings) : c.InRange b.value := by
  obtain ⟨k, hk⟩ := Array.mem_iff_getElem?.mp hb
  have hadmits := h.addressed.admits k b hk
  cases hvalue : b.value with
  | slice i columns =>
      intro column hcolumn
      obtain ⟨v, -, hbinds⟩ := h.bound b hb
      obtain ⟨block, hblock, -, -, hcolumns⟩ := hbinds.exists_block hvalue
      exact isColumn_iff.mpr (hnumbered.column_lt hblock (hcolumns column hcolumn))
  | parameter p =>
      rw [hvalue] at hadmits
      obtain ⟨q, hq, -⟩ := hadmits
      exact (Array.getElem?_eq_some_iff.mp hq).1
  | constant i =>
      rw [hvalue] at hadmits
      exact hadmits

end Catalog

section

variable [Scalar K] [Transcendental K]

/-- The numbers that a sub-problem holds lead into a catalog: those of bindings to bindings of the
types that the trees say, and these to columns, parameters and constants that exist. -/
structure SubProblem.LeadsInto (p : SubProblem K) (c : Catalog K) : Prop where
  bindings : ∀ e ∈ p.trees, ∀ type id, .binding type id ∈ e.nodes →
    ∃ b, c.bindings[id]? = some b ∧ b.id = id ∧ type = ⟨b.shape, b.isDecision⟩ ∧ c.InRange b.value
  subscripts : ∀ e ∈ p.trees, ∀ a, e.lower c = .ok a → ∀ column ∈ a.support, c.IsColumn column
  columns : ∀ l, p.lower c = .ok l → ∀ column ∈ l.columns,
    c.IsColumn column ∧ column < c.integer.size

/-- In a coherent model the numbers of every sub-problem lead into the catalog. -/
theorem Model.Coherent.leadsInto {m : Model K} (h : m.Coherent) {p : SubProblem K}
    (hp : p ∈ m.problems.all) : p.LeadsInto m.catalog := by
  obtain ⟨c, hbuild, hlater⟩ := h.built
  have hnumbered := Catalog.numbered_of_build hbuild hlater
  refine ⟨fun e he type id hnode => ?_, fun e he a ha column hcolumn => ?_,
    fun l hl column hcolumn => ?_⟩
  · cases ((h.fits p hp).wellTyped.of_mem_trees he).of_mem_nodes hnode with
    | @binding b hb =>
        exact ⟨b, hb, rfl, rfl, h.consistent.inRange hnumbered (Array.mem_of_getElem? hb)⟩
  · have hvariables : Outcome (Affine.VariablesIn m.catalog.IsColumn) AnyError
        (e.lower m.catalog) := by
      refine Typed.outcome_lower_names e fun id _ b hb i columns hvalue => ?_
      have hrange := h.consistent.inRange hnumbered (Array.mem_of_getElem? hb)
      rwa [hvalue] at hrange
    exact (hvariables.value ha).mem_support hcolumn
  · have hlt := Solve.columns_lt_of_lower hbuild hlater hl column hcolumn
    exact ⟨Catalog.isColumn_iff.mpr hlt,
      Nat.lt_of_lt_of_eq hlt.2 (Catalog.size_integer_of_build hbuild hlater).symm⟩

end

/-! ## Runs that succeed -/

section

variable [Scalar K]

/-- Settings that pass their check allow an iteration. -/
theorem Settings.maxIterations_ne_zero {settings : Settings K} (h : settings.validate = .ok ()) :
    settings.maxIterations ≠ 0 := by
  intro hzero
  unfold validate at h
  rw [if_pos hzero] at h
  dsimp only at h
  split at h <;> cases h

end

namespace Model

variable [Scalar K] [Transcendental K] {m m₀ : Model K} {b : Backend σ K} {settings : Settings K}
  {policy : BuildPolicy} {clock : Nat → Duration} {s s' : RunState σ K} {report : RunReport K}

/-- A run that succeeds has built and loaded the model, and has then iterated or solved once. -/
theorem solve_ok (h : solve b settings policy clock s = (.ok report, s')) :
    settings.validate = .ok () ∧ ∃ outcome m₁ m₂ o, s.model.build policy = (.ok outcome, m₁) ∧
      m₁.loadExogenous s.store = (.ok (), m₂) ∧
      (if settings.integrated then runIntegrated b settings o clock { s with model := m₂ }
        else runOnce b settings o { s with model := m₂ }) = (.ok report, s') := by
  unfold solve at h
  split at h
  · cases h
  rename_i hvalid
  split at h
  · cases h
  rename_i outcome m₁ hbuild
  split at h
  · cases h
  rename_i m₂ hload
  unfold runBuilt at h
  split at h
  · cases h
  · rename_i o ho
    exact ⟨hvalid, outcome, m₁, m₂, o, hbuild, hload, h⟩

/-- An iterated run that succeeds ends with a solve of a coherent model. -/
theorem Coherent.isFinal_runIntegrated (h : s.model.Coherent) (hintegrated : settings.integrated = true)
    {o : SolveOptions} (hiterations : settings.maxIterations ≠ 0)
    (hrun : runIntegrated b settings o clock s = (.ok report, s')) :
    ∀ p ∈ s'.model.problems.all, p.status.isFinal = true := by
  obtain ⟨l, loop, hl, -, hrun⟩ := runIntegrated_ok hrun
  obtain ⟨limit, -, rfl⟩ := Option.map_eq_some_iff.mp hl
  have hkeeps := (runKeeps_coherent b settings .keep).coupled hintegrated o
  -- a loop that succeeds has made an iteration, and what it leaves is what the last one left
  rcases ConvergenceLoop.runFrom_ok hkeeps h hrun with ⟨hzero, -⟩ | ⟨t, ht, hlast⟩
  · exact absurd hzero hiterations
  · have hmodel : s'.model = (Model.solveOnce b o t.1.1 t.1.2).1 :=
      congrArg (fun r => r.2.1.1) hlast.symm
    rw [hmodel]
    exact ht.isFinal_solveOnce b o t.1.2

/-- After a run that succeeds every status is final. -/
theorem Coherent.isFinal_of_solve (h : s.model.Coherent)
    (hrun : solve b settings policy clock s = (.ok report, s')) :
    ∀ p ∈ s'.model.problems.all, p.status.isFinal = true := by
  obtain ⟨hvalid, outcome, m₁, m₂, o, hbuild, hload, hrun⟩ := solve_ok hrun
  have hm₁ : m₁.Coherent := by
    have hbuilt := h.build policy
    rwa [hbuild] at hbuilt
  have hm₂ : m₂.Coherent := by
    have hloaded := hm₁.loadExogenous s.store
    rwa [hload] at hloaded
  split at hrun
  · rename_i hintegrated
    exact Coherent.isFinal_runIntegrated (s := { s with model := m₂ }) hm₂ hintegrated
      (Settings.maxIterations_ne_zero hvalid) hrun
  · obtain ⟨hmodel, -⟩ := runOnce_ok hrun
    rw [hmodel, ← solveOnce_eq]
    exact hm₂.isFinal_solveOnce b o s.backend

/-! ## Final statuses -/

/-- Operations that may take a final status back: a reset, a new build, an iterated run. -/
def Operation.Restarts : Operation K → Prop
  | .build policy => policy = .overwrite
  | .loadExogenous _ => False
  | .solve _ settings policy _ _ _ => policy = .overwrite ∨ settings.integrated = true
  | .requestResolve => True
  | .reloadDimension _ _ => False

/-- A build that keeps sub-problems keeps them. -/
theorem build_keep {i : Nat} {p : SubProblem K} (hp : m.problems.all[i]? = some p) :
    m.build .keep = (.ok .kept, m) := by
  have hempty : m.problems.isEmpty = false := by
    cases hentries : m.problems.entries with
    | nil =>
        rw [ProblemSet.all, SortedMap.values, hentries] at hp
        cases hp
    | cons e es => rw [SortedMap.isEmpty, hentries, List.isEmpty_cons]
  rw [build, hempty]
  rfl

/-- A run that neither builds anew nor iterates keeps final statuses. -/
theorem runKeeps_isFinal (b : Backend σ K) (hintegrated : settings.integrated ≠ true) {i : Nat}
    {p : SubProblem K} (hp : p.status.isFinal = true) :
    RunKeeps b settings .keep fun s => s.model.problems.all[i]? = some p where
  build := by
    intro s hs
    simp only [build_keep hs]
    exact hs
  load := fun _ hs => hs
  reset := fun h => absurd h hintegrated
  solve := by
    intro o s hs
    obtain ⟨q, hq, ⟨-, rfl⟩ | ⟨hunsolved, -⟩⟩ :=
      getElem?_of_forall₂ (forall₂_settled b o s.model s.backend) hs
    · exact hq
    · rw [hunsolved] at hp
      cases hp
  push := fun _ hs => hs

/-- A sub-problem in a final status stays as it is, unless an operation restarts it or a reload gives
up all of them. -/
theorem getElem?_perform_of_isFinal {op : Operation K} (hop : ¬ op.Restarts) {i : Nat}
    {p : SubProblem K} (hp : m.problems.all[i]? = some p) (hfinal : p.status.isFinal = true) :
    (m.perform op).problems.all[i]? = some p ∨ ∃ store id m', op = .reloadDimension store id ∧
      m.reloadDimension store id = (.ok (), m') := by
  cases op with
  | build policy =>
      cases policy with
      | overwrite => exact absurd rfl hop
      | keep =>
          simp only [perform, build_keep hp]
          exact .inl hp
  | loadExogenous store => exact .inl hp
  | solve b settings policy clock store memory =>
      obtain ⟨hpolicy, hintegrated⟩ := not_or.mp hop
      cases policy with
      | overwrite => exact absurd rfl hpolicy
      | keep => exact .inl ((runKeeps_isFinal b hintegrated hfinal).run clock hp)
  | requestResolve => exact absurd trivial hop
  | reloadDimension store id =>
      rcases hreload : m.reloadDimension store id with ⟨r, m'⟩
      cases r with
      | ok _ => exact .inr ⟨store, id, m', rfl, hreload⟩
      | error e =>
          simp only [perform, hreload, reloadDimension_error hreload]
          exact .inl hp

/-- After any operations, failed ones among them, a model is consistent.  No sub-problem is being
solved, and the numbers of each one lead into the catalog.  A final status stays until an operation
restarts the sub-problem or a reload gives it up, and a run that succeeds leaves nothing but final
statuses.  A build that fails changes nothing but that there is no sub-problem any more.  A reload
that fails changes nothing, and one that succeeds leaves what is built anew for the registry with
the items of the store, and no sub-problem. -/
theorem consistent_after_operations {sets : Registry} {tables : List TableDeclaration}
    {texts : SortedMap String ModelText} (hm₀ : ofParts sets tables texts = .ok m₀)
    {ops : List (Operation K)} (hm : m₀.performAll ops = m) :
    (∀ p ∈ m.problems.all, p.status ≠ .solving ∧ p.LeadsInto m.catalog) ∧
    (∀ op : Operation K, ¬ op.Restarts → ∀ (i : Nat) (p : SubProblem K),
      m.problems.all[i]? = some p → p.status.isFinal = true →
        (m.perform op).problems.all[i]? = some p ∨
          ∃ store id m', op = .reloadDimension store id ∧
            m.reloadDimension store id = (.ok (), m')) ∧
    (∀ (σ : Type) (b : Backend σ K) settings policy clock store memory report s,
      solve b settings policy clock ⟨m, store, memory⟩ = (.ok report, s) →
        ∀ p ∈ s.model.problems.all, p.status.isFinal = true) ∧
    (∀ policy e m', m.build policy = (.error e, m') → m' = { m with problems := .empty }) ∧
    ∀ store id,
      (∀ e m', m.reloadDimension store id = (.error e, m') →
        m' = m ∧ m.perform (.reloadDimension store id) = m) ∧
      ∀ m', m.reloadDimension store id = (.ok (), m') → m.perform (.reloadDimension store id) = m' ∧
        ∃ dim items, m.sets.get id = .ok dim ∧ store.items dim.tableName = .ok items ∧
          m.sets.setItems id items = .ok m'.sets ∧
          Catalog.build m.tables m'.sets = .ok m'.catalog ∧
          m' = { m with sets := m'.sets, catalog := m'.catalog, problems := .empty } := by
  have hcoherent : m.Coherent := hm ▸ (Coherent.of_ofParts hm₀).performAll ops
  refine ⟨fun p hp => ⟨(hcoherent.fits p hp).rests, hcoherent.leadsInto hp⟩,
    fun op hop i p hp hfinal => getElem?_perform_of_isFinal hop hp hfinal,
    fun σ b settings policy clock store memory report s hrun =>
      Coherent.isFinal_of_solve (s := ⟨m, store, memory⟩) hcoherent hrun,
    fun policy e m' hbuild => ?_,
    fun store id => ⟨fun e m' hreload => ?_, fun m' hreload => ⟨?_, ?_⟩⟩⟩
  · unfold build at hbuild
    split at hbuild
    · cases hbuild
    split at hbuild
    · cases hbuild
    · cases hbuild
      rfl
  · have hsame := reloadDimension_error hreload
    exact ⟨hsame, by simp only [perform, hreload, hsame]⟩
  · simp only [perform, hreload]
  · exact reloadDimension_ok hreload

end Model

/-! ## Stocks of two regions -/

namespace Catalog.Stocks

open Purchases

/-- The plans of both regions. -/
def planned : Model Rat :=
  { model with problems := problems }

theorem performAll_build : model.performAll [.build .overwrite] = planned := by
  have hkeep : (BuildPolicy.overwrite == .keep) = false := rfl
  have hbuild : SubProblems.buildAll model.catalog model.sets model.texts = .ok problems :=
    buildAll_texts
  simp only [Model.performAll, List.foldl_cons, List.foldl_nil, Model.perform, Model.build, hkeep,
    Bool.and_false, Bool.false_eq_true, if_false, hbuild]
  rfl

/-- A store that knows a third good. -/
def widened : Store Rat :=
  ⟨.empty, ⟨[("_set_good", ["a", "b", "c"])]⟩⟩

/-- The plans lead into the catalog.  They are kept if the goods cannot be read, and given up if
there is a third one. -/
theorem consistent_after_operations_stocks : Model.ofParts sets tables texts = .ok model ∧
    model.performAll [.build .overwrite] = planned ∧
    (∀ p ∈ [north, south], p.LeadsInto catalog) ∧
    planned.perform (.reloadDimension .empty "good") = planned ∧
    ∃ m, planned.perform (.reloadDimension widened "good") = m ∧ m.problems = .empty ∧
      build tables m.sets = .ok m.catalog ∧ m.catalog.columnCount = 9 := by
  obtain ⟨hproblems, -, -, -, hreload⟩ :=
    Model.consistent_after_operations ofParts_model performAll_build
  obtain ⟨hfailed, -⟩ := hreload .empty "good"
  obtain ⟨-, hsucceeded⟩ := hreload widened "good"
  have hok : (planned.reloadDimension widened "good").1 = .ok () := by decide +kernel
  have hcount : (planned.reloadDimension widened "good").2.catalog.columnCount = 9 := by
    decide +kernel
  obtain ⟨hperform, _, _, -, -, -, hbuild, heq⟩ := hsucceeded _ (Prod.ext hok rfl)
  refine ⟨ofParts_model, performAll_build, fun p hp => (hproblems p hp).2,
    (hfailed (.missing (.storedDimension "_set_good")) planned rfl).2, _, hperform, ?_, hbuild,
    hcount⟩
  rw [heq]

end Catalog.Stocks

end CoupledModels
