import CoupledModels.Proofs.Catalog.Fresh
import CoupledModels.Proofs.Model.Ownership
import CoupledModels.Proofs.Solve.Course

/-!
# Operations on a model

A model is built, loaded, solved, reset and reloaded, in any order, and any of these may fail.
`Model.perform` is what one operation leaves behind, also if it fails.  Sub-problems hold numbers of
bindings only, while a reload replaces the catalog; `Model.Coherent` says that the numbers lead to
bindings of the catalog that the sub-problems have been compiled with, and every operation keeps it.
-/

namespace CoupledModels

variable {σ K : Type} [Scalar K] [Transcendental K]

namespace Model

/-- A build changes sub-problems only. -/
theorem build_eq (m : Model K) (policy : BuildPolicy) :
    (m.build policy).2 = { m with problems := (m.build policy).2.problems } := by
  unfold build
  split
  · rfl
  · split <;> rfl

/-! ## What runs keep -/

/-- Every step that a run can make keeps a property, also a step that fails.  Only an iterated run
resets sub-problems. -/
structure RunKeeps (b : Backend σ K) (settings : Settings K) (policy : BuildPolicy)
    (I : RunState σ K → Prop) : Prop where
  build : ∀ s, I s → I { s with model := (s.model.build policy).2 }
  load : ∀ s, I s → I { s with model := (s.model.loadExogenous s.store).2 }
  reset : settings.integrated = true → ∀ s, I s → I { s with model := s.model.requestResolve }
  solve : ∀ o s, I s →
    I ⟨(solveOnce b o s.model s.backend).1, s.store, (solveOnce b o s.model s.backend).2⟩
  push : ∀ s, I s → I { s with store := (s.model.pushEndogenous settings.roundDigits s.store).2 }

namespace RunKeeps

variable {b : Backend σ K} {settings : Settings K} {policy : BuildPolicy}
  {I : RunState σ K → Prop} {s : RunState σ K} (h : RunKeeps b settings policy I)
include h

theorem coupled (hintegrated : settings.integrated = true) (o : SolveOptions) :
    (coupled b o settings.roundDigits).Keeps fun t => I ⟨t.1.1, t.2, t.1.2⟩ where
  refresh := fun t store hs => h.load ⟨t.1, store, t.2⟩ hs
  reset := fun t store hs => h.reset hintegrated ⟨t.1, store, t.2⟩ hs
  solveAll := fun t store hs => h.solve o ⟨t.1, store, t.2⟩ hs
  push := fun t store hs => h.push ⟨t.1, store, t.2⟩ hs

theorem runIntegrated (hintegrated : settings.integrated = true) (o : SolveOptions)
    (clock : Nat → Duration) (hs : I s) : I (runIntegrated b settings o clock s).2 := by
  unfold Model.runIntegrated
  split
  · exact hs
  · rename_i l hl
    exact ConvergenceLoop.keeps_run (h.coupled hintegrated o) l clock
      (s := ((s.model, s.backend), s.store)) hs

theorem runOnce (o : SolveOptions) (hs : I s) : I (runOnce b settings o s).2 :=
  h.push _ (h.solve o s hs)

theorem runBuilt (clock : Nat → Duration) (hs : I s) : I (runBuilt b settings clock s).2 := by
  unfold Model.runBuilt
  split
  · exact hs
  split
  · rename_i hintegrated
    exact h.runIntegrated hintegrated _ clock hs
  · exact h.runOnce _ hs

/-- A run keeps what each of its steps keeps, wherever it ends. -/
theorem run (clock : Nat → Duration) (hs : I s) : I (Model.solve b settings policy clock s).2 := by
  unfold Model.solve
  split
  · exact hs
  have hbuild := h.build s hs
  split
  · rename_i heq
    rwa [heq] at hbuild
  rename_i m heq
  rw [heq] at hbuild
  have hload := h.load _ hbuild
  split
  · rename_i heq'
    rwa [heq'] at hload
  · rename_i m' heq'
    rw [heq'] at hload
    exact h.runBuilt clock hload

end RunKeeps

/-! ## Operations -/

/-- An operation on a model, with the stores and backends that it is given. -/
inductive Operation (K : Type) : Type 1 where
  | build (policy : BuildPolicy)
  | loadExogenous (store : Store K)
  | solve {σ : Type} (b : Backend σ K) (settings : Settings K) (policy : BuildPolicy)
      (clock : Nat → Duration) (store : Store K) (memory : σ)
  | requestResolve
  | reloadDimension (store : Store K) (id : String)

/-- The model after an operation. -/
def perform (m : Model K) : Operation K → Model K
  | .build policy => (m.build policy).2
  | .loadExogenous store => (m.loadExogenous store).2
  | .solve b settings policy clock store memory =>
      (Model.solve b settings policy clock ⟨m, store, memory⟩).2.model
  | .requestResolve => m.requestResolve
  | .reloadDimension store id => (m.reloadDimension store id).2

/-- The model after some operations. -/
def performAll (m : Model K) (ops : List (Operation K)) : Model K :=
  ops.foldl perform m

end Model

/-! ## Sub-problems that fit their catalog -/

/-- A sub-problem has been compiled with the bindings of a catalog for a key of the registry, and
nobody is solving it. -/
structure SubProblem.Fits (sets : Registry) (bs : Array Binding) (p : SubProblem K) : Prop where
  wellTyped : p.WellTyped bs
  key : p.key ∈ sets.problemKeys
  selected : ∀ e ∈ p.trees, ∀ id ∈ e.names, ∃ b, bs[id]? = some b ∧ b.appliesTo p.key = true
  rests : p.status ≠ .solving

omit [Scalar K] [Transcendental K] in
theorem SubProblem.Fits.finish {sets : Registry} {bs : Array Binding} {p : SubProblem K}
    (h : p.Fits sets bs) {status : Status} (hstatus : status ≠ .solving) :
    (p.finish status).Fits sets bs :=
  ⟨⟨h.wellTyped.constraints, h.wellTyped.terms⟩, h.key, h.selected, hstatus⟩

/-- Every sub-problem is one of a model that has been built. -/
theorem SubProblems.exists_build_of_mem_all {c : Catalog K} {sets : Registry}
    {texts : SortedMap String ModelText} {ps : ProblemSet K} (h : buildAll c sets texts = .ok ps)
    {p : SubProblem K} (hp : p ∈ ps.all) :
    ∃ name m one, build c sets name m = .ok one ∧ p ∈ one.values := by
  obtain ⟨entries, hentries, heq⟩ := exists_of_bind_eq_ok h
  cases heq
  obtain ⟨one, hone, hp⟩ := List.mem_flatMap.mp hp
  obtain ⟨name, hname⟩ := SortedMap.mem_values_ofList hone
  obtain ⟨⟨_, m⟩, -, hbuild⟩ := exists_left_of_forall₂ (forall₂_of_mapM hentries) hname
  obtain ⟨built, hbuilt, heq⟩ := exists_of_bind_eq_ok hbuild
  cases heq
  exact ⟨name, m, _, hbuilt, hp⟩

theorem SubProblems.fits_of_buildAll {c : Catalog K} {sets : Registry}
    {texts : SortedMap String ModelText} {ps : ProblemSet K} (hc : c.Addressed)
    (h : buildAll c sets texts = .ok ps) : ∀ p ∈ ps.all, p.Fits sets c.bindings := by
  intro p hp
  obtain ⟨hkey, htrees⟩ := compiledFor_of_buildAll h p hp
  obtain ⟨name, m, one, hone, hmem⟩ := exists_build_of_mem_all h hp
  refine ⟨wellTyped_of_build hc hone p hmem, hkey, fun e he id hid => ?_, ?_⟩
  · obtain ⟨text, instances, hcompile, i, hi, hform⟩ := htrees e he
    exact Formula.names_of_compile hc hcompile hi hform hid
  · rw [unsolved_buildAll h p hp]
    exact nofun

namespace Solve

omit [Scalar K] [Transcendental K] in
/-- Every answer ends a solve. -/
theorem isFinal_statusOf (l : LinearProblem K) (r : Except ModelError (Solution K)) :
    (statusOf l r).isFinal = true := by
  unfold statusOf
  split
  · rfl
  split
  · split <;> rfl
  all_goals rfl

/-- What becomes of a sub-problem in a solve: an unsolved one ends in a final status, and any other
one is left alone. -/
theorem settled_of_answer {c : Catalog K} {p : SubProblem K} {a : Answered K}
    (hjob : a.1 = prepare c p) (hlinear : a.2.map Prod.fst = a.1.linear) :
    (p.status ≠ .unsolved ∧ a.settled = p) ∨
      (p.status = .unsolved ∧ ∃ status, status.isFinal = true ∧ a.settled = p.finish status) := by
  by_cases hp : p.status = .unsolved
  · rw [hjob] at hlinear
    have hsettles := settles_of_answer hp hjob hlinear
    refine .inr ⟨hp, _, ?_, hsettles.settled⟩
    -- without an answer the sub-problem could not be lowered, and that is final as well
    obtain ⟨j, answer⟩ := a
    obtain rfl : j = prepare c p := hjob
    cases answer with
    | some answer => exact isFinal_statusOf answer.1 answer.2
    | none =>
        cases hlower : p.lower c with
        | error e =>
            rw [prepare_of_error hp hlower]
            rfl
        | ok l =>
            rw [prepare_of_lower hp hlower] at hlinear
            cases hlinear
  · rw [prepare_of_begun hp] at hjob
    obtain ⟨j, answer⟩ := a
    obtain rfl : j = ⟨p, none⟩ := hjob
    obtain rfl : answer = none := by simpa using hlinear
    exact .inl ⟨hp, rfl⟩

end Solve

/-! ## Coherent models -/

/-- The catalog is what has become of one that has been built of the tables, and the sub-problems
fit it. -/
structure Model.Coherent (m : Model K) : Prop where
  built : ∃ c, Catalog.build m.tables m.sets = .ok c ∧ c.Later m.catalog
  fits : ∀ p ∈ m.problems.all, p.Fits m.sets m.catalog.bindings

namespace Model

variable {m : Model K}

/-- The sub-problems of a solve, each with what becomes of it. -/
theorem forall₂_settled (b : Backend σ K) (o : SolveOptions) (m : Model K) (memory : σ) :
    List.Forall₂ (fun p q => (p.status ≠ .unsolved ∧ q = p) ∨
      (p.status = .unsolved ∧ ∃ status : Status, status.isFinal = true ∧ q = p.finish status))
      m.problems.all (solveOnce b o m memory).1.problems.all := by
  have hanswers := List.forall₂_map_left_iff.mp
    (Solve.forall₂_ask b o (m.problems.all.map (Solve.prepare m.catalog)) memory)
  have hall : (m.problems.refill ((answers b o m memory).map Solve.Answered.settled)).all =
      (answers b o m memory).map Solve.Answered.settled := by
    refine ProblemSet.all_refill ?_
    rw [List.length_map]
    exact hanswers.length_eq.symm
  rw [solveOnce_eq, settle, hall, List.forall₂_map_right_iff]
  exact hanswers.imp fun p a ha => Solve.settled_of_answer ha.1 (ha.2.trans (by rw [ha.1]))

theorem later_solveOnce (b : Backend σ K) (o : SolveOptions) (m : Model K) (memory : σ) :
    m.catalog.Later (solveOnce b o m memory).1.catalog := by
  rw [solveOnce_eq, settle]
  -- the answers give pairs, while a catalog takes columns and their values as two lists
  generalize (answers b o m memory).flatMap Solve.Answered.assignments = es
  have hes : es = (es.map Prod.fst).zip (es.map Prod.snd) := List.zip_of_prod rfl rfl
  rw [hes]
  exact .setValues _ _ .refl

namespace Coherent

omit [Transcendental K] in
theorem of_ofParts {sets : Registry} {tables : List TableDeclaration}
    {texts : SortedMap String ModelText} (h : ofParts sets tables texts = .ok m) : m.Coherent := by
  obtain ⟨c, hbuild, heq⟩ := exists_of_bind_eq_ok h
  cases heq
  exact ⟨⟨c, hbuild, .refl⟩, List.forall_mem_nil _⟩

variable (h : m.Coherent)
include h

omit [Transcendental K] in
theorem consistent : m.catalog.Consistent m.tables m.sets := by
  obtain ⟨c, hbuild, hlater⟩ := h.built
  exact Catalog.consistent_of_build hbuild hlater

omit [Transcendental K] in
/-- More data for the catalog. -/
theorem withCatalog {d : Catalog K} (hd : m.catalog.Later d) :
    ({ m with catalog := d } : Model K).Coherent := by
  obtain ⟨c, hbuild, hlater⟩ := h.built
  refine ⟨⟨c, hbuild, hlater.trans hd⟩, ?_⟩
  rw [show d.bindings = m.catalog.bindings from (hd.refills h.consistent.addressed).1.bindings]
  exact h.fits

omit [Transcendental K] in
theorem withProblems {ps : ProblemSet K} (hps : ∀ p ∈ ps.all, p.Fits m.sets m.catalog.bindings) :
    ({ m with problems := ps } : Model K).Coherent :=
  ⟨h.built, hps⟩

theorem build (policy : BuildPolicy) : (m.build policy).2.Coherent := by
  unfold Model.build
  split
  · exact h
  split
  · rename_i ps hps
    exact h.withProblems (SubProblems.fits_of_buildAll h.consistent.addressed hps)
  · exact h.withProblems (List.forall_mem_nil _)

omit [Transcendental K] in
theorem loadExogenous (store : Store K) : (m.loadExogenous store).2.Coherent :=
  h.withCatalog (.loadExogenous store .refl)

omit [Transcendental K] in
theorem requestResolve : m.requestResolve.Coherent := by
  refine h.withProblems fun p hp => ?_
  rw [ProblemSet.all_map] at hp
  obtain ⟨q, hq, rfl⟩ := List.mem_map.mp hp
  exact (h.fits q hq).finish nofun

theorem solveOnce (b : Backend σ K) (o : SolveOptions) (memory : σ) :
    (solveOnce b o m memory).1.Coherent := by
  have hfits : ∀ q ∈ (Model.solveOnce b o m memory).1.problems.all,
      q.Fits m.sets m.catalog.bindings := by
    intro q hq
    obtain ⟨p, hp, ⟨-, rfl⟩ | ⟨-, status, hfinal, rfl⟩⟩ :=
      exists_left_of_forall₂ (forall₂_settled b o m memory) hq
    · exact h.fits q hp
    · refine (h.fits p hp).finish ?_
      rintro rfl
      cases hfinal
  exact (h.withProblems hfits).withCatalog (later_solveOnce b o m memory)

/-- After a solve every status is final. -/
theorem isFinal_solveOnce (b : Backend σ K) (o : SolveOptions) (memory : σ) :
    ∀ q ∈ (Model.solveOnce b o m memory).1.problems.all, q.status.isFinal = true := by
  intro q hq
  obtain ⟨p, hp, ⟨hstatus, rfl⟩ | ⟨-, status, hfinal, rfl⟩⟩ :=
    exists_left_of_forall₂ (forall₂_settled b o m memory) hq
  · have hrests := (h.fits q hp).rests
    cases hq' : q.status <;> simp_all [Status.isFinal]
  · exact hfinal

end Coherent

/-- Runs keep models coherent. -/
theorem runKeeps_coherent (b : Backend σ K) (settings : Settings K) (policy : BuildPolicy) :
    RunKeeps b settings policy fun s => s.model.Coherent where
  build := fun _ hs => hs.build policy
  load := fun s hs => hs.loadExogenous s.store
  reset := fun _ _ hs => hs.requestResolve
  solve := fun o s hs => hs.solveOnce b o s.backend
  push := fun _ hs => hs

/-- The model that takes the place of another one, which stays if there is none. -/
def replaced (m : Model K) : Except ModelError (Model K) → Except ModelError Unit × Model K
  | .ok m' => (.ok (), m')
  | .error e => (.error e, m)

omit [Scalar K] [Transcendental K] in
theorem replaced_eq_ok {r : Except ModelError (Model K)} {m' : Model K} :
    m.replaced r = (.ok (), m') ↔ r = .ok m' := by
  cases r <;> simp [replaced]

omit [Transcendental K] in
/-- A reload makes the model anew or leaves it as it is: nothing is changed before the last step
that can fail, and the dimension is still there when it is asked for at the end. -/
theorem reloadDimension_eq_replaced (m : Model K) (store : Store K) (id : String) :
    m.reloadDimension store id = m.replaced (do
      let d ← m.sets.get id
      let items ← store.items d.tableName
      let sets ← m.sets.setItems id items
      ofParts sets m.tables m.texts) := by
  unfold reloadDimension
  cases hdim : m.sets.get id with
  | error e => rfl
  | ok d =>
      dsimp only [bind, Except.bind]
      cases hitems : store.items d.tableName with
      | error e => rfl
      | ok items =>
          dsimp only
          cases hsets : m.sets.setItems id items with
          | error e => rfl
          | ok sets =>
              dsimp only [ofParts, bind, Except.bind]
              cases hcatalog : (Catalog.build m.tables sets : Except ModelError (Catalog K)) with
              | error e => rfl
              | ok catalog =>
                  obtain ⟨d', hd'⟩ := Registry.get_of_setItems hsets
                  simp only [hd']
                  rfl

omit [Transcendental K] in
/-- A reload that succeeds starts anew: the dimension has the items of the store, the catalog is
built for the registry with these items, and there is no sub-problem. -/
theorem reloadDimension_ok {store : Store K} {id : String} {m' : Model K}
    (h : m.reloadDimension store id = (.ok (), m')) :
    ∃ dim items, m.sets.get id = .ok dim ∧ store.items dim.tableName = .ok items ∧
      m.sets.setItems id items = .ok m'.sets ∧ Catalog.build m.tables m'.sets = .ok m'.catalog ∧
      m' = { m with sets := m'.sets, catalog := m'.catalog, problems := .empty } := by
  rw [reloadDimension_eq_replaced, replaced_eq_ok] at h
  obtain ⟨dim, hdim, h⟩ := exists_of_bind_eq_ok h
  obtain ⟨items, hitems, h⟩ := exists_of_bind_eq_ok h
  obtain ⟨sets, hsets, h⟩ := exists_of_bind_eq_ok h
  obtain ⟨catalog, hcatalog, heq⟩ := exists_of_bind_eq_ok h
  cases heq
  exact ⟨dim, items, hdim, hitems, hsets, hcatalog, rfl⟩

omit [Transcendental K] in
/-- A reload that fails changes nothing. -/
theorem reloadDimension_error {store : Store K} {id : String} {e : ModelError} {m' : Model K}
    (h : m.reloadDimension store id = (.error e, m')) : m' = m := by
  rw [reloadDimension_eq_replaced] at h
  unfold replaced at h
  split at h
  · cases h
  · cases h
    rfl

omit [Transcendental K] in
theorem coherent_of_reloadDimension {store : Store K} {id : String} {m' : Model K}
    (h : m.reloadDimension store id = (.ok (), m')) : m'.Coherent := by
  obtain ⟨_, _, -, -, -, hbuild, heq⟩ := reloadDimension_ok h
  rw [heq]
  exact ⟨⟨_, hbuild, .refl⟩, List.forall_mem_nil _⟩

/-- Every operation keeps a model coherent. -/
theorem Coherent.perform (h : m.Coherent) (op : Operation K) : (m.perform op).Coherent := by
  cases op with
  | build policy => exact h.build policy
  | loadExogenous store => exact h.loadExogenous store
  | solve b settings policy clock store memory =>
      exact (runKeeps_coherent b settings policy).run clock h
  | requestResolve => exact h.requestResolve
  | reloadDimension store id =>
      rcases hreload : m.reloadDimension store id with ⟨r, m'⟩
      simp only [Model.perform, hreload]
      cases r with
      | ok _ => exact coherent_of_reloadDimension hreload
      | error e => exact reloadDimension_error hreload ▸ h

/-- A model stays coherent, whatever is done to it. -/
theorem Coherent.performAll (h : m.Coherent) (ops : List (Operation K)) :
    (m.performAll ops).Coherent :=
  List.foldlRecOn ops _ h fun _ hm op _ => hm.perform op

end Model

end CoupledModels
