import CoupledModels.Proofs.Model.Logging
import CoupledModels.Proofs.Model.Pushing
import CoupledModels.Proofs.Solve.Isolation
import CoupledModels.Proofs.Store.Changes

/-!
# What a run leaves alone

A run writes to the store and nothing else outside the model, and there it touches the rows of decided
columns alone.  The argument follows the values: a column has one only if it was in a problem that has
been solved since the catalog was built, whatever has been done in between, and such a problem has no
columns but those of its sub-problem.
-/

namespace CoupledModels

variable {σ K : Type} [Scalar K]

/-! ## Columns with values -/

/-- Loading parameters records no solution value. -/
theorem Catalog.values_loadParameters (store : Store K) (indexes : List Nat) (c : Catalog K) :
    (loadParameters store indexes c).2.values = c.values := by
  induction indexes generalizing c with
  | nil => rfl
  | cons index rest ih =>
      unfold loadParameters
      split
      · exact ih c
      split
      · exact ih c
      split
      · rfl
      · exact ih _

variable [Transcendental K]

/-- Sub-problems of a coherent model have columns of their own only. -/
theorem Model.Coherent.owned_of_lower {m : Model K} (h : m.Coherent) {p : SubProblem K}
    (hp : p ∈ m.problems.all) {l : LinearProblem K} (hl : p.lower m.catalog = .ok l) :
    ∀ column ∈ l.columns, m.catalog.Owned m.tables m.sets p.key column := by
  obtain ⟨c, hbuild, hlater⟩ := h.built
  have hplaced := Catalog.placed_of_build hbuild hlater
  have hfits := h.fits p hp
  refine SubProblem.forall_columns_of_lower (fun e he => ?_) hl
  refine Typed.outcome_lower_names e fun id hid b hb i columns hvalue => ?_
  obtain ⟨b', hb', happlies⟩ := hfits.selected e he id hid
  obtain rfl : b' = b := Option.some.inj (hb'.symm.trans hb)
  exact h.consistent.owned_of_slice hplaced hfits.key (Array.mem_of_getElem? hb) happlies hvalue

namespace Model

variable {m m' : Model K} {log : AnswerLog K} {b : Backend σ K} {o : SolveOptions} {s : σ}

/-- What is noted in a solve are answers to linear problems of the model. -/
theorem exists_lower_of_mem_log {e : LinearProblem K × Except ModelError (Solution K)}
    (he : e ∈ (answers b o m s).filterMap Prod.snd) :
    ∃ p ∈ m.problems.all, p.lower m.catalog = .ok e.1 := by
  obtain ⟨a, ha, hnoted⟩ := List.mem_filterMap.mp he
  have hanswers := List.forall₂_map_left_iff.mp
    (Solve.forall₂_ask b o (m.problems.all.map (Solve.prepare m.catalog)) s)
  obtain ⟨p, hp, -, hlinear⟩ := exists_left_of_forall₂ hanswers ha
  rw [hnoted, Solve.linear_prepare] at hlinear
  exact ⟨p, hp, Solve.lower_of_asked? hlinear.symm⟩

omit [Scalar K] [Transcendental K] in
/-- A column that is assigned a value is one of a problem that has been solved. -/
theorem decides_of_mem_assignments {as : List (Solve.Answered K)} {column : Nat}
    (h : column ∈ (as.flatMap Solve.Answered.assignments).map Prod.fst) :
    AnswerLog.Decides (as.filterMap Prod.snd) column := by
  obtain ⟨⟨_, v⟩, he, rfl⟩ := List.mem_map.mp h
  obtain ⟨a, ha, he⟩ := List.mem_flatMap.mp he
  unfold Solve.Answered.assignments at he
  split at he
  · rename_i l solution hnoted
    split at he
    · rename_i hsolved
      exact ⟨(l, .ok solution), List.mem_filterMap.mpr ⟨a, ha, hnoted⟩, hsolved,
        (List.of_mem_zip he).1⟩
    · cases he
  · cases he

/-- Every column with a value was in a problem that has been solved, and problems had no columns but
those of sub-problems. -/
structure Accounted (m : Model K) (log : AnswerLog K) : Prop where
  coherent : m.Coherent
  solved : ∀ column, 0 < column → (m.catalog.value? column).isSome = true → log.Decides column
  owned : ∀ e ∈ log, ∀ column ∈ e.1.columns, ∃ key ∈ m.sets.problemKeys,
    m.catalog.Owned m.tables m.sets key column

namespace Accounted

omit [Transcendental K] in
/-- A catalog that has just been built has no values to account for. -/
theorem of_build (h : m.Coherent) (hbuild : Catalog.build m.tables m.sets = .ok m.catalog) :
    m.Accounted [] where
  coherent := h
  solved := by
    intro column hcolumn hvalue
    rw [(Catalog.fresh_of_build hbuild).unsolved column hcolumn] at hvalue
    cases hvalue
  owned := List.forall_mem_nil _

variable (h : m.Accounted log)
include h

omit [Transcendental K] in
/-- Other sub-problems and other data. -/
theorem congr (hm' : m'.Coherent) (htables : m'.tables = m.tables) (hsets : m'.sets = m.sets)
    (hblocks : m'.catalog.blocks = m.catalog.blocks)
    (hvalues : m'.catalog.values = m.catalog.values) : m'.Accounted log where
  coherent := hm'
  solved := by
    unfold Catalog.value?
    rw [hvalues]
    exact h.solved
  owned := by
    unfold Catalog.Owned
    rw [htables, hsets, hblocks]
    exact h.owned

theorem build (policy : BuildPolicy) : (m.build policy).2.Accounted log := by
  have hcoherent := h.coherent.build policy
  rw [build_eq] at hcoherent ⊢
  exact h.congr hcoherent rfl rfl rfl rfl

omit [Transcendental K] in
theorem blocks_loadExogenous (store : Store K) :
    (m.loadExogenous store).2.catalog.blocks = m.catalog.blocks :=
  (Catalog.refills_loadParameters store _ h.coherent.consistent.addressed).1.blocks

omit [Transcendental K] in
theorem loadExogenous (store : Store K) : (m.loadExogenous store).2.Accounted log :=
  h.congr (h.coherent.loadExogenous store) rfl rfl (h.blocks_loadExogenous store)
    (Catalog.values_loadParameters store _ m.catalog)

omit [Transcendental K] in
theorem requestResolve : m.requestResolve.Accounted log :=
  h.congr h.coherent.requestResolve rfl rfl rfl rfl

/-- A solve accounts for the values that it records. -/
theorem solveOnce (b : Backend σ K) (o : SolveOptions) (s : σ) :
    (solveOnce b o m s).1.Accounted (log ++ (answers b o m s).filterMap Prod.snd) where
  coherent := h.coherent.solveOnce b o s
  solved := by
    intro column hcolumn hvalue
    rw [solveOnce_eq] at hvalue
    have hlt : column < m.catalog.values.size := by
      by_contra hge
      have hsize := Nat.not_lt.mp hge
      simp [settle, Catalog.value?, hsize] at hvalue
    -- the value is that of an answer to this solve, or it was there before
    rcases (Catalog.isSome_value?_assign hlt).mp hvalue with hassigned | hold
    · obtain ⟨e, he, hsolved, hmem⟩ := decides_of_mem_assignments hassigned
      exact ⟨e, List.mem_append_right _ he, hsolved, hmem⟩
    · exact (h.solved column hcolumn hold).append _
  owned := by
    intro e he column hcolumn
    rw [solveOnce_eq]
    rcases List.mem_append.mp he with he | he
    · exact h.owned e he column hcolumn
    · obtain ⟨p, hp, hl⟩ := exists_lower_of_mem_log he
      exact ⟨p.key, (h.coherent.fits p hp).key, h.coherent.owned_of_lower hp hl column hcolumn⟩

end Accounted

/-- Runs keep account of the values. -/
theorem runKeeps_accounted (b : Backend σ K) (settings : Settings K) (policy : BuildPolicy) :
    RunKeeps b.logging settings policy fun s => s.model.Accounted s.backend.2 where
  build := fun _ hs => hs.build policy
  load := fun s hs => hs.loadExogenous s.store
  reset := fun _ _ hs => hs.requestResolve
  solve := by
    rintro o ⟨m, store, memory, log⟩ hs
    simp only [solveOnce_logging]
    exact hs.solveOnce b o memory
  push := fun _ hs => hs

end Model

namespace LoggedModel

/-- Every operation keeps account of the values. -/
theorem accounted_perform {s : LoggedModel K} (h : s.model.Accounted s.log)
    (op : Model.Operation K) : (s.perform op).model.Accounted (s.perform op).log := by
  cases op with
  | build policy => exact h.build policy
  | loadExogenous store => exact h.loadExogenous store
  | solve b settings policy clock store memory =>
      exact (Model.runKeeps_accounted b settings policy).run clock
        (s := ⟨s.model, store, memory, s.log⟩) h
  | requestResolve => exact h.requestResolve
  | reloadDimension store id =>
      simp only [perform]
      rcases hreload : s.model.reloadDimension store id with ⟨r, m⟩
      cases r with
      | error e => exact Model.reloadDimension_error hreload ▸ h
      | ok _ =>
          -- the values are gone with the catalog that they were in, and so are the answers
          obtain ⟨_, _, -, -, -, hbuild, heq⟩ := Model.reloadDimension_ok hreload
          refine .of_build (Model.coherent_of_reloadDimension hreload) ?_
          rw [show m.tables = s.model.tables by rw [heq]]
          exact hbuild

/-- Whatever has been done to a model, its values are accounted for. -/
theorem accounted_performAll {m : Model K} {sets : Registry} {tables : List TableDeclaration}
    {texts : SortedMap String ModelText} (hm : Model.ofParts sets tables texts = .ok m)
    (ops : List (Model.Operation K)) :
    (performAll ⟨m, []⟩ ops).model.Accounted (performAll ⟨m, []⟩ ops).log := by
  refine List.foldlRecOn (motive := fun s : LoggedModel K => s.model.Accounted s.log) ops _ ?_
    fun s hs op _ => accounted_perform hs op
  obtain ⟨hbuild, rfl, rfl⟩ := Model.ofParts_ok hm
  exact .of_build (.of_ofParts hm) hbuild

/-- A row is that of a decision column of a problem that has been solved. -/
def DecidedRow (s : LoggedModel K) (name : String) (coords : List String) : Prop :=
  ∃ column, s.model.catalog.HasColumn name coords column ∧ s.log.Decides column

omit [Scalar K] [Transcendental K] in
/-- A row stays decided while the blocks stay and answers are added. -/
theorem DecidedRow.mono {s t : LoggedModel K} {name : String} {coords : List String}
    (h : s.DecidedRow name coords) (hblocks : t.model.catalog.blocks = s.model.catalog.blocks)
    (hlog : ∀ column, s.log.Decides column → t.log.Decides column) : t.DecidedRow name coords := by
  obtain ⟨column, hcolumn, hdecides⟩ := h
  refine ⟨column, ?_, hlog column hdecides⟩
  rwa [Catalog.HasColumn, Catalog.blocksOf_congr hblocks]

end LoggedModel

/-! ## Rows that are written -/

namespace Model

variable {m : Model K} {log : AnswerLog K}

omit [Transcendental K] in
/-- The rows of the results are decided, and they have values. -/
theorem Accounted.decidedRow (h : m.Accounted log) {digits : UInt32} {name : String}
    {rows : List (Row K)} (hrows : (name, rows) ∈ (m.catalog.endogenousRows digits).entries) :
    ∀ r ∈ rows, r.value.isSome = true ∧ LoggedModel.DecidedRow ⟨m, log⟩ name r.coords := by
  intro r hr
  obtain ⟨-, rfl⟩ := Catalog.mem_endogenousRows hrows
  obtain ⟨block, hblock, hr⟩ := List.mem_flatMap.mp hr
  obtain ⟨column, v, hcolumn, hv, hvalue⟩ := Catalog.mem_solvedRows hr
  obtain ⟨c, hbuild, hlater⟩ := h.coherent.built
  have hmem : block ∈ m.catalog.blocks := Array.mem_toList_iff.mp (List.mem_filter.mp hblock).1
  have hpos := ((Catalog.numbered_of_build hbuild hlater).column_lt hmem
    (List.of_mem_zip hcolumn).2).1
  refine ⟨by rw [hvalue]; rfl, column, ⟨block, hblock, hcolumn⟩, h.solved column hpos ?_⟩
  rw [hv]
  rfl

/-- A run that has been noted, with a store of which nothing has been changed but decided rows. -/
structure Framed (store : Store K) (s : RunState (σ × AnswerLog K) K) : Prop where
  accounted : s.model.Accounted s.backend.2
  wellFormed : s.store.WellFormed
  changes : store.ChangesOnly (LoggedModel.DecidedRow ⟨s.model, s.backend.2⟩) s.store

omit [Transcendental K] in
/-- Other steps than writes leave the store alone, and decided rows stay decided. -/
theorem Framed.withModel {store : Store K} {s : RunState (σ × AnswerLog K) K} (h : Framed store s)
    {m : Model K} {memory : σ} {log : AnswerLog K} (haccounted : m.Accounted log)
    (hblocks : m.catalog.blocks = s.model.catalog.blocks)
    (hlog : ∀ column, AnswerLog.Decides s.backend.2 column → log.Decides column) :
    Framed store ⟨m, s.store, memory, log⟩ :=
  ⟨haccounted, h.wellFormed, h.changes.mono fun _ _ hdecided => hdecided.mono hblocks hlog⟩

/-- Every step of a run keeps the frame. -/
theorem runKeeps_framed (b : Backend σ K) (settings : Settings K) (policy : BuildPolicy)
    (store : Store K) : RunKeeps b.logging settings policy (Framed store) where
  build := by
    intro s hs
    refine hs.withModel (hs.accounted.build policy) ?_ fun _ => id
    rw [build_eq]
  load := fun s hs => hs.withModel (hs.accounted.loadExogenous s.store)
    (hs.accounted.blocks_loadExogenous s.store) fun _ => id
  reset := fun _ _ hs => hs.withModel hs.accounted.requestResolve rfl fun _ => id
  solve := by
    rintro o ⟨m, store', memory, log⟩ hs
    simp only [solveOnce_logging]
    refine hs.withModel (hs.accounted.solveOnce b o memory) ?_ fun _ h => h.append _
    rw [solveOnce_eq]
    rfl
  push := by
    intro s hs
    refine ⟨hs.accounted, wellFormed_pushTables hs.wellFormed, hs.changes.trans ?_⟩
    -- by induction on the tables of the results, each of which is written to a well-formed store
    refine (pushTables_induction (P := fun t => t.WellFormed ∧
      s.store.ChangesOnly (LoggedModel.DecidedRow ⟨s.model, s.backend.2⟩) t)
      (fun e he t ht => ⟨ht.1.putRows, ht.2.trans ?_⟩) ⟨hs.wellFormed, .refl _ _⟩).2
    exact .putRows ht.1 (hs.accounted.decidedRow he)

omit [Transcendental K] in
/-- A row of a block is decided only for a sub-problem that agrees with the key of the block and that
decides the table. -/
theorem Accounted.exists_key (h : m.Accounted log) {table : TableDeclaration}
    (htable : table ∈ m.tables) {block : Block} (hblock : block ∈ m.catalog.blocks)
    (hname : block.table = table.name) {coords : List String} (hcoords : coords ∈ block.coords)
    (hdecided : LoggedModel.DecidedRow ⟨m, log⟩ table.name coords) :
    ∃ key ∈ m.sets.problemKeys, key.agreesWith block.key.coords = true ∧
      table.kind.kindFor key = .ok .endogenous := by
  obtain ⟨column, ⟨found, hfound, hrow⟩, e, he, -, hmem⟩ := hdecided
  obtain ⟨hfound, hfoundName⟩ := List.mem_filter.mp hfound
  obtain ⟨c, hbuild, hlater⟩ := h.coherent.built
  have hnumbered := Catalog.numbered_of_build hbuild hlater
  have hkeyed := Catalog.keyed_of_build hbuild hlater
  have hnames := h.coherent.consistent.names
  obtain ⟨key, hkey, owner, howner, hcolumn, t, hfor⟩ := h.owned e he column hmem
  obtain rfl : owner = found := hnumbered.block_unique howner (Array.mem_toList_iff.mp hfound)
    hcolumn (List.of_mem_zip hrow).2
  -- both blocks hold the row, so both have the items of the row in the splitting coordinates
  obtain ⟨t₁, ht₁, hname₁, hkey₁⟩ := hkeyed owner howner
  obtain ⟨t₂, ht₂, hname₂, hkey₂⟩ := hkeyed block hblock
  have hownerName : owner.table = table.name := eq_of_beq hfoundName
  obtain rfl : t₁ = table :=
    List.inj_on_of_nodup_map hnames ht₁ htable (hname₁.trans hownerName)
  obtain rfl : t₂ = t₁ := List.inj_on_of_nodup_map hnames ht₂ htable (hname₂.trans hname)
  obtain rfl : t = t₂ :=
    List.inj_on_of_nodup_map hnames hfor.table htable (hfor.name.trans hownerName)
  have hsame : owner.key = block.key :=
    (hkey₁ coords (List.of_mem_zip hrow).1).symm.trans (hkey₂ coords hcoords)
  refine ⟨key, hkey, ?_, hfor.kind⟩
  rw [← hsame, ProblemKey.agreesWith, List.all_eq_true]
  intro coord hcoord
  rw [hfor.agrees coord hcoord]
  exact beq_self_eq_true coord.2

/-- A run touches nothing of a store but decided rows, whatever has been done to the model before,
whatever the backend answers, and whether the run succeeds or not.  Tables, coordinates and
dimensions stay, and every row stays in its place; a row that is changed or new has a value, and it
is that of a decision column of a problem that has been solved since the catalog was last built.  So
the rows of a block that no sub-problem decides stay what they are. -/
theorem run_changes_decided_rows {sets : Registry} {tables : List TableDeclaration}
    {texts : SortedMap String ModelText} {m₀ : Model K} (hm : ofParts sets tables texts = .ok m₀)
    {ops : List (Operation K)} {s : LoggedModel K}
    (hs : LoggedModel.performAll ⟨m₀, []⟩ ops = s) (b : Backend σ K) (settings : Settings K)
    (policy : BuildPolicy) (clock : Nat → Duration) {store : Store K} (hstore : store.WellFormed)
    (memory : σ) {r : Except ModelError (RunReport K)} {t : RunState σ K}
    (hrun : solve b settings policy clock ⟨s.model, store, memory⟩ = (r, t)) :
    s.model = m₀.performAll ops ∧ t.store.WellFormed ∧
    ∃ s', s.perform (.solve b settings policy clock store memory) = s' ∧ s'.model = t.model ∧
      store.ChangesOnly s'.DecidedRow t.store ∧
      ∀ table ∈ t.model.tables, ∀ block ∈ t.model.catalog.blocks, block.table = table.name →
        (∀ key ∈ t.model.sets.problemKeys, key.agreesWith block.key.coords = true →
          table.kind.kindFor key ≠ .ok .endogenous) →
        ∀ before after, store.tables.get? table.name = some before →
          t.store.tables.get? table.name = some after →
            ∀ (k : Nat) (row : Row K), row.coords ∈ block.coords →
              (after.rows[k]? = some row ↔ before.rows[k]? = some row) := by
  have haccounted : s.model.Accounted s.log := hs ▸ LoggedModel.accounted_performAll hm ops
  -- the run is followed with the backend that notes its answers, and its notes change nothing
  have hframed : Framed store _ := (runKeeps_framed b settings policy store).run clock
    (s := ⟨s.model, store, memory, s.log⟩) ⟨haccounted, hstore, .refl _ _⟩
  have hsame := solve_logging b settings policy clock ⟨s.model, store, memory, s.log⟩
  rw [show RunState.forget ⟨s.model, store, memory, s.log⟩ = ⟨s.model, store, memory⟩ from rfl,
    hrun] at hsame
  have hmodel : (s.perform (.solve b settings policy clock store memory)).model = t.model :=
    congrArg (fun r => r.2.model) hsame
  have hstored : (solve b.logging settings policy clock
      ⟨s.model, store, memory, s.log⟩).2.store = t.store :=
    congrArg (fun r => r.2.store) hsame
  have hwell := hframed.wellFormed
  have hchanges := hframed.changes
  rw [hstored] at hwell hchanges
  refine ⟨?_, hwell, _, rfl, hmodel, hchanges, ?_⟩
  · rw [← hs, LoggedModel.model_performAll]
  intro table htable block hblock hname hnobody before after hbefore hafter k row hrow
  obtain ⟨after', hafter', htableChanges⟩ := hchanges.tables table.name before hbefore
  obtain rfl : after' = after := Option.some.inj (hafter'.symm.trans hafter)
  refine htableChanges.getElem?_iff (fun hdecided => ?_) k
  rw [← hmodel] at htable hblock hnobody
  obtain ⟨key, hkey, hagrees, hkind⟩ :=
    hframed.accounted.exists_key htable hblock hname hrow hdecided
  exact hnobody key hkey hagrees hkind

end Model

/-! ## Catches of two regions -/

namespace Catalog.Catches

open Purchases Stocks

/-- Two regions, which divide the model. -/
def sets : Registry :=
  ⟨[{ Dimension.ofItems "region" ["north", "south"] with splits := true }], by decide⟩

def kinds : KindRule :=
  .perProblem ⟨[(northKey, .endogenous), (southKey, .exogenous)]⟩

/-- The north decides what it catches.  What the south catches is known. -/
def catches : TableDeclaration :=
  ⟨"catch", kinds, ["region"], false, [⟨"x", .one, .one, none, .empty⟩]⟩

def tables : List TableDeclaration :=
  [catches]

/-- As much as possible, within a quota. -/
def texts : SortedMap String ModelText :=
  ⟨[("plan", ⟨["Maximize(x)"], ["x <= 5"]⟩)]⟩

/-- The binding of a region. -/
def bound (id : Nat) (key : ProblemKey) (region : String) (value : BindingValue) : Binding :=
  ⟨id, "x", some key, [("region", region)], none, ⟨[("region", [region])]⟩, .scalar, value⟩

/-- The column of the south, which nobody decides. -/
def southBlock : Block :=
  ⟨"catch", southKey, [["south"]], 2, false⟩

/-- What is built of the tables. -/
def catalog : Catalog Rat where
  members := [⟨"x", "catch", kinds, false, none, ⟨none, none, none, ["region"]⟩,
    ⟨[("region", ["north", "south"])]⟩, .scalar, none⟩]
  tableCoordinates := [("catch", ["region"])]
  bindings := #[bound 0 northKey "north" (.slice 0 [1]), bound 1 southKey "south" (.parameter 0)]
  blocks := #[⟨"catch", northKey, [["north"]], 1, false⟩, southBlock]
  parameters := #[⟨1, "catch", .scalar, none⟩]
  constants := #[]
  values := #[some 1, none, none]
  integer := .replicate 3 false

def model : Model Rat :=
  ⟨sets, tables, texts, catalog, .empty⟩

theorem ofParts_model : Model.ofParts sets tables texts = .ok model := by
  have hbuild : build tables sets = .ok catalog := by decide +kernel
  rw [Model.ofParts, hbuild]
  rfl

/-- The south has caught seven. -/
def stored : StoredTable Rat :=
  ⟨["region"], [⟨["north"], none⟩, ⟨["south"], some 7⟩]⟩

def store : Store Rat :=
  ⟨⟨[("catch", stored)]⟩, .empty⟩

theorem wellFormed_store : store.WellFormed where
  ascending := by decide
  distinct := by
    intro name t ht
    have hmem := SortedMap.mem_entries_of_get? ht
    obtain ⟨-, rfl⟩ := Prod.mk.inj (List.mem_singleton.mp hmem)
    unfold DistinctRows
    decide

/-- The sub-problem of a region. -/
def plan (key : ProblemKey) (id : Nat) (decided : Bool) : SubProblem Rat :=
  ⟨key, "plan", .maximize, [.binding ⟨.scalar, decided⟩ id],
    [⟨"x <= 5", none, .binding ⟨.scalar, decided⟩ id, .le, .number 5⟩], .unsolved⟩

def problems : ProblemSet Rat :=
  ⟨[("plan", ⟨[(northKey, plan northKey 0 true), (southKey, plan southKey 1 false)]⟩)]⟩

/-- The catalog once what the south has caught is known. -/
def known : Catalog Rat :=
  { catalog with parameters := #[⟨1, "catch", .scalar, some (Tensor.dense .scalar [7])⟩] }

/-- The north has caught nothing. -/
def idle : RunState Unit Rat where
  model :=
    { model with
      catalog := known.withValues #[some 1, some 0, none]
      problems := problems.map fun p => p.finish .optimal }
  store := ⟨⟨[("catch", ⟨["region"], [⟨["north"], some 0⟩, ⟨["south"], some 7⟩]⟩)]⟩, .empty⟩
  backend := ()

/-- Both regions are solved. -/
def report : RunReport Rat :=
  ⟨[⟨"plan", northKey, .optimal⟩, ⟨"plan", southKey, .optimal⟩], none⟩

theorem solve_zeros : Model.solve Backend.zeros Settings.default .overwrite (fun _ => ⟨0⟩)
    ⟨model, store, ()⟩ = (.ok report, idle) := by
  rw [Model.solve_overwrite_eq Backend.zeros _ _ (by decide +kernel)
    (by decide +kernel : SubProblems.buildAll model.catalog model.sets model.texts = .ok problems)
    (by decide +kernel : model.catalog.loadExogenous store = (.ok (), known))]
  cbv

/-- What the north catches is decided.  What the south has caught stays seven. -/
theorem run_changes_decided_rows_catches :
    Model.ofParts sets tables texts = .ok model ∧ store.WellFormed ∧
    Model.solve Backend.zeros Settings.default .overwrite (fun _ => ⟨0⟩) ⟨model, store, ()⟩ =
      (.ok report, idle) ∧
    ∃ s : LoggedModel Rat, s.model = idle.model ∧ s.DecidedRow "catch" ["north"] ∧
      store.ChangesOnly s.DecidedRow idle.store ∧
      ∀ after, idle.store.tables.get? "catch" = some after → ∀ (k : Nat) (row : Row Rat),
        row.coords = ["south"] → (after.rows[k]? = some row ↔ stored.rows[k]? = some row) := by
  have hstart : LoggedModel.performAll ⟨model, []⟩ [] = ⟨model, []⟩ := rfl
  obtain ⟨-, -, s, -, hmodel, hchanges, hblocks⟩ :=
    Model.run_changes_decided_rows ofParts_model hstart Backend.zeros Settings.default .overwrite
      (fun _ => ⟨0⟩) wellFormed_store () solve_zeros
  refine ⟨ofParts_model, wellFormed_store, solve_zeros, s, hmodel, ?_, hchanges, ?_⟩
  · obtain ⟨after, hafter, htable⟩ := hchanges.tables "catch" stored rfl
    cases hafter
    obtain ⟨row, hrow, -, hcase⟩ := htable.kept 0 ⟨["north"], none⟩ rfl
    cases hrow
    exact (hcase.resolve_left nofun).2
  · intro after hafter k row hrow
    have hsouth : ∀ key ∈ sets.problemKeys, key.agreesWith southKey.coords = true →
        kinds.kindFor key ≠ .ok .endogenous := by decide
    have hblock : southBlock ∈ idle.model.catalog.blocks := by
      simp [idle, known, catalog, Catalog.withValues]
    exact hblocks catches (List.mem_singleton_self _) southBlock hblock rfl hsouth stored after rfl
      hafter k row (List.mem_singleton.mpr hrow)

end Catalog.Catches

end CoupledModels
