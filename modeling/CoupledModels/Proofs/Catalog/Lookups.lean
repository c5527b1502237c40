import CoupledModels.Proofs.Catalog.Decided

/-!
# Lookups of a build

Every decision binding looks for its columns by writing down the rows that it is for, and a build
fails if it misses the block or one of the rows.  With distinct coordinates it misses none: the rows
are rows of the table, and the key of the block is the one that the table gives to them.
-/

namespace CoupledModels

/-! ## Errors of a build -/

/-- The catalog has been asked for decision columns that it does not have. -/
inductive LacksColumns : ModelError → Prop
  | block (table : String) (key : ProblemKey) : LacksColumns (.missing (.block table key))
  | row (table : String) (coords : List String) : LacksColumns (.missing (.row table coords))

/-- Nothing is wrong with decision columns. -/
def KnowsColumns {α : Type} (x : Except ModelError α) : Prop :=
  Outcome (fun _ => True) (fun e => ¬ LacksColumns e) x

namespace KnowsColumns

variable {α β : Type} {K : Type} {sets : Registry}

theorem bind_ok {x : Except ModelError α} (h : KnowsColumns x) {f : α → Except ModelError β}
    (hf : ∀ a, x = .ok a → KnowsColumns (f a)) : KnowsColumns (x >>= f) := by
  cases x with
  | ok a => exact hf a rfl
  | error e => exact h

theorem bind {x : Except ModelError α} (h : KnowsColumns x) {f : α → Except ModelError β}
    (hf : ∀ a, KnowsColumns (f a)) : KnowsColumns (x >>= f) :=
  h.bind_ok fun a _ => hf a

/-- What is known of a value stays known. -/
theorem outcome {x : Except ModelError α} (h : KnowsColumns x) {P : α → Prop}
    (hP : Outcome P AnyError x) : Outcome P (fun e => ¬ LacksColumns e) x := by
  cases x with
  | ok a => exact hP
  | error e => exact h

theorem ok (a : α) : KnowsColumns (.ok a : Except ModelError α) :=
  trivial

theorem configuration (x : Except ConfigurationError α) :
    KnowsColumns (x.mapError ModelError.configuration) := by
  cases x with
  | ok a => trivial
  | error e => rintro ⟨⟩

theorem mapM {f : α → Except ModelError β} (xs : List α) (hf : ∀ a, KnowsColumns (f a)) :
    KnowsColumns (xs.mapM f) :=
  (Outcome.mapM (R := fun _ _ => True) fun a _ => hf a).imp fun _ _ => trivial

theorem get (sets : Registry) (d : String) : KnowsColumns (sets.get d) := by
  unfold Registry.get
  split
  · trivial
  · rintro ⟨⟩

theorem enumerateBlocks (t : TableDeclaration) (sets : Registry) :
    KnowsColumns (t.enumerateBlocks sets) :=
  ((mapM _ (get sets)).bind fun _ => ok _).bind fun _ => ok _

theorem assignRole (v : VariableDeclaration) (t : TableDeclaration) (r : Roles) (d : String) :
    KnowsColumns (Variable.assignRole v t sets r d) := by
  unfold Variable.assignRole
  split
  · rintro ⟨⟩
  dsimp only
  split
  · trivial
  split
  · trivial
  split
  · rintro ⟨⟩
  · trivial

theorem coordinateItems (v : VariableDeclaration) (d : String) :
    KnowsColumns (Variable.coordinateItems v sets d) := by
  refine (get sets d).bind fun dim => ?_
  dsimp only
  split
  · rintro ⟨⟩
  · split
    · split
      · trivial
      · refine (dim.givesAccepted_filteredItems _).mono (fun _ _ => trivial) ?_
        rintro _ ⟨⟨cause, rfl⟩, -⟩
        rintro ⟨⟩
    · trivial

theorem aggregationMap (rowsDim : String) (rows : List String) (colsDim : String)
    (cols : List String) (sets : Registry) :
    KnowsColumns (Variable.aggregationMap rowsDim rows colsDim cols sets) := by
  unfold Variable.aggregationMap
  split
  · trivial
  · refine (get sets rowsDim).bind fun rd => (get sets colsDim).bind fun cd => ?_
    split
    · trivial
    · split <;> trivial

theorem resolve (v : VariableDeclaration) (t : TableDeclaration) (sets : Registry) :
    KnowsColumns (Variable.resolve v t sets) := by
  unfold Variable.resolve
  refine (configuration _).bind fun _ => ?_
  refine bind (Outcome.foldlM trivial fun r _ d _ => assignRole v t r d) fun roles => ?_
  dsimp only
  have hitems : KnowsColumns (t.coordinates.mapM fun d => do
      return (d, ← Variable.coordinateItems v sets d)) :=
    mapM _ fun d => (coordinateItems v d).bind fun _ => ok _
  split
  · split
    · rintro ⟨⟩
    · refine hitems.bind fun entries => ?_
      split
      · exact (aggregationMap _ _ _ _ sets).bind fun _ => ok _
      · exact ok _
  · refine hitems.bind fun entries => ?_
    split
    · exact (aggregationMap _ _ _ _ sets).bind fun _ => ok _
    · exact ok _

variable [Scalar K]

omit [Scalar K] in
theorem addTable (sets : Registry) (keys : List ProblemKey) (c : Catalog K) (t : TableDeclaration) :
    KnowsColumns (Catalog.addTable sets keys c t) := by
  have hmembers : ∀ c : Catalog K,
      KnowsColumns (t.members.foldlM (Catalog.addVariable t sets) c) := by
    refine fun c => Outcome.foldlM trivial fun c _ v _ => ?_
    unfold Catalog.addVariable
    dsimp only
    split
    · rintro ⟨⟩
    · exact (resolve v t sets).bind fun _ => ok _
  unfold Catalog.addTable
  refine (configuration _).bind fun _ => ?_
  dsimp only
  split
  · exact (enumerateBlocks t sets).bind fun bs => hmembers _
  · exact hmembers c

theorem constantValue (v : Variable) : KnowsColumns (v.constantValue : Except ModelError (Matrix K)) := by
  unfold Variable.constantValue
  split
  · rintro ⟨⟩
  · rename_i kind _
    cases kind.build v.shape v.assignment? (K := K) with
    | ok m => trivial
    | error e => rintro ⟨⟩

omit [Scalar K] in
theorem kindFor (r : KindRule) (key : ProblemKey) : KnowsColumns (r.kindFor key) := by
  cases r with
  | fixed k => trivial
  | perProblem kinds =>
      unfold KindRule.kindFor
      dsimp only
      cases kinds.get? key with
      | some k => trivial
      | none => rintro ⟨⟩

omit [Scalar K] in
theorem scopes (v : Variable) (keys : List ProblemKey) : KnowsColumns (Catalog.scopes v keys) := by
  unfold Catalog.scopes
  cases v.kind with
  | fixed k => trivial
  | perProblem kinds => exact mapM _ fun key => (kindFor _ key).bind fun _ => ok _

end KnowsColumns

namespace Catalog

variable {K : Type} {tables : List TableDeclaration} {sets : Registry} {c d : Catalog K}
  {t : TableDeclaration} {declaration : VariableDeclaration} {v : Variable} {b : Binding}

/-! ## Slices that are found -/

/-- A slice has rows, as every side of a variable has items. -/
theorem cells_ne_nil (h : Variable.Resolves declaration t sets v) (intra : Option String)
    (inter : List Coordinate) : c.cells v intra inter ≠ [] := by
  have hside : ∀ side : Option String, (v.roles.rows = side ∨ v.roles.cols = side) →
      sideItems (side.bind v.items.get?) ≠ [] := by
    intro side hside
    cases side with
    | none => exact List.cons_ne_nil _ _
    | some d =>
        have hd : d ∈ t.coordinates := h.sides d hside
        rw [Option.bind_some, h.get?_items hd]
        exact fun hnil => h.nonempty d hd (List.map_eq_nil_iff.mp hnil)
  obtain ⟨r, hr⟩ := List.exists_mem_of_ne_nil _ (hside v.roles.rows (.inl rfl))
  obtain ⟨k, hk⟩ := List.exists_mem_of_ne_nil _ (hside v.roles.cols (.inr rfl))
  exact List.ne_nil_of_mem (List.mem_flatMap.mpr ⟨r, hr, List.mem_map_of_mem hk⟩)

/-- A slice writes down rows of entries. -/
theorem carries_of_mem_cells (hs : Situated declaration t sets v b)
    (hcoordinates : c.coordinatesOf? t.name = some t.coordinates) {cell : List String}
    (h : cell ∈ c.cells v b.intra b.inter) : ∃ i j, Carries t.coordinates v b i j cell := by
  rw [cells, hs.resolves.table, hcoordinates] at h
  obtain ⟨r, hr, h⟩ := List.mem_flatMap.mp h
  obtain ⟨k, hk, rfl⟩ := List.mem_map.mp h
  obtain ⟨i, hi⟩ := List.mem_iff_getElem?.mp hr
  obtain ⟨j, hj⟩ := List.mem_iff_getElem?.mp hk
  exact ⟨i, j, hs.carries_tableRow hi hj⟩

/-- The block of the inter items has every row that has them. -/
theorem HasBlocks.exists_block (h : c.HasBlocks sets t) {rows : List (List String)}
    (hrows : t.enumerate sets = .ok rows) {row : List String} (hrow : row ∈ rows) :
    (∃ block ∈ c.blocks, block.table = t.name ∧ block.key = t.blockKey sets row) ∧
    ∀ block ∈ c.blocks, block.table = t.name → block.key = t.blockKey sets row →
      row ∈ block.coords := by
  obtain ⟨_, hbs, rfl⟩ := h
  have hmem : ∀ block, block ∈ c.blocksOf t.name ↔ block ∈ c.blocks ∧ block.table = t.name := by
    intro block
    rw [blocksOf, List.mem_filter, Array.mem_toList_iff, beq_iff_eq]
  -- the row is in one of the enumerated blocks, and the key of a block is that of its rows
  constructor
  · obtain ⟨rows', hrows', hperm⟩ := TableDeclaration.enumerateBlocks_ok hbs
    obtain rfl : rows = rows' := Except.ok.inj (hrows.symm.trans hrows')
    obtain ⟨b, hb, hrow⟩ := List.mem_flatMap.mp (hperm.mem_iff.mpr hrow)
    have hkey := TableDeclaration.keepsKeys_of_enumerateBlocks hbs b hb row hrow
    obtain ⟨block, hblock, rfl⟩ := List.mem_map.mp hb
    obtain ⟨hblock, htable⟩ := (hmem block).mp hblock
    exact ⟨block, hblock, htable, hkey.symm⟩
  · intro block hblock htable hkey
    have hmap := List.mem_map_of_mem (f := rowBlock) ((hmem block).mpr ⟨hblock, htable⟩)
    exact TableDeclaration.mem_block_of_enumerateBlocks hbs hrows hrow hmap hkey

/-- A row of a block has a column. -/
theorem exists_column {block : Block} {row : List String} (h : row ∈ block.coords) :
    ∃ column, block.column? row = some column := by
  obtain ⟨k, hk⟩ := Option.isSome_iff_exists.mp
    (List.isSome_idxOf?.mpr (List.mem_reverse.mpr h))
  exact ⟨_, by rw [Block.column?, Block.lastIndexOf?, hk]; rfl⟩

/-- Where a table is decided, every slice of a variable finds its block and its rows. -/
theorem exists_slice (hc : c.Declares tables sets) (hdivided : c.Divided sets tables)
    (hnames : (tables.map TableDeclaration.name).Nodup)
    (hcoordinates : ∀ t ∈ tables, t.coordinates.Nodup) (hv : v ∈ c.members)
    (hkind : v.kind.has .endogenous = true) (hconstant : v.isConstant = false)
    {intra : Option String} {inter : List Coordinate}
    (hintra : intra ∈ sideItems v.intraItems?) (hinter : inter ∈ interItems v) :
    ∃ value, c.slice v intra inter = .ok value := by
  obtain ⟨t, ht, declaration, -, hresolves⟩ := hc.members v hv
  rw [hresolves.kind] at hkind
  rw [Variable.isConstant, hresolves.kind] at hconstant
  have hs : Situated declaration t sets v
      ⟨0, v.symbol, none, inter, intra, .empty, v.shape, .constant 0⟩ :=
    ⟨hresolves, hcoordinates t ht, hconstant, hintra, hinter⟩
  have hblocks := hdivided.blocks t ht hkind
  obtain ⟨rows, hrows, -⟩ := exists_of_bind_eq_ok hblocks.choose_spec.1
  have hcells : ∀ cell ∈ c.cells v intra inter, cell ∈ rows ∧ t.blockKey sets cell = ⟨inter⟩ := by
    intro cell hcell
    obtain ⟨i, j, hcarries⟩ := carries_of_mem_cells hs (hc.coordinatesOf? hnames ht) hcell
    exact ⟨hs.mem_enumerate hrows hcarries, hs.blockKey_eq hkind hcarries⟩
  -- a slice has a row, so there is a block with its key
  have hindex : ∃ i, c.blockIndex? v.table ⟨inter⟩ = some i := by
    obtain ⟨cell, hcell⟩ := List.exists_mem_of_ne_nil _ (cells_ne_nil (c := c) hresolves intra inter)
    obtain ⟨hrow, hkey⟩ := hcells cell hcell
    obtain ⟨⟨block, hblock, htable, hblockKey⟩, -⟩ := hblocks.exists_block hrows hrow
    refine Option.isSome_iff_exists.mp ?_
    rw [blockIndex?, Array.findIdx?_isSome, Array.any_eq_true']
    exact ⟨block, hblock, by simp [htable, hblockKey, hkey, hresolves.table]⟩
  obtain ⟨i, hi⟩ := hindex
  obtain ⟨hlt, hfound, -⟩ := Array.findIdx?_eq_some_iff_getElem.mp hi
  simp only [Bool.and_eq_true, beq_iff_eq] at hfound
  have hslice : Outcome (fun _ => True) (fun _ => False) (c.slice v intra inter) := by
    unfold slice
    simp only [hi, Array.getElem?_eq_getElem hlt]
    refine Outcome.bind (Outcome.mapM (R := fun _ _ => True) fun cell hcell => ?_) fun _ _ => trivial
    obtain ⟨hrow, hkey⟩ := hcells cell hcell
    obtain ⟨column, hcolumn⟩ := exists_column ((hblocks.exists_block hrows hrow).2 c.blocks[i]
      (Array.getElem_mem hlt) (hfound.1.trans hresolves.table) (hfound.2.trans hkey.symm))
    rw [hcolumn]
    trivial
  obtain ⟨value, hvalue, -⟩ | ⟨_, -, hfalse⟩ := hslice.cases
  · exact ⟨value, hvalue⟩
  · exact hfalse.elim

variable [Scalar K]

/-- Binding a variable finds the columns of every slice. -/
theorem knowsColumns_addBindings {keys : List ProblemKey}
    (hslice : v.kind.has .endogenous = true → v.isConstant = false →
      ∀ intra ∈ sideItems v.intraItems?, ∀ inter ∈ interItems v,
        ∃ value, c.slice v intra inter = .ok value) :
    KnowsColumns (addBindings keys c v) := by
  unfold addBindings
  split
  · exact (KnowsColumns.constantValue v).bind fun _ => .ok _
  rename_i hconstant
  refine (KnowsColumns.scopes v keys).bind_ok fun ss hss => ?_
  have hplaces : placesOf v keys = .ok (sites v ss) := by
    rw [placesOf, if_neg hconstant, hss]
    rfl
  -- bindings that are added leave the slices of the variable as they are
  refine (Outcome.foldlM (I := fun d : Catalog K => d.slice = c.slice) rfl
    fun d hd s hs => ?_).imp fun _ _ => trivial
  unfold addSite
  split
  · exact (slice_congr rfl rfl).trans hd
  · rename_i hkind
    obtain ⟨hintra, hinter⟩ := mem_sites hs
    have hhas : v.kind.has .endogenous = true := by
      obtain ⟨key, hscope⟩ : ∃ key, s.scope = none ∨ s.scope = some key := by
        cases s.scope with
        | none => exact ⟨.default, .inl rfl⟩
        | some key => exact ⟨key, .inr rfl⟩
      rw [← hkind]
      exact KindRule.has_of_kindFor (kindFor_of_mem_placesOf hplaces hs hscope)
    obtain ⟨value, hvalue⟩ := hslice hhas (by simpa using hconstant) s.intra hintra s.inter hinter
    rw [hd, hvalue]
    exact (slice_congr rfl rfl).trans hd
  · rintro ⟨⟩

/-- A build never lacks a block or a row for a slice. -/
theorem knowsColumns_build (hcoordinates : ∀ t ∈ tables, t.coordinates.Nodup) :
    KnowsColumns (build tables sets : Except ModelError (Catalog K)) := by
  unfold build
  dsimp only
  split
  · rintro ⟨⟩
  rename_i hrepeat
  have hnames := (nodup_of_firstRepeat? hrepeat).1
  -- all rows are numbered before the first slice is taken
  refine KnowsColumns.bind_ok
    (Outcome.foldlM trivial fun c _ t _ => KnowsColumns.addTable sets _ c t) fun c hc => ?_
  obtain ⟨hdeclares, -, -⟩ := declares_of_addTables hc
  have hdivided := divided_of_addTables hnames hc
  refine (Outcome.foldlM (I := fun d : Catalog K => c.Extends d) (.refl c)
    fun d hd v hv => ?_).imp fun _ _ => trivial
  refine (knowsColumns_addBindings fun hkind hconstant intra hintra inter hinter => ?_).outcome
    ((outcome_addBindings sets.problemKeys (hd.members ▸ hv)).imp fun _ he => hd.trans he.extension)
  rw [slice_congr hd.blocks hd.coordinates]
  exact exists_slice hdeclares hdivided hnames hcoordinates hv hkind hconstant hintra hinter

end Catalog

end CoupledModels
