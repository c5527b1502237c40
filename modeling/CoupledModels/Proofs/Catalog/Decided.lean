import CoupledModels.Proofs.Catalog.Cells
import CoupledModels.Proofs.Catalog.Fresh

/-!
# Tables that a solver decides

A table that is decided somewhere is divided into blocks, one for each combination of splitting items
that its rows have.  Keys of blocks are distinct, so a row is found in the block of its own key.  The
row of an entry of a binding is a row of the table, and its key is that of the inter items.
-/

namespace CoupledModels

/-! ## Rows and their blocks -/

namespace TableDeclaration

variable {t : TableDeclaration} {sets : Registry} {rows : List (List String)}

/-- The rows of a table are all lists with one item of each coordinate. -/
theorem mem_enumerate_iff (h : t.enumerate sets = .ok rows) {row : List String} :
    row ∈ rows ↔ t.coordinates.length = row.length ∧ ∀ d item, (d, item) ∈ t.coordinates.zip row →
      ∃ dim, sets.find? d = some dim ∧ item ∈ dim.items := by
  obtain ⟨dims, hdims, heq⟩ := exists_of_bind_eq_ok h
  cases heq
  have hget := forall₂_of_mapM hdims
  rw [Registry.mem_product_iff, List.forall₂_map_right_iff]
  -- the product of the item lists, read along the coordinates
  have hzip : List.Forall₂ (fun d item => ∃ dim, sets.find? d = some dim ∧ item ∈ dim.items)
      t.coordinates row ↔ List.Forall₂ (fun item dim => item ∈ dim.items) row dims := by
    clear h hdims
    generalize t.coordinates = ds at hget
    induction hget generalizing row with
    | nil => cases row <;> simp
    | cons hd _ ih =>
        cases row with
        | nil => simp
        | cons item row => simp [Registry.find?_of_get hd, ih]
  rw [← hzip, List.forall₂_iff_zip]

/-- The splitting coordinates of a row are in coordinate order. -/
theorem map_fst_blockKey {row : List String} (h : t.coordinates.length = row.length) :
    (t.blockKey sets row).coords.map Prod.fst = t.splitDims sets :=
  calc (t.blockKey sets row).coords.map Prod.fst
      = ((t.coordinates.zip row).map Prod.fst).filter sets.isSplitting := by
        rw [List.filter_map]
        rfl
    _ = t.splitDims sets := by rw [List.map_fst_zip (Nat.le_of_eq h), splitDims]

theorem map_key_addToBlock (key : ProblemKey) (row : List String) (bs : List RowBlock) :
    (addToBlock key row bs).map RowBlock.key =
      if key ∈ bs.map RowBlock.key then bs.map RowBlock.key else bs.map RowBlock.key ++ [key] := by
  induction bs with
  | nil => rfl
  | cons b bs ih =>
      unfold addToBlock
      by_cases hkey : b.key = key
      · simp [hkey]
      · rw [if_neg hkey, List.map_cons, ih, List.map_cons]
        by_cases hmem : key ∈ bs.map RowBlock.key
        · rw [if_pos hmem, if_pos (List.mem_cons_of_mem _ hmem)]
        · rw [if_neg hmem, if_neg (by simp [hmem, Ne.symm hkey])]
          rfl

/-- Each key has one block. -/
theorem nodup_keys_of_enumerateBlocks {bs : List RowBlock} (h : t.enumerateBlocks sets = .ok bs) :
    (bs.map RowBlock.key).Nodup := by
  obtain ⟨_, -, heq⟩ := exists_of_bind_eq_ok h
  cases heq
  refine List.foldlRecOn (motive := fun bs : List RowBlock => (bs.map RowBlock.key).Nodup) _ _
    List.nodup_nil fun bs h row _ => ?_
  rw [map_key_addToBlock]
  split
  · exact h
  · rename_i hnew
    exact List.nodup_append.mpr ⟨h, List.nodup_singleton _, by simpa using hnew⟩

/-- A row stands in the block of its key. -/
theorem mem_block_of_enumerateBlocks {bs : List RowBlock} (hbs : t.enumerateBlocks sets = .ok bs)
    (hrows : t.enumerate sets = .ok rows) {row : List String} (hrow : row ∈ rows) {b : RowBlock}
    (hb : b ∈ bs) (hkey : b.key = t.blockKey sets row) : row ∈ b.rows := by
  obtain ⟨rows', hrows', hperm⟩ := enumerateBlocks_ok hbs
  obtain rfl : rows = rows' := Except.ok.inj (hrows.symm.trans hrows')
  obtain ⟨b', hb', hrow'⟩ := List.mem_flatMap.mp (hperm.mem_iff.mpr hrow)
  have hkey' := keepsKeys_of_enumerateBlocks hbs b' hb' row hrow'
  rwa [List.inj_on_of_nodup_map (nodup_keys_of_enumerateBlocks hbs) hb hb' (hkey.trans hkey')]

end TableDeclaration

namespace Catalog

variable {K : Type} {tables : List TableDeclaration} {sets : Registry} {c d : Catalog K}
  {t : TableDeclaration} {declaration : VariableDeclaration} {v : Variable} {b : Binding}
  {rows : List (List String)}

/-! ## Rows of entries -/

/-- Pairs with equal keys in the same order are equal if they are among pairs with distinct keys. -/
theorem eq_of_map_fst {α β : Type} {xs ys : List (α × β)} (hys : (ys.map Prod.fst).Nodup)
    (hfst : xs.map Prod.fst = ys.map Prod.fst) (hmem : ∀ x ∈ xs, x ∈ ys) : xs = ys := by
  refine List.ext_getElem (by simpa using congrArg List.length hfst) fun k hk hk' => ?_
  refine List.inj_on_of_nodup_map hys (hmem _ (List.getElem_mem hk)) (List.getElem_mem hk') ?_
  simpa [hk, hk'] using congrArg (fun keys => keys[k]?) hfst

namespace Situated

variable (hs : Situated declaration t sets v b)
include hs

/-- What a binding asks for at a coordinate is an item that the variable has there. -/
theorem mem_itemsOf {i j : Nat} {row : List String} (h : Carries t.coordinates v b i j row)
    {d item : String} (hzip : (d, item) ∈ t.coordinates.zip row) : item ∈ v.itemsOf d := by
  have hd := (List.of_mem_zip hzip).1
  rcases hs.resolves.part_cases hd with (hrow | hcol) | hintra | hinter
  · exact List.mem_of_getElem? (h.rows d item hzip hrow)
  · exact List.mem_of_getElem? (h.cols d item hzip hcol)
  · have hmem := hs.intra
    rw [h.intra d item hzip hintra, Variable.intraItems?, hintra, Option.bind_some,
      hs.resolves.get?_items hd] at hmem
    obtain ⟨_, hitem, heq⟩ := List.mem_map.mp hmem
    exact Option.some.inj heq ▸ hitem
  · obtain ⟨_, hxs, hmem⟩ := exists_right_of_forall₂ (Registry.forall₂_of_mem_product hs.inter)
      (h.inter d item hzip hinter)
    obtain ⟨d', -, rfl⟩ := List.mem_map.mp hxs
    obtain ⟨_, hitem, heq⟩ := List.mem_map.mp hmem
    cases heq
    exact hitem

/-- The row of an entry is a row of the table. -/
theorem mem_enumerate (hrows : t.enumerate sets = .ok rows) {i j : Nat} {row : List String}
    (h : Carries t.coordinates v b i j row) : row ∈ rows := by
  refine (TableDeclaration.mem_enumerate_iff hrows).mpr ⟨h.length.symm, fun d item hzip => ?_⟩
  obtain ⟨dim, is, hdim, his, hsublist⟩ := hs.resolves.items d (List.of_mem_zip hzip).1
  have hitem := hs.mem_itemsOf h hzip
  rw [Variable.itemsOf, his] at hitem
  exact ⟨dim, hdim, hsublist.subset hitem⟩

/-- If the table is decided, the splitting items of a row are the inter items of the binding. -/
theorem blockKey_eq (hkind : t.kind.has .endogenous = true) {i j : Nat} {row : List String}
    (h : Carries t.coordinates v b i j row) : t.blockKey sets row = ⟨b.inter⟩ := by
  have hsplit := hs.resolves.inter_eq_splitDims hkind
  have hnames : (b.inter.map Prod.fst).Nodup := by
    rw [map_fst_of_mem_interItems hs.inter, hsplit]
    exact hs.distinct.filter _
  have hfst : (t.blockKey sets row).coords.map Prod.fst = b.inter.map Prod.fst := by
    rw [TableDeclaration.map_fst_blockKey h.length.symm, map_fst_of_mem_interItems hs.inter, hsplit]
  refine congrArg ProblemKey.mk (eq_of_map_fst hnames hfst fun c hc => ?_)
  obtain ⟨hzip, hsplits⟩ := List.mem_filter.mp hc
  refine h.inter c.1 c.2 hzip ?_
  rw [hsplit]
  exact List.mem_filter.mpr ⟨(List.of_mem_zip hzip).1, hsplits⟩

end Situated

/-- A binding that is not for a constant has a variable and a table, and it is situated there. -/
theorem Consistent.exists_situated [Scalar K] (hc : c.Consistent tables sets)
    (hcoordinates : ∀ t ∈ tables, t.coordinates.Nodup) (hb : b ∈ c.bindings)
    (hvalue : ∀ i, b.value ≠ .constant i) :
    ∃ v, c.variableNamed? b.symbol = some v ∧ c.Binds v b ∧
      ∃ t ∈ tables, ∃ declaration, Situated declaration t sets v b := by
  obtain ⟨v, hv, hbinds, t, ht, declaration, hresolves⟩ := hc.exists_variable hb
  obtain ⟨hconstant, hintra, hinter⟩ := hbinds.site hvalue
  rw [Variable.isConstant, hresolves.kind] at hconstant
  exact ⟨v, hv, hbinds, t, ht, declaration, hresolves, hcoordinates t ht, hconstant, hintra, hinter⟩

/-- A slice has a column for each entry, row by row: that of the row of the entry, in the block of
the inter items. -/
theorem Consistent.entries_of_slice [Scalar K] (hc : c.Consistent tables sets) (ht : t ∈ tables)
    (hs : Situated declaration t sets v b) (hbinds : c.Binds v b) {n : Nat} {columns : List Nat}
    (hvalue : b.value = .slice n columns) :
    ∃ block, c.blocks[n]? = some block ∧ block.table = t.name ∧ block.key = ⟨b.inter⟩ ∧
      ∀ i < v.shape.rows, ∀ j < v.shape.cols, ∃ row column,
        columns[i * v.shape.cols + j]? = some column ∧
        (row, column) ∈ block.coords.zip block.columns ∧ Carries t.coordinates v b i j row := by
  have hrefers := hbinds.refers
  unfold Refers at hrefers
  simp only [hvalue] at hrefers
  obtain ⟨_, block, _, heq, hblock, htable, hkey, hcolumns⟩ := slice_ok hrefers
  cases heq
  refine ⟨block, hblock, htable.trans hs.resolves.table, hkey, fun i hi j hj => ?_⟩
  rw [hs.resolves.shape] at hi hj
  -- cells are written down row by row, so the place of an entry is known
  rw [cells, hs.resolves.table, hc.coordinatesOf? ht] at hcolumns
  have hr := List.getElem?_eq_getElem hi
  have hk := List.getElem?_eq_getElem hj
  obtain ⟨column, hcolumn, hfound⟩ := getElem?_of_forall₂ hcolumns (getElem?_flatMap_map hr hk)
  refine ⟨_, column, ?_, mem_zip_of_column? hfound, hs.carries_tableRow hr hk⟩
  rw [hs.resolves.shape]
  exact hcolumn

/-! ## Blocks of a catalog -/

/-- The catalog has the blocks that the rows of a table are divided into. -/
def HasBlocks (sets : Registry) (c : Catalog K) (t : TableDeclaration) : Prop :=
  ∃ bs, t.enumerateBlocks sets = .ok bs ∧ (c.blocksOf t.name).map rowBlock = bs

/-- Taking in a table adds its blocks if it is decided, and none otherwise. -/
theorem addTable_ok [Scalar K] {keys : List ProblemKey} (h : addTable sets keys c t = .ok d) :
    ∃ bs, (if t.kind.has .endogenous then t.enumerateBlocks sets = .ok bs else bs = []) ∧
      d.blocks = (bs.foldl (addBlock t) c).blocks := by
  unfold addTable at h
  obtain ⟨_, -, h⟩ := exists_of_bind_eq_ok h
  dsimp only at h
  split at h
  · rename_i hkind
    obtain ⟨bs, hbs, h⟩ := exists_of_bind_eq_ok h
    exact ⟨bs, by rwa [if_pos hkind], (outcome_addVariables_blocks t _ _).value h⟩
  · rename_i hkind
    exact ⟨[], if_neg hkind ▸ rfl, (outcome_addVariables_blocks t _ _).value h⟩

/-- The catalog has the blocks of some tables, as far as they are decided, and of no other one. -/
structure Divided (sets : Registry) (done : List TableDeclaration) (c : Catalog K) : Prop where
  blocks : ∀ t ∈ done, t.kind.has .endogenous = true → c.HasBlocks sets t
  other : ∀ name ∉ done.map TableDeclaration.name, c.blocksOf name = []

theorem Divided.addTable [Scalar K] {keys : List ProblemKey} {done : List TableDeclaration}
    (hc : c.Divided sets done) (hnew : t.name ∉ done.map TableDeclaration.name)
    (h : addTable sets keys c t = .ok d) : d.Divided sets (done ++ [t]) := by
  obtain ⟨bs, hbs, hblocks⟩ := addTable_ok h
  have hrows : ∀ name, (d.blocksOf name).map rowBlock =
      (c.blocksOf name).map rowBlock ++ if t.name = name then bs else [] := by
    intro name
    rw [blocksOf_congr hblocks, rowBlocks_addBlocks]
  -- tables before this one keep their blocks, since its name is new
  constructor
  · intro t' ht' hkind
    rcases List.mem_append.mp ht' with ht' | ht'
    · obtain ⟨bs', hbs', hold⟩ := hc.blocks t' ht' hkind
      have hne : t.name ≠ t'.name := fun heq => hnew (heq ▸ List.mem_map_of_mem ht')
      exact ⟨bs', hbs', by rw [hrows, if_neg hne, List.append_nil, hold]⟩
    · obtain rfl := List.mem_singleton.mp ht'
      rw [if_pos hkind] at hbs
      exact ⟨bs, hbs, by rw [hrows, hc.other _ hnew, if_pos rfl]; rfl⟩
  · intro name hname
    rw [List.map_append, List.mem_append, not_or, List.map_singleton, List.mem_singleton] at hname
    simpa [hc.other name hname.1, Ne.symm hname.2] using hrows name

/-- After the first phase the catalog has the blocks of all tables that are decided. -/
theorem divided_of_addTables [Scalar K] {keys : List ProblemKey}
    (hnames : (tables.map TableDeclaration.name).Nodup)
    (h : tables.foldlM (addTable sets keys) (start tables) = .ok c) : c.Divided sets tables := by
  refine (Outcome.foldlM_prefix (E := AnyError) (I := fun done (c : Catalog K) => c.Divided sets done)
    ⟨List.forall_mem_nil _, fun _ _ => rfl⟩ fun done t rest c hdone hc =>
      Outcome.of_forall fun d hd => hc.addTable ?_ hd).value h
  rw [← hdone, List.map_append, List.nodup_append] at hnames
  exact fun hmem => hnames.2.2 _ hmem _ List.mem_cons_self rfl

end Catalog

end CoupledModels
