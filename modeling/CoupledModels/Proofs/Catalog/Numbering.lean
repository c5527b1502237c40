import CoupledModels.Proofs.Catalog.Decided
import CoupledModels.Proofs.Sets.Keys

/-!
# Numbering of decision columns

Three enumerations have to agree: the rows of a table, the blocks that group them by splitting items,
and the columns, which are numbered along the blocks of all tables.  A block lists its rows in the
order of the table, the blocks of a table share out its rows, and the columns of the blocks follow on
from each other, so that every row of every decided table has one column and every column one row.
-/

namespace CoupledModels

/-! ## Blocks of a table -/

namespace TableDeclaration

variable {t : TableDeclaration} {sets : Registry} {rows done : List (List String)}

/-- Rows are enumerated in lexicographic order of their items, the last coordinate fastest. -/
theorem pairwise_enumerate (hitems : ∀ dim ∈ sets.dims, dim.items.Nodup)
    (h : t.enumerate sets = .ok rows) : rows.Pairwise fun row row' =>
      (t.coordinates.zip row).map sets.rank < (t.coordinates.zip row').map sets.rank := by
  obtain ⟨dims, hdims, heq⟩ := exists_of_bind_eq_ok h
  cases heq
  have hranks : List.Forall₂ (fun d items => items.Pairwise fun a b =>
      sets.rank (d, a) < sets.rank (d, b)) t.coordinates (dims.map Dimension.items) := by
    rw [List.forall₂_map_right_iff]
    refine (forall₂_of_mapM hdims).imp fun d dim hdim => ?_
    have hfound := Registry.find?_of_get hdim
    exact Registry.pairwise_rank hfound (hitems dim (List.mem_of_find?_eq_some hfound))
  exact Registry.pairwise_product hranks

/-- A row that is taken in goes to the end of a block. -/
theorem sublist_addToBlock {bs : List RowBlock}
    (h : ∀ b ∈ bs, b.rows.Sublist done ∧ b.rows ≠ []) (key : ProblemKey) (row : List String) :
    ∀ b ∈ addToBlock key row bs, b.rows.Sublist (done ++ [row]) ∧ b.rows ≠ [] := by
  induction bs with
  | nil =>
      intro b hb
      obtain rfl := List.mem_singleton.mp hb
      exact ⟨List.sublist_append_right done [row], List.cons_ne_nil _ _⟩
  | cons b bs ih =>
      obtain ⟨⟨hb, hne⟩, hbs⟩ := List.forall_mem_cons.mp h
      have hold : ∀ b' ∈ bs, b'.rows.Sublist (done ++ [row]) ∧ b'.rows ≠ [] := fun b' hb' =>
        ⟨(hbs b' hb').1.trans (List.sublist_append_left done [row]), (hbs b' hb').2⟩
      unfold addToBlock
      split
      · exact List.forall_mem_cons.mpr
          ⟨⟨hb.append (List.Sublist.refl [row]), List.append_ne_nil_of_left_ne_nil hne _⟩, hold⟩
      · exact List.forall_mem_cons.mpr
          ⟨⟨hb.trans (List.sublist_append_left done [row]), hne⟩, ih hbs⟩

/-- A block has rows, in the order of the table. -/
theorem sublist_of_enumerateBlocks {bs : List RowBlock} (hbs : t.enumerateBlocks sets = .ok bs)
    (hrows : t.enumerate sets = .ok rows) : ∀ b ∈ bs, b.rows.Sublist rows ∧ b.rows ≠ [] := by
  unfold enumerateBlocks at hbs
  rw [hrows] at hbs
  cases hbs
  clear hrows
  induction rows using List.reverseRecOn with
  | nil => exact List.forall_mem_nil _
  | append_singleton rows row ih =>
      rw [List.foldl_append, List.foldl_cons, List.foldl_nil]
      exact sublist_addToBlock ih _ row

/-- The blocks share out the rows of a table: each row stands in one block, at its place in the
order of rows, and the key of a block is the projection of its rows on the splitting coordinates. -/
structure SharesOut (t : TableDeclaration) (sets : Registry) (bs : List RowBlock) : Prop where
  mem_iff : ∀ row, row ∈ bs.flatMap RowBlock.rows ↔ t.coordinates.length = row.length ∧
    ∀ d item, (d, item) ∈ t.coordinates.zip row → ∃ dim, sets.find? d = some dim ∧ item ∈ dim.items
  nodup : (bs.flatMap RowBlock.rows).Nodup
  ordered : ∀ b ∈ bs, b.rows.Pairwise fun row row' =>
    (t.coordinates.zip row).map sets.rank < (t.coordinates.zip row').map sets.rank
  keys : (bs.map RowBlock.key).Nodup
  nonempty : ∀ b ∈ bs, b.rows ≠ []
  projected : ∀ b ∈ bs, ∀ row ∈ b.rows,
    b.key.coords = (t.coordinates.zip row).filter fun c => sets.isSplitting c.1
  /-- If no coordinate lacks items, each sub-problem has one block. -/
  agreeing : (∀ d ∈ t.coordinates, ∀ dim, sets.find? d = some dim → dim.items ≠ []) →
    ∀ key ∈ sets.problemKeys, ∃! b, b ∈ bs ∧ key.agreesWith b.key.coords = true

/-- If no coordinate lacks items, some row has the items of a key. -/
theorem exists_row_of_key (h : t.enumerate sets = .ok rows)
    (hitems : ∀ d ∈ t.coordinates, ∀ dim, sets.find? d = some dim → dim.items ≠ [])
    {key : ProblemKey} (hkey : key ∈ sets.problemKeys) :
    ∃ row ∈ rows, ∀ c ∈ (t.blockKey sets row).coords, key.item? c.1 = some c.2 := by
  -- splitting coordinates take the item of the key, the others any item
  have hchoice : ∀ d ∈ t.coordinates, ∃ item,
      (∃ dim, sets.find? d = some dim ∧ item ∈ dim.items) ∧
        (sets.isSplitting d = true → key.item? d = some item) := by
    intro d hd
    by_cases hsplit : sets.isSplitting d = true
    · obtain ⟨item, hitem⟩ := ProblemKey.exists_item?_of_isSplitting hkey hsplit
      exact ⟨item, ProblemKey.mem_items_of_item? hkey hitem, fun _ => hitem⟩
    · obtain ⟨dims, hdims, -⟩ := exists_of_bind_eq_ok h
      obtain ⟨dim, -, hdim⟩ := exists_right_of_forall₂ (forall₂_of_mapM hdims) hd
      have hfound := Registry.find?_of_get hdim
      obtain ⟨item, hitem⟩ := List.exists_mem_of_ne_nil _ (hitems d hd dim hfound)
      exact ⟨item, ⟨dim, hfound, hitem⟩, fun hd => absurd hd hsplit⟩
  obtain ⟨row, hrow⟩ := exists_forall₂ hchoice
  obtain ⟨hlength, hzip⟩ := List.forall₂_iff_zip.mp hrow
  refine ⟨row, (mem_enumerate_iff h).mpr ⟨hlength, fun d item hmem => (hzip hmem).1⟩, ?_⟩
  intro c hc
  obtain ⟨hmem, hsplit⟩ := List.mem_filter.mp hc
  exact (hzip hmem).2 hsplit

/-- The blocks that rows are grouped into share them out. -/
theorem sharesOut_of_enumerateBlocks {bs : List RowBlock} (hbs : t.enumerateBlocks sets = .ok bs)
    (hitems : ∀ dim ∈ sets.dims, dim.items.Nodup) : t.SharesOut sets bs := by
  obtain ⟨rows, hrows, hperm⟩ := enumerateBlocks_ok hbs
  have hlists := sublist_of_enumerateBlocks hbs hrows
  have hkeys := keepsKeys_of_enumerateBlocks hbs
  have hnodup := nodup_keys_of_enumerateBlocks hbs
  have hsplits : ∀ b ∈ bs, ∀ c ∈ b.key.coords, sets.isSplitting c.1 = true := by
    intro b hb c hc
    obtain ⟨row, hrow⟩ := List.exists_mem_of_ne_nil _ (hlists b hb).2
    rw [← hkeys b hb row hrow] at hc
    exact (List.mem_filter.mp hc).2
  have hdims : ∀ b ∈ bs, b.key.coords.map Prod.fst = t.splitDims sets := by
    intro b hb
    obtain ⟨row, hrow⟩ := List.exists_mem_of_ne_nil _ (hlists b hb).2
    rw [← hkeys b hb row hrow]
    exact map_fst_blockKey ((mem_enumerate_iff hrows).mp ((hlists b hb).1.subset hrow)).1
  -- the key of a block is that of its rows, and two blocks that agree with one key have the same
  -- one
  exact {
    mem_iff := fun row => hperm.mem_iff.trans (mem_enumerate_iff hrows)
    nodup := hperm.nodup_iff.mpr ((enumerate_ok hrows).2 hitems)
    ordered := fun b hb => (pairwise_enumerate hitems hrows).sublist (hlists b hb).1
    keys := hnodup
    nonempty := fun b hb => (hlists b hb).2
    projected := fun b hb row hrow => congrArg ProblemKey.coords (hkeys b hb row hrow).symm
    agreeing := fun hne key hkey => by
      obtain ⟨row, hrow, hitem⟩ := exists_row_of_key hrows hne hkey
      obtain ⟨b, hb, hmem⟩ := List.mem_flatMap.mp (hperm.mem_iff.mpr hrow)
      rw [hkeys b hb row hmem] at hitem
      refine ⟨b, ⟨hb, (ProblemKey.agreesWith_iff hkey (hsplits b hb)).mpr hitem⟩, ?_⟩
      rintro b' ⟨hb', hagrees⟩
      have hitem' := (ProblemKey.agreesWith_iff hkey (hsplits b' hb')).mp hagrees
      have hsame := ProblemKey.eq_of_agreement hitem' hitem ((hdims b' hb').trans (hdims b hb).symm)
      exact List.inj_on_of_nodup_map hnodup hb' hb (congrArg ProblemKey.mk hsame) }

end TableDeclaration

namespace Catalog

variable {K : Type} {tables : List TableDeclaration} {sets : Registry} {c d : Catalog K}

/-! ## Columns and their tables -/

/-- Every column is flagged as the table of its block demands, which is one that is decided. -/
structure Flagged (tables : List TableDeclaration) (c : Catalog K) : Prop where
  size : c.integer.size = c.values.size
  flags : ∀ b ∈ c.blocks, ∃ t ∈ tables, t.name = b.table ∧ t.kind.has .endogenous = true ∧
    ∀ column ∈ b.columns, c.integer[column]? = some t.integer

namespace Flagged

theorem start [Scalar K] (tables : List TableDeclaration) :
    (start (K := K) tables).Flagged tables where
  size := rfl
  flags := fun b hb => absurd hb (Array.not_mem_empty b)

theorem addBlock (h : c.Flagged tables) {t : TableDeclaration} (ht : t ∈ tables)
    (hkind : t.kind.has .endogenous = true) (b : RowBlock) :
    (addBlock t c b).Flagged tables where
  size := by simp [Catalog.addBlock, h.size]
  flags := by
    intro block hblock
    rcases Array.mem_push.mp hblock with hblock | rfl
    · obtain ⟨t', ht', hname, hkind', hflags⟩ := h.flags block hblock
      refine ⟨t', ht', hname, hkind', fun column hcolumn => ?_⟩
      have hflag := hflags column hcolumn
      exact (Array.getElem?_append_left (Array.getElem?_eq_some_iff.mp hflag).1).trans hflag
    · refine ⟨t, ht, rfl, hkind, fun column hcolumn => ?_⟩
      -- the flags of the new columns are appended where their numbers begin
      obtain ⟨hlow, hhigh⟩ := List.mem_range'_1.mp hcolumn
      have hnew : c.integer.size ≤ column := h.size ▸ hlow
      have hlt : column - c.integer.size < b.rows.length := by
        rw [h.size]
        exact Nat.sub_lt_left_of_lt_add hlow hhigh
      refine (Array.getElem?_append_right hnew).trans ?_
      rw [Array.getElem?_replicate, if_pos hlt]

theorem congr (h : c.Flagged tables) (hsame : SameColumns c d) : d.Flagged tables where
  size := by rw [hsame.integer, hsame.values, h.size]
  flags := by
    rw [hsame.blocks, hsame.integer]
    exact h.flags

end Flagged

variable [Scalar K]

theorem flagged_of_build (h : build tables sets = .ok c) : c.Flagged tables :=
  build_induction (Flagged.start tables) (fun _ hc _ ht hkind _ _ b _ => hc.addBlock ht hkind b)
    (fun _ _ hsame hc => hc.congr hsame) h

/-- A catalog has the blocks of its tables. -/
theorem divided_of_build (h : build tables sets = .ok c) : c.Divided sets tables := by
  obtain ⟨hnames, c₁, htables, hbindings⟩ := build_ok h
  have hdivided := divided_of_addTables hnames htables
  have hblocks : ∀ name, c.blocksOf name = c₁.blocksOf name := fun name =>
    blocksOf_congr (grows_of_addBindings hbindings).extension.blocks
  refine ⟨fun t ht hkind => ?_, fun name hname => (hblocks name).trans (hdivided.other name hname)⟩
  obtain ⟨bs, hbs, hrows⟩ := hdivided.blocks t ht hkind
  exact ⟨bs, hbs, by rw [hblocks, hrows]⟩

/-- The decision columns of a catalog are numbered from one along its blocks.  Each block is one of a
decided table, whose flag its columns have, and the blocks of a decided table share out its rows. -/
structure Numbers (tables : List TableDeclaration) (sets : Registry) (c : Catalog K) : Prop where
  columns : c.blocks.toList.flatMap Block.columns = List.range' 1 c.columnCount
  constantTerm : ∀ b ∈ c.blocks, 0 ∉ b.columns
  owners : ∀ b ∈ c.blocks, ∃ t ∈ tables, t.name = b.table ∧ t.kind.has .endogenous = true ∧
    ∀ column ∈ b.columns, c.isInteger column = t.integer
  blocks : ∀ t ∈ tables, t.kind.has .endogenous = true →
    t.SharesOut sets ((c.blocksOf t.name).map rowBlock)

/-- The keys of a registry are all combinations of items of its splitting dimensions, each of them
once and in lexicographic order. -/
structure ListsProblems (sets : Registry) : Prop where
  mem_iff : ∀ key : ProblemKey, key ∈ sets.problemKeys ↔
    List.Forall₂ (fun (c : Coordinate) dim => c.1 = dim.id ∧ c.2 ∈ dim.items) key.coords
      sets.splitting
  nodup : sets.problemKeys.Nodup
  ordered : sets.problemKeys.Pairwise fun key key' =>
    key.coords.map sets.rank < key'.coords.map sets.rank

/-- A build numbers decision columns without gaps or overlaps. -/
theorem build_numbers (hitems : ∀ dim ∈ sets.dims, dim.items.Nodup)
    (h : build tables sets = .ok c) : c.Numbers tables sets ∧ ListsProblems sets := by
  have hnumbered := numbered_of_build h .refl
  refine ⟨{
    columns := hnumbered.columns
    constantTerm := fun b hb hmem => absurd (hnumbered.column_lt hb hmem).1 (Nat.lt_irrefl 0)
    owners := fun b hb => ?_
    blocks := fun t ht hkind => ?_ },
    fun _ => Registry.mem_problemKeys_iff, Registry.nodup_problemKeys hitems,
    Registry.pairwise_problemKeys hitems⟩
  · obtain ⟨t, ht, hname, hkind, hflags⟩ := (flagged_of_build h).flags b hb
    refine ⟨t, ht, hname, hkind, fun column hcolumn => ?_⟩
    rw [isInteger, Array.getD_eq_getD_getElem?, hflags column hcolumn, Option.getD_some]
  · obtain ⟨_, hbs, rfl⟩ := (divided_of_build h).blocks t ht hkind
    exact TableDeclaration.sharesOut_of_enumerateBlocks hbs hitems

end Catalog

/-! ## Routes -/

namespace Catalog.Routes

/-- Two depots, which divide the model, and three days. -/
def sets : Registry :=
  ⟨[.ofItems "day" ["mon", "tue", "wed"],
    { Dimension.ofItems "depot" ["north", "south"] with splits := true }], by decide⟩

/-- Trucks are counted, and fuel is not. -/
def tables : List TableDeclaration :=
  [⟨"trucks", .fixed .endogenous, ["day", "depot"], true, []⟩,
    ⟨"fuel", .fixed .endogenous, ["depot"], false, []⟩]

/-- The trucks of a depot have a column for each day, and the fuel of the depots comes after. -/
theorem build_numbers_routes : ∃ c : Catalog Rat, build tables sets = .ok c ∧
    c.blocks.toList.map Block.columns = [[1, 2, 3], [4, 5, 6], [7], [8]] ∧
      c.Numbers tables sets ∧ ListsProblems sets := by
  have hcolumns : (build tables sets : Except ModelError (Catalog Rat)).map
      (fun c => c.blocks.toList.map Block.columns) = .ok [[1, 2, 3], [4, 5, 6], [7], [8]] := by
    decide +kernel
  obtain ⟨c, hbuild, hcolumns⟩ := exists_of_map_eq_ok hcolumns
  exact ⟨c, hbuild, hcolumns, build_numbers (by decide) hbuild⟩

end Catalog.Routes

end CoupledModels
