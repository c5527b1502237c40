import CoupledModels.Proofs.Catalog.Lookups
import CoupledModels.Proofs.Catalog.Shapes
import CoupledModels.Proofs.Store.Validity

/-!
# Slices and rows

A slice finds its columns by the rows that it writes down, while the filter of a binding is made of
the same items in another way.  With distinct items and coordinates the two agree: the columns of a
slice are those of the rows that the filter lets pass, one for each entry and none twice.
-/

namespace CoupledModels

namespace Catalog

variable {K : Type} {tables : List TableDeclaration} {sets : Registry} {c d : Catalog K}
  {t : TableDeclaration} {declaration : VariableDeclaration} {v : Variable} {b : Binding}

/-! ## Entries and rows -/

/-- A column of a block is that of one row. -/
theorem row_unique {block : Block} {row row' : List String} {column : Nat}
    (h : (row, column) ∈ block.coords.zip block.columns)
    (h' : (row', column) ∈ block.coords.zip block.columns) : row = row' := by
  obtain ⟨k, hk⟩ := List.mem_iff_getElem?.mp h
  obtain ⟨k', hk'⟩ := List.mem_iff_getElem?.mp h'
  obtain ⟨hrow, hcolumn⟩ := List.getElem?_zip_eq_some.mp hk
  obtain ⟨hrow', hcolumn'⟩ := List.getElem?_zip_eq_some.mp hk'
  have hlt : k < block.columns.length := (List.getElem?_eq_some_iff.mp hcolumn).1
  obtain rfl : k = k' :=
    (List.getElem?_inj hlt (List.nodup_range' 1)).mp (hcolumn.trans hcolumn'.symm)
  exact Option.some.inj (hrow.symm.trans hrow')

namespace Situated

variable (hs : Situated declaration t sets v b)
include hs

/-- With distinct items a row stands at the position of its item along a side. -/
theorem sideIndex?_eq_some (hitems : ∀ dim ∈ sets.dims, dim.items.Nodup) {coordinates : List String}
    (hperm : coordinates.Perm t.coordinates) {side : Option String}
    (hside : ∀ d, side = some d → d ∈ t.coordinates) {row : List String}
    (hlength : row.length = coordinates.length) {i : Nat}
    (h : ∀ d item, (d, item) ∈ coordinates.zip row → side = some d → (v.itemsOf d)[i]? = some item)
    (hi : i < (sideItems (side.bind v.items.get?)).length) :
    sideIndex? coordinates side (side.bind v.items.get?) row = some i := by
  cases side with
  | none =>
      obtain rfl : i = 0 := Nat.lt_one_iff.mp hi
      rfl
  | some d =>
      have hd := hside d rfl
      obtain ⟨k, hk, heq⟩ := hs.sideIndex?_eq hperm rfl hd row
      obtain ⟨hlt, hcoordinate, -⟩ := List.idxOf?_eq_some_iff.mp hk
      have hrow : row[k]? = some row[k] := List.getElem?_eq_getElem (hlength ▸ hlt)
      have hzip : (d, row[k]) ∈ coordinates.zip row := List.mem_iff_getElem?.mpr
        ⟨k, List.getElem?_zip_eq_some.mpr
          ⟨(List.getElem?_eq_getElem hlt).trans (congrArg some hcoordinate), hrow⟩⟩
      obtain ⟨hposition, hitem⟩ := List.getElem?_eq_some_iff.mp (h d _ hzip rfl)
      have hnodup := hs.resolves.nodup_itemsOf hitems hd
      rw [heq, List.getD_eq_getElem?_getD, hrow, Option.getD_some, List.idxOf?_eq_some_iff]
      -- no item before this one is the same
      refine ⟨hposition, hitem, fun j hj hsame => Nat.ne_of_lt hj ?_⟩
      exact (hnodup.getElem_inj_iff).mp (hsame.trans hitem.symm)

/-- The row of an entry stands at the place of the entry. -/
theorem sides_of_carries (hitems : ∀ dim ∈ sets.dims, dim.items.Nodup) {coordinates : List String}
    (hperm : coordinates.Perm t.coordinates) {row : List String} {i j : Nat}
    (h : Carries coordinates v b i j row) (hi : i < v.shape.rows) (hj : j < v.shape.cols) :
    sideIndex? coordinates v.roles.rows v.rowItems? row = some i ∧
      sideIndex? coordinates v.roles.cols v.colItems? row = some j := by
  rw [hs.resolves.shape] at hi hj
  exact ⟨hs.sideIndex?_eq_some hitems hperm (fun d hd => hs.resolves.sides d (.inl hd)) h.length
      h.rows hi,
    hs.sideIndex?_eq_some hitems hperm (fun d hd => hs.resolves.sides d (.inr hd)) h.length
      h.cols hj⟩

/-- With distinct items a row belongs to one entry. -/
theorem entry_unique (hitems : ∀ dim ∈ sets.dims, dim.items.Nodup) {row : List String}
    {i j i' j' : Nat} (h : Carries t.coordinates v b i j row)
    (h' : Carries t.coordinates v b i' j' row) (hi : i < v.shape.rows) (hj : j < v.shape.cols)
    (hi' : i' < v.shape.rows) (hj' : j' < v.shape.cols) : i = i' ∧ j = j' := by
  obtain ⟨hrow, hcol⟩ := hs.sides_of_carries hitems .rfl h hi hj
  obtain ⟨hrow', hcol'⟩ := hs.sides_of_carries hitems .rfl h' hi' hj'
  exact ⟨Option.some.inj (hrow.symm.trans hrow'), Option.some.inj (hcol.symm.trans hcol')⟩

/-- The filter of a binding names coordinates of the table. -/
theorem restrictions_ok {st : StoredTable K} (hperm : st.coordinates.Perm t.coordinates)
    (name : String) :
    ∃ rs, st.restrictions name (bindingFilter v b.intra b.inter) = .ok rs := by
  have hkeys : ∀ d ∈ (bindingFilter v b.intra b.inter).keys, d ∈ t.coordinates := by
    intro d hd
    obtain ⟨es, hes, hmem⟩ := exists_filterEntries v b
    obtain ⟨⟨_, items⟩, he, rfl⟩ := List.mem_map.mp hd
    rw [hes] at he
    rcases (hmem _ _).mp (SortedMap.mem_entries_ofList he) with
      ⟨hside, -⟩ | ⟨_, hintra, -⟩ | ⟨_, hi, -⟩
    · exact hs.resolves.sides _ hside
    · exact (hs.resolves.of_intra hintra).1
    · exact (hs.resolves.of_inter (hs.mem_roles_inter hi)).1
  obtain ⟨rs, hrs, -⟩ :=
    StoredTable.restrictions_ok name fun d hd => hperm.mem_iff.mpr (hkeys d hd)
  exact ⟨rs, hrs⟩

/-- The row of an entry passes the filter of the binding. -/
theorem passes_of_carries {st : StoredTable K} {name : String} {rs : List (Nat × List String)}
    {r : Row K} (hrs : st.restrictions name (bindingFilter v b.intra b.inter) = .ok rs) {i j : Nat}
    (h : Carries st.coordinates v b i j r.coords) : StoredTable.passes rs r = true := by
  refine List.all_eq_true.mpr fun p hp => ?_
  obtain ⟨⟨d, items⟩, hentry, hstep⟩ := exists_left_of_forall₂ (forall₂_of_mapM hrs) hp
  simp only at hstep
  split at hstep
  on_goal 2 => cases hstep
  rename_i k hk
  cases hstep
  obtain ⟨hlt, hd, -⟩ := List.idxOf?_eq_some_iff.mp hk
  have hlt' : k < r.coords.length := by rwa [h.length]
  have hzip : (d, r.coords[k]) ∈ st.coordinates.zip r.coords := by
    refine List.mem_iff_getElem?.mpr ⟨k, List.getElem?_zip_eq_some.mpr ⟨?_, ?_⟩⟩
    · rw [List.getElem?_eq_getElem hlt, hd]
    · exact List.getElem?_eq_getElem hlt'
  simp only [List.getElem?_eq_getElem hlt', List.contains_iff_mem]
  obtain ⟨es, hes, hmem⟩ := exists_filterEntries v b
  rw [hes] at hentry
  -- what the filter accepts at a coordinate depends on the part that the coordinate plays
  rcases (hmem d items).mp (SortedMap.mem_entries_ofList hentry) with
    ⟨hrow | hcol, rfl⟩ | ⟨_, hintra, hi, rfl⟩ | ⟨_, hi, rfl⟩
  · exact List.mem_of_getElem? (h.rows d _ hzip hrow)
  · exact List.mem_of_getElem? (h.cols d _ hzip hcol)
  · rw [h.intra d _ hzip hintra] at hi
    exact List.mem_singleton.mpr (Option.some.inj hi)
  · exact List.mem_singleton.mpr
      (hs.inter_unique (h.inter d _ hzip (hs.mem_roles_inter hi)) hi)

/-- A row that passes the filter of a binding is that of an entry. -/
theorem exists_carries_of_passes {st : StoredTable K} (hperm : st.coordinates.Perm t.coordinates)
    {name : String} {rs : List (Nat × List String)} {r : Row K}
    (hlength : r.coords.length = st.coordinates.length)
    (hrs : st.restrictions name (bindingFilter v b.intra b.inter) = .ok rs)
    (hpasses : StoredTable.passes rs r = true) :
    ∃ i < v.shape.rows, ∃ j < v.shape.cols, Carries st.coordinates v b i j r.coords := by
  -- along either side the filter lets only items of the variable pass
  have hside : ∀ side : Option String, (v.roles.rows = side ∨ v.roles.cols = side) →
      ∃ i, sideIndex? st.coordinates side (side.bind v.items.get?) r.coords = some i := by
    intro side hside
    cases side with
    | none => exact ⟨0, rfl⟩
    | some d =>
        obtain ⟨k, item, hk, hitem, hmem⟩ := StoredTable.mem_of_passes hrs hpasses
          (hs.get?_bindingFilter (.inl ⟨hside, rfl⟩))
        obtain ⟨k', hk', heq⟩ := hs.sideIndex?_eq hperm rfl (hs.resolves.sides d hside) r.coords
        obtain rfl : k = k' := Option.some.inj (hk.symm.trans hk')
        rw [heq, List.getD_eq_getElem?_getD, hitem, Option.getD_some]
        exact Option.isSome_iff_exists.mp (List.isSome_idxOf?.mpr hmem)
  obtain ⟨i, hi⟩ := hside v.roles.rows (.inl rfl)
  obtain ⟨j, hj⟩ := hside v.roles.cols (.inr rfl)
  have hrows : i < v.shape.rows := by
    rw [hs.resolves.shape]
    exact hs.lt_of_sideIndex? hperm (fun d hd => hs.resolves.sides d (.inl hd)) hi
  have hcols : j < v.shape.cols := by
    rw [hs.resolves.shape]
    exact hs.lt_of_sideIndex? hperm (fun d hd => hs.resolves.sides d (.inr hd)) hj
  exact ⟨i, hrows, j, hcols, hs.carries_of_passes hperm hlength hrs hpasses hcols
    ⟨i, j, hi, hj, rfl⟩⟩

end Situated

/-! ## Slices and rows -/

/-- A slice names the rows of its binding.  It has a column for each entry, no two of them equal, and
the column of an entry is that of the row which has, at each coordinate, the item of the entry's row,
that of its column, the intra item or the inter item.  The rows of the table that the filter of the
binding lets pass are the rows of these columns. -/
structure NamesRows (K : Type) (sets : Registry) (t : TableDeclaration) (v : Variable) (b : Binding)
    (block : Block) (columns : List Nat) : Prop where
  table : block.table = t.name
  key : block.key = ⟨b.inter⟩
  parts : ∀ d, d ∈ v.roles.dims ↔ d ∈ t.coordinates
  shape : b.shape = ⟨(sideItems v.rowItems?).length, (sideItems v.colItems?).length⟩
  length : columns.length = b.shape.rows * b.shape.cols
  nodup : columns.Nodup
  entry : ∀ i < b.shape.rows, ∀ j < b.shape.cols, ∃ row column,
    columns[i * b.shape.cols + j]? = some column ∧
    (row, column) ∈ block.coords.zip block.columns ∧ Carries t.coordinates v b i j row
  filter : ∃ rows rs, t.enumerate sets = .ok rows ∧
    (⟨t.coordinates, []⟩ : StoredTable K).restrictions t.name b.filter = .ok rs ∧
    ∀ row, row ∈ rows ∧ StoredTable.passes rs (⟨row, none⟩ : Row K) = true ↔
      ∃ column ∈ columns, (row, column) ∈ block.coords.zip block.columns

/-- A table with a block has been enumerated. -/
theorem Divides.exists_rows (h : c.Divides tables sets)
    (hnames : (tables.map TableDeclaration.name).Nodup) (ht : t ∈ tables) {block : Block}
    (hblock : block ∈ c.blocks) (htable : block.table = t.name) :
    ∃ rows, t.enumerate sets = .ok rows := by
  have hmem : block ∈ c.blocksOf t.name :=
    List.mem_filter.mpr ⟨Array.mem_toList_iff.mpr hblock, beq_iff_eq.mpr htable⟩
  rcases h t.name with hnone | ⟨t', ht', hname, bs, hbs, -⟩
  · simp [hnone] at hmem
  · obtain rfl : t' = t := List.inj_on_of_nodup_map hnames ht' ht hname
    obtain ⟨rows, hrows, -⟩ := exists_of_bind_eq_ok hbs
    exact ⟨rows, hrows⟩

/-- The place of a column is that of an entry, if there is a column for each entry. -/
theorem exists_entry {columns : List Nat} {m n : Nat} (hlength : columns.length = m * n)
    {R : Nat → Nat → Nat → Prop}
    (h : ∀ i < m, ∀ j < n, ∃ column, columns[i * n + j]? = some column ∧ R i j column)
    {p column : Nat} (hp : columns[p]? = some column) :
    ∃ i < m, ∃ j < n, p = i * n + j ∧ R i j column := by
  have hlt : p < m * n := hlength ▸ (List.getElem?_eq_some_iff.mp hp).1
  have hn : 0 < n := Nat.pos_of_mul_pos_left (Nat.zero_lt_of_lt hlt)
  have hi : p / n < m := (Nat.div_lt_iff_lt_mul hn).mpr hlt
  have hj : p % n < n := Nat.mod_lt _ hn
  have heq : p = p / n * n + p % n := (Nat.div_add_mod' p n).symm
  obtain ⟨column', hcolumn, hR⟩ := h _ hi _ hj
  rw [← heq, hp] at hcolumn
  obtain rfl := Option.some.inj hcolumn
  exact ⟨_, hi, _, hj, heq, hR⟩

/-- Columns that stand at the places of entries, with the rows of these, are distinct. -/
theorem Situated.nodup_columns {declaration : VariableDeclaration}
    (hs : Situated declaration t sets v b)
    (hitems : ∀ dim ∈ sets.dims, dim.items.Nodup) {block : Block} {columns : List Nat}
    (hplace : ∀ p column, columns[p]? = some column → ∃ i < v.shape.rows, ∃ j < v.shape.cols,
      p = i * v.shape.cols + j ∧ ∃ row, (row, column) ∈ block.coords.zip block.columns ∧
        Carries t.coordinates v b i j row) : columns.Nodup := by
  rw [List.nodup_iff_getElem?_ne_getElem?]
  intro p q hpq hq heq
  have hcolumn := List.getElem?_eq_getElem hq
  obtain ⟨i, hi, j, hj, hp, row, hzip, hcarries⟩ := hplace p _ (heq.trans hcolumn)
  obtain ⟨i', hi', j', hj', hq', row', hzip', hcarries'⟩ := hplace q _ hcolumn
  obtain rfl := row_unique hzip hzip'
  obtain ⟨rfl, rfl⟩ := hs.entry_unique hitems hcarries hcarries' hi hj hi' hj'
  omega

variable [Scalar K]

/-- Every decision binding of a consistent catalog names its rows. -/
theorem Consistent.namesRows (hc : c.Consistent tables sets)
    (hitems : ∀ dim ∈ sets.dims, dim.items.Nodup)
    (hcoordinates : ∀ t ∈ tables, t.coordinates.Nodup) (hb : b ∈ c.bindings) {n : Nat}
    {columns : List Nat} (hvalue : b.value = .slice n columns) :
    ∃ v t block, c.variableNamed? b.symbol = some v ∧ t ∈ tables ∧ v.table = t.name ∧
      c.blocks[n]? = some block ∧ NamesRows K sets t v b block columns := by
  obtain ⟨v, hname, hbinds, t, ht, declaration, hs⟩ :=
    hc.exists_situated hcoordinates hb fun i => by simp [hvalue]
  obtain ⟨block, hblock, htable, hkey, hentries⟩ := hc.entries_of_slice ht hs hbinds hvalue
  obtain ⟨rows, hrows⟩ :=
    hc.divides.exists_rows hc.names ht (Array.mem_of_getElem? hblock) htable
  have hdeclared : (⟨t.coordinates, []⟩ : StoredTable K).coordinates.Perm t.coordinates := .rfl
  obtain ⟨rs, hrs⟩ := hs.restrictions_ok hdeclared t.name
  have hlength : columns.length = v.shape.rows * v.shape.cols := by
    have hrefers := hbinds.refers
    unfold Refers at hrefers
    simp only [hvalue] at hrefers
    exact length_of_slice hs.resolves.shape hrefers
  -- every column stands at the place of an entry, whose row it has
  have hplace : ∀ p column, columns[p]? = some column → ∃ i < v.shape.rows, ∃ j < v.shape.cols,
      p = i * v.shape.cols + j ∧ ∃ row, (row, column) ∈ block.coords.zip block.columns ∧
        Carries t.coordinates v b i j row := by
    refine fun p column hp => exists_entry hlength (R := fun i j column => ∃ row,
      (row, column) ∈ block.coords.zip block.columns ∧ Carries t.coordinates v b i j row)
      (fun i hi j hj => ?_) hp
    obtain ⟨row, column, hcolumn, hrow⟩ := hentries i hi j hj
    exact ⟨column, hcolumn, row, hrow⟩
  refine ⟨v, t, block, hname, ht, hs.resolves.table, hblock, {
    table := htable
    key := hkey
    parts := fun d => hs.resolves.mem_dims_iff
    shape := hbinds.shape.trans hs.resolves.shape
    length := hbinds.shape ▸ hlength
    nodup := hs.nodup_columns hitems hplace
    entry := hbinds.shape ▸ hentries
    filter := ⟨rows, rs, hrows, hbinds.filter ▸ hrs, fun row => ⟨?_, ?_⟩⟩ }⟩
  · rintro ⟨hrow, hpasses⟩
    have hrowLength := ((TableDeclaration.mem_enumerate_iff hrows).mp hrow).1.symm
    obtain ⟨i, hi, j, hj, hcarries⟩ := hs.exists_carries_of_passes hdeclared hrowLength hrs hpasses
    obtain ⟨row', column, hcolumn, hzip, hcarries'⟩ := hentries i hi j hj
    obtain rfl := hs.carries_unique .rfl hcarries hcarries'
    exact ⟨column, List.mem_of_getElem? hcolumn, hzip⟩
  · rintro ⟨column, hcolumn, hzip⟩
    obtain ⟨p, hp⟩ := List.mem_iff_getElem?.mp hcolumn
    obtain ⟨i, -, j, -, -, row', hzip', hcarries⟩ := hplace p column hp
    obtain rfl := row_unique hzip hzip'
    exact ⟨hs.mem_enumerate hrows hcarries, hs.passes_of_carries hrs hcarries⟩

/-- With distinct items and distinct coordinates, a build does not fail for want of a decision block
or of a row in one.  In the catalog that it gives, every decision binding names its rows in the block
that it refers to. -/
theorem build_names_rows (hitems : ∀ dim ∈ sets.dims, dim.items.Nodup)
    (hcoordinates : ∀ t ∈ tables, t.coordinates.Nodup) :
    Outcome (fun c : Catalog K => ∀ b ∈ c.bindings, ∀ n columns, b.value = .slice n columns →
        ∃ v t block, c.variableNamed? b.symbol = some v ∧ t ∈ tables ∧ v.table = t.name ∧
          c.blocks[n]? = some block ∧ NamesRows K sets t v b block columns)
      (fun e => ¬ LacksColumns e) (build tables sets) :=
  (knowsColumns_build hcoordinates).outcome <| Outcome.of_forall fun _ hbuild _ hb _ _ hvalue =>
    (consistent_of_build hbuild .refl).namesRows hitems hcoordinates hb hvalue

end Catalog

/-! ## Harvests -/

namespace Catalog.Harvests

open Purchases

/-- Two regions, which divide the model, with two years, two fields and three crops. -/
def sets : Registry :=
  ⟨[{ Dimension.ofItems "region" ["north", "south"] with splits := true },
    .ofItems "year" ["first", "second"], .ofItems "field" ["a", "b"],
    { Dimension.ofItems "crop" ["rye", "hay", "oat"] with
      categories := ⟨[("hay", "fodder"), ("oat", "grain"), ("rye", "grain")]⟩ }], by decide⟩

/-- What is harvested of the grains, on each field in each year. -/
def harvest : TableDeclaration :=
  ⟨"harvest", .fixed .endogenous, ["year", "region", "field", "crop"], false,
    [⟨"x", .dim "crop", .dim "field", none, ⟨[("crop", ⟨some "grain", .empty⟩)]⟩⟩]⟩

/-- The grains of the north in the second year. -/
def late : Binding :=
  ⟨1, "x", none, [("region", "north")], some "second",
    ⟨[("crop", ["rye", "oat"]), ("field", ["a", "b"]), ("region", ["north"]), ("year", ["second"])]⟩,
    ⟨2, 2⟩, .slice 0 [7, 10, 9, 12]⟩

/-- Rye and oat have the first and the last column of each field. -/
theorem build_names_rows_harvests : ∃ c : Catalog Rat, build [harvest] sets = .ok c ∧
    late ∈ c.bindings ∧ ∃ v block, c.variableNamed? "x" = some v ∧ c.blocks[0]? = some block ∧
      NamesRows Rat sets harvest v late block [7, 10, 9, 12] := by
  have hlate : (build [harvest] sets : Except ModelError (Catalog Rat)).map (fun c => c.bindings[1]?) =
      .ok (some late) := by decide +kernel
  obtain ⟨c, hbuild, hlate⟩ := exists_of_map_eq_ok hlate
  have hmem : late ∈ c.bindings := Array.mem_of_getElem? hlate
  obtain ⟨v, t, block, hv, ht, -, hblock, hnames⟩ :=
    (build_names_rows (by decide) (by decide)).value hbuild late hmem 0 [7, 10, 9, 12] rfl
  obtain rfl := List.mem_singleton.mp ht
  exact ⟨c, hbuild, hmem, v, block, hv, hblock, hnames⟩

end Catalog.Harvests

end CoupledModels
