import CoupledModels.Proofs.Catalog.Bindings
import CoupledModels.Proofs.Catalog.SolvedRows
import CoupledModels.Proofs.Sets.Products

/-!
# Blocks of a table

The blocks of a table divide its rows among them: every row that is enumerated stands in one block,
once.  So with distinct items a row of the table has one decision column.
-/

namespace CoupledModels

/-! ## Rows of a table -/

namespace TableDeclaration

variable {t : TableDeclaration} {sets : Registry}

/-- Rows have one item for each coordinate, and with distinct items no row is listed twice. -/
theorem enumerate_ok {rows : List (List String)} (h : t.enumerate sets = .ok rows) :
    (∀ row ∈ rows, row.length = t.coordinates.length) ∧
      ((∀ d ∈ sets.dims, d.items.Nodup) → rows.Nodup) := by
  obtain ⟨dims, hdims, heq⟩ := exists_of_bind_eq_ok h
  cases heq
  have hget := forall₂_of_mapM hdims
  refine ⟨fun row hrow => ?_, fun hitems => Registry.nodup_product fun items hmem => ?_⟩
  · rw [(Registry.forall₂_of_mem_product hrow).length_eq, List.length_map, hget.length_eq]
  · obtain ⟨d, hd, rfl⟩ := List.mem_map.mp hmem
    obtain ⟨id, -, hfound⟩ := exists_left_of_forall₂ hget hd
    exact hitems d (List.mem_of_find?_eq_some (Registry.find?_of_get hfound))

theorem perm_addToBlock (key : ProblemKey) (row : List String) (bs : List RowBlock) :
    ((addToBlock key row bs).flatMap RowBlock.rows).Perm (bs.flatMap RowBlock.rows ++ [row]) := by
  induction bs with
  | nil => exact List.Perm.refl _
  | cons b bs ih =>
      unfold addToBlock
      split
      · simp only [List.flatMap_cons, List.append_assoc]
        exact List.Perm.append_left _ List.perm_append_comm
      · rw [List.flatMap_cons, List.flatMap_cons, List.append_assoc]
        exact ih.append_left _

/-- The blocks of a table hold its rows. -/
theorem enumerateBlocks_ok {bs : List RowBlock} (h : t.enumerateBlocks sets = .ok bs) :
    ∃ rows, t.enumerate sets = .ok rows ∧ (bs.flatMap RowBlock.rows).Perm rows := by
  obtain ⟨rows, hrows, heq⟩ := exists_of_bind_eq_ok h
  cases heq
  refine ⟨rows, hrows, ?_⟩
  clear hrows h
  induction rows using List.reverseRecOn with
  | nil => exact List.Perm.refl _
  | append_singleton rows row ih =>
      rw [List.foldl_append, List.foldl_cons, List.foldl_nil]
      exact (perm_addToBlock _ _ _).trans (ih.append_right _)

end TableDeclaration

namespace Catalog

variable {K : Type} {tables : List TableDeclaration} {sets : Registry} {c d : Catalog K}
  {name : String}

/-! ## Blocks of a catalog -/

/-- The rows of the blocks of each table are those that are enumerated for a table of the name. -/
def Divides (tables : List TableDeclaration) (sets : Registry) (c : Catalog K) : Prop :=
  ∀ name, c.blocksOf name = [] ∨ ∃ t ∈ tables, t.name = name ∧
    ∃ bs, t.enumerateBlocks sets = .ok bs ∧
      (c.blocksOf name).map Block.coords = bs.map RowBlock.rows

theorem blocksOf_congr (h : d.blocks = c.blocks) : d.blocksOf name = c.blocksOf name := by
  rw [blocksOf, blocksOf, h]

/-- A block without its columns. -/
def rowBlock (b : Block) : RowBlock :=
  ⟨b.key, b.coords⟩

/-- The blocks of a table come after those that there are. -/
theorem rowBlocks_addBlocks (t : TableDeclaration) (bs : List RowBlock) (c : Catalog K)
    (name : String) :
    ((bs.foldl (addBlock t) c).blocksOf name).map rowBlock =
      (c.blocksOf name).map rowBlock ++ if t.name = name then bs else [] := by
  induction bs generalizing c with
  | nil => simp
  | cons b bs ih =>
      rw [List.foldl_cons, ih]
      by_cases hname : t.name = name
      · simp [blocksOf, addBlock, rowBlock, hname]
      · simp [blocksOf, addBlock, hname]

theorem blocksOf_addBlocks (t : TableDeclaration) (bs : List RowBlock) (c : Catalog K)
    (name : String) :
    ((bs.foldl (addBlock t) c).blocksOf name).map Block.coords =
      (c.blocksOf name).map Block.coords ++ if t.name = name then bs.map RowBlock.rows else [] := by
  have hrows := congrArg (List.map RowBlock.rows) (rowBlocks_addBlocks t bs c name)
  rw [List.map_append, List.map_map, List.map_map, apply_ite (List.map RowBlock.rows)] at hrows
  exact hrows

/-- Resolving variables leaves the blocks alone. -/
theorem outcome_addVariables_blocks (t : TableDeclaration) (vs : List VariableDeclaration)
    (c : Catalog K) :
    Outcome (fun d => d.blocks = c.blocks) AnyError (vs.foldlM (addVariable t sets) c) := by
  refine Outcome.foldlM rfl fun d hd v _ => ?_
  unfold addVariable
  dsimp only
  split
  · trivial
  · exact Outcome.bind_any fun _ => hd

/-- A table with a new name is divided into blocks, or it has none. -/
theorem Divides.addTable {done : List TableDeclaration} (h : c.Divides done sets)
    (keys : List ProblemKey) {t : TableDeclaration} (hnew : t.name ∉ done.map TableDeclaration.name) :
    Outcome (Divides (done ++ [t]) sets) AnyError (addTable sets keys c t) := by
  have hmore : ∀ d : Catalog K, d.blocks = c.blocks → d.Divides (done ++ [t]) sets := by
    intro d hd name
    rw [blocksOf_congr hd]
    refine (h name).imp_right fun ⟨t', ht', hbs⟩ => ⟨t', List.mem_append_left _ ht', hbs⟩
  have hnone : c.blocksOf t.name = [] := by
    refine (h t.name).resolve_right fun ⟨t', ht', hname, _⟩ => hnew ?_
    exact hname ▸ List.mem_map_of_mem ht'
  unfold Catalog.addTable
  refine Outcome.bind_any fun _ => ?_
  dsimp only
  split
  swap
  · exact (outcome_addVariables_blocks t _ c).imp hmore
  -- the new blocks are those of the rows of this table, and no other table gets any
  refine Outcome.bind_ok fun bs hbs => ?_
  refine (outcome_addVariables_blocks t _ _).imp fun d hd name => ?_
  rw [blocksOf_congr hd]
  by_cases hname : t.name = name
  · subst hname
    refine .inr ⟨t, List.mem_append_right _ List.mem_cons_self, rfl, bs, hbs, ?_⟩
    rw [blocksOf_addBlocks, hnone, if_pos rfl]
    rfl
  · have hsame := blocksOf_addBlocks t bs c name
    rw [if_neg hname, List.append_nil] at hsame
    refine (h name).imp (fun hempty => ?_) fun ⟨t', ht', hname', bs', hbs', hcoords⟩ =>
      ⟨t', List.mem_append_left _ ht', hname', bs', hbs', hsame.trans hcoords⟩
    rw [hempty, List.map_nil, List.map_eq_nil_iff] at hsame
    exact hsame

theorem Divides.congr (h : c.Divides tables sets) (hblocks : d.blocks = c.blocks) :
    d.Divides tables sets := by
  intro name
  rw [blocksOf_congr hblocks]
  exact h name

theorem divides_of_build [Scalar K] (h : build tables sets = .ok c) : c.Divides tables sets := by
  obtain ⟨hnames, c₁, htables, hbindings⟩ := build_ok h
  have hdivides : c₁.Divides tables sets := by
    refine (Outcome.foldlM_prefix (E := AnyError) (I := fun done c => c.Divides done sets)
      (fun name => .inl rfl) fun done t rest c hdone hc => ?_).value htables
    refine hc.addTable _ fun hmem => ?_
    rw [← hdone, List.map_append, List.nodup_append] at hnames
    exact hnames.2.2 _ hmem _ List.mem_cons_self rfl
  exact hdivides.congr (grows_of_addBindings hbindings).extension.blocks

/-! ## Columns of rows -/

/-- The blocks of a table hold a row of the table in a column. -/
def HasColumn (c : Catalog K) (name : String) (row : List String) (column : Nat) : Prop :=
  ∃ b ∈ c.blocksOf name, (row, column) ∈ b.coords.zip b.columns

/-- A row is found in its column. -/
theorem mem_zip_of_column? {block : Block} {row : List String} {column : Nat}
    (h : block.column? row = some column) : (row, column) ∈ block.coords.zip block.columns := by
  obtain ⟨k, hk, rfl⟩ := Option.map_eq_some_iff.mp h
  obtain ⟨l, hl, rfl⟩ := Option.map_eq_some_iff.mp hk
  obtain ⟨hlt, hrow, -⟩ := List.idxOf?_eq_some_iff.mp hl
  have hlt' : l < block.coords.length := by simpa using hlt
  refine List.mem_iff_getElem?.mpr
    ⟨block.coords.length - 1 - l, List.getElem?_zip_eq_some.mpr ⟨?_, ?_⟩⟩
  · rw [← List.getElem?_reverse hlt', List.getElem?_eq_getElem hlt, hrow]
  · rw [Block.columns, List.getElem?_range' (by omega), Nat.one_mul]

namespace Divides

variable (h : c.Divides tables sets)
include h

/-- A row that has a column has one item for each coordinate of the table. -/
theorem exists_table {row : List String} {column : Nat} (hcolumn : c.HasColumn name row column) :
    ∃ t ∈ tables, t.name = name ∧ row.length = t.coordinates.length := by
  obtain ⟨b, hb, hrow⟩ := hcolumn
  rcases h name with hnone | ⟨t, ht, hname, bs, hbs, hcoords⟩
  · simp [hnone] at hb
  obtain ⟨rows, hrows, hperm⟩ := TableDeclaration.enumerateBlocks_ok hbs
  refine ⟨t, ht, hname, (TableDeclaration.enumerate_ok hrows).1 row (hperm.mem_iff.mp ?_)⟩
  rw [List.flatMap_def, ← hcoords, ← List.flatMap_def]
  exact List.mem_flatMap.mpr ⟨b, hb, (List.of_mem_zip hrow).1⟩

theorem nodup_coords (hitems : ∀ d ∈ sets.dims, d.items.Nodup) (name : String) :
    ((c.blocksOf name).flatMap Block.coords).Nodup := by
  rcases h name with hnone | ⟨t, -, -, bs, hbs, hcoords⟩
  · simp [hnone]
  obtain ⟨rows, hrows, hperm⟩ := TableDeclaration.enumerateBlocks_ok hbs
  rw [List.flatMap_def, hcoords, ← List.flatMap_def]
  exact hperm.nodup_iff.mpr ((TableDeclaration.enumerate_ok hrows).2 hitems)

/-- With distinct items a row of a table has one column. -/
theorem column_unique (hitems : ∀ d ∈ sets.dims, d.items.Nodup) {row : List String}
    {column column' : Nat} (hcolumn : c.HasColumn name row column)
    (hcolumn' : c.HasColumn name row column') : column = column' := by
  obtain ⟨b, hb, hrow⟩ := hcolumn
  obtain ⟨b', hb', hrow'⟩ := hcolumn'
  obtain ⟨hnodup, hdisjoint⟩ := List.nodup_flatMap.mp (h.nodup_coords hitems name)
  -- Two blocks have no row in common.
  obtain rfl : b = b' := by
    by_contra hne
    have : Std.Symm (Function.onFun List.Disjoint Block.coords) :=
      ⟨fun _ _ hxy _ hy hx => hxy hx hy⟩
    exact hdisjoint.forall hb hb' hne (List.of_mem_zip hrow).1 (List.of_mem_zip hrow').1
  obtain ⟨k, hk⟩ := List.mem_iff_getElem?.mp hrow
  obtain ⟨k', hk'⟩ := List.mem_iff_getElem?.mp hrow'
  obtain ⟨hcoords, hcolumn⟩ := List.getElem?_zip_eq_some.mp hk
  obtain ⟨hcoords', hcolumn'⟩ := List.getElem?_zip_eq_some.mp hk'
  have hlt : k < b.coords.length := (List.getElem?_eq_some_iff.mp hcoords).1
  obtain rfl : k = k' :=
    (List.getElem?_inj hlt (hnodup b hb)).mp (hcoords.trans hcoords'.symm)
  exact Option.some.inj (hcolumn.symm.trans hcolumn')

end Divides

end Catalog

end CoupledModels
