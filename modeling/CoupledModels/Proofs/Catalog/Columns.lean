import CoupledModels.Proofs.Catalog.Sites

/-!
# Numbers of columns

The columns of the blocks, one block after the other, are the numbers from one to the number of
columns.  So a column belongs to one block only.
-/

namespace CoupledModels.Catalog

variable {K : Type} {c d : Catalog K} {tables : List TableDeclaration} {sets : Registry}

/-! ## What is built of blocks -/

/-- The catalogs have the same columns. -/
structure SameColumns (c d : Catalog K) : Prop where
  blocks : d.blocks = c.blocks
  values : d.values = c.values
  integer : d.integer = c.integer

/-- Binding variables says nothing about columns. -/
theorem outcome_addBindings_integer [Scalar K] (keys : List ProblemKey) (c : Catalog K)
    (v : Variable) : Outcome (fun d => d.integer = c.integer) AnyError (addBindings keys c v) := by
  unfold addBindings
  split
  · exact Outcome.bind_any fun m => rfl
  refine Outcome.bind_any fun ss => Outcome.foldlM rfl fun d hd s _ => ?_
  unfold addSite
  split
  · exact hd
  · exact Outcome.bind_any fun value => hd
  · trivial

/-- A property of columns holds of a catalog that has been built if it holds at the start and every
block that is added keeps it. -/
theorem build_induction [Scalar K] {P : Catalog K → Prop} (hstart : P (start tables))
    (hblock : ∀ c : Catalog K, P c → ∀ t ∈ tables, t.kind.has .endogenous = true →
      ∀ bs, t.enumerateBlocks sets = .ok bs → ∀ b ∈ bs, P (addBlock t c b))
    (hsame : ∀ c d : Catalog K, SameColumns c d → P c → P d) (h : build tables sets = .ok c) :
    P c := by
  have hmembers : ∀ (t : TableDeclaration) (c : Catalog K), P c →
      Outcome P AnyError (t.members.foldlM (addVariable t sets) c) := by
    refine fun t c hc => Outcome.foldlM hc fun d hd v _ => ?_
    unfold addVariable
    dsimp only
    split
    · trivial
    · exact Outcome.bind_any fun r => hsame d _ ⟨rfl, rfl, rfl⟩ hd
  have htable : ∀ t ∈ tables, ∀ c : Catalog K, P c →
      Outcome P AnyError (addTable sets sets.problemKeys c t) := by
    intro t ht c hc
    unfold addTable
    refine Outcome.bind_any fun _ => ?_
    dsimp only
    split
    · rename_i hkind
      refine Outcome.bind_ok fun bs hbs => hmembers t _ ?_
      exact List.foldlRecOn bs _ hc fun d hd b hb => hblock d hd t ht hkind bs hbs b hb
    · exact hmembers t c hc
  -- blocks are added while tables are taken in; bindings change no column
  obtain ⟨-, c₁, htables, hbindings⟩ := build_ok h
  have hbuilt : P c₁ :=
    (Outcome.foldlM (E := AnyError) hstart fun c hc t ht => htable t ht c hc).value htables
  have hinteger : c.integer = c₁.integer := (Outcome.foldlM (E := AnyError)
    (I := fun d : Catalog K => d.integer = c₁.integer) rfl fun d hd v _ =>
      (outcome_addBindings_integer _ d v).imp fun _ he => he.trans hd).value hbindings
  have hextends := (grows_of_addBindings hbindings).extension
  exact hsame c₁ c ⟨hextends.blocks, hextends.values, hinteger⟩ hbuilt

/-! ## Numbers -/

/-- The columns of the blocks are numbered from one, without a gap. -/
structure Numbered (c : Catalog K) : Prop where
  columns : c.blocks.toList.flatMap Block.columns = List.range' 1 c.columnCount
  values_pos : 0 < c.values.size

namespace Numbered

theorem start [Scalar K] (tables : List TableDeclaration) : (start (K := K) tables).Numbered :=
  ⟨rfl, Nat.one_pos⟩

/-- The columns of a block that is added follow all others. -/
theorem addBlock (h : c.Numbered) (t : TableDeclaration) (b : RowBlock) :
    (addBlock t c b).Numbered where
  columns := by
    have hsize : (Catalog.addBlock t c b).columnCount = c.columnCount + b.rows.length := by
      have hpos := h.values_pos
      simp only [columnCount, Catalog.addBlock, Array.size_append, Array.size_replicate]
      omega
    have hfirst : c.values.size = 1 + c.columnCount := by
      have hpos := h.values_pos
      unfold columnCount
      omega
    -- the columns of the block continue the numbers where those before it end
    calc (Catalog.addBlock t c b).blocks.toList.flatMap Block.columns
        = c.blocks.toList.flatMap Block.columns ++
            List.range' c.values.size b.rows.length := by
          simp [Catalog.addBlock, Block.columns]
      _ = List.range' 1 c.columnCount ++ List.range' (1 + c.columnCount) b.rows.length := by
          rw [h.columns, ← hfirst]
      _ = List.range' 1 (Catalog.addBlock t c b).columnCount := by
          rw [hsize, List.range'_append_1]
  values_pos := by
    have hpos := h.values_pos
    simp only [Catalog.addBlock, Array.size_append]
    omega

theorem congr (h : c.Numbered) (hblocks : d.blocks = c.blocks)
    (hvalues : d.values.size = c.values.size) : d.Numbered where
  columns := by
    rw [hblocks, h.columns, columnCount, columnCount, hvalues]
  values_pos := hvalues ▸ h.values_pos

/-- Only columns have numbers. -/
theorem column_lt (h : c.Numbered) {b : Block} (hb : b ∈ c.blocks) {column : Nat}
    (hcolumn : column ∈ b.columns) : 0 < column ∧ column < c.values.size := by
  have hmem : column ∈ List.range' 1 c.columnCount := by
    rw [← h.columns]
    exact List.mem_flatMap.mpr ⟨b, Array.mem_toList_iff.mpr hb, hcolumn⟩
  obtain ⟨hlow, hhigh⟩ := List.mem_range'_1.mp hmem
  have hpos := h.values_pos
  unfold columnCount at hhigh
  omega

/-- A column belongs to one block. -/
theorem block_unique (h : c.Numbered) {b b' : Block} (hb : b ∈ c.blocks) (hb' : b' ∈ c.blocks)
    {column : Nat} (hcolumn : column ∈ b.columns) (hcolumn' : column ∈ b'.columns) : b = b' := by
  have hnodup : (c.blocks.toList.flatMap Block.columns).Nodup := by
    rw [h.columns]
    exact List.nodup_range' 1
  by_contra hne
  have : Std.Symm (Function.onFun List.Disjoint Block.columns) :=
    ⟨fun _ _ hxy _ hy hx => hxy hx hy⟩
  exact (List.nodup_flatMap.mp hnodup).2.forall (Array.mem_toList_iff.mpr hb)
    (Array.mem_toList_iff.mpr hb') hne hcolumn hcolumn'

end Numbered

/-- After a build, and whatever becomes of the catalog, columns are numbered. -/
theorem numbered_of_build [Scalar K] (h : build tables sets = .ok c) (hlater : c.Later d) :
    d.Numbered := by
  have hnumbered : c.Numbered := build_induction (Numbered.start tables)
    (fun c hc t _ _ _ _ b _ => hc.addBlock t b)
    (fun c d hsame hc => hc.congr hsame.blocks (by rw [hsame.values])) h
  obtain ⟨hrefills, -⟩ := hlater.refills (built_of_build h).addressed
  exact hnumbered.congr hrefills.blocks hrefills.columns

/-- The columns of a binding are those of the block of its inter items. -/
theorem Binds.exists_block [Scalar K] {v : Variable} {b : Binding} (h : c.Binds v b) {i : Nat}
    {columns : List Nat} (hvalue : b.value = .slice i columns) :
    ∃ block ∈ c.blocks, block.table = v.table ∧ block.key = ⟨b.inter⟩ ∧
      ∀ column ∈ columns, column ∈ block.columns := by
  have hrefers := h.refers
  unfold Refers at hrefers
  simp only [hvalue] at hrefers
  obtain ⟨_, block, _, heq, hblock, htable, hkey, hcolumns⟩ := slice_ok hrefers
  cases heq
  refine ⟨block, Array.mem_of_getElem? hblock, htable, hkey, fun column hcolumn => ?_⟩
  obtain ⟨cell, -, hcell⟩ := exists_left_of_forall₂ hcolumns hcolumn
  exact (List.of_mem_zip (mem_zip_of_column? hcell)).2

end CoupledModels.Catalog
