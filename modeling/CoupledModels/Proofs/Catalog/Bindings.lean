import CoupledModels.Proofs.Catalog.Contents
import CoupledModels.Proofs.Catalog.Members
import CoupledModels.Proofs.Variables.Constant

/-!
# Bindings of a catalog

Every binding is a variable at a site: an intra item and inter items among those that the variable
has.  It takes its symbol, its shape and its filter from these, and it refers to the columns of the
rows there, to a parameter of its own, or to the value of the constant.
-/

namespace CoupledModels.Catalog

variable {K : Type} [Scalar K] {c d : Catalog K} {v : Variable} {b : Binding}

/-- The combinations of inter items that a variable has. -/
def interItems (v : Variable) : List (List Coordinate) :=
  Registry.product (v.roles.inter.map fun d => (v.itemsOf d).map fun i => (d, i))

/-- What a binding of a variable refers to. -/
def Refers (c : Catalog K) (v : Variable) (b : Binding) : Prop :=
  match b.value with
  | .slice _ _ => c.slice v b.intra b.inter = .ok b.value
  | .parameter p => ∃ q, c.parameters[p]? = some q ∧ q.binding = b.id ∧ q.table = v.table ∧
      q.shape = v.shape
  | .constant i => ∃ m, c.constants[i]? = some m ∧ v.constantValue = .ok m

/-- A binding is made of a variable. -/
structure Binds (c : Catalog K) (v : Variable) (b : Binding) : Prop where
  symbol : b.symbol = v.symbol
  shape : b.shape = v.shape
  filter : b.filter = bindingFilter v b.intra b.inter
  refers : c.Refers v b
  site : (∀ i, b.value ≠ .constant i) →
    v.isConstant = false ∧ b.intra ∈ sideItems v.intraItems? ∧ b.inter ∈ interItems v

/-- Every binding is made of one of the variables. -/
def Bound (c : Catalog K) : Prop :=
  ∀ b ∈ c.bindings, ∃ v ∈ c.members, c.Binds v b

/-- No parameter has been filled. -/
def Unfilled (c : Catalog K) : Prop :=
  ∀ q ∈ c.parameters, q.value = none

/-! ## One more binding -/

omit [Scalar K] in
/-- Slices depend on the blocks and the coordinates of tables only. -/
theorem slice_congr (hblocks : d.blocks = c.blocks)
    (hcoordinates : d.tableCoordinates = c.tableCoordinates) : d.slice = c.slice := by
  funext v intra inter
  simp only [slice, blockIndex?, coordinatesOf?, hblocks, hcoordinates]

/-- What a binding refers to stays when parameters and constants are added. -/
theorem Refers.mono (h : c.Refers v b) (hblocks : d.blocks = c.blocks)
    (hcoordinates : d.tableCoordinates = c.tableCoordinates)
    (hparameters : ∀ (p : Nat) (q : Parameter K), c.parameters[p]? = some q →
      ∃ q' : Parameter K, d.parameters[p]? = some q' ∧
        q'.binding = q.binding ∧ q'.table = q.table ∧ q'.shape = q.shape)
    (hconstants : ∀ (i : Nat) (m : Matrix K), c.constants[i]? = some m →
      d.constants[i]? = some m) : d.Refers v b := by
  unfold Refers at h ⊢
  cases hvalue : b.value with
  | slice block columns =>
      rw [hvalue] at h
      rw [slice_congr hblocks hcoordinates]
      exact h
  | parameter p =>
      rw [hvalue] at h
      obtain ⟨q, hq, hbinding, htable, hshape⟩ := h
      obtain ⟨q', hq', hb, ht, hs⟩ := hparameters p q hq
      exact ⟨q', hq', hb.trans hbinding, ht.trans htable, hs.trans hshape⟩
  | constant i =>
      rw [hvalue] at h
      obtain ⟨m, hm, hv⟩ := h
      exact ⟨m, hconstants i m hm, hv⟩

/-- A catalog has been given more bindings and what they refer to, and nothing else. -/
structure Extends (c d : Catalog K) : Prop where
  members : d.members = c.members
  coordinates : d.tableCoordinates = c.tableCoordinates
  blocks : d.blocks = c.blocks
  values : d.values = c.values
  parameters : ∀ (p : Nat) (q : Parameter K), c.parameters[p]? = some q → d.parameters[p]? = some q
  constants : ∀ (i : Nat) (m : Matrix K), c.constants[i]? = some m → d.constants[i]? = some m

namespace Extends

omit [Scalar K] in
theorem refl (c : Catalog K) : Extends c c :=
  ⟨rfl, rfl, rfl, rfl, fun _ _ h => h, fun _ _ h => h⟩

omit [Scalar K] in
theorem trans {e : Catalog K} (h : Extends c d) (h' : Extends d e) : Extends c e where
  members := h'.members.trans h.members
  coordinates := h'.coordinates.trans h.coordinates
  blocks := h'.blocks.trans h.blocks
  values := h'.values.trans h.values
  parameters := fun p q hq => h'.parameters p q (h.parameters p q hq)
  constants := fun i m hm => h'.constants i m (h.constants i m hm)

theorem binds (h : Extends c d) (hb : c.Binds v b) : d.Binds v b where
  symbol := hb.symbol
  shape := hb.shape
  filter := hb.filter
  refers := hb.refers.mono h.blocks h.coordinates
    (fun p q hq => ⟨q, h.parameters p q hq, rfl, rfl, rfl⟩) h.constants
  site := hb.site

end Extends

/-- What a catalog becomes when it is given more bindings. -/
structure Grows (c d : Catalog K) : Prop where
  extension : Extends c d
  bound : c.Bound → d.Bound
  unfilled : c.Unfilled → d.Unfilled

theorem Grows.refl (c : Catalog K) : c.Grows c :=
  ⟨.refl c, id, id⟩

theorem Grows.trans {e : Catalog K} (h : c.Grows d) (h' : d.Grows e) : c.Grows e :=
  ⟨h.extension.trans h'.extension, h'.bound ∘ h.bound, h'.unfilled ∘ h.unfilled⟩

/-- A binding of one of the variables is added, with what it refers to. -/
theorem grows_pushBinding (hv : v ∈ c.members) (hd : Extends c d)
    (hbindings : d.bindings = c.bindings) (hunfilled : c.Unfilled → d.Unfilled)
    {scope : Option ProblemKey} {inter : List Coordinate} {intra : Option String}
    {value : BindingValue}
    (hrefers : d.Refers v ⟨d.bindings.size, v.symbol, scope, inter, intra,
      bindingFilter v intra inter, v.shape, value⟩)
    (hsite : (∀ i, value ≠ .constant i) →
      v.isConstant = false ∧ intra ∈ sideItems v.intraItems? ∧ inter ∈ interItems v) :
    c.Grows (d.pushBinding v scope inter intra value) := by
  have hpush : Extends d (d.pushBinding v scope inter intra value) :=
    ⟨rfl, rfl, rfl, rfl, fun _ _ h => h, fun _ _ h => h⟩
  refine ⟨hd.trans hpush, fun hc b hb => ?_, hunfilled⟩
  rcases Array.mem_push.mp hb with hb | rfl
  · obtain ⟨w, hw, hbinds⟩ := hc b (hbindings ▸ hb)
    exact ⟨w, hd.members ▸ hw, hpush.binds (hd.binds hbinds)⟩
  · exact ⟨v, hd.members ▸ hv, hpush.binds ⟨rfl, rfl, rfl, hrefers, hsite⟩⟩

/-! ## All bindings -/

/-- The rows of the table of a variable that a slice is for, row by row. -/
def cells (c : Catalog K) (v : Variable) (intra : Option String) (inter : List Coordinate) :
    List (List String) :=
  (sideItems v.rowItems?).flatMap fun r => (sideItems v.colItems?).map fun k =>
    tableRow ((c.coordinatesOf? v.table).getD []) v r k intra inter

omit [Scalar K] in
/-- A slice has a column for each of its rows, in the block of its inter items. -/
theorem slice_ok {intra : Option String} {inter : List Coordinate} {value : BindingValue}
    (h : c.slice v intra inter = .ok value) :
    ∃ i block columns, value = .slice i columns ∧ c.blocks[i]? = some block ∧
      block.table = v.table ∧ block.key = ⟨inter⟩ ∧
      List.Forall₂ (fun cell column => block.column? cell = some column)
        (c.cells v intra inter) columns := by
  unfold slice at h
  dsimp only at h
  split at h
  · cases h
  rename_i i hindex
  split at h
  · cases h
  rename_i block hblock
  obtain ⟨columns, hcolumns, heq⟩ := exists_of_bind_eq_ok h
  -- the block that was found has the table and the inter items that were looked for
  have hfound : block.table = v.table ∧ block.key = ⟨inter⟩ := by
    obtain ⟨hi, hmatch, -⟩ := Array.findIdx?_eq_some_iff_getElem.mp hindex
    obtain rfl : c.blocks[i] = block := by simpa [hi] using hblock
    simpa using hmatch
  refine ⟨i, block, columns, (Except.ok.inj heq).symm, hblock, hfound.1, hfound.2, ?_⟩
  refine (forall₂_of_mapM hcolumns).imp fun cell column hcell => ?_
  split at hcell
  · rename_i hcolumn
    rw [hcolumn, Except.ok.inj hcell]
  · cases hcell

theorem outcome_addSite (hv : v ∈ c.members) {s : Site}
    (hsite : v.isConstant = false ∧ s.intra ∈ sideItems v.intraItems? ∧ s.inter ∈ interItems v) :
    Outcome c.Grows AnyError (addSite v c s) := by
  unfold addSite
  split
  · have hextends : Extends c (c.withParameters
        (c.parameters.push ⟨c.bindings.size, v.table, v.shape, none⟩)) :=
      ⟨rfl, rfl, rfl, rfl, fun _ _ hq => getElem?_push_of_some hq, fun _ _ hm => hm⟩
    refine grows_pushBinding hv hextends rfl (fun hc q hq => ?_)
      ⟨_, Array.getElem?_push_size, rfl, rfl, rfl⟩ fun _ => hsite
    rcases Array.mem_push.mp hq with hq | rfl
    · exact hc q hq
    · rfl
  · refine Outcome.bind_ok fun value hslice => ?_
    obtain ⟨i, block, columns, rfl, -⟩ := slice_ok hslice
    exact grows_pushBinding hv (.refl c) rfl id hslice fun _ => hsite
  · trivial

omit [Scalar K] in
theorem mem_sites {scopes : List (Option ProblemKey × TableKind)} {s : Site}
    (h : s ∈ sites v scopes) : s.intra ∈ sideItems v.intraItems? ∧ s.inter ∈ interItems v := by
  unfold sites at h
  obtain ⟨⟨scope, kind⟩, -, h⟩ := List.mem_flatMap.mp h
  obtain ⟨inter, hinter, h⟩ := List.mem_flatMap.mp h
  obtain ⟨intra, hintra, rfl⟩ := List.mem_map.mp h
  exact ⟨hintra, (List.mem_filter.mp hinter).1⟩

theorem outcome_addBindings (keys : List ProblemKey) (hv : v ∈ c.members) :
    Outcome c.Grows AnyError (addBindings keys c v) := by
  unfold addBindings
  split
  · refine Outcome.bind_ok fun m hm => ?_
    have hextends : Extends c { c with constants := c.constants.push m } :=
      ⟨rfl, rfl, rfl, rfl, fun _ _ hq => hq, fun _ _ hm => getElem?_push_of_some hm⟩
    refine grows_pushBinding hv hextends rfl id ⟨m, Array.getElem?_push_size, hm⟩ fun hnot => ?_
    exact absurd rfl (hnot _)
  · rename_i hconstant
    refine Outcome.bind_any fun ss => ?_
    refine Outcome.foldlM (Grows.refl c) fun d hd s hs => ?_
    exact (outcome_addSite (hd.extension.members ▸ hv) ⟨by simpa using hconstant, mem_sites hs⟩).imp
      fun _ h => hd.trans h

/-- The second phase adds bindings to what the first one has left. -/
theorem grows_of_addBindings {keys : List ProblemKey}
    (h : c.members.foldlM (addBindings keys) c = .ok d) : c.Grows d := by
  refine (Outcome.foldlM (E := AnyError) (Grows.refl c) fun e he v hv => ?_).value h
  exact (outcome_addBindings keys (he.extension.members ▸ hv)).imp fun _ h => he.trans h

/-- What is known of a catalog that has been built: its variables are those of the tables, its
bindings are made of them, and nothing has been loaded. -/
structure Built (tables : List TableDeclaration) (sets : Registry) (c : Catalog K) : Prop where
  names : (tables.map TableDeclaration.name).Nodup
  addressed : c.Addressed
  declares : c.Declares tables sets
  bound : c.Bound
  unfilled : c.Unfilled

theorem built_of_build {tables : List TableDeclaration} {sets : Registry}
    (h : build tables sets = .ok c) : Built tables sets c := by
  obtain ⟨hnames, c₁, htables, hbindings⟩ := build_ok h
  obtain ⟨hdeclares, hunbound, hempty⟩ := declares_of_addTables htables
  have hgrows := grows_of_addBindings hbindings
  refine ⟨hnames, build_addressed h, ⟨?_, ?_, ?_⟩, hgrows.bound fun b hb => ?_,
    hgrows.unfilled fun q hq => ?_⟩
  · rw [hgrows.extension.coordinates, hdeclares.coordinates]
  · rw [hgrows.extension.members]
    exact hdeclares.members
  · rw [hgrows.extension.members]
    exact hdeclares.symbols
  · simp [hunbound] at hb
  · simp [hempty] at hq

end CoupledModels.Catalog
