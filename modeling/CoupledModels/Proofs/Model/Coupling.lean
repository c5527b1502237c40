import CoupledModels.Proofs.Catalog.Decided
import CoupledModels.Proofs.Model.Layout
import CoupledModels.Proofs.Model.Pushing
import CoupledModels.Proofs.Model.Runs

/-!
# Coupling through the store

A table may be decided in some sub-problems and be data in others.  What the first ones decide is
written to the store and loaded from there.  The two directions lay out entries on their own: columns
are found by writing down the row of an entry, entries by reading the items of a row.  They meet at
`Catalog.Carries`, which row belongs to an entry, so each entry that is loaded is the rounded value of
the one column that has been decided for it.
-/

namespace CoupledModels

namespace Catalog

variable {K : Type} {tables : List TableDeclaration} {sets : Registry} {c : Catalog K}
  {declaration : VariableDeclaration} {t : TableDeclaration} {v : Variable} {b : Binding}
  {digits : UInt32}

/-! ## Columns of entries -/

/-- A column has been decided for an entry of a binding: it is that of a row with the items of the
entry. -/
def Decides (c : Catalog K) (v : Variable) (b : Binding) (i j column : Nat) : Prop :=
  ∃ row, c.HasColumn v.table row column ∧
    Carries ((c.coordinatesOf? v.table).getD []) v b i j row

/-- A number is the solution value of a column, rounded. -/
def Rounds [Scalar K] (c : Catalog K) (digits : UInt32) (column : Nat) (x : K) : Prop :=
  ∃ y, c.value? column = some y ∧ x = Scalar.roundTo digits y

/-- Entries of bindings with equal items have the same columns. -/
theorem Decides.congr {b' : Binding} {i j column : Nat} (h : c.Decides v b i j column)
    (hintra : b.intra = b'.intra) (hinter : b.inter = b'.inter) : c.Decides v b' i j column := by
  obtain ⟨row, hcolumn, hcarries⟩ := h
  exact ⟨row, hcolumn, hcarries.length, hcarries.rows, hcarries.cols, hintra ▸ hcarries.intra,
    hinter ▸ hcarries.inter⟩

variable [Scalar K]

namespace Consistent

variable (hc : c.Consistent tables sets)
include hc

theorem decides_iff (ht : t ∈ tables) (hs : Situated declaration t sets v b) {i j column : Nat} :
    c.Decides v b i j column ↔
      ∃ row, c.HasColumn v.table row column ∧ Carries t.coordinates v b i j row := by
  rw [Decides, hs.resolves.table, hc.coordinatesOf? ht]
  rfl

/-- An entry has one column. -/
theorem decides_unique (hitems : ∀ d ∈ sets.dims, d.items.Nodup) (ht : t ∈ tables)
    (hs : Situated declaration t sets v b) {i j column column' : Nat}
    (h : c.Decides v b i j column) (h' : c.Decides v b i j column') : column = column' := by
  obtain ⟨row, hcolumn, hcarries⟩ := (hc.decides_iff ht hs).mp h
  obtain ⟨row', hcolumn', hcarries'⟩ := (hc.decides_iff ht hs).mp h'
  obtain rfl := hs.carries_unique .rfl hcarries hcarries'
  exact hc.divides.column_unique hitems hcolumn hcolumn'

/-- A slice has the columns of its entries, row by row. -/
theorem decides_of_slice (ht : t ∈ tables) (hs : Situated declaration t sets v b)
    (hbinds : c.Binds v b) {n : Nat} {columns : List Nat} (hvalue : b.value = .slice n columns)
    {i j : Nat} (hi : i < v.shape.rows) (hj : j < v.shape.cols) :
    ∃ column, columns[i * v.shape.cols + j]? = some column ∧ c.Decides v b i j column := by
  obtain ⟨block, hblock, htable, -, hentries⟩ := hc.entries_of_slice ht hs hbinds hvalue
  obtain ⟨row, column, hcolumn, hzip, hcarries⟩ := hentries i hi j hj
  refine ⟨column, hcolumn, (hc.decides_iff ht hs).mpr ⟨row, ⟨block, ?_, hzip⟩, hcarries⟩⟩
  exact List.mem_filter.mpr ⟨Array.mem_toList_iff.mpr (Array.mem_of_getElem? hblock),
    beq_iff_eq.mpr (htable.trans hs.resolves.table.symm)⟩

end Consistent

/-! ## What is handed over -/

/-- A row has no value, or the rounded value of its column. -/
def Published (c : Catalog K) (digits : UInt32) (name : String) (r : Row K) : Prop :=
  r.value = none ∨
    ∃ column x, c.HasColumn name r.coords column ∧ c.Rounds digits column x ∧ r.value = some x

theorem published_of_mem_solvedRows {name : String} {block : Block}
    (hblock : block ∈ c.blocksOf name) {r : Row K} (hr : r ∈ c.solvedRows digits block) :
    c.Published digits name r := by
  obtain ⟨column, y, hcolumn, hy, hvalue⟩ := mem_solvedRows hr
  exact .inr ⟨column, _, ⟨block, hblock, hcolumn⟩, ⟨y, hy, rfl⟩, hvalue⟩

/-- What is loaded from published rows: each entry is the rounded value of its column. -/
theorem Consistent.rounds_of_loadBinding (hc : c.Consistent tables sets) (ht : t ∈ tables)
    (hs : Situated declaration t sets v b) (hbinds : c.Binds v b)
    (hname : c.variableNamed? b.symbol = some v) {store : Store K}
    (hstore : store.Confines t.name t.coordinates (c.Published digits t.name)) {m : Matrix K}
    (hload : c.loadBinding store b = .ok m) {i j : Nat} (hi : i < v.shape.rows)
    (hj : j < v.shape.cols) :
    ∃ column, c.Decides v b i j column ∧ c.Rounds digits column (m.get i j) := by
  obtain ⟨w, st, rs, hw, hst, hrs, -, hentries⟩ := loadBinding_ok hload
  obtain rfl : v = w := Option.some.inj (hname.symm.trans hw)
  rw [hs.resolves.table] at hst
  rw [hbinds.filter] at hrs
  rw [hbinds.shape] at hentries
  obtain ⟨hcoordinates, hrows⟩ := hstore st hst
  obtain ⟨r, hr, hpasses, hposition, hvalue⟩ := hentries i hi j hj
  rcases hrows r hr with hnone | ⟨column, x, hcolumn, hrounds, hx⟩
  · simp [hvalue] at hnone
  obtain rfl : m.get i j = x := Option.some.inj (hvalue.symm.trans hx)
  obtain ⟨t', ht', hname', hlength⟩ := hc.divides.exists_table hcolumn
  obtain rfl : t' = t := List.inj_on_of_nodup_map hc.names ht' ht hname'
  have hperm : st.coordinates.Perm t'.coordinates := .of_eq hcoordinates
  refine ⟨column, (hc.decides_iff ht hs).mpr ⟨r.coords, ?_, ?_⟩, hrounds⟩
  · rwa [hs.resolves.table]
  · rw [← hcoordinates] at hlength ⊢
    exact hs.carries_of_passes hperm hlength hrs hpasses hj hposition

/-- A matrix holds what has been decided for a binding.  Each entry is the rounded value of the one
column that is for it, and this is the column that any slice with the same items has there. -/
structure HandsOver (c : Catalog K) (digits : UInt32) (v : Variable) (b : Binding) (m : Matrix K) :
    Prop where
  shape : m.HasShape v.shape
  entry : ∀ i < v.shape.rows, ∀ j < v.shape.cols, ∃ column,
    (∀ column', c.Decides v b i j column' ↔ column' = column) ∧
      c.Rounds digits column (m.get i j)
  slice : ∀ b' ∈ c.bindings, b'.symbol = b.symbol → b'.intra = b.intra → b'.inter = b.inter →
    ∀ n columns, b'.value = .slice n columns → ∀ i < v.shape.rows, ∀ j < v.shape.cols,
      ∃ column, columns[i * v.shape.cols + j]? = some column ∧ c.Rounds digits column (m.get i j)

/-- A catalog that has been loaded from a store with published rows only. -/
theorem Consistent.handsOver (hc : c.Consistent tables sets)
    (hitems : ∀ dim ∈ sets.dims, dim.items.Nodup)
    (hcoordinates : ∀ t ∈ tables, t.coordinates.Nodup) {store : Store K} {name : String}
    (hstore : ∀ t ∈ tables, t.name = name →
      store.Confines name t.coordinates (c.Published digits name))
    (hloaded : c.Loaded store) (hb : b ∈ c.bindings) {p : Nat} (hvalue : b.value = .parameter p) :
    ∃ v, c.variableNamed? b.symbol = some v ∧ (v.table = name →
      ∃ m, c.parameterValue p = .ok m ∧ c.HandsOver digits v b m) := by
  obtain ⟨v, hname, hbinds, t, ht, declaration, hs⟩ :=
    hc.exists_situated hcoordinates hb fun i => by simp [hvalue]
  refine ⟨v, hname, fun htable => ?_⟩
  obtain rfl : t.name = name := hs.resolves.table.symm.trans htable
  have hrefers := hbinds.refers
  unfold Refers at hrefers
  simp only [hvalue] at hrefers
  obtain ⟨q, hq, hbinding, -⟩ := hrefers
  obtain ⟨m, hload, hm⟩ := hloaded p q b hq (hbinding ▸ hc.binding_id hb)
  -- every entry has been read from the row that was published for its column
  have hentry : ∀ i < v.shape.rows, ∀ j < v.shape.cols, ∃ column,
      c.Decides v b i j column ∧ c.Rounds digits column (m.get i j) := fun i hi j hj =>
    hc.rounds_of_loadBinding ht hs hbinds hname (hstore t ht rfl) hload hi hj
  refine ⟨m, by simp only [parameterValue, hq, hm], ?_, fun i hi j hj => ?_, ?_⟩
  · exact hbinds.shape ▸ (outcome_loadBinding c store b).value hload
  · obtain ⟨column, hdecides, hrounds⟩ := hentry i hi j hj
    exact ⟨column, fun column' => ⟨fun h => hc.decides_unique hitems ht hs h hdecides,
      fun h => h ▸ hdecides⟩, hrounds⟩
  -- a slice with the same items has the same columns
  · intro b' hb' hsymbol hintra hinter n columns hcolumns i hi j hj
    obtain ⟨v', hname', hbinds', t', ht', declaration', hs'⟩ :=
      hc.exists_situated hcoordinates hb' fun i => by simp [hcolumns]
    obtain rfl : v = v' := Option.some.inj (hname.symm.trans (hsymbol ▸ hname'))
    obtain ⟨column, hcolumn, hslice⟩ := hc.decides_of_slice ht' hs' hbinds' hcolumns hi hj
    obtain ⟨column', hdecides, hrounds⟩ := hentry i hi j hj
    obtain rfl := hc.decides_unique hitems ht hs (hslice.congr hintra hinter) hdecides
    exact ⟨column, hcolumn, hrounds⟩

end Catalog

namespace Model

variable {K : Type} [Scalar K] {tables : List TableDeclaration} {sets : Registry}
  {texts : SortedMap String ModelText} {m m' : Model K} {d : Catalog K} {table : String}
  {edits : List (RowEdit K)} {digits : UInt32}

theorem ofParts_ok (h : ofParts sets tables texts = .ok m) :
    Catalog.build m.tables m.sets = .ok m.catalog ∧ m.tables = tables ∧ m.sets = sets := by
  obtain ⟨catalog, hbuild, heq⟩ := exists_of_bind_eq_ok h
  cases heq
  exact ⟨hbuild, rfl, rfl⟩

/-- Results that are written to the storage layout of a model are handed over when they are loaded
from there, provided that nobody else writes into their table.  So a parameter over a table that
other sub-problems decide holds exactly what these have decided, rounded. -/
theorem handsOver_of_loadExogenous (hm : ofParts sets tables texts = .ok m)
    (hitems : ∀ dim ∈ sets.dims, dim.items.Nodup)
    (hcoordinates : ∀ t ∈ tables, t.coordinates.Nodup)
    (hedits : ∀ e ∈ edits, e.table ≠ table) (hlater : m.catalog.Later d)
    (hload : loadExogenous { m with catalog := d }
      (pushEndogenous { m with catalog := d } digits
        ((m.initializeStorage .empty).2.edited edits)).2 = (.ok (), m')) :
    ∀ b ∈ m'.catalog.bindings, ∀ p, b.value = .parameter p →
      ∃ v, m'.catalog.variableNamed? b.symbol = some v ∧
        (v.table = table → ∃ matrix, m'.catalog.parameterValue p = .ok matrix ∧
          m'.catalog.HandsOver digits v b matrix) := by
  intro b hb p hvalue
  obtain ⟨hbuild, rfl, rfl⟩ := ofParts_ok hm
  obtain ⟨hloaded, hm'⟩ := loadExogenous_ok hload
  have hc : m'.catalog.Consistent m.tables m.sets := by
    rw [← (Prod.mk.inj hload).2]
    exact Catalog.consistent_of_build hbuild (hlater.loadExogenous _)
  have hpublished : m'.catalog.Published digits table = d.Published digits table := by
    rw [hm']
    rfl
  refine hc.handsOver hitems hcoordinates (fun t ht hname => ?_) hloaded hb hvalue
  -- Nobody has written a value into the table before the results come.
  have hblank : (m.initializeStorage .empty).2.Blank table t.coordinates :=
    blank_initializeStorage fun t' ht' hname' => congrArg TableDeclaration.coordinates
      (List.inj_on_of_nodup_map hc.names ht' ht (hname'.trans hname.symm))
  rw [hpublished]
  exact confines_pushEndogenous ((hblank.edited hedits).mono fun r hr => .inl hr)
    fun block hblock r hr => Catalog.published_of_mem_solvedRows hblock hr

end Model

/-! ## A table that couples two regions -/

namespace Catalog.Trade

/-- Two regions, which divide the model, two goods, and three years. -/
def sets : Registry :=
  ⟨[{ Dimension.ofItems "region" ["north", "south"] with splits := true },
    .ofItems "good" ["a", "b"], .ofItems "year" ["first", "second", "third"]], by decide⟩

/-- The north decides what is traded, and for the south this is data.  Besides there are prices. -/
def tables : List TableDeclaration :=
  [⟨"trade", .perProblem ⟨[(⟨[("region", "north")]⟩, .endogenous),
      (⟨[("region", "south")]⟩, .exogenous)]⟩, ["good", "year"], false,
      [⟨"x", .dim "year", .dim "good", none, .empty⟩]⟩,
    ⟨"price", .fixed .exogenous, ["good"], false, [⟨"p", .dim "good", .one, none, .empty⟩]⟩]

/-- What is traded, with years as rows and goods as columns; the table has them the other way. -/
def trade : Variable :=
  ⟨"x", "trade", (tables.head (by decide)).kind, false, none, ⟨some "year", some "good", none, []⟩,
    ⟨[("good", ["a", "b"]), ("year", ["first", "second", "third"])]⟩, ⟨3, 2⟩, none⟩

def price : Variable :=
  ⟨"p", "price", .fixed .exogenous, false, none, ⟨some "good", none, none, []⟩,
    ⟨[("good", ["a", "b"])]⟩, ⟨2, 1⟩, none⟩

/-- What is traded as it is decided in the north. -/
def north : Binding :=
  ⟨0, "x", some ⟨[("region", "north")]⟩, [], none, trade.items, ⟨3, 2⟩,
    .slice 0 [1, 4, 2, 5, 3, 6]⟩

/-- What is traded as it is known in the south. -/
def south : Binding :=
  ⟨1, "x", some ⟨[("region", "south")]⟩, [], none, trade.items, ⟨3, 2⟩, .parameter 0⟩

/-- What is built of the tables. -/
def catalog : Catalog Rat where
  members := [trade, price]
  tableCoordinates := [("trade", ["good", "year"]), ("price", ["good"])]
  bindings := #[north, south, ⟨2, "p", none, [], none, price.items, ⟨2, 1⟩, .parameter 1⟩]
  blocks := #[⟨"trade", ⟨[]⟩, [["a", "first"], ["a", "second"], ["a", "third"], ["b", "first"],
    ["b", "second"], ["b", "third"]], 1, false⟩]
  parameters := #[⟨1, "trade", ⟨3, 2⟩, none⟩, ⟨2, "price", ⟨2, 1⟩, none⟩]
  constants := #[]
  values := #[some 1, none, none, none, none, none, none]
  integer := .replicate 7 false

def model : Model Rat :=
  ⟨sets, tables, .empty, catalog, .empty⟩

theorem ofParts_model : Model.ofParts sets tables .empty = .ok model := by
  have hbuild : build tables sets = .ok catalog := by decide +kernel
  rw [Model.ofParts, hbuild]
  rfl

/-- Prices are put into the store by hand. -/
def edits : List (RowEdit Rat) :=
  [⟨"price", [⟨["a"], some 3⟩, ⟨["b"], some 4⟩], .insert⟩]

/-- What the north has decided, column by column. -/
def decided : Catalog Rat :=
  catalog.setValues [1, 2, 3, 4, 5, 6] [126 / 100, 2, 3, 404 / 100, 5, 13 / 2]

/-- The store once this has been written to it, rounded to one decimal. -/
def store : Store Rat :=
  (Model.pushEndogenous { model with catalog := decided } 1
    ((model.initializeStorage .empty).2.edited edits)).2

/-- What the south finds there, year by year. -/
def known : Matrix Rat :=
  Tensor.dense ⟨3, 2⟩ [13 / 10, 4, 2, 5, 3, 13 / 2]

/-- The catalog once the south has been told. -/
def informed : Catalog Rat :=
  { decided with parameters := #[⟨1, "trade", ⟨3, 2⟩, some known⟩,
    ⟨2, "price", ⟨2, 1⟩, some (Tensor.dense ⟨2, 1⟩ [3, 4])⟩] }

theorem loadExogenous_decided :
    Model.loadExogenous { model with catalog := decided } store =
      (.ok (), { model with catalog := informed }) := by
  have hload : decided.loadExogenous store = (.ok (), informed) := by decide +kernel
  rw [Model.loadExogenous, hload]

theorem handsOver_of_loadExogenous_trade :
    ∃ m', Model.loadExogenous { model with catalog := decided } store = (.ok (), m') ∧
      south ∈ m'.catalog.bindings ∧ north ∈ m'.catalog.bindings ∧
      m'.catalog.parameterValue 0 = .ok known ∧ m'.catalog.HandsOver 1 trade south known := by
  have hsouth : south ∈ informed.bindings := by simp [informed, decided, setValues, catalog]
  have hnorth : north ∈ informed.bindings := by simp [informed, decided, setValues, catalog]
  have hitems : ∀ dim ∈ sets.dims, dim.items.Nodup := by decide
  have hcoordinates : ∀ t ∈ tables, t.coordinates.Nodup := by simp [tables]
  have hedits : ∀ e ∈ edits, e.table ≠ "trade" := by simp [edits]
  have hlater : model.catalog.Later decided := .setValues _ _ .refl
  obtain ⟨v, hv, hmatrix⟩ := Model.handsOver_of_loadExogenous ofParts_model hitems hcoordinates
    hedits hlater loadExogenous_decided south hsouth 0 rfl
  obtain rfl : trade = v := Option.some.inj hv
  obtain ⟨matrix, hvalue, hhands⟩ := hmatrix rfl
  obtain rfl : known = matrix := Except.ok.inj hvalue
  exact ⟨_, loadExogenous_decided, hsouth, hnorth, rfl, hhands⟩

end Catalog.Trade

end CoupledModels
