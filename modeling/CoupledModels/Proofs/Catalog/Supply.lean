import CoupledModels.Proofs.Catalog.Slices

/-!
# Supply of parameters

A load writes the value of every row that passes the filter of a binding to the place of the row's
items, the last one for a place counting.  With distinct items and coordinates, the rows of one place
are the one row that has the items of the entry there.  So a load succeeds if and only if the store
has a number for each entry of each parameter, and then the entry is this number, in whatever order
the store has its rows and coordinates.
-/

namespace CoupledModels

/-- A store holds a table, with valid rows and with the coordinates in any order. -/
def Store.Holds {K : Type} (s : Store K) (t : TableDeclaration) : Prop :=
  ∃ st, s.tables.get? t.name = some st ∧ st.coordinates.Perm t.coordinates ∧ st.Valid

namespace Catalog

variable {K : Type} [Scalar K] {tables : List TableDeclaration} {sets : Registry} {c d : Catalog K}
  {t : TableDeclaration} {declaration : VariableDeclaration} {v : Variable} {b : Binding}
  {store store' : Store K} {p i j : Nat} {q : Parameter K} {x : K}

/-! ## Numbers of entries -/

/-- A store has a number for an entry of a binding: it is the value of a row with the items of the
entry. -/
def Supplies (store : Store K) (v : Variable) (b : Binding) (i j : Nat) (x : K) : Prop :=
  ∃ st r, store.tables.get? v.table = some st ∧ r ∈ st.rows ∧
    Carries st.coordinates v b i j r.coords ∧ r.value = some x ∧ Scalar.isNaN x = false

/-- Neither the order of rows makes a difference to an entry, nor do rows with other items. -/
theorem supplies_iff_of_perm {st : StoredTable K} {rows others : List (Row K)}
    (hst : store.tables.get? v.table = some st)
    (hst' : store'.tables.get? v.table = some ⟨st.coordinates, rows⟩)
    (hperm : rows.Perm (st.rows ++ others))
    (hothers : ∀ r ∈ others, ¬ Carries st.coordinates v b i j r.coords) :
    Supplies store' v b i j x ↔ Supplies store v b i j x := by
  constructor
  · rintro ⟨_, r, hget, hr, hcarries, hvalue⟩
    obtain rfl := Option.some.inj (hst'.symm.trans hget)
    rcases List.mem_append.mp (hperm.mem_iff.mp hr) with hr | hr
    · exact ⟨st, r, hst, hr, hcarries, hvalue⟩
    · exact absurd hcarries (hothers r hr)
  · rintro ⟨_, r, hget, hr, hcarries, hvalue⟩
    obtain rfl := Option.some.inj (hst.symm.trans hget)
    exact ⟨_, r, hst', hperm.mem_iff.mpr (List.mem_append_left _ hr), hcarries, hvalue⟩

namespace Situated

variable (hs : Situated declaration t sets v b) (hitems : ∀ dim ∈ sets.dims, dim.items.Nodup)
include hs hitems

/-- What is gathered at the place of an entry is the number of the row with its items. -/
theorem getElem?_gather_iff {st : StoredTable K} (hperm : st.coordinates.Perm t.coordinates)
    (hvalid : st.Valid) {name : String} {rs : List (Nat × List String)}
    (hrs : st.restrictions name (bindingFilter v b.intra b.inter) = .ok rs) (hi : i < v.shape.rows)
    (hj : j < v.shape.cols) :
    (gather v st.coordinates v.shape (st.rows.filter (StoredTable.passes rs)))[
        i * v.shape.cols + j]? = some (some x) ↔
      ∃ r ∈ st.rows, Carries st.coordinates v b i j r.coords ∧ r.value = some x ∧
        Scalar.isNaN x = false := by
  have hentry : ∀ r ∈ st.rows.filter (StoredTable.passes rs),
      Positioned v st.coordinates v.shape r.coords (i * v.shape.cols + j) →
        Carries st.coordinates v b i j r.coords := by
    intro r hr hposition
    obtain ⟨hmem, hpasses⟩ := List.mem_filter.mp hr
    exact hs.carries_of_passes hperm (hvalid.lengths r hmem) hrs hpasses hj hposition
  constructor
  · intro h
    obtain ⟨r, hr, hposition, hvalue⟩ := exists_of_gather h
    exact ⟨r, List.mem_of_mem_filter hr, hentry r hr hposition, definedValue_eq_some_iff.mp hvalue⟩
  · rintro ⟨r, hr, hcarries, hvalue⟩
    obtain ⟨hrow, hcol⟩ := hs.sides_of_carries hitems hperm hcarries hi hj
    have hmem := List.mem_filter.mpr ⟨hr, hs.passes_of_carries hrs hcarries⟩
    rw [getElem?_gather_of_unique hmem (cell_lt hi hj) ⟨i, j, hrow, hcol, rfl⟩ fun r' hr' h => ?_,
      definedValue_eq_some_iff.mpr hvalue]
    -- two rows at the position of one entry have its items, and so the same coordinates
    have hcoords := hs.carries_unique hperm (hentry r' hr' h) hcarries
    exact hvalid.distinct.eq_of_coords (List.mem_of_mem_filter hr') hr hcoords

/-- A binding is loaded from the numbers that the store has for its entries, and from nothing else. -/
theorem exists_data (hbinds : c.Binds v b) (hname : c.variableNamed? b.symbol = some v)
    (hstore : store.Holds t) :
    ∃ data, c.loadBinding store b = assemble v b data ∧
      data.length = b.shape.rows * b.shape.cols ∧
      ∀ i < b.shape.rows, ∀ j < b.shape.cols, ∀ x,
        data[i * b.shape.cols + j]? = some (some x) ↔ Supplies store v b i j x := by
  obtain ⟨st, hst, hperm, hvalid⟩ := hstore
  obtain ⟨rs, hrs⟩ := hs.restrictions_ok hperm v.table
  rw [← hs.resolves.table] at hst
  refine ⟨_, loadBinding_eq hname hst (hbinds.filter ▸ hrs), size_gather v _ _ _, ?_⟩
  rw [hbinds.shape]
  intro i hi j hj x
  rw [Array.getElem?_toList, hs.getElem?_gather_iff hitems hperm hvalid hrs hi hj]
  constructor
  · rintro ⟨r, hr, hfound⟩
    exact ⟨st, r, hst, hr, hfound⟩
  · rintro ⟨_, r, hget, hfound⟩
    obtain rfl := Option.some.inj (hst.symm.trans hget)
    exact ⟨r, hfound⟩

end Situated

omit [Scalar K] in
/-- Values that are defined at the same entries and equal there are the same. -/
theorem data_unique {s : Shape} {xs ys : List (Option K)} (hxs : xs.length = s.rows * s.cols)
    (hys : ys.length = s.rows * s.cols)
    (h : ∀ i < s.rows, ∀ j < s.cols, ∀ x : K,
      xs[i * s.cols + j]? = some (some x) ↔ ys[i * s.cols + j]? = some (some x)) : xs = ys := by
  refine List.ext_getElem (hxs.trans hys.symm) fun k hk hk' => Option.ext fun x => ?_
  obtain ⟨i, j, hi, hj, rfl⟩ := exists_cell (hxs ▸ hk)
  simpa only [List.getElem?_eq_getElem hk, List.getElem?_eq_getElem hk', Option.some.injEq]
    using h i hi j hj x

/-! ## Parameters and what supplies them -/

/-- A parameter is the one of a binding of a variable. -/
structure Serves (c : Catalog K) (p : Nat) (q : Parameter K) (v : Variable) (b : Binding) :
    Prop where
  parameter : c.parameters[p]? = some q
  binding : c.bindings[q.binding]? = some b
  value : b.value = .parameter p
  named : c.variableNamed? b.symbol = some v

/-- A store holds the tables of all parameters of a catalog. -/
def HeldBy (tables : List TableDeclaration) (c : Catalog K) (store : Store K) : Prop :=
  ∀ t ∈ tables, (∃ q ∈ c.parameters, q.table = t.name) → store.Holds t

/-- Two stores have the same numbers for the entries of parameters.  They may differ in other rows, in
the order of rows, and in the order of coordinates. -/
def SameSupply (c : Catalog K) (store store' : Store K) : Prop :=
  ∀ p q v b, c.Serves p q v b → ∀ i < q.shape.rows, ∀ j < q.shape.cols, ∀ x,
    Supplies store' v b i j x ↔ Supplies store v b i j x

/-- The parameters of a catalog have been filled with the numbers that a store has for their entries,
and nothing else has changed. -/
structure FilledFrom (c : Catalog K) (store : Store K) (d : Catalog K) : Prop where
  rest : d = c.withParameters d.parameters
  size : d.parameters.size = c.parameters.size
  entries : ∀ p q v b, c.Serves p q v b → ∃ m, d.parameters[p]? = some { q with value := some m } ∧
    Tensor.HasShape m q.shape ∧ ∀ i < q.shape.rows, ∀ j < q.shape.cols, ∀ x,
      Supplies store v b i j x ↔ x = m.get i j

/-- An error names an entry of a parameter for which a store has no number. -/
def Misses (c : Catalog K) (store : Store K) (e : ModelError) : Prop :=
  ∃ p q v b, c.Serves p q v b ∧ ∃ i < q.shape.rows, ∃ j < q.shape.cols,
    (∀ x, ¬ Supplies store v b i j x) ∧
      e = .missing (.entry b.symbol v.table i j b.filter.entries)

/-- A load fills the parameters of a catalog with the numbers that the store has for their entries,
and fails if one is missing.  Each parameter is that of a binding of a variable, which has a part for
every coordinate of its table. -/
structure Fills (tables : List TableDeclaration) (c : Catalog K) (store : Store K) : Prop where
  serves : ∀ p q, c.parameters[p]? = some q → ∃ v b, c.Serves p q v b ∧ ∃ t ∈ tables,
    v.table = t.name ∧ (∀ dim, dim ∈ v.roles.dims ↔ dim ∈ t.coordinates) ∧
      q.shape = ⟨(sideItems v.rowItems?).length, (sideItems v.colItems?).length⟩
  ok_iff : (c.loadExogenous store).1 = .ok () ↔ ∀ p q v b, c.Serves p q v b →
    ∀ i < q.shape.rows, ∀ j < q.shape.cols, ∃ x, Supplies store v b i j x
  filled : ∀ d, c.loadExogenous store = (.ok (), d) → c.FilledFrom store d
  missing : ∀ e, (c.loadExogenous store).1 = .error e → c.Misses store e

namespace Consistent

variable (hc : c.Consistent tables sets) (hcoordinates : ∀ t ∈ tables, t.coordinates.Nodup)
include hc

/-- Every parameter is that of a binding of a variable. -/
theorem exists_serves (hlinked : c.Linked) (hq : c.parameters[p]? = some q) :
    ∃ v b, c.Serves p q v b := by
  obtain ⟨b, hb, hvalue⟩ := hlinked p q hq
  obtain ⟨v, hv, -⟩ := hc.exists_variable (Array.mem_of_getElem? hb)
  exact ⟨v, b, hq, hb, hvalue, hv⟩

include hcoordinates

/-- The binding of a parameter is situated on the table of the parameter and has its shape. -/
theorem situated_of_serves (h : c.Serves p q v b) :
    c.Binds v b ∧ q.table = v.table ∧ q.shape = b.shape ∧
      ∃ t ∈ tables, ∃ declaration, Situated declaration t sets v b := by
  have hconstant : ∀ i, b.value ≠ .constant i := fun i => by simp [h.value]
  obtain ⟨w, hw, hbinds, t, ht, declaration, hs⟩ :=
    hc.exists_situated hcoordinates (Array.mem_of_getElem? h.binding) hconstant
  obtain rfl : v = w := Option.some.inj (h.named.symm.trans hw)
  have hrefers := hbinds.refers
  unfold Refers at hrefers
  simp only [h.value] at hrefers
  obtain ⟨q', hq', -, htable, hshape⟩ := hrefers
  obtain rfl : q = q' := Option.some.inj (h.parameter.symm.trans hq')
  exact ⟨hbinds, htable, hshape.trans hbinds.shape.symm, t, ht, declaration, hs⟩

variable (hitems : ∀ dim ∈ sets.dims, dim.items.Nodup)
include hitems

/-- The binding of a parameter is loaded from the numbers that the store has for its entries. -/
theorem exists_data_of_serves (hstore : c.HeldBy tables store) (h : c.Serves p q v b) :
    ∃ data, c.loadBinding store b = assemble v b data ∧
      data.length = b.shape.rows * b.shape.cols ∧
      ∀ i < b.shape.rows, ∀ j < b.shape.cols, ∀ x,
        data[i * b.shape.cols + j]? = some (some x) ↔ Supplies store v b i j x := by
  obtain ⟨hbinds, htable, -, t, ht, declaration, hs⟩ := hc.situated_of_serves hcoordinates h
  have hheld : store.Holds t :=
    hstore t ht ⟨q, Array.mem_of_getElem? h.parameter, htable.trans hs.resolves.table⟩
  exact hs.exists_data hitems hbinds h.named hheld

/-- What is loaded for a parameter: the numbers that the store has, unless one is missing. -/
theorem outcome_of_serves (hstore : c.HeldBy tables store) (h : c.Serves p q v b) :
    Outcome (fun m => Tensor.HasShape m q.shape ∧ ∀ i < q.shape.rows, ∀ j < q.shape.cols, ∀ x,
        Supplies store v b i j x ↔ x = m.get i j)
      (fun e => ∃ i < q.shape.rows, ∃ j < q.shape.cols, (∀ x, ¬ Supplies store v b i j x) ∧
        e = .missing (.entry b.symbol v.table i j b.filter.entries))
      (c.loadBinding store b) := by
  obtain ⟨data, hload, hlength, hdata⟩ := hc.exists_data_of_serves hcoordinates hitems hstore h
  obtain ⟨-, -, hshape, -⟩ := hc.situated_of_serves hcoordinates h
  rw [hload, hshape]
  refine (outcome_assemble v hlength).mono ?_ ?_
  · rintro m ⟨hm, hentries⟩
    refine ⟨hm, fun i hi j hj x => ?_⟩
    rw [← hdata i hi j hj x, hentries i hi j hj, Option.some.injEq, Option.some.injEq, eq_comm]
  · rintro e ⟨i, hi, j, hj, hnone, he⟩
    refine ⟨i, hi, j, hj, fun x hx => ?_, he⟩
    rw [(hdata i hi j hj x).mpr hx] at hnone
    cases Option.some.inj hnone

/-- Stores with the same numbers for the entries of a parameter are loaded alike. -/
theorem loadBinding_congr (hstore : c.HeldBy tables store) (hstore' : c.HeldBy tables store')
    (hsame : c.SameSupply store store') (h : c.Serves p q v b) :
    c.loadBinding store' b = c.loadBinding store b := by
  obtain ⟨data, hload, hlength, hdata⟩ := hc.exists_data_of_serves hcoordinates hitems hstore h
  obtain ⟨data', hload', hlength', hdata'⟩ :=
    hc.exists_data_of_serves hcoordinates hitems hstore' h
  obtain ⟨-, -, hshape, -⟩ := hc.situated_of_serves hcoordinates h
  have hentries := hsame p q v b h
  rw [hshape] at hentries
  rw [hload, hload', data_unique hlength' hlength fun i hi j hj x => ?_]
  rw [hdata i hi j hj, hdata' i hi j hj, hentries i hi j hj]

variable (hlinked : c.Linked)
include hlinked

/-- A load that fails misses an entry. -/
theorem missing_of_loadExogenous (hstore : c.HeldBy tables store) {e : ModelError}
    (he : (c.loadExogenous store).1 = .error e) : c.Misses store e := by
  refine loadParameters_error (fun q hq b hb e he => ?_) _ he
  obtain ⟨p, hp⟩ := Array.mem_iff_getElem?.mp hq
  obtain ⟨v, b', hserves⟩ := hc.exists_serves hlinked hp
  obtain rfl : b = b' := Option.some.inj (hb.symm.trans hserves.binding)
  have houtcome := hc.outcome_of_serves hcoordinates hitems hstore hserves
  rw [he] at houtcome
  exact ⟨p, q, v, b, hserves, houtcome⟩

omit hlinked

/-- A load that succeeds has filled every parameter with the numbers of its entries. -/
theorem filled_of_loadExogenous (hstore : c.HeldBy tables store)
    (hload : c.loadExogenous store = (.ok (), d)) : c.FilledFrom store d := by
  obtain ⟨hd, hloaded⟩ := loaded_of_loadExogenous hload
  obtain ⟨hrefills, -⟩ := refills_loadParameters store (List.range c.parameters.size) hc.addressed
  have hlast : (loadParameters store (List.range c.parameters.size) c).2 = d :=
    (Prod.mk.inj hload).2
  rw [hlast] at hrefills
  have hsize := congrArg Array.size hrefills.parameters
  rw [Array.size_map, Array.size_map] at hsize
  refine ⟨hd, hsize, fun p q v b h => ?_⟩
  obtain ⟨q', hq', hbinding, htable, hshape⟩ := hrefills.parameter h.parameter
  obtain ⟨m, hm, hvalue⟩ := hloaded p q' b hq' (by rw [hrefills.bindings, hbinding, h.binding])
  have hq : q' = { q with value := some m } := by
    rw [← hbinding, ← htable, ← hshape, ← hvalue]
  rw [hd] at hm
  refine ⟨m, hq ▸ hq', ?_⟩
  exact (hc.outcome_of_serves hcoordinates hitems hstore h).value hm

end Consistent

/-- With distinct items and distinct coordinates, a load puts every number where it belongs.  It
succeeds if and only if the store has a number for each entry of each parameter, and it depends on
these numbers only. -/
theorem loadExogenous_fills (hbuild : build tables sets = .ok c) (hlater : c.Later d)
    (hitems : ∀ dim ∈ sets.dims, dim.items.Nodup)
    (hcoordinates : ∀ t ∈ tables, t.coordinates.Nodup) (hstore : d.HeldBy tables store) :
    d.Fills tables store ∧ ∀ store', d.HeldBy tables store' → d.SameSupply store store' →
      d.loadExogenous store' = d.loadExogenous store := by
  have hc := consistent_of_build hbuild hlater
  have hlinked := linked_of_build hbuild hlater
  refine ⟨{
    serves := fun p q hq => ?_
    ok_iff := ⟨fun hok p q v b h i hi j hj => ?_, fun hsupplied => ?_⟩
    filled := fun e hload => hc.filled_of_loadExogenous hcoordinates hitems hstore hload
    missing := fun e he => hc.missing_of_loadExogenous hcoordinates hitems hlinked hstore he },
    fun store' hstore' hsame => ?_⟩
  · obtain ⟨v, b, h⟩ := hc.exists_serves hlinked hq
    obtain ⟨hbinds, -, hshape, t, ht, declaration, hs⟩ := hc.situated_of_serves hcoordinates h
    refine ⟨v, b, h, t, ht, hs.resolves.table, fun dim => hs.resolves.mem_dims_iff, ?_⟩
    rw [hshape, hbinds.shape, hs.resolves.shape]
  · have hfilled := hc.filled_of_loadExogenous hcoordinates hitems hstore (Prod.ext hok rfl)
    obtain ⟨m, -, -, hm⟩ := hfilled.entries p q v b h
    exact ⟨m.get i j, (hm i hi j hj _).mpr rfl⟩
  · cases hload : (d.loadExogenous store).1 with
    | ok _ => rfl
    | error e =>
        obtain ⟨p, q, v, b, h, i, hi, j, hj, hnone, -⟩ :=
          hc.missing_of_loadExogenous hcoordinates hitems hlinked hstore hload
        -- an error would name an entry for which the store has no number
        obtain ⟨x, hx⟩ := hsupplied p q v b h i hi j hj
        exact absurd hx (hnone x)
  · refine loadParameters_congr (fun q hq b hb => ?_) _
    obtain ⟨p, hp⟩ := Array.mem_iff_getElem?.mp hq
    obtain ⟨v, b', h⟩ := hc.exists_serves hlinked hp
    obtain rfl : b = b' := Option.some.inj (hb.symm.trans h.binding)
    exact hc.loadBinding_congr hcoordinates hitems hstore hstore' hsame h

end Catalog

/-! ## Prices of grains -/

namespace Catalog.Grains

open Purchases

/-- Three crops, two of which are grains, and two years. -/
def sets : Registry :=
  ⟨[.ofItems "year" ["first", "second"],
    { Dimension.ofItems "crop" ["rye", "hay", "oat"] with
      categories := ⟨[("hay", "fodder"), ("oat", "grain"), ("rye", "grain")]⟩ }], by decide⟩

/-- The prices of the grains in each year. -/
def tables : List TableDeclaration :=
  [⟨"price", .fixed .exogenous, ["crop", "year"], false,
    [⟨"p", .dim "crop", .one, none, ⟨[("crop", ⟨some "grain", .empty⟩)]⟩⟩]⟩]

def price : Variable :=
  ⟨"p", "price", .fixed .exogenous, false, none, ⟨some "crop", none, some "year", []⟩,
    ⟨[("crop", ["rye", "oat"]), ("year", ["first", "second"])]⟩, ⟨2, 1⟩, none⟩

/-- The catalog with the prices of both years. -/
def priced (first second : Option (Matrix Rat)) : Catalog Rat where
  members := [price]
  tableCoordinates := [("price", ["crop", "year"])]
  bindings :=
    #[⟨0, "p", none, [], some "first", ⟨[("crop", ["rye", "oat"]), ("year", ["first"])]⟩, ⟨2, 1⟩,
        .parameter 0⟩,
      ⟨1, "p", none, [], some "second", ⟨[("crop", ["rye", "oat"]), ("year", ["second"])]⟩, ⟨2, 1⟩,
        .parameter 1⟩]
  blocks := #[]
  parameters := #[⟨0, "price", ⟨2, 1⟩, first⟩, ⟨1, "price", ⟨2, 1⟩, second⟩]
  constants := #[]
  values := #[some 1]
  integer := #[false]

/-- A store of prices, with the coordinates in another order than the table. -/
def store (rows : List (Row Rat)) : Store Rat :=
  ⟨⟨[("price", ⟨["year", "crop"], rows⟩)]⟩, .empty⟩

/-- What is known of the grains. -/
def known : List (Row Rat) :=
  [⟨["second", "oat"], some 4⟩, ⟨["first", "rye"], some 1⟩, ⟨["first", "oat"], some 2⟩,
    ⟨["second", "rye"], some 3⟩]

/-- What is known of hay, which is no price. -/
def fodder : List (Row Rat) :=
  [⟨["first", "hay"], none⟩]

theorem heldBy_store {rows : List (Row Rat)} (h : StoredTable.Valid ⟨["year", "crop"], rows⟩) :
    (priced none none).HeldBy tables (store rows) := by
  intro t ht _
  obtain rfl := List.mem_singleton.mp ht
  exact ⟨_, rfl, .swap "crop" "year" [], h⟩

/-- Another order of rows and a row for hay make no difference. -/
theorem sameSupply_store :
    (priced none none).SameSupply (store known) (store (fodder ++ known.reverse)) := by
  intro p q v b h i _ j _ x
  obtain rfl : v = price := List.mem_singleton.mp (List.mem_of_find?_eq_some h.named)
  have hperm : (fodder ++ known.reverse).Perm (known ++ fodder) :=
    ((List.reverse_perm known).append_left fodder).trans List.perm_append_comm
  refine supplies_iff_of_perm rfl rfl hperm fun r hr hcarries => ?_
  obtain rfl := List.mem_singleton.mp hr
  have hhay : ["rye", "oat"][i]? = some "hay" := hcarries.rows "crop" "hay" (by simp) rfl
  exact absurd (List.mem_of_getElem? hhay) (by decide)

/-- The prices of each year, rye before oat. -/
theorem loadExogenous_fills_grains : build tables sets = .ok (priced none none) ∧
    (priced none none).FilledFrom (store known)
      (priced (some (.dense ⟨2, 1⟩ [1, 2])) (some (.dense ⟨2, 1⟩ [3, 4]))) ∧
    (priced none none).loadExogenous (store (fodder ++ known.reverse)) =
      (.ok (), priced (some (.dense ⟨2, 1⟩ [1, 2])) (some (.dense ⟨2, 1⟩ [3, 4]))) := by
  have hbuild : build tables sets = .ok (priced none none) := by decide +kernel
  have hload : (priced none none).loadExogenous (store known) =
      (.ok (), priced (some (.dense ⟨2, 1⟩ [1, 2])) (some (.dense ⟨2, 1⟩ [3, 4]))) := by
    decide +kernel
  have hknown : StoredTable.Valid ⟨["year", "crop"], known⟩ :=
    ⟨by decide, by unfold DistinctRows; decide⟩
  have hmore : StoredTable.Valid ⟨["year", "crop"], fodder ++ known.reverse⟩ :=
    ⟨by decide, by unfold DistinctRows; decide⟩
  obtain ⟨hfills, hsame⟩ := loadExogenous_fills hbuild .refl (by decide) (by decide)
    (heldBy_store hknown)
  refine ⟨hbuild, hfills.filled _ hload, ?_⟩
  rw [hsame _ (heldBy_store hmore) sameSupply_store, hload]

end Catalog.Grains

/-! ## Distances between ports -/

namespace Catalog.Distances

open Purchases

def sets : Registry :=
  ⟨[.ofItems "port" ["cork", "vigo"]], by decide⟩

/-- A table with a coordinate that is named twice. -/
def tables : List TableDeclaration :=
  [⟨"distance", .fixed .exogenous, ["port", "port"], false,
    [⟨"x", .dim "port", .one, none, .empty⟩]⟩]

def distance : Variable :=
  ⟨"x", "distance", .fixed .exogenous, false, none, ⟨some "port", none, none, []⟩,
    ⟨[("port", ["cork", "vigo"])]⟩, ⟨2, 1⟩, none⟩

def binding : Binding :=
  ⟨0, "x", none, [], none, ⟨[("port", ["cork", "vigo"])]⟩, ⟨2, 1⟩, .parameter 0⟩

/-- The catalog with the distances, if they are known. -/
def measured (value : Option (Matrix Rat)) : Catalog Rat where
  members := [distance]
  tableCoordinates := [("distance", ["port", "port"])]
  bindings := #[binding]
  blocks := #[]
  parameters := #[⟨0, "distance", ⟨2, 1⟩, value⟩]
  constants := #[]
  values := #[some 1]
  integer := #[false]

def stored : StoredTable Rat :=
  ⟨["port", "port"], [⟨["cork", "cork"], some 1⟩, ⟨["cork", "vigo"], some 2⟩,
    ⟨["vigo", "vigo"], some 3⟩]⟩

def store : Store Rat :=
  ⟨⟨[("distance", stored)]⟩, .empty⟩

/-- The same rows in another order. -/
def reordered : Store Rat :=
  ⟨⟨[("distance", ⟨["port", "port"], stored.rows.reverse⟩)]⟩, .empty⟩

/-- Both coordinates of the row that is for `cork` have this item, but only the first one is looked
at: the entry is taken from the last row that starts with `cork`. -/
theorem load_misplaces_repeated_coordinate : build tables sets = .ok (measured none) ∧
    (∀ dim ∈ sets.dims, dim.items.Nodup) ∧ (measured none).HeldBy tables store ∧
    (measured none).Serves 0 ⟨0, "distance", ⟨2, 1⟩, none⟩ distance binding ∧
    Supplies store distance binding 0 0 1 ∧
    (measured none).loadExogenous store = (.ok (), measured (some (.dense ⟨2, 1⟩ [2, 3]))) ∧
    (measured none).loadExogenous reordered =
      (.ok (), measured (some (.dense ⟨2, 1⟩ [1, 3]))) ∧
    ¬ (measured none).Fills tables store := by
  have hload : (measured none).loadExogenous store =
      (.ok (), measured (some (.dense ⟨2, 1⟩ [2, 3]))) := by decide +kernel
  have hserves : (measured none).Serves 0 ⟨0, "distance", ⟨2, 1⟩, none⟩ distance binding :=
    ⟨rfl, rfl, rfl, rfl⟩
  have hcarries : Carries stored.coordinates distance binding 0 0 ["cork", "cork"] := by
    refine ⟨rfl, fun d item hzip _ => ?_, fun _ _ _ hcol => ?_, fun _ _ _ hintra => ?_,
      fun _ _ _ hinter => ?_⟩
    · obtain ⟨rfl, rfl⟩ : d = "port" ∧ item = "cork" := by simpa [stored] using hzip
      rfl
    · cases hcol
    · cases hintra
    · cases hinter
  have hsupplies : Supplies store distance binding 0 0 1 :=
    ⟨stored, ⟨["cork", "cork"], some 1⟩, rfl, List.mem_cons_self, hcarries, rfl, rfl⟩
  refine ⟨by decide +kernel, by decide, fun t ht _ => ?_, hserves, hsupplies, hload,
    by decide +kernel, fun hfills => ?_⟩
  · obtain rfl := List.mem_singleton.mp ht
    exact ⟨stored, rfl, .rfl, by decide, by unfold DistinctRows; decide⟩
  · obtain ⟨m, hm, -, hentries⟩ := (hfills.filled _ hload).entries 0 _ _ _ hserves
    have hvalue := (hentries 0 (by decide) 0 (by decide) 1).mp hsupplies
    obtain rfl : m = .dense ⟨2, 1⟩ [2, 3] := by simpa [measured] using hm.symm
    exact absurd hvalue (by decide +kernel)

end Catalog.Distances

end CoupledModels
