import CoupledModels.Proofs.Catalog.Numbering
import CoupledModels.Proofs.Model.Reload
import CoupledModels.Proofs.Store.Upserts

/-!
# Laying out the storage

The storage layout gives every declared table its coordinates, and every table that a solver decides
a row for each pick of items.  It adds what a store lacks and leaves what it holds: rows keep their
places and their values, rows with items that no dimension has stay, and tables that are not declared
are not touched.  A store that has been laid out lacks nothing, so laying it out again changes nothing.

* `laidOut_of_initializeTable`: what one table gains;
* `initializeTable_of_complete`: a table that lacks nothing;
* `initializeStorage_completes`: the whole layout.
-/

namespace CoupledModels

variable {K : Type}

/-! ## Rows that a table lacks -/

/-- The rows of a stored table; none if there is no table of the name. -/
def Store.rowsOf (s : Store K) (name : String) : List (Row K) :=
  match s.tables.get? name with
  | some t => t.rows
  | none => []

theorem Store.rowsOf_congr {s s' : Store K} {name : String}
    (h : s.tables.get? name = s'.tables.get? name) : s.rowsOf name = s'.rowsOf name := by
  unfold rowsOf
  rw [h]

theorem Store.WellFormed.distinctRows_rowsOf {s : Store K} (h : s.WellFormed) (name : String) :
    DistinctRows (s.rowsOf name) := by
  unfold rowsOf
  cases hget : s.tables.get? name with
  | some t => exact h.distinct name t hget
  | none => exact List.nodup_nil

namespace TableDeclaration

variable {t : TableDeclaration} {sets : Registry} {product : List (List String)}

/-- A row has an item of each coordinate of a table. -/
def Picks (t : TableDeclaration) (sets : Registry) (coords : List String) : Prop :=
  List.Forall₂ (fun d item => ∃ dim, sets.find? d = some dim ∧ item ∈ dim.items) t.coordinates coords

theorem picks_iff_mem_enumerate (h : t.enumerate sets = .ok product) {coords : List String} :
    t.Picks sets coords ↔ coords ∈ product := by
  rw [mem_enumerate_iff h, Picks, List.forall₂_iff_zip]

end TableDeclaration

namespace StoredTable

variable {rows added : List (Row K)} {product : List (List String)}

/-- Rows without values for the picks that are not among the coordinates of some rows. -/
def lacking (product : List (List String)) (rows : List (Row K)) : List (Row K) :=
  (product.filter fun coords => !(rows.map Row.coords).contains coords).map fun coords =>
    ⟨coords, none⟩

theorem mem_lacking_iff {r : Row K} :
    r ∈ lacking product rows ↔
      (r.coords ∈ product ∧ r.coords ∉ rows.map Row.coords) ∧ r.value = none := by
  unfold lacking
  rw [List.mem_map]
  constructor
  · rintro ⟨coords, hmem, rfl⟩
    simpa using hmem
  · rintro ⟨hmem, hvalue⟩
    obtain ⟨coords, value⟩ := r
    obtain rfl : value = none := hvalue
    exact ⟨coords, by simpa using hmem, rfl⟩

theorem coords_lacking (product : List (List String)) (rows : List (Row K)) :
    (lacking product rows).map Row.coords =
      product.filter fun coords => !(rows.map Row.coords).contains coords := by
  rw [lacking, List.map_map]
  exact List.map_id _

theorem insertable_nil (rows : List (Row K)) : Insertable rows [] :=
  ⟨List.nodup_nil, fun _ hr => absurd hr List.not_mem_nil⟩

/-- Rows that are lacked can be inserted, unless they are lacked twice. -/
theorem insertable_lacking (h : product.Nodup) : Insertable rows (lacking product rows) where
  distinct := by
    unfold DistinctRows
    rw [coords_lacking]
    exact h.filter _
  new := fun _ hr => (mem_lacking_iff.mp hr).1.2

theorem lacking_eq_nil (h : ∀ coords ∈ product, coords ∈ rows.map Row.coords) :
    lacking product rows = [] := by
  refine List.eq_nil_iff_forall_not_mem.mpr fun r hr => ?_
  obtain ⟨⟨hmem, hnew⟩, -⟩ := mem_lacking_iff.mp hr
  exact hnew (h r.coords hmem)

/-- Every pick has a row, old or new. -/
theorem mem_coords_append_lacking {coords : List String} (h : coords ∈ product) :
    coords ∈ (rows ++ lacking product rows).map Row.coords := by
  rw [List.map_append, List.mem_append, coords_lacking]
  by_cases hold : coords ∈ rows.map Row.coords
  · exact .inl hold
  · exact .inr (List.mem_filter.mpr ⟨h, by simpa using hold⟩)

theorem Insertable.distinctRows_append (h : Insertable rows added) (hrows : DistinctRows rows) :
    DistinctRows (rows ++ added) := by
  unfold DistinctRows
  rw [List.map_append, List.nodup_append]
  refine ⟨hrows, h.distinct, fun coords hold coords' hnew => ?_⟩
  obtain ⟨r, hr, rfl⟩ := List.mem_map.mp hnew
  rintro rfl
  exact h.new r hr hold

end StoredTable

/-! ## One table -/

namespace Store

variable {s created : Store K} {name : String} {coordinates : List String}

/-- A table that is created has the rows that it had before. -/
theorem get?_createTable (h : s.createTable name coordinates = .ok created) (other : String) :
    created.tables.get? other =
      if other = name then some ⟨coordinates, s.rowsOf name⟩ else s.tables.get? other := by
  unfold createTable at h
  unfold rowsOf
  cases hget : s.tables.get? name with
  | some t =>
      simp only [hget] at h
      split at h
      · rename_i hcoordinates
        cases h
        split
        · rename_i hother
          rw [hother, hget, ← hcoordinates]
        · rfl
      · cases h
  | none =>
      simp only [hget] at h
      cases h
      simp [SortedMap.get?_insert]

/-- A table can be created unless it exists with other coordinates. -/
theorem createTable_ok_iff :
    (∃ created, s.createTable name coordinates = .ok created) ↔
      ∀ t, s.tables.get? name = some t → t.coordinates = coordinates := by
  unfold createTable
  cases hget : s.tables.get? name with
  | some t => by_cases hcoordinates : t.coordinates = coordinates <;> simp [hcoordinates]
  | none => simp

theorem ascending_createTable (hs : s.tables.Ascending)
    (h : s.createTable name coordinates = .ok created) : created.tables.Ascending := by
  rcases createTable_cases h with rfl | rfl
  · exact hs
  · exact hs.insert _ _

theorem ascending_putRows {rows : List (Row K)} {mode : WriteMode} (hs : s.tables.Ascending) :
    (s.putRows name rows mode).2.tables.Ascending := by
  rcases putRows_cases s name rows mode with heq | ⟨t, -, heq⟩
  · rwa [heq]
  · rw [heq]
    exact hs.insert _ _

end Store

namespace Model

open StoredTable (lacking Insertable)

variable {sets : Registry} {t : TableDeclaration} {store created after : Store K}
  {product : List (List String)}

theorem initializeTable_of_other (hkind : t.kind.has .endogenous = false)
    (hcreate : store.createTable t.name t.coordinates = .ok created) :
    initializeTable sets t store = (.ok (), created) := by
  unfold initializeTable
  simp [hcreate, hkind]

/-- A decided table is created, and the rows that it lacks are inserted. -/
theorem initializeTable_of_endogenous (hkind : t.kind.has .endogenous = true)
    (hcreate : store.createTable t.name t.coordinates = .ok created)
    (hproduct : t.enumerate sets = .ok product) :
    initializeTable sets t store =
      created.putRows t.name (lacking product (store.rowsOf t.name)) .insert := by
  have hget : created.tables.get? t.name = some ⟨t.coordinates, store.rowsOf t.name⟩ := by
    rw [Store.get?_createTable hcreate, if_pos rfl]
  have hrows : created.getRows t.name .empty = .ok (store.rowsOf t.name) :=
    Store.getRows_empty_eq_ok.mpr ⟨_, hget, rfl⟩
  have hmissing : missingRows sets t (store.rowsOf t.name) =
      .ok (lacking product (store.rowsOf t.name)) := by
    unfold missingRows
    rw [hproduct]
    rfl
  unfold initializeTable addMissingRows
  simp only [hcreate, hkind, if_true]
  rw [hrows]
  simp only [bind, Except.bind, hmissing]

/-- What the layout adds to the rows of a table: rows without values, for picks that the table lacked,
so that a decided table has a row for every pick. -/
structure Adds (sets : Registry) (t : TableDeclaration) (rows added : List (Row K)) : Prop where
  insertable : Insertable rows added
  undefined : ∀ r ∈ added, r.value = none
  lacked : ∀ r ∈ added, t.kind.has .endogenous = true ∧ t.Picks sets r.coords
  complete : t.kind.has .endogenous = true → ∀ coords, t.Picks sets coords →
    coords ∈ (rows ++ added).map Row.coords

theorem adds_nil (hkind : t.kind.has .endogenous = false) (rows : List (Row K)) :
    Adds sets t rows [] where
  insertable := StoredTable.insertable_nil rows
  undefined := fun _ hr => absurd hr List.not_mem_nil
  lacked := fun _ hr => absurd hr List.not_mem_nil
  complete := fun hdecided => absurd hdecided (by simp [hkind])

theorem adds_lacking (hkind : t.kind.has .endogenous = true)
    (hproduct : t.enumerate sets = .ok product) {rows : List (Row K)}
    (hinsertable : Insertable rows (lacking product rows)) :
    Adds sets t rows (lacking product rows) where
  insertable := hinsertable
  undefined := fun _ hr => (StoredTable.mem_lacking_iff.mp hr).2
  lacked := fun _ hr => ⟨hkind, (TableDeclaration.picks_iff_mem_enumerate hproduct).mpr
    (StoredTable.mem_lacking_iff.mp hr).1.1⟩
  complete := fun _ _ hcoords => StoredTable.mem_coords_append_lacking
    ((TableDeclaration.picks_iff_mem_enumerate hproduct).mp hcoords)

/-- A table has been laid out, and no other one has been touched. -/
structure LaidOut (sets : Registry) (t : TableDeclaration) (before after : Store K) : Prop where
  table : ∃ added, after.tables.get? t.name = some ⟨t.coordinates, before.rowsOf t.name ++ added⟩ ∧
    Adds sets t (before.rowsOf t.name) added
  others : ∀ name, name ≠ t.name → after.tables.get? name = before.tables.get? name

/-- The picks of a decided table can be listed. -/
def Enumerable (sets : Registry) (t : TableDeclaration) : Prop :=
  t.kind.has .endogenous = true → ∃ product, t.enumerate sets = .ok product

theorem exists_created (h : initializeTable sets t store = (.ok (), after)) :
    ∃ created, store.createTable t.name t.coordinates = .ok created := by
  unfold initializeTable at h
  split at h
  · rename_i created hcreate
    exact ⟨created, hcreate⟩
  · cases h

theorem laidOut_of_initializeTable (henum : Enumerable sets t)
    (h : initializeTable sets t store = (.ok (), after)) : LaidOut sets t store after := by
  obtain ⟨created, hcreate⟩ := exists_created h
  have hget := Store.get?_createTable hcreate
  cases hkind : t.kind.has .endogenous with
  | false =>
      rw [initializeTable_of_other hkind hcreate] at h
      cases h
      refine ⟨⟨[], ?_, adds_nil hkind _⟩, fun name hname => ?_⟩
      · rw [hget, if_pos rfl, List.append_nil]
      · rw [hget, if_neg hname]
  | true =>
      obtain ⟨product, hproduct⟩ := henum hkind
      -- The insertion is strict, so it has succeeded only because every row was new.
      rw [initializeTable_of_endogenous hkind hcreate hproduct,
        Store.putRows_insert_iff ((hget t.name).trans (if_pos rfl))] at h
      obtain ⟨-, hinsertable, rfl⟩ := h
      refine ⟨⟨_, ?_, adds_lacking hkind hproduct hinsertable⟩, fun name hname => ?_⟩
      · rw [Store.get?_withRows, if_pos rfl]
      · rw [Store.get?_withRows, if_neg hname, hget, if_neg hname]

/-- A table that has its coordinates and lacks no pick is left as it is. -/
theorem initializeTable_of_complete (hstore : store.tables.Ascending) (henum : Enumerable sets t)
    {rows : List (Row K)} (hget : store.tables.get? t.name = some ⟨t.coordinates, rows⟩)
    (hcomplete : t.kind.has .endogenous = true → ∀ coords, t.Picks sets coords →
      coords ∈ rows.map Row.coords) :
    initializeTable sets t store = (.ok (), store) := by
  have hcreate : store.createTable t.name t.coordinates = .ok store := by
    unfold Store.createTable
    simp [hget]
  cases hkind : t.kind.has .endogenous with
  | false => exact initializeTable_of_other hkind hcreate
  | true =>
      obtain ⟨product, hproduct⟩ := henum hkind
      have hrows : store.rowsOf t.name = rows := by
        unfold Store.rowsOf
        rw [hget]
      -- every pick has its row, so none is added
      have hnil : lacking product rows = [] :=
        StoredTable.lacking_eq_nil fun coords hcoords => hcomplete hkind coords
          ((TableDeclaration.picks_iff_mem_enumerate hproduct).mpr hcoords)
      have hsame : store.withRows t.name ⟨t.coordinates, rows⟩ rows = store := by
        unfold Store.withRows
        rw [hstore.insert_of_get? hget]
      rw [initializeTable_of_endogenous hkind hcreate hproduct, hrows, hnil,
        Store.putRows_insert_iff hget]
      refine ⟨fun _ hr => absurd hr List.not_mem_nil, StoredTable.insertable_nil rows, ?_⟩
      rw [List.append_nil, hsame]

/-- Distinct items let a table be laid out, unless it exists with other coordinates. -/
theorem exists_initializeTable (henum : Enumerable sets t)
    (hitems : ∀ d ∈ sets.dims, d.items.Nodup)
    (hcoordinates : ∀ s, store.tables.get? t.name = some s → s.coordinates = t.coordinates) :
    ∃ after, initializeTable sets t store = (.ok (), after) := by
  obtain ⟨created, hcreate⟩ := Store.createTable_ok_iff.mpr hcoordinates
  cases hkind : t.kind.has .endogenous with
  | false => exact ⟨created, initializeTable_of_other hkind hcreate⟩
  | true =>
      obtain ⟨product, hproduct⟩ := henum hkind
      obtain ⟨hlengths, hdistinct⟩ := TableDeclaration.enumerate_ok hproduct
      rw [initializeTable_of_endogenous hkind hcreate hproduct]
      refine ⟨_, (Store.putRows_insert_iff
        ((Store.get?_createTable hcreate t.name).trans (if_pos rfl))).mpr ⟨?_, ?_, rfl⟩⟩
      · intro r hr
        exact hlengths r.coords (StoredTable.mem_lacking_iff.mp hr).1.1
      · exact StoredTable.insertable_lacking (hdistinct hitems)

theorem coordinates_of_initializeTable (h : initializeTable sets t store = (.ok (), after)) :
    ∀ s, store.tables.get? t.name = some s → s.coordinates = t.coordinates :=
  Store.createTable_ok_iff.mp (exists_created h)

theorem ascending_initializeTable (hstore : store.tables.Ascending) :
    (initializeTable sets t store).2.tables.Ascending := by
  unfold initializeTable
  split
  · rename_i created hcreate
    have hcreated := Store.ascending_createTable hstore hcreate
    split
    · unfold addMissingRows
      split
      · exact Store.ascending_putRows hcreated
      · exact hcreated
    · exact hcreated
  · exact hstore

/-! ## All tables -/

variable {ts : List TableDeclaration}

theorem initializeTables_cons_eq_ok_iff :
    initializeTables sets (t :: ts) store = (.ok (), after) ↔
      ∃ next, initializeTable sets t store = (.ok (), next) ∧
        initializeTables sets ts next = (.ok (), after) := by
  rw [initializeTables]
  cases hstep : initializeTable sets t store with
  | mk result next => cases result <;> simp

/-- Tables with distinct names do not touch each other, so each is laid out over what the store had
at the beginning. -/
theorem laidOut_of_initializeTables (hnames : (ts.map TableDeclaration.name).Nodup)
    (henum : ∀ t ∈ ts, Enumerable sets t) (h : initializeTables sets ts store = (.ok (), after)) :
    (∀ t ∈ ts, ∃ added,
      after.tables.get? t.name = some ⟨t.coordinates, store.rowsOf t.name ++ added⟩ ∧
        Adds sets t (store.rowsOf t.name) added) ∧
      ∀ name, name ∉ ts.map TableDeclaration.name →
        after.tables.get? name = store.tables.get? name := by
  induction ts generalizing store with
  | nil =>
      cases h
      exact ⟨List.forall_mem_nil _, fun _ _ => rfl⟩
  | cons t ts ih =>
      obtain ⟨ht, hnames⟩ := List.nodup_cons.mp hnames
      obtain ⟨henumt, henum⟩ := List.forall_mem_cons.mp henum
      obtain ⟨next, hstep, hrest⟩ := initializeTables_cons_eq_ok_iff.mp h
      have hlaid := laidOut_of_initializeTable henumt hstep
      obtain ⟨htables, hothers⟩ := ih hnames henum hrest
      constructor
      · refine List.forall_mem_cons.mpr ⟨?_, fun u hu => ?_⟩
        · -- The tables that follow leave the first one alone.
          rw [hothers t.name ht]
          exact hlaid.table
        · have hne : u.name ≠ t.name := fun heq => ht (heq ▸ List.mem_map_of_mem hu)
          rw [← Store.rowsOf_congr (hlaid.others u.name hne)]
          exact htables u hu
      · intro name hname
        rw [List.map_cons, List.mem_cons, not_or] at hname
        rw [hothers name hname.2, hlaid.others name hname.1]

theorem initializeTables_of_complete
    (h : ∀ t ∈ ts, initializeTable sets t store = (.ok (), store)) :
    initializeTables sets ts store = (.ok (), store) := by
  induction ts with
  | nil => rfl
  | cons t ts ih =>
      obtain ⟨ht, hts⟩ := List.forall_mem_cons.mp h
      exact initializeTables_cons_eq_ok_iff.mpr ⟨store, ht, ih hts⟩

/-- With distinct items the layout fails only where a table exists with other coordinates. -/
theorem exists_initializeTables_iff (hnames : (ts.map TableDeclaration.name).Nodup)
    (henum : ∀ t ∈ ts, Enumerable sets t) (hitems : ∀ d ∈ sets.dims, d.items.Nodup) :
    (∃ after, initializeTables sets ts store = (.ok (), after)) ↔
      ∀ t ∈ ts, ∀ s, store.tables.get? t.name = some s → s.coordinates = t.coordinates := by
  induction ts generalizing store with
  | nil => exact ⟨fun _ => List.forall_mem_nil _, fun _ => ⟨store, rfl⟩⟩
  | cons t ts ih =>
      obtain ⟨ht, hnames⟩ := List.nodup_cons.mp hnames
      obtain ⟨henumt, henum⟩ := List.forall_mem_cons.mp henum
      -- What the store has under the names that follow is the same before and after this table.
      have hrest : ∀ next, initializeTable sets t store = (.ok (), next) →
          ((∃ after, initializeTables sets ts next = (.ok (), after)) ↔
            ∀ u ∈ ts, ∀ s, store.tables.get? u.name = some s → s.coordinates = u.coordinates) := by
        intro next hstep
        rw [ih hnames henum]
        refine forall₂_congr fun u hu => ?_
        have hne : u.name ≠ t.name := fun heq => ht (heq ▸ List.mem_map_of_mem hu)
        rw [(laidOut_of_initializeTable henumt hstep).others u.name hne]
      rw [List.forall_mem_cons]
      constructor
      · rintro ⟨after, hafter⟩
        obtain ⟨next, hstep, hnext⟩ := initializeTables_cons_eq_ok_iff.mp hafter
        exact ⟨coordinates_of_initializeTable hstep, (hrest next hstep).mp ⟨after, hnext⟩⟩
      · rintro ⟨hcoordinates, hall⟩
        obtain ⟨next, hstep⟩ := exists_initializeTable henumt hitems hcoordinates
        obtain ⟨after, hafter⟩ := (hrest next hstep).mpr hall
        exact ⟨after, initializeTables_cons_eq_ok_iff.mpr ⟨next, hstep, hafter⟩⟩

theorem ascending_initializeTables (hstore : store.tables.Ascending)
    (h : initializeTables sets ts store = (.ok (), after)) : after.tables.Ascending := by
  induction ts generalizing store with
  | nil =>
      cases h
      exact hstore
  | cons t ts ih =>
      obtain ⟨next, hstep, hrest⟩ := initializeTables_cons_eq_ok_iff.mp h
      have hnext : (initializeTable sets t store).2.tables.Ascending :=
        ascending_initializeTable hstore
      rw [hstep] at hnext
      exact ih hnext hrest

/-! ## The items of the dimensions -/

theorem ascending_storeItems (hstore : store.dimensions.Ascending) :
    (storeItems sets store).dimensions.Ascending :=
  List.foldlRecOn (motive := fun s : Store K => s.dimensions.Ascending) sets.dims _ hstore
    fun _ hs d _ => hs.insert d.tableName d.items

/-- Items that are stored are stored again under the same names. -/
theorem storeItems_of_dimensions (hstore : store.dimensions.Ascending)
    (h : after.dimensions = (storeItems sets store).dimensions) : storeItems sets after = after := by
  have hafter : after.dimensions.Ascending := h ▸ ascending_storeItems hstore
  have hdimensions : (storeItems sets after).dimensions = after.dimensions := by
    -- Dimensions may share a name, so the entries are compared name by name.
    refine (ascending_storeItems hafter).ext hafter fun name => ?_
    rw [get?_dimensions_storeItems, h, get?_dimensions_storeItems, ← Option.or_assoc, Option.or_self]
  have htables := tables_storeItems sets after
  exact (congrArg₂ Store.mk htables hdimensions)

/-! ## The whole layout -/

variable [Scalar K] {m : Model K} {tables : List TableDeclaration} {texts : SortedMap String ModelText}

theorem enumerable_of_build {c : Catalog K} (h : Catalog.build tables sets = .ok c) :
    ∀ t ∈ tables, Enumerable sets t := by
  intro t ht hkind
  obtain ⟨bs, hbs, -⟩ := (Catalog.divided_of_build h).blocks t ht hkind
  obtain ⟨product, hproduct, -⟩ := TableDeclaration.enumerateBlocks_ok hbs
  exact ⟨product, hproduct⟩

/-- What a layout makes of the rows of a declared table. -/
structure Completed (sets : Registry) (t : TableDeclaration) (rows added : List (Row K)) : Prop where
  undefined : ∀ r ∈ added, r.value = none
  lacked : ∀ r ∈ added, t.kind.has .endogenous = true ∧ t.Picks sets r.coords ∧
    r.coords ∉ rows.map Row.coords
  once : t.kind.has .endogenous = true → ∀ coords, t.Picks sets coords →
    ((rows ++ added).map Row.coords).count coords = 1

omit [Scalar K] in
theorem completed_of_adds {rows added : List (Row K)} (hrows : DistinctRows rows)
    (h : Adds sets t rows added) : Completed sets t rows added where
  undefined := h.undefined
  lacked := fun r hr => ⟨(h.lacked r hr).1, (h.lacked r hr).2, h.insertable.new r hr⟩
  once := fun hkind coords hcoords => List.count_eq_one_of_mem
    (h.insertable.distinctRows_append hrows) (h.complete hkind coords hcoords)

/-- A layout that succeeds gives every declared table its coordinates, and every decided one exactly
one row for each pick of items.  Rows that existed stay in front with their values, added ones have no
value, tables that are not declared stay as they are, and a second layout changes nothing.  If the
items of each dimension are distinct, the layout succeeds exactly if no declared table exists with
other coordinates. -/
theorem initializeStorage_completes (hm : Model.ofParts sets tables texts = .ok m)
    (hstore : store.WellFormed) (hdimensions : store.dimensions.Ascending) :
    (∀ after, m.initializeStorage store = (.ok (), after) →
      (∀ t ∈ tables, ∃ added,
        after.tables.get? t.name = some ⟨t.coordinates, store.rowsOf t.name ++ added⟩ ∧
          Completed sets t (store.rowsOf t.name) added) ∧
      (∀ name, name ∉ tables.map TableDeclaration.name →
        after.tables.get? name = store.tables.get? name) ∧
      m.initializeStorage after = (.ok (), after)) ∧
    ((∀ d ∈ sets.dims, d.items.Nodup) →
      ((m.initializeStorage store).1 = .ok () ↔
        ∀ t ∈ tables, ∀ s, store.tables.get? t.name = some s → s.coordinates = t.coordinates)) := by
  obtain ⟨hbuild, rfl, rfl⟩ := Model.ofParts_ok hm
  have hnames := (Catalog.build_ok hbuild).1
  have henum := enumerable_of_build hbuild
  have htables : (storeItems m.sets store).tables = store.tables := tables_storeItems m.sets store
  have hrows : ∀ name, (storeItems m.sets store).rowsOf name = store.rowsOf name := fun name =>
    Store.rowsOf_congr (by rw [htables])
  constructor
  · intro after hafter
    have hascending : after.tables.Ascending :=
      ascending_initializeTables (htables ▸ hstore.ascending) hafter
    have hitems : storeItems m.sets after = after := by
      refine storeItems_of_dimensions hdimensions ?_
      have hkept := dimensions_initializeTables m.sets m.tables (storeItems m.sets store)
      rwa [← initializeStorage, hafter] at hkept
    obtain ⟨hlaid, hothers⟩ := laidOut_of_initializeTables hnames henum hafter
    simp only [hrows, htables] at hlaid hothers
    refine ⟨fun t ht => ?_, hothers, ?_⟩
    · obtain ⟨added, hget, hadds⟩ := hlaid t ht
      exact ⟨added, hget, completed_of_adds (hstore.distinctRows_rowsOf t.name) hadds⟩
    · -- What has been laid out lacks nothing.
      rw [initializeStorage, hitems]
      refine initializeTables_of_complete fun t ht => ?_
      obtain ⟨added, hget, hadds⟩ := hlaid t ht
      exact initializeTable_of_complete hascending (henum t ht) hget hadds.complete
  · intro hitems
    have hiff : (∃ after, initializeTables m.sets m.tables (storeItems m.sets store) =
        (.ok (), after)) ↔ _ := exists_initializeTables_iff hnames henum hitems
    rw [htables] at hiff
    rw [← hiff, initializeStorage]
    constructor
    · exact fun hok => ⟨_, Prod.ext hok rfl⟩
    · rintro ⟨after, hafter⟩
      rw [hafter]

end Model

namespace Catalog.Fleet

/-- A catch of cod that was landed in vigo, one that was landed in a port that no dimension has, and
the weather, which no model declares. -/
def logbook : Store Rat :=
  ⟨⟨[("catch", ⟨["port", "good"], [⟨["oslo", "cod"], some 7⟩, ⟨["vigo", "cod"], some 2⟩]⟩),
      ("weather", ⟨["day"], [⟨["monday"], some 1⟩]⟩)]⟩, .empty⟩

/-- The catch that is missing has been added after the others. -/
def completedLogbook : Store Rat :=
  ⟨⟨[("catch", ⟨["port", "good"],
        [⟨["oslo", "cod"], some 7⟩, ⟨["vigo", "cod"], some 2⟩, ⟨["cork", "cod"], none⟩]⟩),
      ("weather", ⟨["day"], [⟨["monday"], some 1⟩]⟩)]⟩,
    ⟨[("_set_good", ["cod"]), ("place", ["swift"])]⟩⟩

theorem initializeStorage_completes_logbook :
    model.initializeStorage logbook = (.ok (), completedLogbook) ∧
      completedLogbook.tables.get? "weather" = logbook.tables.get? "weather" ∧
      model.initializeStorage completedLogbook = (.ok (), completedLogbook) ∧
      ((model.initializeStorage logbook).1 = .ok () ↔ ∀ t ∈ tables, ∀ s,
        logbook.tables.get? t.name = some s → s.coordinates = t.coordinates) := by
  have hlaid : model.initializeStorage logbook = (.ok (), completedLogbook) := by cbv
  have hstore : logbook.WellFormed := by
    refine ⟨by decide, fun name t ht => ?_⟩
    have hmem := SortedMap.mem_entries_of_get? ht
    simp only [logbook, List.mem_cons, List.not_mem_nil, or_false, Prod.mk.injEq] at hmem
    rcases hmem with ⟨-, rfl⟩ | ⟨-, rfl⟩ <;> simp [DistinctRows]
  obtain ⟨hafter, hok⟩ :=
    Model.initializeStorage_completes ofParts_model hstore SortedMap.ascending_empty
  obtain ⟨-, hothers, hagain⟩ := hafter completedLogbook hlaid
  exact ⟨hlaid, hothers "weather" (by decide), hagain, hok (by decide)⟩

end Catalog.Fleet

end CoupledModels
