import CoupledModels.Configuration.Declarations
import CoupledModels.Proofs.Model.Layout
import CoupledModels.Proofs.Model.Operations

/-!
# Reloading dimensions from the storage layout

The layout keeps the items of a dimension under its table name, and a reload reads them back through
this name.  Nothing but the names of dimensions has to be distinct: of several dimensions with one
table name the layout keeps the items of the last one, and each of them is reloaded with these.

So a reload brings back the registry that has been laid out if and only if the dimensions that share
the table name have the same items.  In that case it leaves the model that is made anew.
-/

namespace CoupledModels

variable {K : Type}

namespace Registry

variable {sets : Registry} {dim : Dimension} {name : String} {items : List String}

/-- The last dimension with a table name; it is the one whose items the layout keeps. -/
def stored? (sets : Registry) (name : String) : Option Dimension :=
  sets.dims.reverse.find? fun dim => dim.tableName == name

theorem stored?_eq_some (h : sets.stored? name = some dim) : dim ∈ sets.dims ∧ dim.tableName = name :=
  ⟨List.mem_reverse.mp (List.mem_of_find?_eq_some h), by simpa using List.find?_some h⟩

/-- Under the table name of each dimension the items of some dimension are kept. -/
theorem exists_stored? (h : dim ∈ sets.dims) : ∃ last, sets.stored? dim.tableName = some last := by
  refine Option.isSome_iff_exists.mp (List.find?_isSome.mpr ⟨dim, List.mem_reverse.mpr h, ?_⟩)
  exact beq_self_eq_true _

/-- New items leave the registry as it is if and only if they are the ones that there were. -/
theorem setItems_eq_ok_self (h : dim ∈ sets.dims) :
    sets.setItems dim.id items = .ok sets ↔ items = dim.items := by
  have hcontains : sets.contains dim.id = true := by
    rw [contains, find?_of_mem h]
    rfl
  have hself : sets.setItems dim.id items = .ok sets ↔
      ∀ other ∈ sets.dims, withItems dim.id items other = other := by
    obtain ⟨dims, hnodup⟩ := sets
    rw [setItems, if_pos hcontains, Except.ok.injEq, mk.injEq]
    exact ⟨fun heq => List.map_inj_left.mp (heq.trans (List.map_id dims).symm),
      fun hall => (List.map_inj_left.mpr hall).trans (List.map_id dims)⟩
  refine hself.trans ⟨fun hall => ?_, ?_⟩
  · have hdim := congrArg Dimension.items (hall dim h)
    simpa [withItems] using hdim
  · rintro rfl other hother
    unfold withItems
    split
    · rename_i hid
      rw [List.inj_on_of_nodup_map sets.ids_nodup hother h (eq_of_beq hid)]
    · rfl

end Registry

/-! ## The items that the layout keeps -/

theorem Store.dimensions_createTable {store created : Store K} {name : String}
    {coordinates : List String} (h : store.createTable name coordinates = .ok created) :
    created.dimensions = store.dimensions := by
  unfold createTable at h
  split at h
  · split at h
    · cases h
      rfl
    · cases h
  · cases h
    rfl

namespace Model

/-- Tables are laid out beside the items of dimensions. -/
theorem dimensions_initializeTables (sets : Registry) (ts : List TableDeclaration)
    (store : Store K) : (initializeTables sets ts store).2.dimensions = store.dimensions := by
  have hrows : ∀ (t : TableDeclaration) (s : Store K),
      (addMissingRows sets t s).2.dimensions = s.dimensions := by
    intro t s
    unfold addMissingRows
    split
    · exact Store.dimensions_putRows
    · rfl
  have htable : ∀ (t : TableDeclaration) (s : Store K),
      (initializeTable sets t s).2.dimensions = s.dimensions := by
    intro t s
    unfold initializeTable
    split
    · rename_i created hcreate
      rw [← Store.dimensions_createTable hcreate]
      split
      · exact hrows t created
      · rfl
    · rfl
  induction ts generalizing store with
  | nil => rfl
  | cons t ts ih =>
      have hstep := htable t store
      unfold initializeTables
      split
      · rename_i hinit
        rw [hinit] at hstep
        exact (ih _).trans hstep
      · rename_i hinit
        rw [hinit] at hstep
        exact hstep

/-- Of several dimensions with one table name the last one is stored. -/
theorem get?_dimensions_storeItems (sets : Registry) (store : Store K) (name : String) :
    (storeItems sets store).dimensions.get? name =
      ((sets.stored? name).map Dimension.items).or (store.dimensions.get? name) := by
  unfold storeItems Registry.stored?
  induction sets.dims using List.reverseRecOn with
  | nil => rfl
  | append_singleton dims dim ih =>
      simp only [List.foldl_append, List.foldl_cons, List.foldl_nil, Store.putItems,
        SortedMap.get?_insert, List.reverse_append, List.reverse_singleton, List.singleton_append,
        List.find?_cons, BEq.comm (a := name)]
      cases dim.tableName == name with
      | true => rfl
      | false => exact ih

/-- What a layout answers for the table name of a dimension. -/
theorem items_initializeStorage (m : Model K) (store : Store K) {name : String} {last : Dimension}
    (h : m.sets.stored? name = some last) :
    (m.initializeStorage store).2.items name = .ok last.items := by
  rw [initializeStorage, Store.items, dimensions_initializeTables, get?_dimensions_storeItems, h]
  rfl

/-! ## Reloading -/

variable [Scalar K] {m m₀ : Model K} {dim last : Dimension}

/-- A reload makes the model anew, with the items of the store. -/
theorem reloadDimension_eq (hdim : dim ∈ m.sets.dims) {store : Store K} {items : List String}
    (hitems : store.items dim.tableName = .ok items) : m.reloadDimension store dim.id =
      m.replaced (m.sets.setItems dim.id items >>= fun sets => ofParts sets m.tables m.texts) := by
  rw [reloadDimension_eq_replaced, Registry.get_of_mem hdim]
  change m.replaced (store.items dim.tableName >>= fun items => _) = _
  rw [hitems]
  rfl

/-- What is made anew has the registry that it is made of. -/
theorem sets_of_ofParts {sets : Registry} {tables : List TableDeclaration}
    {texts : SortedMap String ModelText} (h : ofParts sets tables texts = .ok m) :
    m.sets = sets := by
  obtain ⟨c, -, heq⟩ := exists_of_bind_eq_ok h
  cases heq
  rfl

/-- With items that another dimension has stored the model is the one that is made anew if and only
if these are the dimension's own. -/
theorem reloadDimension_eq_fresh_iff {fresh : Model K}
    (hfresh : ofParts m.sets m.tables m.texts = .ok fresh) (hdim : dim ∈ m.sets.dims)
    {store : Store K} {items : List String} (hitems : store.items dim.tableName = .ok items) :
    m.reloadDimension store dim.id = (.ok (), fresh) ↔ items = dim.items := by
  rw [reloadDimension_eq hdim hitems, replaced_eq_ok, ← Registry.setItems_eq_ok_self hdim]
  constructor
  · intro hreload
    obtain ⟨sets, hsets, hparts⟩ := exists_of_bind_eq_ok hreload
    rw [hsets, ← sets_of_ofParts hparts, sets_of_ofParts hfresh]
  · intro hsets
    rw [hsets]
    exact hfresh

variable [Transcendental K]

/-- After any operations on a model, let its storage layout be laid out.  Then every dimension is
reloaded with the items of the last dimension that has its table name, and the model is made anew
with these.  Where they are the dimension's own, this is the model that is made of the same registry,
tables and texts: the catalog of the model without any values.  So every reload brings the registry
and the catalog back if and only if dimensions with one table name have the same items. -/
theorem reload_of_initializeStorage {sets : Registry} {tables : List TableDeclaration}
    {texts : SortedMap String ModelText} (hm₀ : ofParts sets tables texts = .ok m₀)
    {ops : List (Operation K)} (hm : m₀.performAll ops = m) {store laidOut : Store K}
    (hlayout : m.initializeStorage store = (.ok (), laidOut)) :
    ∃ fresh, ofParts m.sets m.tables m.texts = .ok fresh ∧
      (fresh.catalog.Later m.catalog ∧ fresh.catalog.Unfilled ∧
        ∀ column, 0 < column → fresh.catalog.value? column = none) ∧
      (∀ dim ∈ m.sets.dims, ∃ last, m.sets.stored? dim.tableName = some last ∧
        m.reloadDimension laidOut dim.id =
          m.replaced (m.sets.setItems dim.id last.items >>= fun sets =>
            ofParts sets m.tables m.texts) ∧
        (m.reloadDimension laidOut dim.id = (.ok (), fresh) ↔ last.items = dim.items)) ∧
      ((∀ dim ∈ m.sets.dims, m.reloadDimension laidOut dim.id = (.ok (), fresh)) ↔
        ∀ dim ∈ m.sets.dims, ∀ other ∈ m.sets.dims, dim.tableName = other.tableName →
          dim.items = other.items) := by
  have hcoherent : m.Coherent := hm ▸ (Coherent.of_ofParts hm₀).performAll ops
  obtain ⟨c, hbuild, hlater⟩ := hcoherent.built
  have hfresh : ofParts m.sets m.tables m.texts = .ok ⟨m.sets, m.tables, m.texts, c, .empty⟩ := by
    rw [ofParts, hbuild]
    rfl
  have hitems : ∀ {name last}, m.sets.stored? name = some last →
      laidOut.items name = .ok last.items := fun hlast => by
    rw [← items_initializeStorage m store hlast, hlayout]
  have hreload : ∀ dim ∈ m.sets.dims, ∀ last, m.sets.stored? dim.tableName = some last →
      (m.reloadDimension laidOut dim.id = (.ok (), ⟨m.sets, m.tables, m.texts, c, .empty⟩) ↔
        last.items = dim.items) :=
    fun dim hdim last hlast => reloadDimension_eq_fresh_iff hfresh hdim (hitems hlast)
  refine ⟨_, hfresh, ⟨hlater, (Catalog.built_of_build hbuild).unfilled,
    (Catalog.fresh_of_build hbuild).unsolved⟩, fun dim hdim => ?_,
    fun hall dim hdim other hother htable => ?_, fun hsame dim hdim => ?_⟩
  · obtain ⟨last, hlast⟩ := Registry.exists_stored? hdim
    exact ⟨last, hlast, reloadDimension_eq hdim (hitems hlast), hreload dim hdim last hlast⟩
  · obtain ⟨last, hlast⟩ := Registry.exists_stored? hdim
    rw [← (hreload dim hdim last hlast).mp (hall dim hdim),
      (hreload other hother last (htable ▸ hlast)).mp (hall other hother)]
  · obtain ⟨last, hlast⟩ := Registry.exists_stored? hdim
    obtain ⟨hmem, htable⟩ := Registry.stored?_eq_some hlast
    exact (hreload dim hdim last hlast).mpr (hsame last hmem dim hdim htable)

end Model

/-! ## Ports and ships -/

namespace Catalog.Fleet

open Purchases

/-- Ports and ships that are stored as places, and goods that are stored under a name of their own. -/
def configuration : Configuration where
  sets :=
    [⟨"port", some "place", false, ["cork", "vigo"], .empty, .empty, .empty, none⟩,
      ⟨"ship", some "place", false, ["swift"], .empty, .empty, .empty, none⟩,
      ⟨"good", none, false, ["cod"], .empty, .empty, .empty, none⟩]
  tables :=
    [⟨"catch", .fixed .endogenous, ["port", "good"], false,
      [⟨"x", some (.name "port"), some (.name "good"), none, .empty⟩]⟩]
  problem := none
  problems := .empty

def sets : Registry :=
  ⟨[{ Dimension.ofItems "port" ["cork", "vigo"] with tableName := "place" },
    { Dimension.ofItems "ship" ["swift"] with tableName := "place" }, .ofItems "good" ["cod"]],
    by decide⟩

def tables : List TableDeclaration :=
  [⟨"catch", .fixed .endogenous, ["port", "good"], false,
    [⟨"x", .dim "port", .dim "good", none, .empty⟩]⟩]

def texts : SortedMap String ModelText :=
  ⟨[("default", .empty)]⟩

/-- The catalog of two ports. -/
def catalog : Catalog Rat where
  members :=
    [⟨"x", "catch", .fixed .endogenous, false, none, ⟨some "port", some "good", none, []⟩,
      ⟨[("good", ["cod"]), ("port", ["cork", "vigo"])]⟩, ⟨2, 1⟩, none⟩]
  tableCoordinates := [("catch", ["port", "good"])]
  bindings :=
    #[⟨0, "x", none, [], none, ⟨[("good", ["cod"]), ("port", ["cork", "vigo"])]⟩, ⟨2, 1⟩,
      .slice 0 [1, 2]⟩]
  blocks := #[⟨"catch", ⟨[]⟩, [["cork", "cod"], ["vigo", "cod"]], 1, false⟩]
  parameters := #[]
  constants := #[]
  values := #[some 1, none, none]
  integer := .replicate 3 false

def model : Model Rat :=
  ⟨sets, tables, texts, catalog, .empty⟩

theorem ofParts_model : Model.ofParts sets tables texts = .ok model := by
  have hbuild : build tables sets = .ok catalog := by decide +kernel
  rw [Model.ofParts, hbuild]
  rfl

/-- The storage layout; the ship has been written over the ports. -/
def laidOut : Store Rat :=
  ⟨⟨[("catch", ⟨["port", "good"], [⟨["cork", "cod"], none⟩, ⟨["vigo", "cod"], none⟩]⟩)]⟩,
    ⟨[("_set_good", ["cod"]), ("place", ["swift"])]⟩⟩

theorem initializeStorage_model : model.initializeStorage .empty = (.ok (), laidOut) := by
  cbv

/-- The ship and the goods are reloaded as they were, the ports as what the ship is. -/
theorem reload_of_initializeStorage_fleet :
    model.reloadDimension laidOut "ship" = (.ok (), model) ∧
    model.reloadDimension laidOut "good" = (.ok (), model) ∧
    model.reloadDimension laidOut "port" =
      model.replaced
        (sets.setItems "port" ["swift"] >>= fun sets => Model.ofParts sets tables texts) ∧
    model.reloadDimension laidOut "port" ≠ (.ok (), model) := by
  have hunchanged : model.performAll [] = model := rfl
  obtain ⟨fresh, hfresh, -, hreload, -⟩ :=
    Model.reload_of_initializeStorage ofParts_model hunchanged initializeStorage_model
  obtain rfl : model = fresh := Except.ok.inj (ofParts_model.symm.trans hfresh)
  obtain ⟨port, hport, hremade, hports⟩ := hreload _ List.mem_cons_self
  obtain ⟨ship, hship, -, hships⟩ := hreload _ (List.mem_cons_of_mem _ List.mem_cons_self)
  obtain ⟨good, hgood, -, hgoods⟩ :=
    hreload _ (List.mem_cons_of_mem _ (List.mem_cons_of_mem _ List.mem_cons_self))
  obtain rfl := Option.some.inj hport
  obtain rfl := Option.some.inj hship
  obtain rfl := Option.some.inj hgood
  exact ⟨hships.mpr rfl, hgoods.mpr rfl, hremade, fun h => absurd (hports.mp h) (by decide)⟩

/-- A reload of the ports takes the items of the ships, and a port is lost. -/
theorem reload_takes_other_items :
    Configuration.registry configuration = .ok sets ∧
    Configuration.declaredTables configuration sets = .ok tables ∧
    Configuration.modelTexts configuration = .ok texts ∧
    Model.ofParts sets tables texts = .ok model ∧
    model.initializeStorage .empty = (.ok (), laidOut) ∧
    ∃ m, model.reloadDimension laidOut "port" = (.ok (), m) ∧
      m.sets.dims.map Dimension.items = [["swift"], ["swift"], ["cod"]] ∧ m.sets ≠ model.sets ∧
      m.catalog.columnCount = 1 ∧ model.catalog.columnCount = 2 := by
  have hok : (model.reloadDimension laidOut "port").1 = .ok () := by decide +kernel
  have hitems : (model.reloadDimension laidOut "port").2.sets.dims.map Dimension.items =
      [["swift"], ["swift"], ["cod"]] := by decide +kernel
  have hcount : (model.reloadDimension laidOut "port").2.catalog.columnCount = 1 := by
    decide +kernel
  refine ⟨rfl, rfl, rfl, ofParts_model, initializeStorage_model, _, Prod.ext hok rfl, hitems,
    fun hsets => ?_, hcount, rfl⟩
  rw [hsets] at hitems
  revert hitems
  decide

end Catalog.Fleet

end CoupledModels
