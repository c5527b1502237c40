import CoupledModels.Proofs.Catalog.Columns
import CoupledModels.Proofs.Model.Coupling
import CoupledModels.Proofs.Problem.Trees
import CoupledModels.Proofs.Sets.Keys
import Mathlib

/-!
# Columns of sub-problems

Sub-problems own their columns.  Nobody checks this when a sub-problem is solved: it follows from the
sites at which bindings are made, from the bindings that are selected for a sub-problem, and from the
block that a slice is taken from.  Sub-problems that differ in the item of a splitting coordinate of a
table therefore have no column of the table in common.
-/

namespace CoupledModels

namespace Catalog

variable {K : Type} {tables : List TableDeclaration} {sets : Registry} {c d : Catalog K}
  {key : ProblemKey} {column : Nat}

/-- A column is one of the decision columns of a table. -/
def IsColumnOf (c : Catalog K) (name : String) (column : Nat) : Prop :=
  ∃ block ∈ c.blocks, block.table = name ∧ column ∈ block.columns

/-- A block belongs to a sub-problem: its key names the splitting coordinates of its table, with the
items that the sub-problem has there, and the sub-problem decides the table. -/
structure BlockFor (tables : List TableDeclaration) (sets : Registry) (key : ProblemKey)
    (block : Block) (t : TableDeclaration) : Prop where
  table : t ∈ tables
  name : t.name = block.table
  kind : t.kind.kindFor key = .ok .endogenous
  dims : block.key.coords.map Prod.fst = t.splitDims sets
  agrees : ∀ c ∈ block.key.coords, key.item? c.1 = some c.2

/-- A column of a sub-problem: it stands in a block that belongs to the sub-problem. -/
def Owned (tables : List TableDeclaration) (sets : Registry) (c : Catalog K) (key : ProblemKey)
    (column : Nat) : Prop :=
  ∃ block ∈ c.blocks, column ∈ block.columns ∧ ∃ t, BlockFor tables sets key block t

variable [Scalar K]

/-- A binding that is selected for a sub-problem has columns of the sub-problem only. -/
theorem Consistent.owned_of_slice (hc : c.Consistent tables sets)
    (hplaced : ∀ v ∈ c.members, c.Placed sets.problemKeys v) (hkey : key ∈ sets.problemKeys)
    {b : Binding} (hb : b ∈ c.bindings) (happlies : b.appliesTo key = true) {i : Nat}
    {columns : List Nat} (hvalue : b.value = .slice i columns) :
    ∀ column ∈ columns, c.Owned tables sets key column := by
  intro column hcolumn
  obtain ⟨v, hv, hbinds⟩ := hc.bound b hb
  obtain ⟨t, ht, declaration, -, hresolves⟩ := hc.declares.members v hv
  obtain ⟨-, -, hinter⟩ := hbinds.site fun i => by simp [hvalue]
  -- the binding is one of the variable's, so its table is decided in the sub-problem
  have hown : b ∈ c.bindingsOf v.symbol :=
    List.mem_filter.mpr ⟨Array.mem_toList_iff.mpr hb, beq_iff_eq.mpr hbinds.symbol⟩
  have hkind : t.kind.kindFor key = .ok .endogenous := by
    rw [← hresolves.kind]
    exact (hplaced v hv).kindFor hown happlies (by simp [Binding.isDecision, hvalue])
  obtain ⟨block, hblock, htable, hblockKey, hcolumns⟩ := hbinds.exists_block hvalue
  have hsplitting : ∀ c ∈ b.inter, sets.isSplitting c.1 = true := by
    intro c hcoord
    have hrole : c.1 ∈ v.roles.inter := by
      rw [← map_fst_of_mem_interItems hinter]
      exact List.mem_map_of_mem hcoord
    exact (hresolves.of_inter hrole).2.2
  refine ⟨block, hblock, hcolumns column hcolumn, t, ht, by rw [htable, hresolves.table], hkind,
    ?_, ?_⟩
  · rw [hblockKey, map_fst_of_mem_interItems hinter]
    exact hresolves.inter_eq_splitDims (KindRule.has_of_kindFor hkind)
  · rw [hblockKey]
    exact (ProblemKey.agreesWith_iff hkey hsplitting).mp (Bool.and_eq_true_iff.mp happlies).2

/-! ## Blocks that belong to different sub-problems -/

omit [Scalar K] in
/-- A column of a sub-problem is one of a table that the sub-problem decides, and of no other. -/
theorem Owned.kindFor (h : c.Owned tables sets key column) (hnumbered : c.Numbered)
    (hnames : (tables.map TableDeclaration.name).Nodup) {t : TableDeclaration} (ht : t ∈ tables)
    (hcolumn : c.IsColumnOf t.name column) : t.kind.kindFor key = .ok .endogenous := by
  obtain ⟨block, hblock, hmem, t', hfor⟩ := h
  obtain ⟨block', hblock', hname, hmem'⟩ := hcolumn
  obtain rfl : block = block' := hnumbered.block_unique hblock hblock' hmem hmem'
  obtain rfl : t' = t := List.inj_on_of_nodup_map hnames hfor.table ht (hfor.name.trans hname)
  exact hfor.kind

omit [Scalar K] in
/-- Sub-problems with a column in common have the same item of every splitting coordinate of its
table. -/
theorem Owned.item?_eq {key' : ProblemKey} (h : c.Owned tables sets key column)
    (h' : c.Owned tables sets key' column) (hnumbered : c.Numbered)
    (hnames : (tables.map TableDeclaration.name).Nodup) {t : TableDeclaration} (ht : t ∈ tables)
    (hcolumn : c.IsColumnOf t.name column) {dim : String} (hdim : dim ∈ t.splitDims sets) :
    key.item? dim = key'.item? dim := by
  obtain ⟨block, hblock, hmem, t₁, hfor⟩ := h
  obtain ⟨block₂, hblock₂, hmem₂, t₂, hfor'⟩ := h'
  obtain ⟨block₃, hblock₃, hname, hmem₃⟩ := hcolumn
  obtain rfl : block = block₂ := hnumbered.block_unique hblock hblock₂ hmem hmem₂
  obtain rfl : block = block₃ := hnumbered.block_unique hblock hblock₃ hmem hmem₃
  obtain rfl : t₁ = t := List.inj_on_of_nodup_map hnames hfor.table ht (hfor.name.trans hname)
  rw [← hfor.dims] at hdim
  obtain ⟨coord, hcoord, rfl⟩ := List.mem_map.mp hdim
  rw [hfor.agrees coord hcoord, hfor'.agrees coord hcoord]

end Catalog

/-! ## Linear problems -/

section LinearProblems

variable {K : Type} [Scalar K] [Transcendental K] {tables : List TableDeclaration}
  {sets : Registry} {texts : SortedMap String ModelText} {b c d : Catalog K} {m : Model K}
  {ps : ProblemSet K}

/-- Every column of a linear problem belongs to the sub-problem that has been lowered. -/
theorem SubProblem.owned_of_lower (hbuild : Catalog.build tables sets = .ok b)
    (hcompiled : b.Later c) (hps : SubProblems.buildAll c sets texts = .ok ps) (hlater : c.Later d)
    {p : SubProblem K} (hp : p ∈ ps.all) {l : LinearProblem K} (hl : p.lower d = .ok l) :
    ∀ column ∈ l.columns, d.Owned tables sets p.key column := by
  have hd : d.Consistent tables sets := Catalog.consistent_of_build hbuild (hcompiled.trans hlater)
  have hplaced := Catalog.placed_of_build hbuild (hcompiled.trans hlater)
  have hc := (Catalog.consistent_of_build hbuild hcompiled).addressed
  have hbindings : d.bindings = c.bindings := (hlater.refills hc).1.bindings
  obtain ⟨hkey, htrees⟩ := SubProblems.compiledFor_of_buildAll hps p hp
  refine SubProblem.forall_columns_of_lower (fun e he => ?_) hl
  refine Typed.outcome_lower_names e fun id hid b hb i columns hvalue => ?_
  -- the binding is one that the compiler has selected for the key
  obtain ⟨text, instances, hcompile, instance₁, hinstance, hform⟩ := htrees e he
  obtain ⟨b', hb', happlies⟩ := Formula.names_of_compile hc hcompile hinstance hform hid
  obtain rfl : b' = b := by
    rw [hbindings] at hb
    exact Option.some.inj (hb'.symm.trans hb)
  exact hd.owned_of_slice hplaced hkey (Array.mem_of_getElem? hb) happlies hvalue

namespace Model

/-- Sub-problems own their columns.  Every column of a linear problem stands in a block whose key has
the items of the sub-problem, and whose table the sub-problem decides.  So sub-problems that differ
in the item of a splitting coordinate of a table share no column of the table, and a table that is
data for a sub-problem has no column in its linear problem. -/
theorem columns_owned (hm : ofParts sets tables texts = .ok m) (hcompiled : m.catalog.Later c)
    (hps : SubProblems.buildAll c sets texts = .ok ps) :
    ∀ p ∈ ps.all, p.key ∈ sets.problemKeys ∧ ∀ (d : Catalog K) (l : LinearProblem K),
      c.Later d → p.lower d = .ok l →
        (∀ column ∈ l.columns, ∃ block ∈ m.catalog.blocks, column ∈ block.columns ∧
          (∀ coord ∈ block.key.coords, p.key.item? coord.1 = some coord.2) ∧
          ∃ t ∈ tables, t.name = block.table ∧ t.kind.kindFor p.key = .ok .endogenous) ∧
        (∀ q ∈ ps.all, ∀ (d' : Catalog K) (l' : LinearProblem K),
          c.Later d' → q.lower d' = .ok l' →
            ∀ t ∈ tables, ∀ dim ∈ t.coordinates, sets.isSplitting dim = true →
              p.key.item? dim ≠ q.key.item? dim →
                ∀ column, m.catalog.IsColumnOf t.name column →
                  ¬(column ∈ l.columns ∧ column ∈ l'.columns)) ∧
        (∀ t ∈ tables, t.kind.kindFor p.key = .ok .exogenous →
          ∀ column ∈ l.columns, ¬ m.catalog.IsColumnOf t.name column) := by
  obtain ⟨hbuild, rfl, rfl⟩ := ofParts_ok hm
  have hb := Catalog.built_of_build hbuild
  have hnumbered := Catalog.numbered_of_build hbuild .refl
  -- the blocks stay what they were after the build
  have howned : ∀ p ∈ ps.all, ∀ (d : Catalog K) (l : LinearProblem K), c.Later d →
      p.lower d = .ok l →
        ∀ column ∈ l.columns, m.catalog.Owned m.tables m.sets p.key column := by
    intro p hp d l hlater hl column hcolumn
    have hblocks := ((hcompiled.trans hlater).refills hb.addressed).1.blocks
    have h := SubProblem.owned_of_lower hbuild hcompiled hps hlater hp hl column hcolumn
    rwa [Catalog.Owned, hblocks] at h
  intro p hp
  refine ⟨(SubProblems.compiledFor_of_buildAll hps p hp).1, fun d l hlater hl => ⟨?_, ?_, ?_⟩⟩
  · intro column hcolumn
    obtain ⟨block, hblock, hmem, t, hfor⟩ := howned p hp d l hlater hl column hcolumn
    exact ⟨block, hblock, hmem, hfor.agrees, t, hfor.table, hfor.name, hfor.kind⟩
  · rintro q hq d' l' hlater' hl' t ht dim hdim hsplits hne column hcolumn ⟨hp', hq'⟩
    refine hne ((howned p hp d l hlater hl column hp').item?_eq
      (howned q hq d' l' hlater' hl' column hq') hnumbered hb.names ht hcolumn ?_)
    exact List.mem_filter.mpr ⟨hdim, hsplits⟩
  · intro t ht hexogenous column hcolumn hof
    have hendogenous := (howned p hp d l hlater hl column hcolumn).kindFor hnumbered hb.names ht hof
    rw [hexogenous] at hendogenous
    cases hendogenous

end Model

end LinearProblems

/-! ## Stocks of two regions -/

namespace Catalog.Stocks

open Purchases

/-- Two regions, which divide the model, and two goods. -/
def sets : Registry :=
  ⟨[{ Dimension.ofItems "region" ["north", "south"] with splits := true },
    .ofItems "good" ["a", "b"]], by decide⟩

def northKey : ProblemKey :=
  ⟨[("region", "north")]⟩

def southKey : ProblemKey :=
  ⟨[("region", "south")]⟩

/-- Each region decides its stock.  The north decides what is traded, too. -/
def tables : List TableDeclaration :=
  [⟨"stock", .fixed .endogenous, ["region", "good"], false,
      [⟨"x", .dim "good", .one, none, .empty⟩]⟩,
    ⟨"trade", .perProblem ⟨[(northKey, .endogenous), (southKey, .exogenous)]⟩, ["good"], false,
      [⟨"y", .dim "good", .one, none, .empty⟩]⟩]

/-- Small stocks that cover what is traded. -/
def texts : SortedMap String ModelText :=
  ⟨[("plan", ⟨["Minimize(sum(x))"], ["x >= y"]⟩)]⟩

def stock : Variable :=
  ⟨"x", "stock", .fixed .endogenous, false, none, ⟨some "good", none, none, ["region"]⟩,
    ⟨[("good", ["a", "b"]), ("region", ["north", "south"])]⟩, ⟨2, 1⟩, none⟩

def trade : Variable :=
  ⟨"y", "trade", .perProblem ⟨[(northKey, .endogenous), (southKey, .exogenous)]⟩, false, none,
    ⟨some "good", none, none, []⟩, ⟨[("good", ["a", "b"])]⟩, ⟨2, 1⟩, none⟩

/-- The goods of one region. -/
def filterOf (region : String) : RowFilter :=
  ⟨[("good", ["a", "b"]), ("region", [region])]⟩

/-- What is built of the tables. -/
def catalog : Catalog Rat where
  members := [stock, trade]
  tableCoordinates := [("stock", ["region", "good"]), ("trade", ["good"])]
  bindings :=
    #[⟨0, "x", none, northKey.coords, none, filterOf "north", ⟨2, 1⟩, .slice 0 [1, 2]⟩,
      ⟨1, "x", none, southKey.coords, none, filterOf "south", ⟨2, 1⟩, .slice 1 [3, 4]⟩,
      ⟨2, "y", some northKey, [], none, trade.items, ⟨2, 1⟩, .slice 2 [5, 6]⟩,
      ⟨3, "y", some southKey, [], none, trade.items, ⟨2, 1⟩, .parameter 0⟩]
  blocks :=
    #[⟨"stock", northKey, [["north", "a"], ["north", "b"]], 1, false⟩,
      ⟨"stock", southKey, [["south", "a"], ["south", "b"]], 3, false⟩,
      ⟨"trade", ⟨[]⟩, [["a"], ["b"]], 5, false⟩]
  parameters := #[⟨3, "trade", ⟨2, 1⟩, none⟩]
  constants := #[]
  values := #[some 1, none, none, none, none, none, none]
  integer := .replicate 7 false

def model : Model Rat :=
  ⟨sets, tables, texts, catalog, .empty⟩

theorem ofParts_model : Model.ofParts sets tables texts = .ok model := by
  have hbuild : build tables sets = .ok catalog := by decide +kernel
  rw [Model.ofParts, hbuild]
  rfl

/-- The sub-problem of a region, with the bindings of its stock and of what is traded. -/
def plan (key : ProblemKey) (x y : Nat) (decided : Bool) : SubProblem Rat :=
  ⟨key, "plan", .minimize, [.sum ⟨.scalar, true⟩ (.binding ⟨⟨2, 1⟩, true⟩ x) none],
    [⟨"x >= y", none, .binding ⟨⟨2, 1⟩, true⟩ x, .ge, .binding ⟨⟨2, 1⟩, decided⟩ y⟩], .unsolved⟩

def north : SubProblem Rat :=
  plan northKey 0 2 true

def south : SubProblem Rat :=
  plan southKey 1 3 false

def problems : ProblemSet Rat :=
  ⟨[("plan", ⟨[(northKey, north), (southKey, south)]⟩)]⟩

theorem buildAll_texts : SubProblems.buildAll catalog sets texts = .ok problems := by
  decide +kernel

/-- The catalog once the south knows what is traded. -/
def informed : Catalog Rat :=
  { catalog with parameters := #[⟨3, "trade", ⟨2, 1⟩, some (Tensor.dense ⟨2, 1⟩ [1, 2])⟩] }

theorem later_informed : catalog.Later informed :=
  .setParameter 0 (Tensor.dense ⟨2, 1⟩ [1, 2]) .refl rfl (by decide +kernel)

theorem lower_north : ∃ l, north.lower informed = .ok l ∧ l.columns = [1, 2, 5, 6] := by
  have hl : (north.lower informed).map (·.columns) = .ok [1, 2, 5, 6] := by cbv
  exact exists_of_map_eq_ok hl

theorem lower_south : ∃ l, south.lower informed = .ok l ∧ l.columns = [3, 4] := by
  have hl : (south.lower informed).map (·.columns) = .ok [3, 4] := by cbv
  exact exists_of_map_eq_ok hl

theorem columns_owned_stocks : ∃ l l', north.lower informed = .ok l ∧ south.lower informed = .ok l' ∧
    l.columns = [1, 2, 5, 6] ∧ l'.columns = [3, 4] ∧
    (∀ column ∈ l.columns, ∃ block ∈ catalog.blocks, column ∈ block.columns ∧
      ∀ coord ∈ block.key.coords, northKey.item? coord.1 = some coord.2) ∧
    (∀ column, catalog.IsColumnOf "stock" column → ¬(column ∈ l.columns ∧ column ∈ l'.columns)) ∧
    ∀ column ∈ l'.columns, ¬ catalog.IsColumnOf "trade" column := by
  obtain ⟨l, hnorth, hcolumns⟩ := lower_north
  obtain ⟨l', hsouth, hcolumns'⟩ := lower_south
  have hall : north ∈ problems.all ∧ south ∈ problems.all := by
    simp [problems, ProblemSet.all, SortedMap.values]
  have hregion : sets.isSplitting "region" = true := by decide
  obtain ⟨-, hownsNorth⟩ :=
    Model.columns_owned ofParts_model .refl buildAll_texts north hall.1
  obtain ⟨-, hownsSouth⟩ :=
    Model.columns_owned ofParts_model .refl buildAll_texts south hall.2
  obtain ⟨hblocks, hdisjoint, -⟩ := hownsNorth informed l later_informed hnorth
  obtain ⟨-, -, hdata⟩ := hownsSouth informed l' later_informed hsouth
  refine ⟨l, l', hnorth, hsouth, hcolumns, hcolumns', fun column hcolumn => ?_, ?_, ?_⟩
  · obtain ⟨block, hblock, hmem, hagrees, -⟩ := hblocks column hcolumn
    exact ⟨block, hblock, hmem, hagrees⟩
  · exact hdisjoint south hall.2 informed l' later_informed hsouth _ List.mem_cons_self "region"
      List.mem_cons_self hregion (by decide)
  · exact hdata _ (List.mem_cons_of_mem _ List.mem_cons_self) rfl

end Catalog.Stocks

end CoupledModels
