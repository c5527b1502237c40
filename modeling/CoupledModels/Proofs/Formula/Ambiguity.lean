import CoupledModels.Proofs.Catalog.Selection
import CoupledModels.Proofs.Formula.Faults

/-!
# Unambiguous names

A name in a formula stands for one binding in each sub-problem.  Nobody checks this once a catalog
has been built: it follows from the sites at which bindings are made, if the items of each dimension
are distinct.  That they are is not checked either, and a dimension that repeats an item makes names
ambiguous that have nothing wrong with them.
-/

namespace CoupledModels.Catalog

section

variable {K : Type} [Scalar K] [Transcendental K] {tables : List TableDeclaration}
  {sets : Registry} {c d : Catalog K}

/-- Every non-constant variable has as many candidates for a sub-problem and one of its intra items
as these are listed.  If no dimension repeats an item, no two bindings of a variable have the same
address, there is one candidate, or none if the variable lacks the item of the sub-problem in some
inter dimension, and no name of a formula is ambiguous. -/
theorem candidates_unique (hbuild : build tables sets = .ok c) (hlater : c.Later d) :
    (∀ v ∈ d.members, v.isConstant = false → ∀ key ∈ sets.problemKeys,
      ∀ intra ∈ sideItems v.intraItems?,
        (d.candidates v.symbol key intra).length = scopeCount sets.problemKeys v key *
          ((v.roles.inter.map fun dim => (v.itemsOf dim).countP fun item =>
            key.item? dim == some item).prod * (sideItems v.intraItems?).count intra)) ∧
    ((∀ dim ∈ sets.dims, dim.items.Nodup) →
      (∀ v ∈ d.members, ((d.bindingsOf v.symbol).map Binding.address).Nodup) ∧
      (∀ v ∈ d.members, v.isConstant = false → ∀ key ∈ sets.problemKeys,
        ∀ intra ∈ sideItems v.intraItems?, (d.candidates v.symbol key intra).length =
          if ∀ dim ∈ v.roles.inter, ∃ item ∈ v.itemsOf dim, key.item? dim = some item then 1
          else 0) ∧
      ∀ key ∈ sets.problemKeys, ∀ text symbol n key' text',
        Formula.compile d text key ≠ .error (.expression (.ambiguous symbol n key' text'))) := by
  have hplaced := placed_of_build hbuild hlater
  have hmembers : ∀ v ∈ d.members, ∃ declaration t, Variable.Resolves declaration t sets v := by
    intro v hv
    obtain ⟨t, -, declaration, -, hresolves⟩ :=
      (consistent_of_build hbuild hlater).declares.members v hv
    exact ⟨declaration, t, hresolves⟩
  refine ⟨fun v hv hconstant key hkey intra hintra => ?_, fun hitems =>
    ⟨fun v hv => ?_, fun v hv hconstant key hkey intra hintra => ?_, ?_⟩⟩
  · obtain ⟨declaration, t, hresolves⟩ := hmembers v hv
    exact (hplaced v hv).length_candidates_of_key hresolves hconstant hkey
      (intraItems?_of_mem_sideItems hintra)
  · obtain ⟨declaration, t, hresolves⟩ := hmembers v hv
    exact (hplaced v hv).nodup_address (nodup_scopeKeys hitems v)
      (nodup_interItems hresolves hitems) (nodup_sideItems_intra hresolves hitems)
  · obtain ⟨declaration, t, hresolves⟩ := hmembers v hv
    rw [(hplaced v hv).length_candidates_of_distinct hresolves hitems hconstant hkey
      (intraItems?_of_mem_sideItems hintra), List.count_eq_one_of_mem
        (nodup_sideItems_intra hresolves hitems) hintra, Nat.mul_one]
  · intro key hkey text symbol n key' text' herror
    -- a text that is called ambiguous has a name with several candidates
    have hjustified := Formula.outcome_compile_justified d text key
    rw [herror] at hjustified
    obtain ⟨-, v, restrict, hv, hrestrict, rfl, hn⟩ := hjustified symbol n key' text' rfl
    have hmem : v ∈ d.members := List.mem_of_find?_eq_some hv
    obtain rfl : v.symbol = symbol := by simpa using List.find?_some hv
    obtain ⟨declaration, t, hresolves⟩ := hmembers v hmem
    have hone := (hplaced v hmem).length_candidates_le_one hresolves hitems hkey hrestrict
    omega

end

/-! ## Demand in two regions -/

namespace Demands

open Purchases

/-- Two regions, which divide the model, and two seasons.  Only the north has a coast. -/
def sets : Registry :=
  ⟨[{ Dimension.ofItems "region" ["north", "south"] with
        splits := true, categories := ⟨[("north", "coast")]⟩ },
    .ofItems "season" ["summer", "winter"]], by decide⟩

/-- What is demanded in each region, and what is demanded of fish. -/
def tables : List TableDeclaration :=
  [⟨"demand", .fixed .exogenous, ["region", "season"], false,
    [⟨"d", .one, .one, none, .empty⟩,
      ⟨"f", .one, .one, none, ⟨[("region", ⟨some "coast", .empty⟩)]⟩⟩]⟩]

def demand (symbol : String) (regions : List String) : Variable :=
  ⟨symbol, "demand", .fixed .exogenous, false, none, ⟨none, none, some "season", ["region"]⟩,
    ⟨[("region", regions), ("season", ["summer", "winter"])]⟩, .scalar, none⟩

/-- The binding of a variable in a region and a season. -/
def bound (id : Nat) (symbol region season : String) : Binding :=
  ⟨id, symbol, none, [("region", region)], some season,
    ⟨[("region", [region]), ("season", [season])]⟩, .scalar, .parameter id⟩

/-- What is built of the tables. -/
def catalog : Catalog Rat where
  members := [demand "d" ["north", "south"], demand "f" ["north"]]
  tableCoordinates := [("demand", ["region", "season"])]
  bindings :=
    #[bound 0 "d" "north" "summer", bound 1 "d" "north" "winter", bound 2 "d" "south" "summer",
      bound 3 "d" "south" "winter", bound 4 "f" "north" "summer", bound 5 "f" "north" "winter"]
  blocks := #[]
  parameters := ((List.range 6).map fun i => ⟨i, "demand", .scalar, none⟩).toArray
  constants := #[]
  values := #[some 1]
  integer := #[false]

/-- The south has one demand in summer, none of fish, and no text that is ambiguous. -/
theorem candidates_unique_demands : build tables sets = .ok catalog ∧
    (∀ dim ∈ sets.dims, dim.items.Nodup) ∧ ⟨[("region", "south")]⟩ ∈ sets.problemKeys ∧
    (catalog.candidates "d" ⟨[("region", "south")]⟩ (some "summer")).length = 1 ∧
    (catalog.candidates "f" ⟨[("region", "south")]⟩ (some "summer")).length = 0 ∧
    ∀ text symbol n key' text', Formula.compile catalog text ⟨[("region", "south")]⟩ ≠
      .error (.expression (.ambiguous symbol n key' text')) := by
  have hbuild : build tables sets = .ok catalog := by decide +kernel
  have hitems : ∀ dim ∈ sets.dims, dim.items.Nodup := by decide
  have hkey : ⟨[("region", "south")]⟩ ∈ sets.problemKeys := by decide
  obtain ⟨-, hdistinct⟩ := candidates_unique hbuild .refl
  obtain ⟨-, hone, hcompile⟩ := hdistinct hitems
  have hd := hone (demand "d" ["north", "south"]) List.mem_cons_self rfl _ hkey (some "summer")
    (by decide)
  have hf := hone (demand "f" ["north"]) (List.mem_cons_of_mem _ List.mem_cons_self) rfl _ hkey
    (some "summer") (by decide)
  exact ⟨hbuild, hitems, hkey, hd.trans (by decide), hf.trans (by decide), hcompile _ hkey⟩

end Demands

/-! ## A region that is listed twice -/

namespace Repeats

open Purchases

/-- One region, which divides the model and is listed twice. -/
def sets : Registry :=
  ⟨[{ Dimension.ofItems "region" ["north", "north"] with splits := true }], by decide⟩

def tables : List TableDeclaration :=
  [⟨"price", .fixed .exogenous, ["region"], false, [⟨"p", .one, .one, none, .empty⟩]⟩]

/-- The binding of the price in the region. -/
def price (id : Nat) : Binding :=
  ⟨id, "p", none, [("region", "north")], none, ⟨[("region", ["north"])]⟩, .scalar, .parameter id⟩

/-- What is built of the tables. -/
def catalog : Catalog Rat where
  members := [⟨"p", "price", .fixed .exogenous, false, none, ⟨none, none, none, ["region"]⟩,
    ⟨[("region", ["north", "north"])]⟩, .scalar, none⟩]
  tableCoordinates := [("price", ["region"])]
  bindings := #[price 0, price 1]
  blocks := #[]
  parameters := #[⟨0, "price", .scalar, none⟩, ⟨1, "price", .scalar, none⟩]
  constants := #[]
  values := #[some 1]
  integer := #[false]

/-- If an item is repeated, two bindings have the same address, and a name is ambiguous. -/
theorem repeated_item_ambiguous : build tables sets = .ok catalog ∧
    ⟨[("region", "north")]⟩ ∈ sets.problemKeys ∧
    ¬((catalog.bindingsOf "p").map Binding.address).Nodup ∧
    catalog.candidates "p" ⟨[("region", "north")]⟩ none = [price 0, price 1] ∧
    Formula.compile catalog "p" ⟨[("region", "north")]⟩ =
      .error (.expression (.ambiguous "p" 2 ⟨[("region", "north")]⟩ "p")) := by
  refine ⟨by decide +kernel, by decide, by decide, by decide, by decide +kernel⟩

end Repeats

end CoupledModels.Catalog
