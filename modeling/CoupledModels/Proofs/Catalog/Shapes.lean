import CoupledModels.Proofs.Catalog.Consistency
import CoupledModels.Proofs.Formula.Lowering

/-!
# Shapes of bindings

A binding declares the shape of its variable.  What it refers to has this shape, with one exception:
the number of items of a vector is a single number, while its binding declares the shape of the
vector.  So the shape that a formula is typed with is the one that it is evaluated with, unless it
uses the length of a vector that has more than one item.
-/

namespace CoupledModels.Catalog

section Bindings

variable {K : Type} [Scalar K] {tables : List TableDeclaration} {sets : Registry} {c d : Catalog K}
  {v : Variable} {b : Binding}

/-- What a binding refers to exists and has the shape of the binding. -/
def HoldsShape (c : Catalog K) (b : Binding) : Prop :=
  match b.value with
  | .slice _ columns =>
      columns.length = b.shape.rows * b.shape.cols ∧ Affine.constantTerm ∉ columns
  | .parameter p => ∃ q, c.parameters[p]? = some q ∧ q.shape = b.shape ∧
      ∀ m : Matrix K, q.value = some m → m.HasShape b.shape
  | .constant i => ∃ m, c.constants[i]? = some m ∧ m.HasShape b.shape

/-- The binding is for the number of items of a vector that has not just one. -/
def CountsItems (c : Catalog K) (b : Binding) : Prop :=
  ∃ i v, b.value = .constant i ∧ c.variableNamed? b.symbol = some v ∧
    v.value = some .setLength ∧ b.shape ≠ .scalar

omit [Scalar K] in
/-- A slice has one column for each entry of its shape. -/
theorem length_of_slice (hv : v.shape =
      ⟨(sideItems v.rowItems?).length, (sideItems v.colItems?).length⟩)
    {intra : Option String} {inter : List Coordinate} {i : Nat} {columns : List Nat}
    (h : c.slice v intra inter = .ok (.slice i columns)) :
    columns.length = v.shape.rows * v.shape.cols := by
  obtain ⟨_, _, _, heq, -, -, -, hcolumns⟩ := slice_ok h
  cases heq
  rw [← hcolumns.length_eq, hv]
  simp [cells, List.length_flatMap]

omit [Scalar K] in
/-- A constant has the shape of its binding unless it counts items. -/
theorem constantShape_eq_iff_not_countsItems {i : Nat} (hvalue : b.value = .constant i)
    (hname : d.variableNamed? b.symbol = some v) (hshape : b.shape = v.shape) :
    v.constantShape = b.shape ↔ ¬ d.CountsItems b := by
  rw [hshape, Variable.constantShape_eq_iff]
  constructor
  · rintro h ⟨_, w, -, hw, hlength, hne⟩
    obtain rfl : v = w := Option.some.inj (hname.symm.trans hw)
    exact hne (hshape.trans (h hlength))
  · intro h hlength
    refine not_not.mp fun hne => h ⟨i, v, hvalue, hname, hlength, ?_⟩
    rwa [hshape]

omit [Scalar K] in
theorem value_of_parameterValue {p : Nat} {q : Parameter K} {m : Matrix K}
    (hq : c.parameters[p]? = some q) (h : c.parameterValue p = .ok m) : q.value = some m := by
  unfold parameterValue at h
  rw [hq] at h
  dsimp only at h
  split at h
  · cases h
    assumption
  · cases h

/-- A binding holds its shape unless it counts items. -/
theorem holdsShape_iff (hc : c.Consistent tables sets) (hfitting : c.Fitting) (hb : b ∈ c.bindings) :
    c.HoldsShape b ↔ ¬ c.CountsItems b := by
  obtain ⟨v, hname, hbinds, t, -, declaration, hresolves⟩ := hc.exists_variable hb
  have hadmits := hc.addressed.admits b.id b (hc.binding_id hb)
  have hrefers := hbinds.refers
  unfold HoldsShape CountsItems
  unfold Admits at hadmits
  unfold Refers at hrefers
  cases hvalue : b.value with
  | slice i columns =>
      rw [hvalue] at hadmits hrefers
      simp only [reduceCtorEq, false_and, exists_false, not_false_eq_true, iff_true]
      refine ⟨?_, hadmits⟩
      rw [length_of_slice hresolves.shape hrefers, hbinds.shape]
  | parameter p =>
      rw [hvalue] at hadmits
      simp only [reduceCtorEq, false_and, exists_false, not_false_eq_true, iff_true]
      obtain ⟨q, hq, hs⟩ := hadmits
      exact ⟨q, hq, hs, fun m hm => hs ▸ hfitting q (Array.mem_of_getElem? hq) m hm⟩
  | constant i =>
      rw [hvalue] at hrefers
      -- a constant is the only thing that is not stored with the declared shape
      obtain ⟨m, hm, hconstant⟩ := hrefers
      have hmatrix := (Variable.outcome_constantValue v).value hconstant
      have hcounts := constantShape_eq_iff_not_countsItems hvalue hname hbinds.shape
      simp only [CountsItems, hvalue] at hcounts
      rw [← hcounts]
      dsimp only
      rw [hm]
      simp only [Option.some.injEq, exists_eq_left']
      exact ⟨fun h => hmatrix.shape.symm.trans h.shape, fun h => h ▸ hmatrix⟩

variable [Transcendental K]

/-- Every binding of a catalog that has been built, whatever has become of the catalog since, refers
to something of the shape that it declares, unless it counts the items of a vector.  And under the
same condition the expression of a name has the shape that the name has been typed with. -/
theorem binding_holds_shape (hbuild : build tables sets = .ok c) (hlater : c.Later d)
    (hb : b ∈ d.bindings) :
    (d.HoldsShape b ↔ ¬ d.CountsItems b) ∧
    ∀ (s : Formula.Scope) (name : String) (node : Typed K) (e : Affine K),
      s.bindings.lookup name = some b → Formula.typeName s name = .ok node →
      node.lower d = .ok e → (e.shape = node.shape ↔ ¬ d.CountsItems b) := by
  have hd := consistent_of_build hbuild hlater
  have hholds := holdsShape_iff hd (fitting_of_build hbuild hlater) hb
  refine ⟨hholds, fun s name node e hscope hnode hlower => ?_⟩
  obtain ⟨v, hname, hbinds, -⟩ := hd.exists_variable hb
  unfold Formula.typeName at hnode
  rw [hscope] at hnode
  cases hnode
  change e.shape = b.shape ↔ _
  have hexpression : Typed.lowerBinding d b.id = .ok e := hlower
  -- the expression of a name is made of what its binding refers to
  rw [Typed.lowerBinding, hd.binding_id hb] at hexpression
  cases hvalue : b.value with
  | slice i columns =>
      simp only [hvalue] at hexpression
      obtain ⟨rfl, -, -⟩ := Affine.ofVariables_ok (ok_of_mapError hexpression)
      simp [CountsItems, hvalue]
  | parameter p =>
      have hnone : ¬ d.CountsItems b := by simp [CountsItems, hvalue]
      have hshape := hholds.mpr hnone
      unfold HoldsShape at hshape
      simp only [hvalue] at hexpression hshape
      obtain ⟨q, hq, -, hmatrix⟩ := hshape
      obtain ⟨m, hm, rfl⟩ := exists_of_map_eq_ok hexpression
      exact iff_of_true (hmatrix m (value_of_parameterValue hq hm)).shape hnone
  | constant i =>
      have hrefers := hbinds.refers
      unfold Refers at hrefers
      simp only [hvalue] at hexpression hrefers
      obtain ⟨m, hm, hconstant⟩ := hrefers
      rw [hm] at hexpression
      cases hexpression
      have hmatrix := (Variable.outcome_constantValue v).value hconstant
      rw [← constantShape_eq_iff_not_countsItems hvalue hname hbinds.shape, ← hmatrix.shape]
      rfl

end Bindings

namespace Purchases

/-- The binding of the prices. -/
def price : Binding :=
  ⟨0, "p", none, [], none, ⟨[("item", ["a", "b"])]⟩, ⟨2, 1⟩, .parameter 0⟩

theorem binding_holds_shape_price :
    build tables sets = .ok catalog ∧ catalog.Later priced ∧ price ∈ priced.bindings ∧
    priced.HoldsShape price ∧
    ∃ (node : Typed Rat) (e : Affine Rat),
      Formula.typeName ⟨"p", [("p", price)]⟩ "p" = .ok node ∧ node.lower priced = .ok e ∧
        e.shape = node.shape := by
  have hmem : price ∈ priced.bindings := by simp [priced, catalog, price]
  have hnone : ¬ priced.CountsItems price := by
    rintro ⟨i, v, hconstant, -⟩
    cases hconstant
  obtain ⟨hholds, hlowers⟩ := binding_holds_shape build_tables later_priced hmem
  exact ⟨build_tables, later_priced, hmem, hholds.mpr hnone, _, _, rfl, rfl,
    (hlowers ⟨"p", [("p", price)]⟩ "p" _ _ rfl rfl rfl).mpr hnone⟩

end Purchases

/-! ## The length of a vector -/

namespace Lengths

/-- One dimension with three items. -/
def sets : Registry :=
  ⟨[.ofItems "year" ["a", "b", "c"]], by decide⟩

/-- The number of years. -/
def tables : List TableDeclaration :=
  [⟨"count", .fixed .constant, ["year"], false, [⟨"n", .dim "year", .one, some .setLength, .empty⟩]⟩]

/-- The number of years is declared with one row for each year. -/
def length : Binding :=
  ⟨0, "n", none, [], none, ⟨[("year", ["a", "b", "c"])]⟩, ⟨3, 1⟩, .constant 0⟩

/-- What is built of the tables. -/
def catalog : Catalog Rat where
  members := [⟨"n", "count", .fixed .constant, false, some .setLength, ⟨some "year", none, none, []⟩,
    ⟨[("year", ["a", "b", "c"])]⟩, ⟨3, 1⟩, none⟩]
  tableCoordinates := [("count", ["year"])]
  bindings := #[length]
  blocks := #[]
  parameters := #[]
  constants := #[Tensor.dense .scalar [3]]
  values := #[some 1]
  integer := #[false]

open Purchases in
/-- A binding need not hold its shape: the name of a length is typed as a vector and lowered to a
single number. -/
theorem length_lacks_shape :
    build tables sets = .ok catalog ∧ length ∈ catalog.bindings ∧ ¬ catalog.HoldsShape length ∧
    ∃ (node : Typed Rat) (e : Affine Rat),
      Formula.typeName ⟨"n", [("n", length)]⟩ "n" = .ok node ∧ node.lower catalog = .ok e ∧
        node.shape = ⟨3, 1⟩ ∧ e.shape = .scalar := by
  refine ⟨by decide +kernel, by simp [catalog], ?_, _, _, rfl, rfl, rfl, rfl⟩
  rintro ⟨m, hm, hshape⟩
  cases hm
  exact absurd hshape.shape (by decide)

end Lengths

end CoupledModels.Catalog
