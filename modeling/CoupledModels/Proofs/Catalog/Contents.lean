import CoupledModels.Proofs.Arrays.Computed
import CoupledModels.Proofs.Catalog.Addressing
import CoupledModels.Proofs.Catalog.Loading

/-!
# Contents of a catalog

A catalog is built once; after that its parameters are filled, and filled again, and solution values
are recorded.  `Catalog.Later` is the relation between a catalog and what becomes of it that way.
The bindings of later catalogs are the same, and `Sound` stays true: numbers lead to what they were
given for, and every value that a binding refers to has the shape of the binding.
-/

namespace CoupledModels.Catalog

variable {K : Type}

/-- Every value that a binding refers to has the shape of the binding. -/
structure WellShaped (c : Catalog K) : Prop where
  slice : ∀ b ∈ c.bindings, ∀ (block : Nat) (columns : List Nat),
    b.value = .slice block columns → columns.length = b.shape.rows * b.shape.cols
  parameter : ∀ q ∈ c.parameters, ∀ m : Matrix K, q.value = some m → m.HasShape q.shape
  constant : ∀ b ∈ c.bindings, ∀ (i : Nat) (m : Matrix K),
    b.value = .constant i → c.constants[i]? = some m → m.HasShape b.shape

/-- Numbers lead to what they were given for, and values have the shapes that they should. -/
structure Sound (c : Catalog K) : Prop where
  addressed : c.Addressed
  wellShaped : c.WellShaped

variable [Scalar K]

/-- What becomes of a catalog: its parameters are filled one by one or from storage, as far as
storage goes, and the solution values of some columns are recorded. -/
inductive Later (c : Catalog K) : Catalog K → Prop
  | refl : Later c c
  | setParameter {d d' : Catalog K} (index : Nat) (value : Matrix K) (earlier : Later c d)
      (valid : value.Valid) (ok : d.setParameter index value = .ok d') : Later c d'
  | loadExogenous {d : Catalog K} (store : Store K) (earlier : Later c d) :
      Later c (d.loadExogenous store).2
  | setValues {d : Catalog K} (columns : List Nat) (values : List K) (earlier : Later c d) :
      Later c (d.setValues columns values)

theorem Later.trans {c d e : Catalog K} (h : Later c d) (h' : Later d e) : Later c e := by
  induction h' with
  | refl => exact h
  | setParameter index value _ valid ok ih => exact .setParameter index value ih valid ok
  | loadExogenous store _ ih => exact .loadExogenous store ih
  | setValues columns values _ ih => exact .setValues columns values ih

/-! ## What stays -/

/-- A parameter without its value. -/
def emptied (q : Parameter K) : Parameter K :=
  { q with value := none }

omit [Scalar K] in
theorem emptied_eq_iff {q q' : Parameter K} : emptied q' = emptied q ↔
    q'.binding = q.binding ∧ q'.table = q.table ∧ q'.shape = q.shape := by
  simp [emptied]

/-- One catalog differs from another one in solution values and in what parameters hold. -/
structure Refills (c d : Catalog K) : Prop where
  rest : d = (c.withParameters d.parameters).withValues d.values
  parameters : d.parameters.map emptied = c.parameters.map emptied
  columns : d.values.size = c.values.size

namespace Refills

variable {c d e : Catalog K}

omit [Scalar K]

theorem refl (c : Catalog K) : Refills c c :=
  ⟨rfl, rfl, rfl⟩

theorem trans (h : Refills c d) (h' : Refills d e) : Refills c e where
  rest := by
    rw [h'.rest, h.rest]
    rfl
  parameters := h'.parameters.trans h.parameters
  columns := h'.columns.trans h.columns

theorem symm (h : Refills c d) : Refills d c where
  rest := by
    rw [h.rest]
    rfl
  parameters := h.parameters.symm
  columns := h.columns.symm

theorem bindings (h : Refills c d) : d.bindings = c.bindings := by
  rw [h.rest]
  rfl

theorem members (h : Refills c d) : d.members = c.members := by
  rw [h.rest]
  rfl

theorem blocks (h : Refills c d) : d.blocks = c.blocks := by
  rw [h.rest]
  rfl

theorem coordinates (h : Refills c d) : d.tableCoordinates = c.tableCoordinates := by
  rw [h.rest]
  rfl

theorem constants (h : Refills c d) : d.constants = c.constants := by
  rw [h.rest]
  rfl

/-- A parameter keeps its place and everything but its value. -/
theorem parameter (h : Refills c d) {i : Nat} {q : Parameter K} (hq : c.parameters[i]? = some q) :
    ∃ q', d.parameters[i]? = some q' ∧
      q'.binding = q.binding ∧ q'.table = q.table ∧ q'.shape = q.shape := by
  have hmap : (d.parameters.map emptied)[i]? = some (emptied q) := by
    rw [h.parameters, Array.getElem?_map, hq]
    rfl
  simpa only [Array.getElem?_map, Option.map_eq_some_iff, emptied_eq_iff] using hmap

theorem addressed (h : Refills c d) (hc : c.Addressed) : d.Addressed where
  binding_id := h.bindings ▸ hc.binding_id
  admits := by
    intro i b hb
    rw [h.bindings] at hb
    refine (hc.admits i b hb).mono (fun p q hq => ?_) (Nat.le_of_eq (by rw [h.constants]))
    obtain ⟨q', hq', -, -, hshape⟩ := h.parameter hq
    exact ⟨q', hq', hshape⟩
  owner := by
    intro q hq
    have hmem : emptied q ∈ c.parameters.map emptied := h.parameters ▸ Array.mem_map_of_mem hq
    obtain ⟨q', hq', heq⟩ := Array.mem_map.mp hmem
    obtain ⟨hbinding, -, hshape⟩ := emptied_eq_iff.mp heq
    obtain ⟨b, hb, hs⟩ := hc.owner q' hq'
    exact ⟨b, by rw [h.bindings, ← hbinding, hb], hs.trans hshape⟩
  block_first := h.blocks ▸ hc.block_first
  values_pos := h.columns ▸ hc.values_pos

/-- Giving a parameter a value. -/
theorem fill {index : Nat} {p : Parameter K} (hp : c.parameters[index]? = some p) (m : Matrix K) :
    Refills c (c.withParameters (c.parameters.setIfInBounds index { p with value := some m })) where
  rest := rfl
  parameters := by
    refine Array.ext_getElem? fun i => ?_
    rw [parameters_withParameters, Array.getElem?_map, Array.getElem?_map,
      Array.getElem?_setIfInBounds]
    split
    · rename_i hi
      rw [← hi, hp, if_pos (Array.getElem?_eq_some_iff.mp hp).1]
      rfl
    · rfl
  columns := rfl

end Refills

/-! ## Values of parameters -/

/-- Every value that a parameter holds has the shape of the parameter. -/
def Fitting (c : Catalog K) : Prop :=
  ∀ q ∈ c.parameters, ∀ m : Matrix K, q.value = some m → m.HasShape q.shape

omit [Scalar K] in
theorem Fitting.fill {c : Catalog K} (h : c.Fitting) {index : Nat} {p : Parameter K} {m : Matrix K}
    (hm : m.HasShape p.shape) :
    (c.withParameters (c.parameters.setIfInBounds index { p with value := some m })).Fitting := by
  intro q hq m' hm'
  rcases Array.mem_or_eq_of_mem_setIfInBounds hq with hq | rfl
  · exact h q hq m' hm'
  · obtain rfl : m = m' := by simpa using hm'
    exact hm

omit [Scalar K] in
theorem outcome_setParameter (c : Catalog K) (index : Nat) {value : Matrix K}
    (hvalid : value.Valid) :
    Outcome (fun d => Refills c d ∧ (c.Fitting → d.Fitting)) AnyError
      (c.setParameter index value) := by
  unfold setParameter
  split
  · exact ⟨.refl c, id⟩
  · rename_i p hp
    split
    · trivial
    · rename_i hshape
      exact ⟨.fill hp value, fun h => h.fill ⟨hvalid, by simpa using hshape⟩⟩

/-- What storage gives for a binding has the shape of the binding. -/
theorem outcome_loadBinding (c : Catalog K) (store : Store K) (b : Binding) :
    Outcome (fun m => Tensor.HasShape m b.shape) AnyError (c.loadBinding store b) := by
  unfold loadBinding
  split
  · trivial
  refine Outcome.bind_any fun rows => Outcome.bind_any fun coordinates => ?_
  dsimp only
  split
  · trivial
  · exact (Tensor.outcome_ofStored _ _ _).mapError fun _ _ => trivial

/-- Parameters are filled one after the other, so this holds of a load that fails as well. -/
theorem refills_loadParameters (store : Store K) (indexes : List Nat) {c : Catalog K}
    (hc : c.Addressed) :
    Refills c (loadParameters store indexes c).2 ∧
      (c.Fitting → (loadParameters store indexes c).2.Fitting) := by
  induction indexes generalizing c with
  | nil => exact ⟨.refl c, id⟩
  | cons index rest ih =>
      unfold loadParameters
      split
      · exact ih hc
      rename_i p hp
      split
      · exact ih hc
      rename_i b hb
      split
      · exact ⟨.refl c, id⟩
      rename_i m hm
      have hstep := Refills.fill hp m
      obtain ⟨hrest, hfitting⟩ := ih (hstep.addressed hc)
      refine ⟨hstep.trans hrest, fun h => hfitting (h.fill ?_)⟩
      obtain ⟨b', hb', hs⟩ := hc.owner p (Array.mem_of_getElem? hp)
      obtain rfl : b = b' := by simpa [hb] using hb'
      exact hs ▸ (outcome_loadBinding c store b).value hm

/-- Whatever becomes of a catalog, bindings and what they refer to stay, and parameters are given
values of their shapes. -/
theorem Later.refills {c d : Catalog K} (h : Later c d) (hc : c.Addressed) :
    Refills c d ∧ (c.Fitting → d.Fitting) := by
  induction h with
  | refl => exact ⟨.refl c, id⟩
  | @setParameter d d' index value _ valid ok ih =>
      obtain ⟨hstep, hfitting⟩ := (outcome_setParameter d index valid).value ok
      exact ⟨ih.1.trans hstep, fun h => hfitting (ih.2 h)⟩
  | loadExogenous store _ ih =>
      obtain ⟨hstep, hfitting⟩ := refills_loadParameters store (List.range _) (ih.1.addressed hc)
      exact ⟨ih.1.trans hstep, fun h => hfitting (ih.2 h)⟩
  | @setValues d columns values _ ih =>
      have hsize := Tensor.size_foldl_set (fun e => some e.2) (columns.zip values) d.values
      exact ⟨ih.1.trans ⟨rfl, rfl, hsize⟩, ih.2⟩

/-- Whatever becomes of a sound catalog is sound, and its bindings stay. -/
theorem Later.sound {c d : Catalog K} (h : Later c d) (hc : c.Sound) :
    d.Sound ∧ d.bindings = c.bindings := by
  obtain ⟨hrefills, hfitting⟩ := h.refills hc.addressed
  refine ⟨⟨hrefills.addressed hc.addressed, ?_, hfitting hc.wellShaped.parameter, ?_⟩,
    hrefills.bindings⟩
  · rw [hrefills.bindings]
    exact hc.wellShaped.slice
  · rw [hrefills.bindings, hrefills.constants]
    exact hc.wellShaped.constant

/-! ## A small catalog -/

namespace Purchases

/-- One dimension with two items. -/
def sets : Registry :=
  ⟨[.ofItems "item" ["a", "b"]], by decide⟩

/-- The prices of the items come from storage, and how much is bought of each is decided. -/
def tables : List TableDeclaration :=
  [⟨"price", .fixed .exogenous, ["item"], false, [⟨"p", .dim "item", .one, none, .empty⟩]⟩,
    ⟨"purchase", .fixed .endogenous, ["item"], false, [⟨"x", .dim "item", .one, none, .empty⟩]⟩]

/-- A column with one row for each item. -/
def column (symbol table : String) (kind : TableKind) : Variable :=
  ⟨symbol, table, .fixed kind, false, none, ⟨some "item", none, none, []⟩,
    ⟨[("item", ["a", "b"])]⟩, ⟨2, 1⟩, none⟩

/-- What is built of the tables. -/
def catalog : Catalog Rat where
  members := [column "p" "price" .exogenous, column "x" "purchase" .endogenous]
  tableCoordinates := [("price", ["item"]), ("purchase", ["item"])]
  bindings :=
    #[⟨0, "p", none, [], none, ⟨[("item", ["a", "b"])]⟩, ⟨2, 1⟩, .parameter 0⟩,
      ⟨1, "x", none, [], none, ⟨[("item", ["a", "b"])]⟩, ⟨2, 1⟩, .slice 0 [1, 2]⟩]
  blocks := #[⟨"purchase", ⟨[]⟩, [["a"], ["b"]], 1, false⟩]
  parameters := #[⟨0, "price", ⟨2, 1⟩, none⟩]
  constants := #[]
  values := #[some 1, none, none]
  integer := #[false, false, false]

theorem build_tables : build tables sets = .ok catalog := by
  decide +kernel

theorem wellShaped_catalog : catalog.WellShaped where
  slice := by simp [catalog]
  parameter := by simp [catalog]
  constant := by simp [catalog]

/-- Prices of one and two. -/
def prices : Matrix Rat :=
  Tensor.dense ⟨2, 1⟩ [1, 2]

/-- The catalog once the prices are known. -/
def priced : Catalog Rat :=
  { catalog with parameters := #[⟨0, "price", ⟨2, 1⟩, some prices⟩] }

/-- Whole powers are exact, and the exponential function is known at zero. -/
scoped instance : Transcendental Rat where
  pow a p := a ^ p.num.toNat
  exp _ := 1

theorem later_priced : catalog.Later priced :=
  .setParameter 0 prices .refl rfl (by decide +kernel)

end Purchases

end CoupledModels.Catalog
