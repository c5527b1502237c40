import CoupledModels.Proofs.Arrays.StoredForms
import CoupledModels.Proofs.Sets.Products
import CoupledModels.Proofs.Variables.Constant
import CoupledModels.Proofs.Variables.Resolution

/-!
# Assignment matrices

A constant of the kind `assignment` relates the items of its rows to those of its columns.  The items
are related in pairs, in the order of the child dimension; the pairs become positions by a search
for the items on both sides; and the positions become a sparse matrix.  As long as no dimension
repeats an item none of these steps loses or doubles anything, so the matrix can be read off the
aggregation map.
-/

namespace CoupledModels

/-- The dimension maps some of its items, all of them to items of another one. -/
def Dimension.MapsInto (child parent : Dimension) : Prop :=
  child.aggregation.entries ≠ [] ∧ ∀ e ∈ child.aggregation.entries, e.2 ∈ parent.items

theorem Variable.covers_iff {child parent : Dimension} :
    covers child parent = true ↔ child.MapsInto parent := by
  simp [covers, Dimension.MapsInto, SortedMap.isEmpty, SortedMap.values]

/-! ## Matrices of ones -/

namespace Tensor

variable {K : Type} [Scalar K]

/-- A one given for each of some distinct indexes. -/
theorem sumGiven_ones {index : List Nat} {indexes : List (List Nat)} (h : indexes.Nodup) :
    sumGiven index indexes (List.replicate indexes.length (1 : K)) =
      if index ∈ indexes then 1 else 0 := by
  have hgiven : ∀ indexes : List (List Nat),
      ((indexes.zip (List.replicate indexes.length (1 : K))).filter fun e => e.1 = index).map
        (·.2) = List.replicate (indexes.count index) 1 := by
    intro indexes
    induction indexes with
    | nil => rfl
    | cons i indexes ih =>
        by_cases hi : i = index
        · subst hi
          simpa [List.replicate_succ] using ih
        · simpa [List.replicate_succ, hi] using ih
  rw [sumGiven, hgiven, h.count]
  split_ifs <;> rfl

/-- A matrix of ones at distinct places. -/
theorem ofEntries_ones (s : Shape) {indexes : List (List Nat)} (hnodup : indexes.Nodup)
    (hrange : ∀ index ∈ indexes, ∃ i < s.rows, ∃ j < s.cols, index = [i, j]) :
    ∃ m : Matrix K, ofEntries s indexes (List.replicate indexes.length 1) = .ok m ∧
      m.shape = s ∧ ∀ i < s.rows, ∀ j < s.cols, m.get i j = if [i, j] ∈ indexes then 1 else 0 := by
  have hinRange : ∀ {i j}, i < s.rows → j < s.cols → InRange [i, j] (Extent.dims s) :=
    fun hi hj => .cons hi (.cons hj .nil)
  have hindexes : ∀ index ∈ indexes, InRange index (Extent.dims s) := by
    intro index hindex
    obtain ⟨i, hi, j, hj, rfl⟩ := hrange index hindex
    exact hinRange hi hj
  have hvalues : indexes.length = (List.replicate indexes.length (1 : K)).length := by simp
  obtain ⟨m, hm, hsums⟩ := ofEntries_sums hvalues hindexes
  have hlengths := fun index hindex => (inRange_iff.mp (hindexes index hindex)).1
  obtain ⟨hvalid, hshape⟩ := valid_ofEntries hlengths hm
  refine ⟨m, hm, hshape, fun i hi j hj => ?_⟩
  have hcell := Matrix.getElem?_toDense_get hvalid (hshape ▸ hi) (hshape ▸ hj)
  have hsum := hsums [i, j] (hinRange hi hj)
  -- no place is given twice, so the sum at a place is one or zero
  rw [sumGiven_ones hnodup] at hsum
  have hposition : position (Extent.dims s) [i, j] = i * m.shape.cols + j := by
    rw [hshape]
    simp [position, Extent.dims]
  rw [hposition, hcell] at hsum
  exact Option.some.inj hsum

end Tensor

/-! ## From pairs to positions -/

/-- The first place of an item is its only one. -/
theorem idxOf?_eq_some_iff_of_nodup {xs : List String} (h : xs.Nodup) {x : String} {i : Nat} :
    xs.idxOf? x = some i ↔ xs[i]? = some x := by
  rw [List.idxOf?_eq_some_iff, List.getElem?_eq_some_iff]
  constructor
  · rintro ⟨hi, hx, -⟩
    exact ⟨hi, by simpa using hx⟩
  · rintro ⟨hi, hx⟩
    refine ⟨hi, by simpa using hx, fun j hj heq => ?_⟩
    have hjx : xs[j] = x := by simpa using heq
    have hji : j = i := (h.getElem_inj_iff).mp (hjx.trans hx.symm)
    omega

namespace Assignment

variable {a : Assignment}

/-- The position of a pair is that of its items. -/
theorem mem_indexes_iff (hrows : a.rows.Nodup) (hcols : a.cols.Nodup) {index : List Nat} :
    index ∈ a.indexes ↔ ∃ p ∈ a.pairs, ∃ i j, index = [i, j] ∧ a.rows[i]? = some p.1 ∧
      a.cols[j]? = some p.2 := by
  unfold indexes
  rw [List.mem_filterMap]
  refine exists_congr fun ⟨r, c⟩ => and_congr_right fun _ => ?_
  dsimp only
  constructor
  · intro h
    split at h
    · rename_i i j hi hj
      cases h
      exact ⟨i, j, rfl, (idxOf?_eq_some_iff_of_nodup hrows).mp hi,
        (idxOf?_eq_some_iff_of_nodup hcols).mp hj⟩
    · cases h
  · rintro ⟨i, j, rfl, hi, hj⟩
    rw [(idxOf?_eq_some_iff_of_nodup hrows).mpr hi, (idxOf?_eq_some_iff_of_nodup hcols).mpr hj]

/-- Different pairs have different positions. -/
theorem nodup_indexes (hrows : a.rows.Nodup) (hcols : a.cols.Nodup) (hpairs : a.pairs.Nodup) :
    a.indexes.Nodup := by
  refine hpairs.filterMap ?_
  rintro ⟨r, c⟩ ⟨r', c'⟩ index h h'
  simp only [Option.mem_def] at h h'
  split at h
  on_goal 2 => cases h
  rename_i i j hi hj
  split at h'
  on_goal 2 => cases h'
  rename_i i' j' hi' hj'
  cases h
  cases h'
  rw [idxOf?_eq_some_iff_of_nodup hrows] at hi hi'
  rw [idxOf?_eq_some_iff_of_nodup hcols] at hj hj'
  rw [Option.some.inj (hi.symm.trans hi'), Option.some.inj (hj.symm.trans hj')]

end Assignment

/-! ## Related items -/

namespace Variable

section Related

variable {sets : Registry} {R C : Dimension} {rows cols : List String}

/-- Items of two sides belong together if they are the same item of one dimension, or else if one is
the parent of the other; the columns are the children if their map qualifies. -/
def Belongs (R C : Dimension) (a b : String) : Prop :=
  R.id = C.id ∧ a = b ∨
    R.id ≠ C.id ∧ C.MapsInto R ∧ C.aggregation.get? b = some a ∨
    R.id ≠ C.id ∧ ¬ C.MapsInto R ∧ R.MapsInto C ∧ R.aggregation.get? a = some b

/-- All pairs of items that belong together, each of them once. -/
structure Pairs (R C : Dimension) (rows cols : List String) (pairs : List (String × String)) :
    Prop where
  nodup : pairs.Nodup
  mem_iff : ∀ a b, (a, b) ∈ pairs ↔ a ∈ rows ∧ b ∈ cols ∧ Belongs R C a b

/-- Items paired with those of their parents that are there. -/
def parentPairs (child : Dimension) (pair : String → String → String × String)
    (items parents : List String) : List (String × String) :=
  items.filterMap fun i => ((child.aggregation.get? i).filter parents.contains).map fun p => pair i p

theorem mem_parentPairs (pair : String → String → String × String) {child : Dimension}
    {items parents : List String} {e : String × String} :
    e ∈ parentPairs child pair items parents ↔
      ∃ i ∈ items, ∃ p ∈ parents, child.aggregation.get? i = some p ∧ pair i p = e := by
  simp only [parentPairs, List.mem_filterMap, Option.map_eq_some_iff, Option.filter_eq_some_iff,
    List.contains_iff_mem]
  refine exists_congr fun i => and_congr_right fun _ => exists_congr fun p => ?_
  tauto

/-- An item has one parent, so it is in one pair. -/
theorem nodup_parentPairs {pair : String → String → String × String} (child : Dimension)
    {items : List String} (hpair : ∀ i p i' p', pair i p = pair i' p' → i = i')
    (hitems : items.Nodup) (parents : List String) :
    (parentPairs child pair items parents).Nodup := by
  refine hitems.filterMap fun i i' e he he' => ?_
  obtain ⟨p, -, hp⟩ := Option.map_eq_some_iff.mp he
  obtain ⟨p', -, hp'⟩ := Option.map_eq_some_iff.mp he'
  exact hpair i p i' p' (hp.trans hp'.symm)

/-- In one dimension every item belongs to itself. -/
theorem pairs_same (hsame : R.id = C.id) (hrows : rows.Nodup) :
    Pairs R C rows cols ((rows.filter cols.contains).map fun i => (i, i)) := by
  refine ⟨(hrows.filter _).map fun a b hab => (Prod.mk.inj hab).1, fun a b => ?_⟩
  simp only [List.mem_map, List.mem_filter, List.contains_iff_mem, Prod.mk.injEq, Belongs, hsame,
    ne_eq, not_true_eq_false, false_and, or_false, true_and]
  constructor
  · rintro ⟨_, ⟨hrow, hcol⟩, rfl, rfl⟩
    exact ⟨hrow, hcol, rfl⟩
  · rintro ⟨hrow, hcol, rfl⟩
    exact ⟨a, ⟨hrow, hcol⟩, rfl, rfl⟩

theorem pairs_of_columns (hne : R.id ≠ C.id) (hC : C.MapsInto R) (hcols : cols.Nodup) :
    Pairs R C rows cols (parentPairs C (fun c p => (p, c)) cols rows) := by
  refine ⟨nodup_parentPairs C (by simp) hcols rows, fun a b => ?_⟩
  rw [mem_parentPairs]
  simp only [Prod.mk.injEq, Belongs, hne, hC, ne_eq, not_false_eq_true, not_true_eq_false,
    false_and, true_and, false_or, or_false]
  constructor
  · rintro ⟨_, hcol, _, hrow, hparent, rfl, rfl⟩
    exact ⟨hrow, hcol, hparent⟩
  · rintro ⟨hrow, hcol, hparent⟩
    exact ⟨b, hcol, a, hrow, hparent, rfl, rfl⟩

theorem pairs_of_rows (hne : R.id ≠ C.id) (hC : ¬ C.MapsInto R) (hR : R.MapsInto C)
    (hrows : rows.Nodup) :
    Pairs R C rows cols (parentPairs R (fun r p => (r, p)) rows cols) := by
  refine ⟨nodup_parentPairs R (by simp) hrows cols, fun a b => ?_⟩
  rw [mem_parentPairs]
  simp only [Prod.mk.injEq, Belongs, hne, hC, hR, ne_eq, not_false_eq_true, false_and, true_and,
    false_or]
  constructor
  · rintro ⟨_, hrow, _, hcol, hparent, rfl, rfl⟩
    exact ⟨hrow, hcol, hparent⟩
  · rintro ⟨hrow, hcol, hparent⟩
    exact ⟨a, hrow, b, hcol, hparent, rfl, rfl⟩

/-- Two sides are related unless they have different dimensions of which neither maps into the
other, and then the items that belong together are paired. -/
theorem aggregationMap_pairs (hR : R ∈ sets.dims) (hC : C ∈ sets.dims) (hrows : rows.Nodup)
    (hcols : cols.Nodup) {related : Option (List (String × String))}
    (h : aggregationMap R.id rows C.id cols sets = .ok related) :
    (related.isSome ↔ R.id = C.id ∨ C.MapsInto R ∨ R.MapsInto C) ∧
      ∀ pairs, related = some pairs → Pairs R C rows cols pairs := by
  unfold aggregationMap at h
  split at h
  · rename_i hsame
    cases h
    refine ⟨by simp [hsame], ?_⟩
    rintro _ ⟨⟩
    exact pairs_same hsame hrows
  rename_i hne
  rw [Registry.get_of_mem hR, Registry.get_of_mem hC] at h
  change (if covers C R then _ else _) = _ at h
  split at h
  · rename_i hcovers
    have hC := covers_iff.mp hcovers
    cases h
    refine ⟨by simp [hC], ?_⟩
    rintro _ ⟨⟩
    exact pairs_of_columns hne hC hcols
  rename_i hcovers
  have hC := mt covers_iff.mpr hcovers
  split at h
  · rename_i hcovers
    have hR := covers_iff.mp hcovers
    cases h
    refine ⟨by simp [hR], ?_⟩
    rintro _ ⟨⟩
    exact pairs_of_rows hne hC hR hrows
  · rename_i hcovers
    have hR := mt covers_iff.mpr hcovers
    cases h
    simp [hne, hC, hR]

end Related

/-! ## The matrix -/

section Matrix

variable {K : Type} [Scalar K] {v : VariableDeclaration} {t : TableDeclaration} {sets : Registry}
  {r : Variable} {R C : Dimension} {rows cols : List String}

/-- Related items give a matrix with a one for every pair and zeros everywhere else. -/
theorem build_assignment {pairs : List (String × String)} (hrows : rows.Nodup) (hcols : cols.Nodup)
    (hpairs : pairs.Nodup) :
    ∃ m : Matrix K, ConstantKind.assignment.build ⟨rows.length, cols.length⟩
        (some ⟨pairs, rows, cols⟩) = .ok m ∧ m.shape = ⟨rows.length, cols.length⟩ ∧
      ∀ i (hi : i < rows.length) j (hj : j < cols.length),
        m.get i j = if (rows[i], cols[j]) ∈ pairs then 1 else 0 := by
  set a : Assignment := ⟨pairs, rows, cols⟩ with ha
  have hmem : ∀ {index}, index ∈ a.indexes ↔ _ := Assignment.mem_indexes_iff hrows hcols
  obtain ⟨m, hm, hshape, hentries⟩ :=
    Tensor.ofEntries_ones (K := K) ⟨rows.length, cols.length⟩
      (Assignment.nodup_indexes (a := a) hrows hcols hpairs) fun index hindex => by
        obtain ⟨p, -, i, j, rfl, hi, hj⟩ := hmem.mp hindex
        exact ⟨i, (List.getElem?_eq_some_iff.mp hi).1, j, (List.getElem?_eq_some_iff.mp hj).1, rfl⟩
  refine ⟨m, ?_, hshape, fun i hi j hj => ?_⟩
  · change Except.mapError _ _ = _
    rw [hm]
    rfl
  · rw [hentries i hi j hj]
    refine if_congr ?_ rfl rfl
    rw [hmem]
    constructor
    · rintro ⟨⟨x, y⟩, hp, i', j', hij, hx, hy⟩
      obtain ⟨rfl, rfl⟩ : i = i' ∧ j = j' := by simpa using hij
      obtain ⟨_, hx⟩ := List.getElem?_eq_some_iff.mp hx
      obtain ⟨_, hy⟩ := List.getElem?_eq_some_iff.mp hy
      subst hx hy
      exact hp
    · intro hp
      exact ⟨_, hp, i, j, rfl, List.getElem?_eq_getElem hi, List.getElem?_eq_getElem hj⟩

/-- Each item has a one where its parent is, if the parent is there, and nowhere else. -/
structure AssignsParents (child : Dimension) (items parents : List String)
    (entry : Nat → Nat → K) : Prop where
  one_iff : ∀ i (hi : i < items.length) p (hp : p < parents.length),
    entry i p = 1 ↔ child.aggregation.get? items[i] = some parents[p]
  atMostOne : ∀ i < items.length, ∀ p < parents.length, ∀ q < parents.length,
    entry i p = 1 → entry i q = 1 → p = q
  exactlyOne : ∀ i (hi : i < items.length), ∀ parent ∈ parents,
    child.aggregation.get? items[i] = some parent → ∃! p, p < parents.length ∧ entry i p = 1

/-- The matrix assigns the items of the child dimension, that of the columns if its map qualifies, to
their parents, or each item of one dimension to itself. -/
structure AssignmentMatrix (R C : Dimension) (rows cols : List String) (m : Matrix K) : Prop where
  shape : m.shape = ⟨rows.length, cols.length⟩
  zero_or_one : ∀ i < rows.length, ∀ j < cols.length, m.get i j = 0 ∨ m.get i j = 1
  identity : R.id = C.id → rows = cols ∧
    ∀ i < rows.length, ∀ j < cols.length, m.get i j = if i = j then 1 else 0
  ofColumns : R.id ≠ C.id → C.MapsInto R → AssignsParents C cols rows fun j i => m.get i j
  ofRows : R.id ≠ C.id → ¬ C.MapsInto R → R.MapsInto C → AssignsParents R rows cols m.get

/-- A map gives an item one parent, and that has one place. -/
theorem assignsParents_of_one_iff {child : Dimension} {items parents : List String}
    {entry : Nat → Nat → K} (hparents : parents.Nodup)
    (hone : ∀ i (hi : i < items.length) p (hp : p < parents.length),
      entry i p = 1 ↔ child.aggregation.get? items[i] = some parents[p]) :
    AssignsParents child items parents entry := by
  have hunique : ∀ i < items.length, ∀ p < parents.length, ∀ q < parents.length,
      entry i p = 1 → entry i q = 1 → p = q := by
    intro i hi p hp q hq hip hiq
    have hsame := ((hone i hi p hp).mp hip).symm.trans ((hone i hi q hq).mp hiq)
    exact hparents.getElem_inj_iff.mp (Option.some.inj hsame)
  refine ⟨hone, hunique, fun i hi parent hparent hget => ?_⟩
  obtain ⟨p, hp, rfl⟩ := List.getElem_of_mem hparent
  exact ⟨p, ⟨hp, (hone i hi p hp).mpr hget⟩,
    fun q ⟨hq, hiq⟩ => hunique i hi q hq p hp hiq ((hone i hi p hp).mpr hget)⟩

/-- A matrix with a one where items belong together, and zeros everywhere else, is an assignment. -/
theorem assignmentMatrix_of_belongs (hone : (1 : K) ≠ 0) (hrows : rows.Nodup) (hcols : cols.Nodup)
    (hsame : R.id = C.id → rows = cols) {m : Matrix K}
    (hshape : m.shape = ⟨rows.length, cols.length⟩)
    (hentries : ∀ i (hi : i < rows.length) j (hj : j < cols.length),
      (Belongs R C rows[i] cols[j] → m.get i j = 1) ∧
        (¬ Belongs R C rows[i] cols[j] → m.get i j = 0)) :
    AssignmentMatrix R C rows cols m := by
  have hiff : ∀ i (hi : i < rows.length) j (hj : j < cols.length),
      m.get i j = 1 ↔ Belongs R C rows[i] cols[j] := by
    intro i hi j hj
    refine ⟨fun h => ?_, (hentries i hi j hj).1⟩
    by_contra hnot
    exact hone (h.symm.trans ((hentries i hi j hj).2 hnot))
  refine ⟨hshape, fun i hi j hj => ?_, fun hid => ⟨hsame hid, ?_⟩, fun hne hC => ?_,
    fun hne hC hR => ?_⟩
  · by_cases hbelongs : Belongs R C rows[i] cols[j]
    · exact .inr ((hentries i hi j hj).1 hbelongs)
    · exact .inl ((hentries i hi j hj).2 hbelongs)
  · obtain rfl := hsame hid
    intro i hi j hj
    have hbelongs : Belongs R C rows[i] rows[j] ↔ i = j := by
      simp [Belongs, hid, hrows.getElem_inj_iff]
    split_ifs with hij
    · exact (hentries i hi j hj).1 (hbelongs.mpr hij)
    · exact (hentries i hi j hj).2 (mt hbelongs.mp hij)
  · refine assignsParents_of_one_iff hrows fun j hj i hi => ?_
    rw [hiff i hi j hj]
    simp [Belongs, hne, hC]
  · refine assignsParents_of_one_iff hcols fun i hi j hj => ?_
    rw [hiff i hi j hj]
    simp [Belongs, hne, hC, hR]

/-- What relates the two sides of a resolved variable. -/
theorem aggregationMap_of_resolve (h : resolve v t sets = .ok r) {d d' : String}
    (hd : r.roles.rows = some d) (hd' : r.roles.cols = some d') :
    aggregationMap d (r.itemsOf d) d' (r.itemsOf d') sets = .ok r.aggregation := by
  obtain ⟨_, _, _, -, -, -, -, haggregation, rfl⟩ := resolve_ok h
  exact haggregation d d' hd hd'

/-- If no dimension repeats an item, a constant of the kind `assignment` with rows and columns has a
value exactly if these have the same dimension or one of the two maps its items to those of the
other, and then the value is the matrix that assigns the ones to the others. -/
theorem assignmentMatrix_of_resolve (hone : (1 : K) ≠ 0)
    (hitems : ∀ d ∈ sets.dims, d.items.Nodup) (hresolve : resolve v t sets = .ok r)
    (hkind : r.value = some .assignment) (hrows : r.roles.rows.isSome)
    (hcols : r.roles.cols.isSome) :
    ∃ R ∈ sets.dims, ∃ C ∈ sets.dims, r.roles.rows = some R.id ∧ r.roles.cols = some C.id ∧
      ((∃ m : Matrix K, r.constantValue = .ok m) ↔
        R.id = C.id ∨ C.MapsInto R ∨ R.MapsInto C) ∧
      ∀ m : Matrix K, r.constantValue = .ok m →
        AssignmentMatrix R C (r.itemsOf R.id) (r.itemsOf C.id) m := by
  have hr := resolves_of_resolve hresolve
  have hside : ∀ {d}, r.roles.rows = some d ∨ r.roles.cols = some d →
      ∃ D ∈ sets.dims, D.id = d ∧ r.items.get? D.id = some (r.itemsOf D.id) ∧
        (r.itemsOf D.id).Nodup := by
    intro d hd
    have hcoordinate := hr.sides d hd
    obtain ⟨D, -, hfind, -⟩ := hr.items d hcoordinate
    obtain rfl : D.id = d := by simpa using List.find?_some hfind
    exact ⟨D, List.mem_of_find?_eq_some hfind, rfl, hr.get?_items hcoordinate,
      hr.nodup_itemsOf hitems hcoordinate⟩
  obtain ⟨dr, hdr⟩ := Option.isSome_iff_exists.mp hrows
  obtain ⟨dc, hdc⟩ := Option.isSome_iff_exists.mp hcols
  obtain ⟨R, hR, rfl, hRget, hRnodup⟩ := hside (.inl hdr)
  obtain ⟨C, hC, rfl, hCget, hCnodup⟩ := hside (.inr hdc)
  refine ⟨R, hR, C, hC, hdr, hdc, ?_⟩
  obtain ⟨hrelated, hpairs⟩ := aggregationMap_pairs hR hC hRnodup hCnodup
    (aggregationMap_of_resolve hresolve hdr hdc)
  have hrowItems : r.rowItems? = some (r.itemsOf R.id) := by rw [rowItems?, hdr]; exact hRget
  have hcolItems : r.colItems? = some (r.itemsOf C.id) := by rw [colItems?, hdc]; exact hCget
  have hshape : r.shape = ⟨(r.itemsOf R.id).length, (r.itemsOf C.id).length⟩ := by
    rw [hr.shape, hrowItems, hcolItems]
    simp [Catalog.sideItems]
  have hvalue : r.constantValue (K := K) =
      (ConstantKind.assignment.build r.shape r.assignment?).mapError
        fun e => .conceptual (.constantOf r.symbol e) := by
    rw [constantValue, hkind]
  rw [← hrelated, hvalue, assignment?, hrowItems, hcolItems, hshape]
  cases haggregation : r.aggregation with
  | none => exact ⟨by simp [ConstantKind.build, Except.mapError], by
      simp [ConstantKind.build, Except.mapError]⟩
  | some pairs =>
      obtain ⟨m, hm, hmshape, hentries⟩ :=
        build_assignment (K := K) hRnodup hCnodup (hpairs pairs haggregation).nodup
      simp only [Option.map_some, Option.getD_some, hm, Except.mapError, Option.isSome_some]
      refine ⟨by simp, ?_⟩
      rintro _ ⟨⟩
      refine assignmentMatrix_of_belongs hone hRnodup hCnodup
        (fun hid => congrArg r.itemsOf hid) hmshape fun i hi j hj => ?_
      have hmem := (hpairs pairs haggregation).mem_iff (r.itemsOf R.id)[i] (r.itemsOf C.id)[j]
      rw [hentries i hi j hj]
      refine ⟨fun hbelongs => if_pos (hmem.mpr ⟨?_, ?_, hbelongs⟩),
        fun hnot => if_neg fun hpair => hnot (hmem.mp hpair).2.2⟩
      · exact List.getElem_mem hi
      · exact List.getElem_mem hj

end Matrix

/-! ## Ports and coasts -/

namespace Coasts

/-- Ports on some of the coasts; one of them is on none. -/
def sets : Registry :=
  ⟨[{ Dimension.ofItems "coast" ["north", "east", "west"] with
      categories := ⟨[("east", "open"), ("north", "frozen"), ("west", "open")]⟩ },
    { Dimension.ofItems "port" ["cork", "vigo", "oslo", "rome", "faro"] with
      categories := ⟨[("cork", "large"), ("faro", "large"), ("oslo", "large"), ("rome", "large"),
        ("vigo", "small")]⟩
      aggregation := ⟨[("cork", "west"), ("faro", "east"), ("oslo", "north"), ("vigo", "west")]⟩ }],
    by decide⟩

/-- Where the ports are. -/
def location : TableDeclaration :=
  ⟨"location", .fixed .constant, ["coast", "port"], false, []⟩

/-- The large ports on the open coasts. -/
def onOpenCoasts : VariableDeclaration :=
  ⟨"m", .dim "coast", .dim "port", some .assignment,
    ⟨[("coast", ⟨some "open", .empty⟩), ("port", ⟨some "large", .empty⟩)]⟩⟩

/-- Filters leave two coasts and four ports, of which two are on these coasts. -/
def resolved : Variable where
  symbol := "m"
  table := "location"
  kind := .fixed .constant
  integer := false
  value := some .assignment
  roles := ⟨some "coast", some "port", none, []⟩
  items := ⟨[("coast", ["east", "west"]), ("port", ["cork", "oslo", "rome", "faro"])]⟩
  shape := ⟨2, 4⟩
  aggregation := some [("west", "cork"), ("east", "faro")]

/-- The ports are assigned to their coasts. -/
theorem assignmentMatrix_resolved :
    (1 : Rat) ≠ 0 ∧ (∀ d ∈ sets.dims, d.items.Nodup) ∧
      resolve onOpenCoasts location sets = .ok resolved ∧
      resolved.value = some .assignment ∧ resolved.roles.rows.isSome ∧ resolved.roles.cols.isSome ∧
      ∃ R ∈ sets.dims, ∃ C ∈ sets.dims,
        resolved.roles.rows = some R.id ∧ resolved.roles.cols = some C.id ∧
        ((∃ m : Matrix Rat, resolved.constantValue = .ok m) ↔
          R.id = C.id ∨ C.MapsInto R ∨ R.MapsInto C) ∧
        ∀ m : Matrix Rat, resolved.constantValue = .ok m →
          AssignmentMatrix R C (resolved.itemsOf R.id) (resolved.itemsOf C.id) m := by
  have hone : (1 : Rat) ≠ 0 := by decide
  have hitems : ∀ d ∈ sets.dims, d.items.Nodup := by decide
  have hresolve : resolve onOpenCoasts location sets = .ok resolved := by decide +kernel
  exact ⟨hone, hitems, hresolve, rfl, rfl, rfl,
    assignmentMatrix_of_resolve hone hitems hresolve rfl rfl rfl⟩

end Coasts

end Variable

end CoupledModels
