import Mathlib.Algebra.BigOperators.Ring.Finset
import Mathlib.Algebra.Order.Ring.Rat
import Mathlib.Data.Finset.Range
import CoupledModels.Proofs.Affine.Value
import CoupledModels.Proofs.Formula.Semantics

/-!
# What affine expressions denote

`Affine.Denotes x e g` says that the elements of the expression `e` have the values of the matrix
`g` when the decision columns have the numbers `x`.  There is one lemma for each operation on
expressions: the result of the operation denotes the result of the matrix operation.
-/

namespace CoupledModels.Affine

/-- The elements of an expression have the values of a matrix. -/
structure Denotes (x : Nat → Rat) (e : Affine Rat) (g : Grid) : Prop where
  shape : g.shape = e.shape
  entry : ∀ i < e.shape.rows, ∀ j < e.shape.cols, e.entry x i j = g.entry i j

variable {x : Nat → Rat}

/-! ## Sums over positions -/

/-- The sum over all positions is the sum over the rows of the sums over the columns. -/
theorem sum_positions (m n : Nat) (f : Nat → Rat) :
    ∑ p ∈ Finset.range (m * n), f p =
      ∑ i ∈ Finset.range m, ∑ j ∈ Finset.range n, f (i * n + j) := by
  induction m with
  | zero => simp
  | succ m ih => rw [Nat.succ_mul, Finset.sum_range_add, ih, Finset.sum_range_succ]

theorem sum_map_range (n : Nat) (f : Nat → Rat) :
    ((List.range n).map f).sum = ∑ i ∈ Finset.range n, f i := rfl

/-- Leaving out factors that are zero leaves a sum of products as it is. -/
theorem sum_nonzero (ps : List Nat) (f v : Nat → Rat) (q : Nat → Nat) :
    ((ps.filterMap fun p => if Scalar.isZero (f p) then none else some (q p, f p)).map
      fun part => v part.1 * part.2).sum = (ps.map fun p => v (q p) * f p).sum := by
  induction ps with
  | nil => rfl
  | cons p ps ih =>
      by_cases hzero : Scalar.isZero (f p) = true
      · have hfactor : f p = 0 := isZero_iff.mp hzero
        rw [List.filterMap_cons_none (by simp [hzero]), ih, List.map_cons, List.sum_cons, hfactor,
          mul_zero, zero_add]
      · rw [List.filterMap_cons_some (b := (q p, f p)) (by simp [hzero])]
        simp only [List.map_cons, List.sum_cons, ih]

/-! ## Combinations -/

/-- A combined expression denotes a matrix if the combination of each position gives the entry
there. -/
theorem denotes_combine {e : Affine Rat} {s : Shape} {recipe : List (List (Nat × Rat))} {g : Grid}
    (hs : g.shape = s)
    (h : ∀ i < s.rows, ∀ j < s.cols, ∃ parts, recipe[i * s.cols + j]? = some parts ∧
      (parts.map fun part => e.valueAt x part.1 * part.2).sum = g.entry i j) :
    (e.combine s recipe).Denotes x g where
  shape := hs
  entry := by
    intro i hi j hj
    obtain ⟨parts, hparts, hsum⟩ := h i hi j hj
    rw [Affine.entry, valueAt_combine, List.getD_eq_getElem?_getD]
    simp only [combine, shape_ofElements, hparts, Option.getD_some, hsum]

theorem denotes_combine_tabulate {e : Affine Rat} {s : Shape} {f : Nat → Nat → List (Nat × Rat)}
    {g : Grid} (hs : g.shape = s)
    (h : ∀ i < s.rows, ∀ j < s.cols,
      ((f i j).map fun part => e.valueAt x part.1 * part.2).sum = g.entry i j) :
    (e.combine s (tabulate s f)).Denotes x g :=
  denotes_combine hs fun i hi j hj => ⟨f i j, getElem?_tabulate f hi hj, h i hi j hj⟩

/-! ## Expressions that are not computed from others -/

theorem denotes_number (v : Rat) : (scalar v).Denotes x (Grid.number v) where
  shape := rfl
  entry := by
    intro i hi j hj
    obtain rfl : i = 0 := by simpa [scalar, Shape.scalar] using hi
    obtain rfl : j = 0 := by simpa [scalar, Shape.scalar] using hj
    rw [scalar_eq, Affine.entry, valueAt_ofElements]
    simp [columnValue, Grid.number]

theorem denotes_ofMatrix {m : Matrix Rat} (h : m.Valid) :
    (ofMatrix m).Denotes x (Grid.ofMatrix m) where
  shape := rfl
  entry := by
    intro i hi j hj
    have hpos : i * m.shape.cols + j < m.elements.size := by
      rw [h.size_elements, Extent.size_shape]
      exact cell_lt hi hj
    have hget := Matrix.get_eq_elements h i j
    rw [ofMatrix_eq, Affine.entry, valueAt_ofElements]
    simp [columnValue, List.getD_eq_getElem?_getD, hpos, hget, Grid.ofMatrix]

theorem denotes_ofVariables {s : Shape} {columns : List Nat} {e : Affine Rat}
    (h : ofVariables s columns = .ok e) : e.Denotes x (Grid.ofColumns s columns x) := by
  obtain ⟨rfl, hlen, hzero⟩ := ofVariables_ok h
  refine ⟨rfl, fun i hi j hj => ?_⟩
  have hpos : i * s.cols + j < columns.length := hlen ▸ cell_lt hi hj
  have hcolumn : columns[i * s.cols + j] ≠ constantTerm := fun heq =>
    hzero (heq ▸ List.getElem_mem hpos)
  rw [Affine.entry, valueAt_ofElements]
  simp [columnValue, List.getD_eq_getElem?_getD, hpos, hcolumn, Grid.ofColumns]

namespace Denotes

variable {e a b r : Affine Rat} {g h : Grid} {s t : FormulaType}

/-! ## Sums and differences -/

theorem broadcast (hg : e.Denotes x g) {s : Shape} (hs : e.shape = s ∨ e.shape = .scalar)
    (hr : e.broadcast s = .ok r) (hshape : r.shape = s) : r.Denotes x (g.stretch s) where
  shape := hshape.symm
  entry := by
    intro i hi j hj
    rw [hshape] at hi hj
    rw [entry_broadcast hr hi hj, Grid.stretch, hg.shape]
    split
    · rename_i heq
      subst heq
      exact hg.entry i hi j hj
    · rename_i hne
      have hscalar : e.shape = .scalar := hs.resolve_left hne
      exact hg.entry 0 (by simp [hscalar, Shape.scalar]) 0 (by simp [hscalar, Shape.scalar])

/-- The elements of a list of sums. -/
theorem entry_zip {s : Shape} {f : Rat} {els els' : List (List (Term Rat))}
    (hlen : els.length = s.rows * s.cols) (hlen' : els'.length = s.rows * s.cols) {i j : Nat}
    (hi : i < s.rows) (hj : j < s.cols) :
    (ofElements s ((els.zip els').map fun (l, r) =>
      normalizeTerms (l ++ r.map fun (j, c) => (j, c * f)))).entry x i j =
        value x (els.getD (i * s.cols + j) []) + value x (els'.getD (i * s.cols + j) []) * f := by
  have hpos : i * s.cols + j < s.rows * s.cols := cell_lt hi hj
  rw [Affine.entry, valueAt_ofElements]
  simp [List.getD_eq_getElem?_getD, hlen, hlen', hpos, value_scaled]

theorem addScaled (hg : a.Denotes x g) (ha : a.HasType s) (hb : b.HasType t) (hh : b.Denotes x h)
    {u : Shape} (hu : Shape.broadcast? s.shape t.shape = some u) {f : Rat}
    (hr : a.addScaled b f = .ok r) :
    ∃ k, g.zipWith? (fun v w => v + w * f) h = some k ∧ r.Denotes x k := by
  obtain ⟨hsu, htu⟩ := Shape.broadcast?_fits hu
  obtain ⟨a', ha', hatype⟩ := ha.broadcast hsu
  obtain ⟨b', hb', hbtype⟩ := hb.broadcast htu
  rw [← ha.shape] at hsu hu
  rw [← hb.shape] at htu hu
  have hga := hg.broadcast hsu ha' hatype.shape
  have hhb := hh.broadcast htu hb' hbtype.shape
  have hlena := hatype.wellFormed.length_elements
  have hlenb := hbtype.wellFormed.length_elements
  rw [hatype.shape] at hlena
  rw [hbtype.shape] at hlenb
  rw [addScaled_eq f hu ha' hb'] at hr
  cases hr
  rw [Grid.zipWith?, hg.shape, hh.shape, hu]
  -- Both operands have been stretched, so they are read at the same position.
  refine ⟨_, rfl, rfl, fun i hi j hj => ?_⟩
  have hgrid := hga.entry i (by rwa [hatype.shape]) j (by rwa [hatype.shape])
  have hgrid' := hhb.entry i (by rwa [hbtype.shape]) j (by rwa [hbtype.shape])
  rw [Affine.entry, valueAt, hatype.shape] at hgrid
  rw [Affine.entry, valueAt, hbtype.shape] at hgrid'
  rw [entry_zip hlena hlenb hi hj, hgrid, hgrid']

theorem add (hg : a.Denotes x g) (ha : a.HasType s) (hb : b.HasType t) (hh : b.Denotes x h)
    {u : Shape} (hu : Shape.broadcast? s.shape t.shape = some u) (hr : a.add b = .ok r) :
    ∃ k, g.zipWith? (· + ·) h = some k ∧ r.Denotes x k := by
  simpa using hg.addScaled ha hb hh hu hr

theorem sub (hg : a.Denotes x g) (ha : a.HasType s) (hb : b.HasType t) (hh : b.Denotes x h)
    {u : Shape} (hu : Shape.broadcast? s.shape t.shape = some u) (hr : a.sub b = .ok r) :
    ∃ k, g.zipWith? (· - ·) h = some k ∧ r.Denotes x k := by
  simpa [sub_eq_add_neg] using hg.addScaled ha hb hh hu hr

/-! ## Products with numbers -/

theorem scale (hg : e.Denotes x g) (he : e.HasType t) (f : Rat) :
    (e.scale f).Denotes x (g.map fun v => v * f) where
  shape := hg.shape
  entry := by
    intro i hi j hj
    have hpos : i * e.shape.cols + j < e.elements.length :=
      he.wellFormed.length_elements ▸ cell_lt hi hj
    have hentry := hg.entry i hi j hj
    rw [Affine.entry, valueAt] at hentry
    rw [Affine.scale, normalize, elements_withScaled, Affine.entry, valueAt_ofElements]
    simpa [List.getD_eq_getElem?_getD, hpos, value_scaled, Grid.map] using congrArg (· * f) hentry

/-- The elements of the array of a matrix. -/
theorem getD_elements_dense {i j : Nat} (hi : i < g.shape.rows) (hj : j < g.shape.cols) :
    g.dense.elements.getD (i * g.shape.cols + j) 0 = g.entry i j := by
  simp [Grid.dense, Matrix.ofFn, getElem?_tabulate g.entry hi hj]

/-- An array has a single element if it has the shape of a single number. -/
theorem size_elements_dense : g.dense.elements.size = 1 ↔ g.shape = .scalar := by
  obtain ⟨⟨m, n⟩, f⟩ := g
  simp [Grid.dense, Matrix.ofFn, Shape.scalar]

/-- The factor of a position in an element-wise product: an array of a single number has the same
one for all positions. -/
theorem factor_eq {u : Shape} (hu : h.shape = u ∨ h.shape = .scalar) {i j : Nat} (hi : i < u.rows)
    (hj : j < u.cols) :
    h.dense.elements.getD (if h.dense.elements.size = 1 then 0 else i * u.cols + j) 0 =
      (h.stretch u).entry i j := by
  rw [Grid.stretch]
  -- a single number is read for every position, any other array has an element for each
  by_cases hscalar : h.shape = .scalar
  · have hzero : h.dense.elements.getD 0 0 = h.entry 0 0 := by
      simpa [hscalar, Shape.scalar] using @getD_elements_dense h 0 0
        (by simp [hscalar, Shape.scalar]) (by simp [hscalar, Shape.scalar])
    rw [if_pos (size_elements_dense.mpr hscalar), hzero]
    split
    · rename_i heq
      subst heq
      obtain rfl : i = 0 := by simpa [hscalar, Shape.scalar] using hi
      obtain rfl : j = 0 := by simpa [hscalar, Shape.scalar] using hj
      rfl
    · rfl
  · obtain rfl := hu.resolve_right hscalar
    rw [if_neg (mt size_elements_dense.mp hscalar), if_pos rfl]
    exact getD_elements_dense hi hj

theorem mulElementwise (hg : e.Denotes x g) (he : e.HasType t) {u : Shape}
    (hu : Shape.broadcast? t.shape h.shape = some u) (hr : e.mulElementwise h.dense = .ok r) :
    ∃ k, g.zipWith? (· * ·) h = some k ∧ r.Denotes x k := by
  obtain ⟨htu, hhu⟩ := Shape.broadcast?_fits hu
  obtain ⟨e', he', htype⟩ := he.broadcast htu
  rw [← he.shape] at htu hu
  have hge := hg.broadcast htu he' htype.shape
  rw [mulElementwise_eq (m := h.dense) hu he'] at hr
  cases hr
  rw [Grid.zipWith?, hg.shape, hu]
  refine ⟨_, rfl, denotes_combine rfl fun i hi j hj => ?_⟩
  have hentry := hge.entry i (by rwa [htype.shape]) j (by rwa [htype.shape])
  rw [Affine.entry, htype.shape] at hentry
  refine ⟨_, by rw [List.getElem?_map, List.getElem?_range (cell_lt hi hj)]; rfl, ?_⟩
  rw [List.map_singleton, List.sum_singleton, hentry, factor_eq hhu hi hj]

theorem mulLeft (hg : e.Denotes x g) (hr : e.mulLeft h.dense = .ok r) :
    ∃ k, h.product? g = some k ∧ r.Denotes x k := by
  unfold Affine.mulLeft at hr
  dsimp only at hr
  split at hr
  · cases hr
  rename_i hinner
  have hcols : h.shape.cols = g.shape.rows := by simpa [hg.shape, Grid.dense] using hinner
  cases hr
  rw [Grid.product?, if_pos hcols]
  refine ⟨_, rfl, denotes_combine_tabulate (by simp [hg.shape, Grid.dense]) fun i hi j hj => ?_⟩
  rw [sum_nonzero, sum_map_range]
  refine Finset.sum_congr rfl fun k hk => ?_
  -- Element k of column j is the one that row i of the numbers meets.
  have hk : k < h.shape.cols := Finset.mem_range.mp hk
  have hentry := hg.entry k (by rw [← hg.shape, ← hcols]; exact hk) j hj
  rw [Affine.entry] at hentry
  rw [hentry, mul_comm, ← getD_elements_dense hi hk]
  rfl

theorem mulRight (hg : e.Denotes x g) (hr : e.mulRight h.dense = .ok r) :
    ∃ k, g.product? h = some k ∧ r.Denotes x k := by
  unfold Affine.mulRight at hr
  dsimp only at hr
  split at hr
  · cases hr
  rename_i hinner
  have hcols : g.shape.cols = h.shape.rows := by simpa [hg.shape, Grid.dense] using hinner
  cases hr
  rw [Grid.product?, if_pos hcols]
  refine ⟨_, rfl, denotes_combine_tabulate (by simp [hg.shape, Grid.dense]) fun i hi j hj => ?_⟩
  rw [sum_nonzero, sum_map_range, hg.shape]
  refine Finset.sum_congr rfl fun k hk => ?_
  -- Element k of row i is the one that column j of the numbers meets.
  have hk : k < e.shape.cols := Finset.mem_range.mp hk
  have hentry := hg.entry i hi k hk
  rw [Affine.entry] at hentry
  rw [hentry, ← getD_elements_dense (by rw [← hcols, hg.shape]; exact hk) hj]
  rfl

/-! ## Rearrangements -/

theorem transpose (hg : e.Denotes x g) : e.transpose.Denotes x g.transpose := by
  refine denotes_combine_tabulate (by rw [Grid.transpose, hg.shape]) fun i hi j hj => ?_
  have hentry := hg.entry j hj i hi
  rw [Affine.entry] at hentry
  simp [hentry, Grid.transpose]

theorem total (hg : e.Denotes x g) (he : e.HasType t) : e.total.Denotes x g.total := by
  refine denotes_combine rfl fun i hi j hj => ?_
  obtain rfl : i = 0 := by simpa [Shape.scalar] using hi
  obtain rfl : j = 0 := by simpa [Shape.scalar] using hj
  refine ⟨_, rfl, ?_⟩
  -- The stored order is row-major, the sum of the matrix goes by rows and columns.
  rw [List.map_map, sum_map_range, he.wellFormed.count_eq, sum_positions, Grid.total, hg.shape]
  refine Finset.sum_congr rfl fun i hi => Finset.sum_congr rfl fun j hj => ?_
  have hentry := hg.entry i (Finset.mem_range.mp hi) j (Finset.mem_range.mp hj)
  rw [Affine.entry] at hentry
  simp [hentry]

theorem sumAxis (hg : e.Denotes x g) {axis : Nat} (hr : e.sumAxis axis = .ok r) :
    ∃ k, g.sumAxis? axis = some k ∧ r.Denotes x k := by
  unfold Affine.sumAxis at hr
  dsimp only at hr
  -- an element of the sum collects a column along the first axis and a row along the second
  split at hr
  · cases hr
    refine ⟨_, rfl, denotes_combine (by rw [hg.shape]) fun i hi j hj => ?_⟩
    obtain rfl : i = 0 := by simpa using hi
    refine ⟨_, by rw [List.getElem?_map, List.getElem?_range (by simpa using hj)]; rfl, ?_⟩
    rw [List.map_map, sum_map_range, hg.shape]
    refine Finset.sum_congr rfl fun i hi => ?_
    have hentry := hg.entry i (Finset.mem_range.mp hi) j hj
    rw [Affine.entry] at hentry
    simp [hentry]
  · cases hr
    refine ⟨_, rfl, denotes_combine (by rw [hg.shape]) fun i hi j hj => ?_⟩
    obtain rfl : j = 0 := by simpa using hj
    refine ⟨_, by rw [List.getElem?_map, List.getElem?_range (by simpa using hi)]; rfl, ?_⟩
    rw [List.map_map, sum_map_range, hg.shape]
    refine Finset.sum_congr rfl fun j hj => ?_
    have hentry := hg.entry i hi j (Finset.mem_range.mp hj)
    rw [Affine.entry] at hentry
    simp [hentry]
  · cases hr

theorem shift (hg : e.Denotes x g) (k : Int64) : (e.shift k).Denotes x (g.shift k.toInt) := by
  refine denotes_combine_tabulate hg.shape fun i hi j hj => ?_
  simp only [Grid.shift, hg.shape, ← shiftSource.eq_def]
  split_ifs with hsource
  · have hentry := hg.entry (shiftSource i k).toNat (by omega) j hj
    rw [Affine.entry] at hentry
    rw [List.map_singleton, List.sum_singleton, hentry, mul_one]
  · rfl

/-- A vector that is spread over a diagonal: its element `i` is the one at position `i`. -/
theorem denotes_spread {n : Nat} {v : Nat → Rat} (hv : ∀ i < n, e.valueAt x i = v i) :
    (e.combine ⟨n, n⟩ (tabulate ⟨n, n⟩ fun i j => if i = j then [(i, 1)] else [])).Denotes x
      ⟨⟨n, n⟩, fun i j => if i = j then v i else 0⟩ := by
  refine denotes_combine_tabulate rfl fun i hi j hj => ?_
  dsimp only
  split_ifs
  · rw [List.map_singleton, List.sum_singleton, hv i hi, mul_one]
  · rfl

theorem diagonal (hg : e.Denotes x g) (hr : e.diagonal = .ok r) :
    ∃ k, g.diagonal? = some k ∧ r.Denotes x k := by
  obtain ⟨⟨m, n⟩, f⟩ := g
  obtain ⟨hshape, hentry⟩ := hg
  simp only [Affine.diagonal, Affine.entry, ← hshape, Shape.isVector, Shape.isSquare,
    Bool.or_eq_true, beq_iff_eq] at hr hentry
  simp only [Grid.diagonal?]
  -- a vector is spread along the diagonal of a new matrix, a square is read along its own
  split_ifs at hr with hvector hsquare
  · cases hr
    by_cases hcols : n = 1
    · subst hcols
      rw [if_pos rfl, Nat.mul_one]
      exact ⟨_, rfl, denotes_spread fun i hi => by simpa using hentry i hi 0 Nat.one_pos⟩
    · obtain rfl : m = 1 := hvector.resolve_right hcols
      rw [if_neg hcols, if_pos rfl, Nat.one_mul]
      exact ⟨_, rfl, denotes_spread fun i hi => by simpa using hentry 0 Nat.one_pos i hi⟩
  · cases hr
    subst hsquare
    simp only [or_self] at hvector
    rw [if_neg hvector, if_neg hvector, if_pos rfl]
    refine ⟨_, rfl, denotes_combine rfl fun i hi j hj => ?_⟩
    obtain rfl : j = 0 := by simpa using hj
    refine ⟨_, by rw [List.getElem?_map, List.getElem?_range (by simpa using hi)]; rfl, ?_⟩
    simp only [Nat.add_zero, List.map_singleton, List.sum_singleton,
      hentry i hi i hi, mul_one]

/-! ## Numbers -/

/-- The matrix of an expression without variables is the array of what it denotes. -/
theorem constantValue?_eq (hg : e.Denotes x g) (he : e.HasType t) (hdata : t.linear = false) :
    e.constantValue? = some g.dense := by
  have hconst := he.constant hdata
  have hlen := he.wellFormed.length_elements
  rw [he.wellFormed.constantValue?_eq (he.isConstant hdata), Grid.dense, Matrix.ofFn, hg.shape]
  refine congrArg (fun data => some (Tensor.dense e.shape data)) ?_
  refine eq_tabulate (by simpa using hlen) fun i hi j hj => ?_
  have hpos : i * e.shape.cols + j < e.elements.length := hlen ▸ cell_lt hi hj
  have hentry := hg.entry i hi j hj
  rw [Affine.entry, valueAt, List.getD_eq_getElem?_getD, List.getElem?_eq_getElem hpos,
    Option.getD_some, value_constant (hconst _ (List.getElem_mem hpos))] at hentry
  rw [List.getElem?_map, List.getElem?_eq_getElem hpos, Option.map_some, hentry]

end Denotes

end CoupledModels.Affine
