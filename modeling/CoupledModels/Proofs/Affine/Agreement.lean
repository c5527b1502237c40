import CoupledModels.Proofs.Affine.Denotation
import CoupledModels.Proofs.Arrays.Algebra
import CoupledModels.Proofs.Arrays.Alike

/-!
# Expressions of numbers against arrays

Matrices of numbers can be computed in two ways, as arrays or as expressions without variables.  The
first way goes through rows of elements and skips zero factors, the second puts lists of terms
together and drops zero coefficients.  Over the exact rationals both give the same numbers, for all
shapes and all ways of storing the operands.
-/

namespace CoupledModels

/-! ## Arrays and the matrices that they denote -/

theorem zip_tabulate {α β : Type} (s : Shape) (f : Nat → Nat → α) (g : Nat → Nat → β) :
    (tabulate s f).zip (tabulate s g) = tabulate s fun i j => (f i j, g i j) := by
  refine eq_tabulate (by simp) fun i hi j hj => ?_
  exact List.getElem?_zip_eq_some.mpr ⟨getElem?_tabulate f hi hj, getElem?_tabulate g hi hj⟩

namespace Matrix

variable {a b : Matrix Rat}

theorem get_eq_cell (h : a.Valid) (i j : Nat) : a.get i j = a.cell i j :=
  get_eq_elements h i j

theorem dense_ofMatrix (h : a.Valid) : (Grid.ofMatrix a).dense = a.toDense := by
  rw [toDense_eq_ofFn h]
  exact ofFn_congr fun i _ j _ => get_eq_cell h i j

theorem alike_dense_ofMatrix (h : a.Valid) : (Grid.ofMatrix a).dense.Alike a := by
  rw [dense_ofMatrix h]
  exact Tensor.alike_toDense a

/-- The product of two arrays is the array of the product of what they denote. -/
theorem product_of_grid {k : Grid} (ha : a.Valid) (hb : b.Valid)
    (hk : (Grid.ofMatrix a).product? (Grid.ofMatrix b) = some k) : a.product b = .ok k.dense := by
  unfold Grid.product? at hk
  split at hk
  · rename_i hinner
    cases hk
    rw [product_eq hinner]
    refine congrArg Except.ok (ofFn_congr fun i _ j _ => ?_)
    refine Finset.sum_congr rfl fun p _ => ?_
    rw [← get_eq_cell ha, ← get_eq_cell hb]
    rfl
  · cases hk

theorem elements_eq (h : a.Valid) : a.elements.toList = tabulate a.shape a.cell := by
  have hdense := toDense_eq_ofFn h
  rw [Tensor.toDense_eq] at hdense
  exact congrArg Tensor.data hdense

theorem elementwise_of_grid {k : Grid} (ha : a.Valid) (hb : b.Valid) (hshape : a.shape = b.shape)
    (hk : (Grid.ofMatrix a).zipWith? (· * ·) (Grid.ofMatrix b) = some k) :
    a.elementwise b = .ok k.dense := by
  -- Neither operand is a single number that stretches, unless both are.
  have hstretch : k = ⟨a.shape, fun i j => a.get i j * b.get i j⟩ := by
    simpa [Grid.zipWith?, Grid.stretch, Grid.ofMatrix, Shape.broadcast?, hshape] using hk.symm
  rw [hstretch, elementwise, if_neg (not_not.mpr hshape), elements_eq ha, elements_eq hb, ← hshape]
  rw [zip_tabulate, map_tabulate]
  refine congrArg Except.ok (ofFn_congr fun i _ j _ => ?_)
  rw [← get_eq_cell ha, ← get_eq_cell hb]

theorem transpose_eq (h : a.Valid) : a.transpose = (Grid.ofMatrix a).transpose.dense := by
  refine ofFn_congr fun i _ j _ => ?_
  exact (get_eq_cell h j i).symm

theorem toDense_scale_eq (h : a.Valid) (s : Rat) :
    (a.scale s).toDense = ((Grid.ofMatrix a).map fun v => v * s).dense := by
  rw [Tensor.toDense_eq, Tensor.elements_scale, Array.toList_map, elements_eq h, map_tabulate]
  refine ofFn_congr fun i _ j _ => ?_
  exact congrArg (· * s) (get_eq_cell h i j).symm

end Matrix

/-! ## Expressions of arrays -/

namespace Affine

variable {a a' b b' : Matrix Rat} {s : Rat} {e : Affine Rat}

theorem ofMatrix_congr (h : a.Alike a') : ofMatrix a = ofMatrix a' := by
  unfold ofMatrix
  rw [h.shape, h.elements]

theorem mulLeft_congr (h : a.Alike a') : e.mulLeft a = e.mulLeft a' := by
  unfold mulLeft
  rw [h.shape, h.elements]

theorem mulRight_congr (h : a.Alike a') : e.mulRight a = e.mulRight a' := by
  unfold mulRight
  rw [h.shape, h.elements]

theorem mulElementwise_congr (h : a.Alike a') : e.mulElementwise a = e.mulElementwise a' := by
  unfold mulElementwise
  rw [h.shape, h.elements]

/-- A computed expression that denotes the matrix of a computed array. -/
theorem agrees_of_denotes {x : Except ArrayError (Affine Rat)} {y : Except ArrayError (Matrix Rat)}
    {r : Affine Rat} {t : FormulaType} {k : Grid} (hx : x = .ok r) (hy : y = .ok k.dense)
    (hr : r.HasType t) (hdata : t.linear = false) (hk : r.Denotes (fun _ => 0) k) :
    x.map constantValue? = y.map some := by
  rw [hx, hy, Except.map, Except.map, hk.constantValue?_eq hr hdata]

theorem mulLeft_agrees (ha : a.Valid) (hb : b.Valid) :
    ((ofMatrix b).mulLeft a).map constantValue? = (a.product b).map some := by
  by_cases hinner : a.shape.cols = b.shape.rows
  · -- The lemmas on what operations denote are about dense arrays, so the numbers are stored
    -- densely first.
    obtain ⟨r, hr, htype⟩ := (HasType.ofMatrix hb).mulLeft hinner
    have hdenotes : (ofMatrix b).Denotes (fun _ => 0) (Grid.ofMatrix b) := denotes_ofMatrix hb
    obtain ⟨k, hk, hrk⟩ := hdenotes.mulLeft
      ((mulLeft_congr (Matrix.alike_dense_ofMatrix ha)).trans hr)
    exact agrees_of_denotes hr (Matrix.product_of_grid ha hb hk) htype rfl hrk
  · -- Both ways report the two shapes.
    have hleft : (ofMatrix b).mulLeft a = .error (.product a.shape b.shape) := if_pos hinner
    have hproduct : a.product b = .error (.product a.shape b.shape) := if_pos hinner
    rw [hleft, hproduct]
    rfl

theorem mulRight_agrees (ha : a.Valid) (hb : b.Valid) :
    ((ofMatrix a).mulRight b).map constantValue? = (a.product b).map some := by
  by_cases hinner : a.shape.cols = b.shape.rows
  · obtain ⟨r, hr, htype⟩ := (HasType.ofMatrix ha).mulRight hinner
    have hdenotes : (ofMatrix a).Denotes (fun _ => 0) (Grid.ofMatrix a) := denotes_ofMatrix ha
    obtain ⟨k, hk, hrk⟩ := hdenotes.mulRight
      ((mulRight_congr (Matrix.alike_dense_ofMatrix hb)).trans hr)
    exact agrees_of_denotes hr (Matrix.product_of_grid ha hb hk) htype rfl hrk
  · have hright : (ofMatrix a).mulRight b = .error (.product a.shape b.shape) := if_pos hinner
    have hproduct : a.product b = .error (.product a.shape b.shape) := if_pos hinner
    rw [hright, hproduct]
    rfl

theorem mulElementwise_agrees (ha : a.Valid) (hb : b.Valid) (hshape : a.shape = b.shape) :
    ((ofMatrix a).mulElementwise b).map constantValue? = (a.elementwise b).map some := by
  have hbroadcast : Shape.broadcast? a.shape b.shape = some a.shape := by
    simp [Shape.broadcast?, hshape]
  obtain ⟨r, hr, htype⟩ := (HasType.ofMatrix ha).mulElementwise hbroadcast
  have hdenotes : (ofMatrix a).Denotes (fun _ => 0) (Grid.ofMatrix a) := denotes_ofMatrix ha
  obtain ⟨k, hk, hrk⟩ := hdenotes.mulElementwise (HasType.ofMatrix ha) hbroadcast
    ((mulElementwise_congr (Matrix.alike_dense_ofMatrix hb)).trans hr)
  exact agrees_of_denotes hr (Matrix.elementwise_of_grid ha hb hshape hk) htype rfl hrk

theorem transpose_agrees (h : a.Valid) :
    (ofMatrix a).transpose.constantValue? = some a.transpose := by
  have hdenotes : (ofMatrix a).Denotes (fun _ => 0) (Grid.ofMatrix a) := denotes_ofMatrix h
  rw [Matrix.transpose_eq h]
  exact hdenotes.transpose.constantValue?_eq (HasType.ofMatrix h).transpose rfl

theorem scale_agrees (h : a.Valid) :
    ((ofMatrix a).scale s).constantValue? = some (a.scale s).toDense := by
  have hdenotes : (ofMatrix a).Denotes (fun _ => 0) (Grid.ofMatrix a) := denotes_ofMatrix h
  have htype := HasType.ofMatrix h
  rw [Matrix.toDense_scale_eq h]
  exact (hdenotes.scale htype s).constantValue?_eq (htype.scale s) rfl

/-- The array operations and the expression operations give the same numbers, and fail alike. -/
structure Agrees (a b : Matrix Rat) (s : Rat) : Prop where
  left : ((ofMatrix b).mulLeft a).map constantValue? = (a.product b).map some
  right : ((ofMatrix a).mulRight b).map constantValue? = (a.product b).map some
  elementwise : a.shape = b.shape →
    ((ofMatrix a).mulElementwise b).map constantValue? = (a.elementwise b).map some
  transpose : (ofMatrix a).transpose.constantValue? = some a.transpose
  scale : ((ofMatrix a).scale s).constantValue? = some (a.scale s).toDense

/-- Every operation gives the same with the arrays `a'` and `b'` as with `a` and `b`. -/
structure SameResults (a b a' b' : Matrix Rat) (s : Rat) : Prop where
  product : a'.product b' = a.product b
  elementwise : a'.elementwise b' = a.elementwise b
  transpose : a'.transpose = a.transpose
  scale : (a'.scale s).toDense = (a.scale s).toDense
  expressionLeft : (ofMatrix b').mulLeft a' = (ofMatrix b).mulLeft a
  expressionRight : (ofMatrix a').mulRight b' = (ofMatrix a).mulRight b
  expressionElementwise : (ofMatrix a').mulElementwise b' = (ofMatrix a).mulElementwise b
  expressionTranspose : (ofMatrix a').transpose = (ofMatrix a).transpose
  expressionScale : (ofMatrix a').scale s = (ofMatrix a).scale s

theorem sameResults_of_alike (ha : a'.Alike a) (hb : b'.Alike b) : SameResults a b a' b' s where
  product := Matrix.product_congr ha hb
  elementwise := Matrix.elementwise_congr ha hb
  transpose := Matrix.transpose_congr ha
  scale := (ha.scale s).toDense_eq
  expressionLeft := by rw [ofMatrix_congr hb, mulLeft_congr ha]
  expressionRight := by rw [ofMatrix_congr ha, mulRight_congr hb]
  expressionElementwise := by rw [ofMatrix_congr ha, mulElementwise_congr hb]
  expressionTranspose := by rw [ofMatrix_congr ha]
  expressionScale := by rw [ofMatrix_congr ha]

/-- Expressions of numbers and arrays agree for all arrays and all multiples, and it does not matter
which elements the arrays store. -/
theorem expressions_agree_with_arrays (a b : Matrix Rat) (s : Rat) (ha : a.Valid) (hb : b.Valid) :
    Agrees a b s ∧ ∀ a' ∈ [a, a.toDense], ∀ b' ∈ [b, b.toDense], SameResults a b a' b' s := by
  constructor
  · exact ⟨mulLeft_agrees ha hb, mulRight_agrees ha hb, mulElementwise_agrees ha hb,
      transpose_agrees ha, scale_agrees ha⟩
  · have halike : ∀ m : Matrix Rat, ∀ m' ∈ [m, m.toDense], m'.Alike m := by
      intro m m' hm'
      simp only [List.mem_cons, List.not_mem_nil, or_false] at hm'
      rcases hm' with rfl | rfl
      · exact Tensor.Alike.refl m'
      · exact Tensor.alike_toDense m
    intro a' ha' b' hb'
    exact sameResults_of_alike (halike a a' ha') (halike b b' hb')

/-- Two of four elements are stored; the others are zero. -/
def antidiagonal : Matrix Rat :=
  ⟨⟨2, 2⟩, some [1, 2], [1 / 2, -3]⟩

/-- All of four elements are stored, one of them zero. -/
def withZero : Matrix Rat :=
  Tensor.dense ⟨2, 2⟩ [1, 0, 2, 5]

theorem expressions_agree_with_arrays_stored :
    antidiagonal.Valid ∧ withZero.Valid ∧ Agrees antidiagonal withZero (2 / 3) ∧
      SameResults antidiagonal withZero antidiagonal.toDense withZero (2 / 3) := by
  have ha : antidiagonal.Valid := by rfl
  have hb : withZero.Valid := by rfl
  obtain ⟨hagrees, hsame⟩ := expressions_agree_with_arrays antidiagonal withZero (2 / 3) ha hb
  exact ⟨ha, hb, hagrees, hsame antidiagonal.toDense (by simp) withZero (by simp)⟩

example : antidiagonal.product withZero = .ok (Tensor.dense ⟨2, 2⟩ [1, 5 / 2, -3, 0]) := by
  decide +kernel

end Affine

end CoupledModels
