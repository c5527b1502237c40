import Mathlib
import CoupledModels.Proofs.Arrays.Sparse

/-!
# Exact matrix algebra

Over the exact rationals a product of two arrays is the product of the matrices of their cells, and
the identity is the matrix with ones on the diagonal.  Both agree cell by cell with the matrices of
linear algebra, so what those have to say about inverses and determinants is said of arrays as well.
-/

namespace CoupledModels.Matrix

section Cells

variable {K : Type} [Scalar K]

omit [Scalar K] in
/-- A matrix of a function is that of any other function with the same values inside the shape. -/
theorem ofFn_congr {s : Shape} {f g : Nat → Nat → K}
    (h : ∀ i < s.rows, ∀ j < s.cols, f i j = g i j) : ofFn s f = ofFn s g := by
  refine congrArg (Tensor.dense s) (eq_tabulate (length_tabulate s f) fun i hi j hj => ?_)
  rw [getElem?_tabulate f hi hj, h i hi j hj]

/-- The cell in a row and a column, as a product reads it. -/
def cell (a : Matrix K) (i j : Nat) : K :=
  a.elements.getD (i * a.shape.cols + j) 0

theorem cell_ofFn {s : Shape} (f : Nat → Nat → K) {i j : Nat} (hi : i < s.rows) (hj : j < s.cols) :
    (ofFn s f).cell i j = f i j := by
  rw [cell, ← get_eq_elements (valid_ofFn s f), get_ofFn f hi hj]

/-- Storing every element leaves the cells as they are. -/
theorem toDense_eq_ofFn {a : Matrix K} (h : a.Valid) : a.toDense = ofFn a.shape a.cell := by
  have hcells : a.elements.toList = tabulate a.shape a.cell := by
    refine eq_tabulate (by simpa using h.size_elements) fun i hi j hj => ?_
    have hlt : i * a.shape.cols + j < a.elements.size := by
      simpa [h.size_elements] using cell_lt hi hj
    simp [cell, hlt]
  obtain ⟨s, pattern, data⟩ := a
  cases pattern with
  | none => simpa [Tensor.toDense, ofFn, Tensor.dense, Tensor.elements] using hcells
  | some ps => exact congrArg (Tensor.dense s) hcells

/-- Rows and columns meet on the diagonal where the sparse identity has its coefficients. -/
theorem cell_sparseIdentity {n i j : Nat} (hi : i < n) (hj : j < n) :
    (sparseIdentity n : Matrix K).cell i j = if i = j then 1 else 0 := by
  rw [cell, ← get_eq_elements (Tensor.HasShape.sparseIdentity n).valid]
  simp only [get, sparseIdentity]
  -- the coefficients stand at the multiples of `n + 1`
  cases hidx : ((List.range n).map fun k => k * (n + 1)).idxOf? (i * n + j) with
  | none =>
      have hne : i ≠ j := by
        rintro rfl
        refine List.idxOf?_eq_none_iff.mp hidx (List.mem_map.mpr ⟨i, List.mem_range.mpr hi, ?_⟩)
        exact Nat.mul_succ i n
      rw [if_neg hne]
  | some q =>
      obtain ⟨hq, hposition, -⟩ := List.idxOf?_eq_some_iff.mp hidx
      have hqn : q < n := by simpa using hq
      have heq : i * n + j = q * n + q := by simpa [Nat.mul_succ] using hposition.symm
      have hjq : j = q := by
        simpa [Nat.mul_add_mod_self_right, Nat.mod_eq_of_lt, hj, hqn] using congrArg (· % n) heq
      have hiq : i = q := Nat.eq_of_mul_eq_mul_right (Nat.zero_lt_of_lt hqn) (by omega)
      simp [hiq, hjq, hqn]

theorem identity_eq_ofFn (n : Nat) :
    (identity n : Matrix K) = ofFn ⟨n, n⟩ fun i j => if i = j then 1 else 0 := by
  rw [identity, toDense_eq_ofFn (Tensor.HasShape.sparseIdentity n).valid]
  exact ofFn_congr fun i hi j hj => cell_sparseIdentity hi hj

end Cells

/-! ## Products -/

variable {a b : Matrix Rat} {n : Nat}

/-- Factors that are zero can be skipped, because their products are. -/
theorem foldl_product (k : Nat) (x y : Nat → Rat) :
    (List.range k).foldl (fun t p => if Scalar.isZero (x p) then t else t + x p * y p) 0 =
      ∑ p ∈ Finset.range k, x p * y p := by
  induction k with
  | zero => rfl
  | succ k ih =>
      rw [List.range_succ, List.foldl_append, ih, Finset.sum_range_succ]
      by_cases hx : x k = 0 <;> simp [hx, Scalar.isZero, Scalar.eqv]

theorem product_eq (h : a.shape.cols = b.shape.rows) :
    a.product b = .ok (ofFn ⟨a.shape.rows, b.shape.cols⟩ fun i j =>
      ∑ p ∈ Finset.range a.shape.cols, a.cell i p * b.cell p j) := by
  unfold product
  rw [if_neg (not_not.mpr h)]
  refine congrArg Except.ok (ofFn_congr fun i _ j _ => ?_)
  exact foldl_product a.shape.cols (a.cell i) fun p => b.cell p j

/-- The cells of an array as a matrix of linear algebra. -/
def square (a : Matrix Rat) (n : Nat) :=
  Matrix.of fun i j : Fin n => a.cell i j

/-- Square arrays whose matrices are inverse to each other have the identity as their product. -/
theorem product_eq_identity (ha : a.shape = ⟨n, n⟩) (hb : b.shape = ⟨n, n⟩)
    (h : a.square n * b.square n = 1) : a.product b = .ok (identity n) := by
  rw [product_eq (by rw [ha, hb]), ha, hb, identity_eq_ofFn]
  refine congrArg Except.ok (ofFn_congr fun i hi j hj => ?_)
  have hcell := congrFun (congrFun h ⟨i, hi⟩) ⟨j, hj⟩
  rw [Matrix.mul_apply, Matrix.one_apply] at hcell
  rw [Finset.sum_range]
  simpa [square] using hcell

end CoupledModels.Matrix
