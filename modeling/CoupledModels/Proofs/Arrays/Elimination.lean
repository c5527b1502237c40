import CoupledModels.Proofs.Arrays.Algebra
import CoupledModels.Proofs.Number.Exact

/-!
# Gauss-Jordan elimination

Elimination works on the rows of a matrix beside those of a growing inverse.  All along, each right
side times the matrix is the left side, because dividing a row and subtracting one from another are
linear; and once a column has been dealt with it stays that of the identity, because pivots are
sought below.  After the last column the left sides are the identity, so the right sides are an
inverse.  If no candidate reaches the limit for pivots the matrix counts as singular, so a singular
matrix is always found out, and nothing is ever divided by zero.
-/

namespace CoupledModels.Matrix

open Finset

section Steps

variable {K : Type} [Scalar K]

omit [Scalar K] in
/-- The row of a number; rows that do not exist are empty. -/
def rowAt (rows : Array (PairedRow K)) (i : Nat) : PairedRow K :=
  rows.getD i ⟨[], []⟩

/-- The rows of a matrix beside those of the identity. -/
def paired (a : Matrix K) : Array (PairedRow K) :=
  Array.ofFn fun i : Fin a.shape.rows =>
    ⟨(List.range a.shape.rows).map fun j => a.elements.getD (i * a.shape.rows + j) 0,
      (List.range a.shape.rows).map fun j => if i.val = j then 1 else 0⟩

/-- The rows after the elimination of the first columns. -/
def eliminated (a : Matrix K) (c : Nat) : Except ArrayError (Array (PairedRow K)) :=
  (List.range c).foldlM eliminate (paired a)

/-- The rows with that of the pivot of a column moved to the diagonal. -/
def exchanged (rows : Array (PairedRow K)) (c : Nat) : Array (PairedRow K) :=
  rows.swapIfInBounds (pivotRow rows c) c

/-- The number that the row of the pivot is divided by. -/
def pivotOf (rows : Array (PairedRow K)) (c : Nat) : K :=
  (rowAt (exchanged rows c) c).entry c

/-- The rows after multiples of a row have been subtracted from all others. -/
def cleared (rows : Array (PairedRow K)) (c : Nat) (pivot : PairedRow K) : Array (PairedRow K) :=
  rows.mapIdx fun i r =>
    if i = c then pivot
    else if Scalar.isZero (r.entry c) then r
    else r.subtract (r.entry c) pivot

theorem inverse_eq {a : Matrix K} (h : a.shape.isSquare = true) :
    inverse a = (eliminated a a.shape.rows).map fun rows =>
      Tensor.dense ⟨a.shape.rows, a.shape.rows⟩ (rows.toList.flatMap PairedRow.right) := by
  unfold inverse
  rw [h]
  rfl

theorem eliminated_succ (a : Matrix K) (c : Nat) :
    eliminated a (c + 1) = eliminated a c >>= fun rows => eliminate rows c := by
  rw [eliminated, List.range_succ, List.foldlM_append]
  exact bind_congr fun rows => by simp

theorem eliminate_eq (rows : Array (PairedRow K)) (c : Nat) :
    eliminate rows c =
      if Scalar.lt (Scalar.abs (pivotOf rows c)) pivotLimit then .error .singular
      else .ok (cleared (exchanged rows c) c
        ((rowAt (exchanged rows c) c).divide (pivotOf rows c))) := rfl

/-- An error stems from the first column that cannot be eliminated. -/
theorem eliminated_eq_error_iff {a : Matrix K} {n : Nat} {e : ArrayError} :
    eliminated a n = .error e ↔
      ∃ c < n, ∃ rows, eliminated a c = .ok rows ∧ eliminate rows c = .error e := by
  induction n with
  | zero => simp [eliminated, pure, Except.pure]
  | succ n ih => rw [eliminated_succ, bind_eq_error_iff, ih, Nat.exists_lt_succ_right]

end Steps

variable {A : Nat → Nat → Rat} {r pivot : PairedRow Rat} {rows rows' : Array (PairedRow Rat)}
  {a b : Matrix Rat} {n c p : Nat}

/-! ## Pivots -/

theorem pivotLimit_pos : 0 < (pivotLimit : Rat) := by decide +kernel

theorem magnitudeLe_rat (p q : Rat) : Scalar.magnitudeLe p q = true ↔ |p| ≤ |q| := by
  simp only [Scalar.magnitudeLe, Scalar.isNaN, Scalar.le, Scalar.lt, Scalar.eqv, Scalar.abs_rat,
    Bool.false_or, Bool.or_eq_true, decide_eq_true_eq, beq_iff_eq]
  exact le_iff_lt_or_eq.symm

/-- Going through the candidates keeps the largest one so far. -/
theorem largest_candidate (f : Nat → Rat) (c k : Nat) :
    let best := (List.range' (c + 1) k).foldl
      (fun best i => if Scalar.magnitudeLe (f best) (f i) then i else best) c
    c ≤ best ∧ best ≤ c + k ∧ ∀ i, c ≤ i → i ≤ c + k → |f i| ≤ |f best| := by
  induction k with
  | zero =>
      refine ⟨le_rfl, le_rfl, fun i hci hic => ?_⟩
      rw [le_antisymm hic hci]
      rfl
  | succ k ih =>
      rw [List.range'_1_concat, List.foldl_append]
      dsimp only at ih ⊢
      generalize (List.range' (c + 1) k).foldl _ c = best at ih ⊢
      obtain ⟨hle, hlt, hlargest⟩ := ih
      simp only [List.foldl_cons, List.foldl_nil]
      -- the new candidate is at least as large as the best one so far, or smaller
      split
      · rename_i hlarger
        rw [magnitudeLe_rat] at hlarger
        refine ⟨by omega, by omega, fun i hci hic => ?_⟩
        rcases Nat.lt_or_ge i (c + 1 + k) with hlt | hge
        · exact (hlargest i hci (by omega)).trans hlarger
        · rw [show i = c + 1 + k by omega]
      · rename_i hsmaller
        rw [magnitudeLe_rat, not_le] at hsmaller
        refine ⟨hle, by omega, fun i hci hic => ?_⟩
        rcases Nat.lt_or_ge i (c + 1 + k) with hlt | hge
        · exact hlargest i hci (by omega)
        · rw [show i = c + 1 + k by omega]
          exact hsmaller.le

theorem pivotRow_spec (hc : c < rows.size) :
    c ≤ pivotRow rows c ∧ pivotRow rows c < rows.size ∧ ∀ i, c ≤ i → i < rows.size →
      |(rowAt rows i).entry c| ≤ |(rowAt rows (pivotRow rows c)).entry c| := by
  obtain ⟨hle, hlt, hlargest⟩ :=
    largest_candidate (fun i => (rowAt rows i).entry c) c (rows.size - (c + 1))
  refine ⟨hle, ?_, fun i hci hi => hlargest i hci (by omega)⟩
  exact Nat.lt_of_le_of_lt hlt (by omega)

/-! ## Row operations -/

section Rows

theorem getD_map_div (xs : List Rat) (d : Rat) (i : Nat) :
    (xs.map (· / d)).getD i 0 = xs.getD i 0 / d := by
  have hmap := List.getD_map xs 0 (n := i) (· / d)
  rwa [zero_div] at hmap

theorem getD_zipWith_sub {xs ys : List Rat} (h : xs.length = ys.length) (f : Rat) (i : Nat) :
    (List.zipWith (fun x p => x - f * p) xs ys).getD i 0 = xs.getD i 0 - f * ys.getD i 0 := by
  by_cases hi : i < xs.length
  · simp [List.getD_eq_getElem?_getD, hi, h ▸ hi]
  · simp [List.getD_eq_getElem?_getD, Nat.not_lt.mp hi, h ▸ Nat.not_lt.mp hi]

/-- A right side that, times a matrix, gives the left side. -/
structure PairedRow.Carries (n : Nat) (A : Nat → Nat → Rat) (r : PairedRow Rat) : Prop where
  left : r.left.length = n
  right : r.right.length = n
  product : ∀ j < n, ∑ p ∈ range n, r.right.getD p 0 * A p j = r.entry j

theorem PairedRow.entry_divide (r : PairedRow Rat) (d : Rat) (j : Nat) :
    (r.divide d).entry j = r.entry j / d :=
  getD_map_div r.left d j

theorem PairedRow.Carries.divide (h : r.Carries n A) (d : Rat) : (r.divide d).Carries n A where
  left := by simpa [PairedRow.divide] using h.left
  right := by simpa [PairedRow.divide] using h.right
  product := by
    intro j hj
    rw [PairedRow.entry_divide, ← h.product j hj, Finset.sum_div]
    refine sum_congr rfl fun p _ => ?_
    rw [PairedRow.divide, getD_map_div, div_mul_eq_mul_div]

theorem PairedRow.Carries.entry_subtract (h : r.Carries n A) (hpivot : pivot.Carries n A) (f : Rat)
    (j : Nat) : (r.subtract f pivot).entry j = r.entry j - f * pivot.entry j :=
  getD_zipWith_sub (h.left.trans hpivot.left.symm) f j

theorem PairedRow.Carries.subtract (h : r.Carries n A) (hpivot : pivot.Carries n A) (f : Rat) :
    (r.subtract f pivot).Carries n A where
  left := by simp [PairedRow.subtract, h.left, hpivot.left]
  right := by simp [PairedRow.subtract, h.right, hpivot.right]
  product := by
    intro j hj
    rw [h.entry_subtract hpivot, ← h.product j hj, ← hpivot.product j hj, mul_sum,
      ← sum_sub_distrib]
    refine sum_congr rfl fun p _ => ?_
    rw [PairedRow.subtract, getD_zipWith_sub (h.right.trans hpivot.right.symm), sub_mul, mul_assoc]

end Rows

/-! ## Columns -/

theorem rowAt_swapIfInBounds (hp : p < rows.size) (hc : c < rows.size) (i : Nat) :
    rowAt (rows.swapIfInBounds p c) i =
      if i = c then rowAt rows p else if i = p then rowAt rows c else rowAt rows i := by
  rw [rowAt, Array.swapIfInBounds_def, dif_pos hp, dif_pos hc, Array.getD_eq_getD_getElem?,
    Array.getElem?_swap]
  simp only [@eq_comm _ c i, @eq_comm _ p i]
  split_ifs with hic hip
  · simp [rowAt, hp]
  · simp [rowAt, hc]
  · rw [rowAt, Array.getD_eq_getD_getElem?]

theorem rowAt_cleared {i : Nat} (hi : i < rows.size) :
    rowAt (cleared rows c pivot) i =
      if i = c then pivot
      else if (rowAt rows i).entry c = 0 then rowAt rows i
      else (rowAt rows i).subtract ((rowAt rows i).entry c) pivot := by
  simp [rowAt, cleared, Array.getD_eq_getD_getElem?, hi, Scalar.isZero, Scalar.eqv]

/-- What the elimination of columns keeps.  Every right side times the matrix is the left side, and
the columns that have been eliminated are those of the identity. -/
structure Reduced (n : Nat) (A : Nat → Nat → Rat) (c : Nat) (rows : Array (PairedRow Rat)) :
    Prop where
  size : rows.size = n
  carries : ∀ i < n, (rowAt rows i).Carries n A
  unit : ∀ i < n, ∀ j < c, (rowAt rows i).entry j = if i = j then 1 else 0

namespace Reduced

theorem swap (h : Reduced n A c rows) (hcp : c ≤ p) (hp : p < n) :
    Reduced n A c (rows.swapIfInBounds p c) where
  size := by simpa using h.size
  carries := by
    intro i hi
    rw [rowAt_swapIfInBounds (h.size ▸ hp) (by have := h.size; omega)]
    split_ifs
    · exact h.carries p hp
    · exact h.carries c (by omega)
    · exact h.carries i hi
  unit := by
    intro i hi j hj
    -- Neither of the two rows has its diagonal among the columns before `c`.
    rw [rowAt_swapIfInBounds (h.size ▸ hp) (by have := h.size; omega)]
    by_cases hic : i = c
    · rw [if_pos hic, h.unit p hp j hj, if_neg (by omega), if_neg (by omega)]
    by_cases hip : i = p
    · rw [if_neg hic, if_pos hip, h.unit c (by omega) j hj, if_neg (by omega), if_neg (by omega)]
    · rw [if_neg hic, if_neg hip, h.unit i hi j hj]

theorem exchanged (h : Reduced n A c rows) (hc : c < n) : Reduced n A c (exchanged rows c) := by
  obtain ⟨hle, hlt, -⟩ := pivotRow_spec (h.size.symm ▸ hc)
  exact h.swap hle (h.size ▸ hlt)

/-- The columns of the row of the pivot after its division, up to the pivot itself. -/
theorem entry_pivot (h : Reduced n A c rows) (hc : c < n) (hd : (rowAt rows c).entry c ≠ 0)
    {j : Nat} (hj : j < c + 1) :
    ((rowAt rows c).divide ((rowAt rows c).entry c)).entry j = if j = c then 1 else 0 := by
  rw [PairedRow.entry_divide]
  by_cases hjc : j = c
  · rw [if_pos hjc, hjc, div_self hd]
  · rw [if_neg hjc, h.unit c hc j (by omega), if_neg (by omega), zero_div]

theorem cleared (h : Reduced n A c rows) (hc : c < n) (hd : (rowAt rows c).entry c ≠ 0) :
    Reduced n A (c + 1)
      (cleared rows c ((rowAt rows c).divide ((rowAt rows c).entry c))) where
  size := by simpa [Matrix.cleared] using h.size
  carries := by
    intro i hi
    rw [rowAt_cleared (h.size.symm ▸ hi)]
    have hpivot := (h.carries c hc).divide ((rowAt rows c).entry c)
    split_ifs
    · exact hpivot
    · exact h.carries i hi
    · exact (h.carries i hi).subtract hpivot _
  unit := by
    intro i hi j hj
    rw [rowAt_cleared (h.size.symm ▸ hi)]
    -- in the column of the pivot the entries become zero or one, in those before it the pivot row
    -- has zeros
    by_cases hic : i = c
    · rw [if_pos hic, h.entry_pivot hc hd hj, hic]
      exact if_congr eq_comm rfl rfl
    rw [if_neg hic]
    have hbefore : j ≠ c → (rowAt rows i).entry j = if i = j then 1 else 0 := fun hjc =>
      h.unit i hi j (by omega)
    by_cases hzero : (rowAt rows i).entry c = 0
    · rw [if_pos hzero]
      by_cases hjc : j = c
      · rw [hjc, hzero, if_neg hic]
      · exact hbefore hjc
    · have hpivot := (h.carries c hc).divide ((rowAt rows c).entry c)
      rw [if_neg hzero, (h.carries i hi).entry_subtract hpivot, h.entry_pivot hc hd hj]
      by_cases hjc : j = c
      · rw [if_pos hjc, hjc, mul_one, sub_self, if_neg hic]
      · rw [if_neg hjc, mul_zero, sub_zero, hbefore hjc]

end Reduced

/-! ## One column -/

/-- The pivot is the largest candidate in magnitude, so it is too small only if all are. -/
theorem eliminate_eq_error_iff {e : ArrayError} (hc : c < rows.size) :
    eliminate rows c = .error e ↔ e = .singular ∧
      ∀ i, c ≤ i → i < rows.size → |(rowAt rows i).entry c| < pivotLimit := by
  obtain ⟨hle, hlt, hlargest⟩ := pivotRow_spec hc
  have hpivot : pivotOf rows c = (rowAt rows (pivotRow rows c)).entry c := by
    rw [pivotOf, exchanged, rowAt_swapIfInBounds hlt hc, if_pos rfl]
  simp only [eliminate_eq, Scalar.abs_rat, Scalar.lt, decide_eq_true_eq]
  split_ifs with hsmall
  · refine ⟨fun h => ⟨(Except.error.inj h).symm, fun i hci hi => ?_⟩, fun h => by rw [h.1]⟩
    exact (hlargest i hci hi).trans_lt (hpivot ▸ hsmall)
  · refine ⟨fun h => (by cases h), fun h => absurd ?_ hsmall⟩
    exact hpivot ▸ h.2 _ hle hlt

theorem pivotOf_ne_zero (h : ¬ Scalar.lt (Scalar.abs (pivotOf rows c)) pivotLimit = true) :
    pivotOf rows c ≠ 0 := by
  intro hzero
  simp only [Scalar.abs_rat, Scalar.lt, decide_eq_true_eq, hzero, abs_zero] at h
  exact h pivotLimit_pos

theorem Reduced.eliminate (h : Reduced n A c rows) (hc : c < n)
    (hrows : eliminate rows c = .ok rows') : Reduced n A (c + 1) rows' := by
  rw [eliminate_eq] at hrows
  split at hrows
  · cases hrows
  · rename_i hlarge
    cases hrows
    exact (h.exchanged hc).cleared hc (pivotOf_ne_zero hlarge)

/-! ## The whole elimination -/

theorem reduced_paired (ha : a.shape = ⟨n, n⟩) : Reduced n a.cell 0 (paired a) where
  size := by simp [paired, ha]
  carries := by
    intro i hi
    have hrow : rowAt (paired a) i =
        ⟨(List.range n).map fun j => a.cell i j,
          (List.range n).map fun j => if i = j then 1 else 0⟩ := by
      simp [rowAt, paired, cell, ha, hi]
    rw [hrow]
    refine ⟨by simp, by simp, fun j hj => ?_⟩
    -- The right side is that of the identity, which picks the row itself.
    have hterm : ∀ p ∈ range n,
        ((List.range n).map fun p => if i = p then (1 : Rat) else 0).getD p 0 * a.cell p j =
          if i = p then a.cell p j else 0 := fun p hp => by simp [mem_range.mp hp]
    rw [sum_congr rfl hterm, sum_ite_eq, if_pos (mem_range.mpr hi)]
    simp [PairedRow.entry, hj]
  unit := fun i _ j hj => absurd hj (Nat.not_lt_zero j)

theorem reduced_eliminated (ha : a.shape = ⟨n, n⟩) (hc : c ≤ n)
    (hrows : eliminated a c = .ok rows) : Reduced n a.cell c rows := by
  induction c generalizing rows with
  | zero =>
      cases hrows
      exact reduced_paired ha
  | succ c ih =>
      rw [eliminated_succ] at hrows
      obtain ⟨before, hbefore, hstep⟩ := exists_of_bind_eq_ok hrows
      exact (ih (by omega) hbefore).eliminate hc hstep

theorem eq_map_getD {α : Type} (xs : List α) (d : α) :
    xs = (List.range xs.length).map fun i => xs.getD i d := by
  refine List.ext_getElem (by simp) fun i hi _ => ?_
  simp [hi]

/-- The right sides, one after the other, are the table of their elements. -/
theorem Reduced.dense_right (h : Reduced n A c rows) :
    Tensor.dense ⟨n, n⟩ (rows.toList.flatMap PairedRow.right) =
      ofFn ⟨n, n⟩ fun i j => (rowAt rows i).right.getD j 0 := by
  have hrows : rows.toList = (List.range n).map (rowAt rows) := by
    refine (eq_map_getD rows.toList ⟨[], []⟩).trans ?_
    simp [h.size, rowAt, Array.getD_eq_getD_getElem?]
  have hright : ∀ i ∈ List.range n, (rowAt rows i).right =
      (List.range n).map fun j => (rowAt rows i).right.getD j 0 := fun i hi => by
    rw [← (h.carries i (List.mem_range.mp hi)).right]
    exact eq_map_getD _ 0
  rw [hrows, ofFn, tabulate, List.flatMap_map]
  exact congrArg (Tensor.dense _) (List.flatMap_congr hright)

/-- After the last column the right sides are an inverse of the matrix. -/
theorem Reduced.square_mul (h : Reduced n a.cell n rows) :
    (ofFn ⟨n, n⟩ fun i j => (rowAt rows i).right.getD j 0).square n * a.square n = 1 := by
  ext i j
  rw [Matrix.mul_apply, Matrix.one_apply]
  have hproduct := (h.carries i i.isLt).product j j.isLt
  rw [h.unit i i.isLt j j.isLt, Finset.sum_range] at hproduct
  simpa [square, cell_ofFn, Fin.ext_iff] using hproduct

theorem exists_reduced_of_inverse (ha : a.shape = ⟨n, n⟩) (hb : inverse a = .ok b) :
    ∃ rows, Reduced n a.cell n rows ∧
      b = ofFn ⟨n, n⟩ fun i j => (rowAt rows i).right.getD j 0 := by
  rw [inverse_eq (by simp [Shape.isSquare, ha]), ha] at hb
  obtain ⟨rows, hrows, rfl⟩ := exists_of_map_eq_ok hb
  have hreduced := reduced_eliminated ha le_rfl hrows
  exact ⟨rows, hreduced, hreduced.dense_right⟩

theorem square_mul_of_inverse (ha : a.shape = ⟨n, n⟩) (hb : inverse a = .ok b) :
    b.square n * a.square n = 1 := by
  obtain ⟨rows, hreduced, rfl⟩ := exists_reduced_of_inverse ha hb
  exact hreduced.square_mul

/-- No candidate for the pivot of a column reaches the limit. -/
def Stuck (a : Matrix Rat) (c : Nat) : Prop :=
  ∃ rows, eliminated a c = .ok rows ∧
    ∀ i, c ≤ i → i < a.shape.rows → |(rowAt rows i).entry c| < pivotLimit

theorem inverse_eq_error_iff (ha : a.shape = ⟨n, n⟩) {e : ArrayError} :
    inverse a = .error e ↔ e = .singular ∧ ∃ c < n, a.Stuck c := by
  have hmap : inverse a = .error e ↔ eliminated a n = .error e := by
    rw [inverse_eq (by simp [Shape.isSquare, ha]), ha]
    cases eliminated a n <;> simp [Except.map]
  have hcolumn : ∀ c < n, ∀ rows, eliminated a c = .ok rows → (eliminate rows c = .error e ↔
      e = .singular ∧ ∀ i, c ≤ i → i < n → |(rowAt rows i).entry c| < pivotLimit) := by
    intro c hc rows hrows
    have hsize := (reduced_eliminated ha hc.le hrows).size
    rw [eliminate_eq_error_iff (hsize.symm ▸ hc), hsize]
  -- an elimination fails at the first column that has no pivot
  rw [hmap, eliminated_eq_error_iff]
  simp only [Stuck, ha]
  constructor
  · rintro ⟨c, hc, rows, hrows, herror⟩
    obtain ⟨rfl, hsmall⟩ := (hcolumn c hc rows hrows).mp herror
    exact ⟨rfl, c, hc, rows, hrows, hsmall⟩
  · rintro ⟨rfl, c, hc, rows, hrows, hsmall⟩
    exact ⟨c, hc, rows, hrows, (hcolumn c hc rows hrows).mpr ⟨rfl, hsmall⟩⟩

/-! ## Quotients by zero -/

/-- Exact arithmetic in which a quotient by zero is any number. -/
@[reducible] def zeroQuotient (quotient : Rat → Rat) : Scalar Rat :=
  { instScalarRat with div := fun p q => if q = 0 then quotient p else p / q }

theorem divide_zeroQuotient (quotient : Rat → Rat) (r : PairedRow Rat) {d : Rat} (hd : d ≠ 0) :
    @PairedRow.divide Rat (zeroQuotient quotient) r d = r.divide d := by
  have hquotient : ∀ x, @HDiv.hDiv Rat Rat Rat (@instHDiv Rat (zeroQuotient quotient).toDiv) x d =
      x / d := fun x => if_neg hd
  simp only [PairedRow.divide, hquotient]

theorem eliminate_zeroQuotient (quotient : Rat → Rat) (rows : Array (PairedRow Rat)) (c : Nat) :
    @eliminate Rat (zeroQuotient quotient) rows c = eliminate rows c := by
  calc @eliminate Rat (zeroQuotient quotient) rows c
      = if Scalar.lt (Scalar.abs (pivotOf rows c)) pivotLimit then .error .singular
        else .ok (cleared (exchanged rows c) c (@PairedRow.divide Rat (zeroQuotient quotient)
          (rowAt (exchanged rows c) c) (pivotOf rows c))) := rfl
    _ = eliminate rows c := by
      rw [eliminate_eq]
      split
      · rfl
      · rename_i hlarge
        rw [divide_zeroQuotient quotient _ (pivotOf_ne_zero hlarge)]

theorem eliminated_zeroQuotient (quotient : Rat → Rat) (a : Matrix Rat) (c : Nat) :
    @eliminated Rat (zeroQuotient quotient) a c = eliminated a c := by
  have heliminate : @eliminate Rat (zeroQuotient quotient) = eliminate := by
    funext rows c
    exact eliminate_zeroQuotient quotient rows c
  exact congrArg (fun step => (List.range c).foldlM step (paired a)) heliminate

/-- Arrays that are not square are refused.  The inverse of a square one has its shape and gives the
identity in either product.  One whose determinant is zero is singular; an array counts as singular
exactly if some column is left without a pivot.  The rows after any number of columns are the same
whatever a quotient by zero is, so none is ever formed. -/
theorem inverse_correct (a : Matrix Rat) :
    (a.shape.isSquare = false → inverse a = .error (.invertShape a.shape)) ∧
    ∀ n, a.shape = ⟨n, n⟩ →
      (∀ b, inverse a = .ok b → b.HasShape a.shape ∧
        a.product b = .ok (identity n) ∧ b.product a = .ok (identity n)) ∧
      ((a.square n).det = 0 → inverse a = .error .singular) ∧
      (∀ e, inverse a = .error e ↔ e = .singular ∧ ∃ c < n, a.Stuck c) ∧
      ∀ quotient c, @eliminated Rat (zeroQuotient quotient) a c = eliminated a c := by
  refine ⟨fun h => by simp [inverse, h], fun n ha => ?_⟩
  refine ⟨fun b hb => ?_, fun hdet => ?_, fun e => inverse_eq_error_iff ha,
    fun quotient c => eliminated_zeroQuotient quotient a c⟩
  · have hsquare : a.shape.isSquare = true := by simp [Shape.isSquare, ha]
    have hshape : b.HasShape a.shape := (outcome_inverse hsquare).value hb
    have hmul := square_mul_of_inverse ha hb
    exact ⟨hshape, product_eq_identity ha (hshape.shape.trans ha) (mul_eq_one_comm.mp hmul),
      product_eq_identity (hshape.shape.trans ha) ha hmul⟩
  · cases hresult : inverse a with
    | ok b =>
        have hmul := square_mul_of_inverse ha hresult
        exact absurd hdet (Matrix.det_ne_zero_of_left_inverse hmul)
    | error e => rw [((inverse_eq_error_iff ha).mp hresult).1]

/-- A matrix without a number on its diagonal. -/
def offDiagonal : Matrix Rat :=
  Tensor.dense ⟨2, 2⟩ [0, 2, 4, 0]

/-- A sparse matrix with nothing in its first column. -/
def dependent : Matrix Rat :=
  ⟨⟨2, 2⟩, some [1, 3], [2, 4]⟩

theorem inverse_correct_offDiagonal :
    (∃ b, inverse offDiagonal = .ok b ∧ b.elements = #[0, 1 / 4, 1 / 2, 0] ∧
      offDiagonal.product b = .ok (identity 2) ∧ b.product offDiagonal = .ok (identity 2)) ∧
    inverse dependent = .error .singular ∧
    inverse (Tensor.dense ⟨1, 2⟩ [(1 : Rat), 2]) = .error (.invertShape ⟨1, 2⟩) := by
  have hinverse : inverse offDiagonal = .ok (Tensor.dense ⟨2, 2⟩ [0, 1 / 4, 1 / 2, 0]) := by
    decide +kernel
  have hdet : (dependent.square 2).det = 0 := by
    rw [Matrix.det_fin_two]
    decide +kernel
  obtain ⟨-, hright, hleft⟩ := ((inverse_correct offDiagonal).2 2 rfl).1 _ hinverse
  exact ⟨⟨_, hinverse, rfl, hright, hleft⟩, ((inverse_correct dependent).2 2 rfl).2.1 hdet,
    (inverse_correct (Tensor.dense ⟨1, 2⟩ [1, 2])).1 rfl⟩

end CoupledModels.Matrix
