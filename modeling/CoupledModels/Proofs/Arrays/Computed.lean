import CoupledModels.Arrays.Inverse
import CoupledModels.Arrays.Weibull
import CoupledModels.Proofs.Arrays.Elements
import CoupledModels.Proofs.Outcome
import Mathlib.Tactic.SplitIfs

/-!
# Computed matrices

The shapes of inverses and of lifetime distributions, and how their computation can fail.
-/

namespace CoupledModels

variable {K : Type}

/-- A matrix of a given shape whose stored form is meaningful. -/
structure Tensor.HasShape (m : Matrix K) (s : Shape) : Prop where
  valid : m.Valid
  shape : m.shape = s

theorem Tensor.HasShape.dense {s : Shape} {data : List K} (h : data.length = s.rows * s.cols) :
    (Tensor.dense s data).HasShape s :=
  ⟨Tensor.valid_dense_iff.mpr (by simpa using h), rfl⟩

theorem Tensor.HasShape.ofFn (s : Shape) (f : Nat → Nat → K) : (Matrix.ofFn s f).HasShape s :=
  ⟨Matrix.valid_ofFn s f, rfl⟩

/-- An array of stored coefficients has the shape that it was made for. -/
theorem Tensor.outcome_ofStored (s : Shape) (pattern : Option (List Nat)) (data : List K) :
    Outcome (fun m => Tensor.HasShape m s) AnyError (Tensor.ofStored s pattern data) :=
  Outcome.of_forall fun m hm => by
    obtain ⟨rfl, hvalid⟩ := Tensor.ofStored_ok hm
    exact ⟨hvalid, rfl⟩

namespace Matrix

variable [Scalar K]

/-! ## Inverses -/

/-- What elimination keeps: `n` rows, whose right sides have `n` elements each. -/
structure PairedRow.Square (n : Nat) (rows : Array (PairedRow K)) : Prop where
  size : rows.size = n
  right : ∀ r ∈ rows, r.right.length = n

omit [Scalar K] in
theorem mem_of_mem_swap {rows : Array (PairedRow K)} {i j : Nat} {r : PairedRow K}
    (h : r ∈ rows.swapIfInBounds i j) : r ∈ rows := by
  rw [Array.swapIfInBounds_def] at h
  split_ifs at h with hi hj
  · exact (Array.swap_perm hi hj).mem_iff.mp h
  · exact h
  · exact h

/-- One column is eliminated, or the matrix is singular. -/
theorem outcome_eliminate {n c : Nat} {rows : Array (PairedRow K)}
    (h : PairedRow.Square n rows) (hc : c < n) :
    Outcome (PairedRow.Square n) (· = ArrayError.singular) (eliminate rows c) := by
  unfold eliminate
  dsimp only
  generalize pivotRow rows c = p
  have hsize : (rows.swapIfInBounds p c).size = n := by simp [h.size]
  have hright : ∀ r ∈ rows.swapIfInBounds p c, r.right.length = n := fun r hr =>
    h.right r (mem_of_mem_swap hr)
  generalize rows.swapIfInBounds p c = swapped at hsize hright
  have hpivot : (swapped.getD c ⟨[], []⟩).right.length = n := by
    rw [Array.getD_eq_getD_getElem?, Array.getElem?_eq_getElem (by omega)]
    exact hright _ (Array.getElem_mem _)
  generalize swapped.getD c ⟨[], []⟩ = pivot at hpivot
  -- the pivot row is divided and the other rows get multiples of it subtracted: no row changes its
  -- length
  split_ifs
  · exact rfl
  · refine ⟨by simp [hsize], fun r hr => ?_⟩
    obtain ⟨i, hi, rfl⟩ := Array.mem_mapIdx.mp hr
    have hrow := hright _ (Array.getElem_mem hi)
    split_ifs
    · simpa [PairedRow.divide] using hpivot
    · exact hrow
    · simp [PairedRow.subtract, PairedRow.divide, hrow, hpivot]

omit [Scalar K] in
theorem length_flatMap_right {n : Nat} {rs : List (PairedRow K)}
    (h : ∀ r ∈ rs, r.right.length = n) : (rs.flatMap PairedRow.right).length = rs.length * n := by
  induction rs with
  | nil => simp
  | cons r rs ih =>
      rw [List.flatMap_cons, List.length_append, h r List.mem_cons_self,
        ih fun r hr => h r (List.mem_cons_of_mem _ hr), List.length_cons, Nat.succ_mul, Nat.add_comm]

/-- A square matrix has an inverse of its own shape, or it is singular. -/
theorem outcome_inverse {a : Matrix K} (hsquare : a.shape.isSquare = true) :
    Outcome (fun m => Tensor.HasShape m a.shape) (· = ArrayError.singular) (inverse a) := by
  obtain ⟨⟨m, n⟩, pattern, data⟩ := a
  obtain rfl : m = n := by simpa [Shape.isSquare] using hsquare
  unfold inverse
  simp only [hsquare, Bool.not_true, Bool.false_eq_true, if_false]
  refine (Outcome.foldlM (I := PairedRow.Square m) ⟨by simp, fun r hr => ?_⟩
    fun rows hrows c hc => outcome_eliminate hrows (List.mem_range.mp hc)).bind fun rows hrows => ?_
  · obtain ⟨i, rfl⟩ := Array.mem_ofFn.mp hr
    simp
  · refine Outcome.pure (Tensor.HasShape.dense ?_)
    rw [length_flatMap_right fun r hr => hrows.right r (Array.mem_toList_iff.mp hr)]
    simp [hrows.size]

end Matrix

/-! ## Lifetime distributions -/

namespace Weibull

variable [Scalar K] [Transcendental K]

/-- The shape of a distribution over `n` ages in one or two dimensions. -/
def shapeOf (n dims : Nat) : Shape :=
  if dims = 1 then ⟨n, 1⟩ else ⟨n, n⟩

omit [Transcendental K] in
theorem outcome_arrange {dist : List K} {n dims : Nat} (hdist : dist.length = n)
    (hdims : dims = 1 ∨ dims = 2) :
    Outcome (fun m => Tensor.HasShape m (shapeOf n dims)) AnyError (arrange dist n dims) := by
  rcases hdims with rfl | rfl
  · exact Tensor.HasShape.dense (by simp [hdist])
  · exact Tensor.HasShape.ofFn _ _

/-- A distribution has the shape of its length and its dimensions. -/
theorem outcome_distribution (scale shape : K) {n dims : Nat} (hdims : dims = 1 ∨ dims = 2) :
    Outcome (fun m => Tensor.HasShape m (shapeOf n dims)) AnyError
      (distribution scale shape n dims) := by
  unfold distribution
  dsimp only
  split_ifs
  · trivial
  · trivial
  · trivial
  · trivial
  · refine outcome_arrange ?_ hdims
    simp only [densities, List.length_map, List.length_take, List.length_range]
    omega

end Weibull

end CoupledModels
