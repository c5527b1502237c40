import CoupledModels.Proofs.Arrays.Computed
import CoupledModels.Proofs.Arrays.Entries
import CoupledModels.Proofs.Arrays.Positions

/-!
# Sparse matrices

A sparse matrix is meaningful if its positions ascend, lie within the shape, and have one coefficient
each.  The identity, the lower triangle of ones, and matrices that are made of indexed coefficients
are of this kind.
-/

namespace CoupledModels

theorem strictlyAscending_of_pairwise {ps : List Nat} (h : ps.Pairwise (· < ·)) :
    strictlyAscending ps = true := by
  induction ps using strictlyAscending.induct with
  | case1 => rfl
  | case2 a => rfl
  | case3 a b rest ih =>
      simp only [strictlyAscending, Bool.and_eq_true, decide_eq_true_eq]
      exact ⟨List.rel_of_pairwise_cons h List.mem_cons_self, ih h.of_cons⟩

namespace Tensor

variable {S K : Type} [Extent S]

/-- Positions that ascend within the shape, with one coefficient each, pass the check. -/
theorem valid_sparse_iff {s : S} {ps : List Nat} {data : List K} :
    (⟨s, some ps, data⟩ : Tensor S K).Valid ↔
      ps.Pairwise (· < ·) ∧ ps.length = data.length ∧ ∀ p ∈ ps, p < Extent.size s := by
  refine ⟨Valid.sparse, ?_⟩
  rintro ⟨hascending, hlength, hrange⟩
  unfold Valid check
  simp only [strictlyAscending_of_pairwise hascending, hlength]
  cases hlast : ps.getLast? with
  | none => simp
  | some p =>
      have hp := hrange p (List.mem_of_getLast? hlast)
      simp [Nat.not_le.mpr hp]

theorem HasShape.sparse {s : Shape} {ps : List Nat} {data : List K}
    (hascending : ps.Pairwise (· < ·)) (hlength : ps.length = data.length)
    (hrange : ∀ p ∈ ps, p < s.rows * s.cols) :
    (⟨s, some ps, data⟩ : Matrix K).HasShape s :=
  ⟨valid_sparse_iff.mpr ⟨hascending, hlength, by simpa using hrange⟩, rfl⟩

variable [Scalar K]

theorem HasShape.ones (s : Shape) : (Tensor.ones s : Matrix K).HasShape s :=
  HasShape.dense (by simp)

/-- The diagonal of a square matrix. -/
theorem HasShape.sparseIdentity (n : Nat) : (Matrix.sparseIdentity n : Matrix K).HasShape ⟨n, n⟩ := by
  refine HasShape.sparse ?_ (by simp) fun p hp => ?_
  · refine List.pairwise_map.mpr (List.pairwise_lt_range.imp fun hlt => ?_)
    exact Nat.mul_lt_mul_of_pos_right hlt (Nat.succ_pos n)
  · obtain ⟨i, hi, rfl⟩ := List.mem_map.mp hp
    have hcell := cell_lt (s := ⟨n, n⟩) (List.mem_range.mp hi) (List.mem_range.mp hi)
    rwa [Nat.mul_succ]

/-- The triangle of a square matrix on and below the diagonal. -/
theorem HasShape.lowerOnes (n : Nat) : (Matrix.lowerOnes n : Matrix K).HasShape ⟨n, n⟩ := by
  refine HasShape.sparse ?_ (by simp) fun p hp => ?_
  · refine List.pairwise_flatMap.mpr ⟨fun i _ => ?_, List.pairwise_lt_range.imp_of_mem ?_⟩
    · exact List.pairwise_map.mpr (List.pairwise_lt_range.imp fun hlt => Nat.add_lt_add_left hlt _)
    · -- Every position of a row comes before the row after it.
      intro i k hi hk hik p hp q hq
      obtain ⟨j, hj, rfl⟩ := List.mem_map.mp hp
      obtain ⟨l, -, rfl⟩ := List.mem_map.mp hq
      have hjn : j < n := by
        have := List.mem_range.mp hj
        have := List.mem_range.mp hi
        omega
      calc i * n + j < i * n + n := Nat.add_lt_add_left hjn _
        _ = (i + 1) * n := (Nat.succ_mul i n).symm
        _ ≤ k * n := Nat.mul_le_mul_right n hik
        _ ≤ k * n + l := Nat.le_add_right _ _
  · obtain ⟨i, hi, hp⟩ := List.mem_flatMap.mp hp
    obtain ⟨j, hj, rfl⟩ := List.mem_map.mp hp
    refine cell_lt (s := ⟨n, n⟩) (List.mem_range.mp hi) ?_
    exact Nat.lt_of_lt_of_le (List.mem_range.mp hj) (List.mem_range.mp hi)

/-- The entries of indexed coefficients, collected. -/
def collected (s : S) (indexes : List (List Nat)) (data : List K) : List (Entry K) :=
  Entry.collect ((indexes.map (position (Extent.dims s))).zip data)

theorem ofEntries_eq_ok_iff {s : S} {indexes : List (List Nat)} {data : List K}
    {t : Tensor S K} :
    ofEntries s indexes data = .ok t ↔
      data.length = indexes.length ∧ (∀ i ∈ indexes, inBounds (Extent.dims s) i = true) ∧
        t = ⟨s, some ((collected s indexes data).map (·.1)),
          (collected s indexes data).map (·.2)⟩ := by
  unfold ofEntries collected
  simp only [ne_eq, List.any_eq_true, Bool.not_eq_true', ite_not]
  split_ifs with hlength hbounds
  · obtain ⟨i, hi, hout⟩ := hbounds
    simp only [false_iff, not_and]
    intro _ hall
    rw [hall i hi] at hout
    cases hout
  · have hall : ∀ i ∈ indexes, inBounds (Extent.dims s) i = true := by
      intro i hi
      by_contra hout
      exact hbounds ⟨i, hi, by simpa using hout⟩
    rw [Except.ok.injEq, eq_comm]
    exact ⟨fun h => ⟨hlength, hall, h⟩, fun h => h.2.2⟩
  · simp [hlength]

/-- Indexed coefficients make a sparse array, whose positions are those of the indexes. -/
theorem valid_ofEntries {s : S} {indexes : List (List Nat)} {data : List K} {t : Tensor S K}
    (hlengths : ∀ i ∈ indexes, i.length = (Extent.dims s).length)
    (h : ofEntries s indexes data = .ok t) : t.Valid ∧ t.shape = s := by
  obtain ⟨-, hbounds, rfl⟩ := ofEntries_eq_ok_iff.mp h
  refine ⟨valid_sparse_iff.mpr ⟨?_, by simp, fun p hp => ?_⟩, rfl⟩
  · exact List.pairwise_map.mpr (Entry.pairwise_collect _)
  · obtain ⟨e, he, rfl⟩ := List.mem_map.mp hp
    obtain ⟨e', he', hposition⟩ := Entry.mem_collect he
    obtain ⟨i, hi, hmem⟩ := List.mem_map.mp (List.of_mem_zip he').1
    rw [← hposition, ← hmem]
    exact position_lt (inRange_iff.mpr ⟨hlengths i hi, hbounds i hi⟩)

/-- Coefficients with a row and a column each. -/
theorem outcome_ofEntries (s : Shape) {indexes : List (List Nat)} (data : List K)
    (hindexes : ∀ i ∈ indexes, ∃ row col, i = [row, col]) :
    Outcome (fun m => Tensor.HasShape m s) AnyError (Tensor.ofEntries s indexes data) :=
  Outcome.of_forall fun m hm => by
    have hlengths : ∀ i ∈ indexes, i.length = (Extent.dims s).length := by
      intro i hi
      obtain ⟨row, col, rfl⟩ := hindexes i hi
      rfl
    obtain ⟨hvalid, hshape⟩ := valid_ofEntries hlengths hm
    exact ⟨hvalid, hshape⟩

end Tensor

end CoupledModels
