import CoupledModels.Solve.Difference
import CoupledModels.Proofs.Number.Exact
import CoupledModels.Proofs.Store.Rows
import Mathlib.Algebra.Order.Field.Basic

/-!
# Differences of zero

Over the exact rationals a relative difference of zero is equality.  Two versions of a table that do
not differ at all agree in every defined value of the new one, so a write of defined values that
leaves no difference leaves no trace.
-/

namespace CoupledModels

namespace Difference

variable {old new : List (Row Rat)} {a b : Difference Rat} {tolerance : Rat}

theorem within_finite_iff {d : Rat} : (finite d).within tolerance = true ↔ d ≤ tolerance := by
  simp only [within, Scalar.le, Scalar.lt, Scalar.eqv, Bool.or_eq_true, decide_eq_true_eq,
    beq_iff_eq]
  exact le_iff_lt_or_eq.symm

/-- Every rational is finite, so an infinite difference exceeds each of them. -/
theorem within_infinite : (infinite : Difference Rat).within tolerance = false := rfl

theorem within_max (h : (a.max b).within tolerance = true) :
    a.within tolerance = true ∧ b.within tolerance = true := by
  cases a with
  | infinite => cases b <;> simp [max, within_infinite] at h
  | finite d =>
      cases b with
      | infinite => simp [max, within_infinite] at h
      | finite e =>
          have hmax : d ⊔ e ≤ tolerance := by
            simp only [max, within_finite_iff, Scalar.max, Scalar.isNaN, Scalar.lt,
              Bool.false_eq_true, if_false, decide_eq_true_eq] at h
            rwa [max_def_lt]
          simpa [within_finite_iff] using hmax

/-- If the largest of several differences is within a tolerance, every one is. -/
theorem within_of_largest {ds : List (Difference Rat)}
    (h : (largest ds).within tolerance = true) : ∀ d ∈ ds, d.within tolerance = true := by
  have hfold : ∀ (ds : List (Difference Rat)) (acc : Difference Rat),
      (ds.foldl max acc).within tolerance = true →
        acc.within tolerance = true ∧ ∀ d ∈ ds, d.within tolerance = true := by
    intro ds
    induction ds with
    | nil => exact fun acc h => ⟨h, by simp⟩
    | cons d ds ih =>
        intro acc h
        obtain ⟨hacc, hds⟩ := ih _ h
        obtain ⟨hacc, hd⟩ := within_max hacc
        exact ⟨hacc, List.forall_mem_cons.mpr ⟨hd, hds⟩⟩
  exact (hfold ds none h).2

/-- Only equal values have no difference. -/
theorem eq_of_between_within_zero {o : Option Rat} {v : Rat}
    (h : (between o v).within 0 = true) : o = some v := by
  cases o with
  | none => cases h
  | some o =>
      simp only [between, number?, Scalar.isNaN, Option.filter_some, Bool.not_false, if_true,
        Scalar.isZero, Scalar.eqv, beq_iff_eq] at h
      by_cases ho : o = 0
      · subst ho
        by_cases hv : v = 0
        · rw [hv]
        · simp [hv, within_infinite] at h
      · rw [if_neg ho, within_finite_iff] at h
        rw [Scalar.abs_rat, Scalar.abs_rat] at h
        have hquotient : (|v - o| : ℚ) / |o| ≤ 0 := h
        have hpos : 0 < |o| := abs_pos.mpr ho
        rcases div_nonpos_iff.mp hquotient with ⟨-, hle⟩ | ⟨hle, -⟩
        · exact absurd hle (not_le.mpr hpos)
        · rw [abs_nonpos_iff, sub_eq_zero] at hle
          rw [hle]

/-- Without a difference every defined new value is the old one. -/
theorem lastValue_of_ofRows (h : (ofRows old new).within 0 = true) {r : Row Rat} (hr : r ∈ new)
    {v : Rat} (hv : r.value = some v) : lastValue old r.coords = some v := by
  refine eq_of_between_within_zero (within_of_largest h _ ?_)
  refine List.mem_filterMap.mpr ⟨r, hr, ?_⟩
  simp [hv, number?, Scalar.isNaN]

/-- Coordinates that no row has lead to no value, and distinct ones to that of their row. -/
theorem lastValue_eq {K : Type} {rows : List (Row K)} (h : DistinctRows rows) {r : Row K}
    (hr : r ∈ rows) : lastValue rows r.coords = r.value := by
  unfold lastValue
  cases hfind : rows.reverse.find? fun s => s.coords == r.coords with
  | none =>
      have hne := List.find?_eq_none.mp hfind r (List.mem_reverse.mpr hr)
      simp at hne
  | some s =>
      have hs : s ∈ rows := List.mem_reverse.mp (List.mem_of_find?_eq_some hfind)
      have hcoords : s.coords = r.coords := by simpa using List.find?_some hfind
      rw [h.eq_of_coords hs hr hcoords]
      rfl

theorem lastValue_eq_none {K : Type} {rows : List (Row K)} {coords : List String}
    (h : coords ∉ rows.map Row.coords) : lastValue rows coords = .none := by
  have hfind : rows.reverse.find? (fun s => s.coords == coords) = .none := by
    refine List.find?_eq_none.mpr fun s hs heq => h ?_
    exact List.mem_map.mpr ⟨s, List.mem_reverse.mp hs, by simpa using heq⟩
  simp [lastValue, hfind]

end Difference

namespace StoredTable

/-- A write of defined values that makes no difference leaves the rows as they were. -/
theorem Writes.eq_of_ofRows {batch rows rows' : List (Row Rat)} (h : Writes batch rows rows')
    (hrows : DistinctRows rows) (hbatch : ∀ r ∈ batch, r.value.isSome = true)
    (hsame : (Difference.ofRows rows rows').within 0 = true) : rows' = rows := by
  apply List.ext_getElem?
  intro k
  cases hk : rows[k]? with
  | none =>
      cases hk' : rows'[k]? with
      | none => rfl
      | some r' =>
          -- A new row would be infinitely far from the value that was not there.
          obtain ⟨hmem, hnew⟩ := h.added k r' hk hk'
          obtain ⟨v, hv⟩ := Option.isSome_iff_exists.mp (hbatch r' hmem)
          have hold := Difference.lastValue_of_ofRows hsame (List.mem_of_getElem? hk') hv
          rw [Difference.lastValue_eq_none hnew] at hold
          cases hold
  | some r =>
      obtain ⟨r', hr', hcoords, rfl | hmem⟩ := h.kept k r hk
      · exact hr'
      · obtain ⟨v, hv⟩ := Option.isSome_iff_exists.mp (hbatch r' hmem)
        have hold := Difference.lastValue_of_ofRows hsame (List.mem_of_getElem? hr') hv
        rw [hcoords, Difference.lastValue_eq hrows (List.mem_of_getElem? hk)] at hold
        rw [hr']
        obtain ⟨coords, value⟩ := r
        obtain ⟨coords', value'⟩ := r'
        simp only at hcoords hold hv
        rw [hcoords, hold, hv]

end StoredTable

end CoupledModels
