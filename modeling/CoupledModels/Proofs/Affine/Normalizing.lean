import CoupledModels.Proofs.Affine.Support
import CoupledModels.Proofs.Arrays.Collecting
import Mathlib.Data.List.Forall2

/-!
# Normalizing affine expressions

The normal form of an element has one term for each subscript whose coefficients do not add up to
zero, and the coefficient is their sum in stored order.  Normalizing a well-formed expression keeps
its shape and its number of elements, and it changes nothing the second time.
-/

namespace CoupledModels.Affine

variable {K : Type} [Scalar K] {e : Affine K} {ts us : List (Term K)}

/-- The terms `us` are in normal form and have the sums of the coefficients of `ts`. -/
structure Normalizes (ts us : List (Term K)) : Prop where
  normal : NormalTerms us
  coefficient : ∀ j c, (j, c) ∈ us ↔ Entry.sumAt? j ts = some c ∧ Scalar.isZero c = false
  absent : ∀ j, (∀ c, (j, c) ∉ us) ↔
    (∀ t ∈ ts, t.1 ≠ j) ∨ ∃ c, Entry.sumAt? j ts = some c ∧ Scalar.isZero c = true

theorem mem_normalizeTerms_iff {j : Nat} {c : K} :
    (j, c) ∈ normalizeTerms ts ↔ Entry.sumAt? j ts = some c ∧ Scalar.isZero c = false := by
  rw [normalizeTerms, Entry.mem_dropZeros_iff, Entry.mem_collect_iff]

theorem normalizes_normalizeTerms (ts : List (Term K)) : Normalizes ts (normalizeTerms ts) where
  normal := normalTerms_normalizeTerms ts
  coefficient _ _ := mem_normalizeTerms_iff
  absent j := by
    simp only [mem_normalizeTerms_iff, ← Entry.sumAt?_eq_none_iff]
    cases Entry.sumAt? j ts with
    | none => simp
    | some c => simp

/-- Terms in normal form are their own normal form. -/
theorem NormalTerms.normalizeTerms_eq (h : NormalTerms ts) : normalizeTerms ts = ts := by
  rw [normalizeTerms, Entry.collect_eq_self h.ascending, Entry.dropZeros, List.filter_eq_self]
  intro t ht
  simp [h.nonzero t ht]

/-! ## Expressions -/

/-- Every element is in normal form. -/
def Normal (e : Affine K) : Prop :=
  ∀ ts ∈ e.elements, NormalTerms ts

theorem elements_normalize (e : Affine K) : e.normalize.elements = e.elements.map normalizeTerms :=
  elements_ofElements _ _

theorem normal_normalize (e : Affine K) : e.normalize.Normal := by
  intro ts hts
  rw [elements_normalize] at hts
  obtain ⟨us, -, rfl⟩ := List.mem_map.mp hts
  exact normalTerms_normalizeTerms us

/-- Expressions in normal form are not changed by normalizing. -/
theorem Normal.normalize_eq (h : e.Normal) (hwell : e.WellFormed) : e.normalize = e := by
  have hels : e.elements.map normalizeTerms = e.elements :=
    (List.map_congr_left fun ts hts => (h ts hts).normalizeTerms_eq).trans (List.map_id' _)
  rw [normalize, hels, hwell.ofElements_elements]

theorem WellFormed.normalize (h : e.WellFormed) : e.normalize.WellFormed :=
  wellFormed_ofElements (by simpa using h.length_elements)

theorem count_normalize (e : Affine K) : e.normalize.count = e.count := by
  rw [← length_elements_eq_count, elements_normalize, List.length_map, length_elements_eq_count]

theorem forall₂_normalize (e : Affine K) :
    List.Forall₂ Normalizes e.elements e.normalize.elements := by
  rw [elements_normalize, List.forall₂_map_right_iff]
  exact List.forall₂_same.mpr fun ts _ => normalizes_normalizeTerms ts

/-- Whatever is combined, the result is in normal form. -/
theorem normal_combine (e : Affine K) (s : Shape) (recipe : List (List (Nat × K))) :
    (e.combine s recipe).Normal := by
  intro ts hts
  rw [combine, elements_ofElements] at hts
  obtain ⟨parts, -, rfl⟩ := List.mem_map.mp hts
  exact normalTerms_normalizeTerms _

end CoupledModels.Affine
