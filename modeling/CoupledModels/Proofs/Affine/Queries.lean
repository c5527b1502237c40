import CoupledModels.Proofs.Affine.Occurrence

/-!
# What the queries of a stored expression tell

The queries of an expression (its variables, whether it is constant, the matrix of a constant one)
look at the stored terms, everything else looks at the elements that the pointers cut out of them.
The check of the constructor makes sure that the pointers end behind the last term, but not that
they start at the first one: terms before the first pointer are stored and belong to no element.

`queries_of_ofStored` says what the queries tell of every accepted expression.  They tell about the
elements, and nothing else, if and only if no variable stands before the first element that does not
occur in an element as well.  Expressions in normal form have no such terms.
-/

namespace CoupledModels.Affine

variable {K : Type}

/-- The stored terms before the first pointer. -/
def leading (e : Affine K) : List (Term K) :=
  e.terms.take (e.ptr.headD 0)

/-- A subscript occurs in an element. -/
def Occurs (e : Affine K) (j : Nat) : Prop :=
  ∃ ts ∈ e.elements, ∃ t ∈ ts, t.1 = j

/-- A subscript is stored before the first element. -/
def Leads (e : Affine K) (j : Nat) : Prop :=
  ∃ t ∈ e.leading, t.1 = j

variable {e : Affine K} {s : Shape} {ptr subj : List Nat} {cof : List K} {j : Nat}

/-- The elements of an accepted expression are all stored terms but the leading ones. -/
theorem leading_append_elements (h : ofStored s ptr subj cof = .ok e) :
    e.leading ++ e.elements.flatten = e.terms := by
  obtain ⟨rfl, hascending, hlast, hcof, -⟩ := ofStored_eq_ok_iff.mp h
  cases ptr with
  | nil => cases hlast
  | cons p ptr =>
      have hlen : (subj.zip cof).length = subj.length := by simp [hcof]
      obtain ⟨-, hflatten⟩ :=
        @starts_slices _ (subj.zip cof) _ _ hascending (by rw [hlen]; exact hlast)
      rw [elements_eq_slices, leading]
      simp only [terms, List.headD_cons, hflatten, List.take_append_drop]

theorem map_fst_terms (h : ofStored s ptr subj cof = .ok e) : e.terms.map (·.1) = e.subj := by
  obtain ⟨rfl, -, -, hcof, -⟩ := ofStored_eq_ok_iff.mp h
  exact List.map_fst_zip (by simp [hcof])

/-- A stored subscript occurs in an element or before the first one. -/
theorem mem_subj_iff (h : ofStored s ptr subj cof = .ok e) :
    j ∈ e.subj ↔ e.Occurs j ∨ e.Leads j := by
  rw [← map_fst_terms h, ← leading_append_elements h]
  simp only [List.map_append, List.mem_append, List.mem_map, List.mem_flatten, Occurs, Leads]
  constructor
  · rintro (hleads | ⟨t, ⟨ts, hts, ht⟩, hj⟩)
    · exact .inr hleads
    · exact .inl ⟨ts, hts, t, ht, hj⟩
  · rintro (⟨ts, hts, t, ht, hj⟩ | hleads)
    · exact .inr ⟨t, ⟨ts, hts, ht⟩, hj⟩
    · exact .inl hleads

theorem mem_support_iff : j ∈ e.support ↔ j ≠ constantTerm ∧ j ∈ e.subj := by
  rw [support, mem_sortedDistinct, List.mem_filter, decide_eq_true_eq, and_comm]

theorem isConstant_iff : e.isConstant = true ↔ ∀ j ∈ e.subj, j = constantTerm := by
  simp [isConstant]

theorem constantTerms_iff :
    (∀ ts ∈ e.elements, ConstantTerms ts) ↔ ∀ j, e.Occurs j → j = constantTerm := by
  constructor
  · rintro h j ⟨ts, hts, t, ht, rfl⟩
    exact h ts hts t ht
  · exact fun h ts hts t ht => h t.1 ⟨ts, hts, t, ht, rfl⟩

/-- Pointers that start at the first term leave no term before the first element. -/
theorem not_leads_of_head (hfirst : e.ptr.head? = some 0) : ¬ e.Leads j := by
  rintro ⟨t, ht, -⟩
  cases hptr : e.ptr with
  | nil => simp [hptr] at hfirst
  | cons p ptr =>
      obtain rfl : p = 0 := by simpa [hptr] using hfirst
      simp [leading, hptr] at ht

variable [Scalar K]

/-- The matrix whose elements are the sums of the coefficients of the elements. -/
def sums (e : Affine K) : Matrix K :=
  Tensor.dense e.shape (e.elements.map fun ts => Scalar.sum (ts.map (·.2)))

/-- The queries tell what the elements contain, and the normal form keeps what they tell. -/
structure ReportsElements (e : Affine K) : Prop where
  ascending : e.support.Pairwise (· < ·)
  mem_support : ∀ j, j ∈ e.support ↔ j ≠ constantTerm ∧ e.Occurs j
  isConstant : e.isConstant = true ↔ ∀ ts ∈ e.elements, ConstantTerms ts
  isSome_value : e.constantValue?.isSome = true ↔ e.isConstant = true
  value : ∀ m, e.constantValue? = some m → m = e.sums
  normalize_isConstant : e.isConstant = true → e.normalize.isConstant = true
  normalize_support : ∀ j ∈ e.normalize.support, j ∈ e.support

theorem constantValue?_of_ofStored (h : ofStored s ptr subj cof = .ok e) :
    e.constantValue? = if e.isConstant then some e.sums else none := by
  split
  · rename_i hconst
    obtain ⟨rfl, -, -, -, hptr⟩ := ofStored_eq_ok_iff.mp h
    exact constantValue?_of_count (by simp [count, hptr]) hconst
  · rename_i hconst
    rw [constantValue?, if_neg hconst]

theorem isConstant_normalize (h : e.isConstant = true) : e.normalize.isConstant = true := by
  have hnone : e.VariablesIn fun _ => False := fun j hj hne => hne (isConstant_iff.mp h j hj)
  exact isConstant_iff.mpr fun j hj => by_contra fun hne => hnone.normalize j hj hne

theorem support_normalize {j : Nat} (hj : j ∈ e.normalize.support) : j ∈ e.support := by
  have hself : e.VariablesIn fun j => j ∈ e.support := fun j hj hne =>
    mem_support_iff.mpr ⟨hne, hj⟩
  exact hself.normalize.mem_support hj

/-- The queries of an accepted expression tell about its elements and about the terms before the
first one.  They tell about the elements alone exactly if every leading variable occurs in an element
as well, so in particular if the pointers start at the first term. -/
theorem queries_of_ofStored (h : ofStored s ptr subj cof = .ok e) :
    (e.support.Pairwise (· < ·) ∧
      ∀ j, j ∈ e.support ↔ j ≠ constantTerm ∧ (e.Occurs j ∨ e.Leads j)) ∧
    (e.isConstant = true ↔ ∀ j, e.Occurs j ∨ e.Leads j → j = constantTerm) ∧
    e.constantValue? = (if e.isConstant then some e.sums else none) ∧
    (e.isConstant = true → e.normalize.isConstant = true) ∧
    (∀ j ∈ e.normalize.support, j ∈ e.support) ∧
    (e.ReportsElements ↔ ∀ j, e.Leads j → j ≠ constantTerm → e.Occurs j) ∧
    (ptr.head? = some 0 → e.ReportsElements) := by
  have hsupport : ∀ j, j ∈ e.support ↔ j ≠ constantTerm ∧ (e.Occurs j ∨ e.Leads j) := fun j => by
    rw [mem_support_iff, mem_subj_iff h]
  have hconstant : e.isConstant = true ↔ ∀ j, e.Occurs j ∨ e.Leads j → j = constantTerm := by
    simp only [isConstant_iff, mem_subj_iff h]
  have hvalue := constantValue?_of_ofStored h
  have hreports : e.ReportsElements ↔ ∀ j, e.Leads j → j ≠ constantTerm → e.Occurs j := by
    constructor
    · intro hreports j hleads hne
      exact ((hreports.mem_support j).mp ((hsupport j).mpr ⟨hne, .inr hleads⟩)).2
    · intro hleads
      -- a leading variable that an element has as well changes none of the answers
      refine ⟨pairwise_sortedDistinct _, fun j => ?_, ?_, ?_, fun m hm => ?_,
        isConstant_normalize, fun j => support_normalize⟩
      · rw [hsupport]
        exact and_congr_right fun hne => ⟨fun hj => hj.elim id fun hj => hleads j hj hne, .inl⟩
      · rw [hconstant, constantTerms_iff]
        refine ⟨fun hall j hj => hall j (.inl hj), fun hall j hj => by_contra fun hne => ?_⟩
        exact hne (hall j (hj.elim id fun hj => hleads j hj hne))
      · rw [hvalue]
        split <;> simp_all
      · rw [hvalue] at hm
        split at hm <;> simp_all
  refine ⟨⟨pairwise_sortedDistinct _, hsupport⟩, hconstant, hvalue, isConstant_normalize,
    fun j => support_normalize, hreports, fun hfirst => hreports.mpr fun j hj => ?_⟩
  obtain ⟨rfl, -⟩ := ofStored_eq_ok_iff.mp h
  exact absurd hj (not_leads_of_head hfirst)

namespace Stored

/-- Two elements with a repeated variable and a constant term. -/
def pair : Affine Rat :=
  ⟨⟨1, 2⟩, [0, 4, 5], [3, 1, 3, 2, 0], [1, 2, -1, 1 / 2, 4]⟩

/-- The pointers of the two elements start at the first term, so the queries tell about them. -/
theorem queries_of_ofStored_pair :
    ofStored ⟨1, 2⟩ [0, 4, 5] [3, 1, 3, 2, 0] [1, 2, -1, 1 / 2, 4] = .ok pair ∧
      pair.ReportsElements :=
  have hstored : ofStored ⟨1, 2⟩ [0, 4, 5] [3, 1, 3, 2, 0] [1, 2, -1, 1 / 2, 4] = .ok pair := rfl
  ⟨hstored, (queries_of_ofStored hstored).2.2.2.2.2.2 rfl⟩

/-- One element with the constant term 3, behind a term that no pointer leads to. -/
def leftover : Affine Rat :=
  ⟨⟨1, 1⟩, [1, 2], [5, 0], [2, 3]⟩

/-- The constructor accepts a term before the first pointer.  The only element is constant then, but
the queries report a variable and no value. -/
theorem leading_term_is_reported :
    ofStored ⟨1, 1⟩ [1, 2] [5, 0] [2, 3] = .ok leftover ∧ leftover.elements = [[(0, 3)]] ∧
      leftover.support = [5] ∧ leftover.isConstant = false ∧ leftover.constantValue? = none ∧
      ¬ leftover.ReportsElements := by
  have helements : leftover.elements = [[(0, 3)]] := rfl
  refine ⟨rfl, helements, ?_, rfl, rfl, fun hreports => ?_⟩
  · simp [support, sortedDistinct, leftover, constantTerm, dropRepeats]
  · have hconstant : ∀ ts ∈ leftover.elements, ConstantTerms ts := by
      simp [helements, ConstantTerms, constantTerm]
    cases hreports.isConstant.mpr hconstant

end Stored

end CoupledModels.Affine
