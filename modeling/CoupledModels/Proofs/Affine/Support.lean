import CoupledModels.Proofs.Affine.Typing

/-!
# Variables and normal forms of affine expressions

The support of an expression lists the variables of its elements, each once and in ascending order.
A form in normal form has each of its variables once, in ascending order and with a coefficient that
is not zero; the elements of every sum and difference are in normal form.
-/

namespace CoupledModels.Affine

theorem mem_dropRepeats {j : Nat} {ns : List Nat} : j ∈ dropRepeats ns ↔ j ∈ ns := by
  induction ns with
  | nil => rfl
  | cons a ns ih =>
      cases ns with
      | nil => rfl
      | cons b rest =>
          rw [dropRepeats]
          split
          · rename_i hab
            subst hab
            simp [ih]
          · rw [List.mem_cons, List.mem_cons, ih]

/-- Dropping repetitions from an ascending list leaves it strictly ascending. -/
theorem pairwise_dropRepeats {ns : List Nat} (h : ns.Pairwise (· ≤ ·)) :
    (dropRepeats ns).Pairwise (· < ·) := by
  induction ns with
  | nil => exact .nil
  | cons a ns ih =>
      cases ns with
      | nil => exact List.pairwise_singleton _ _
      | cons b rest =>
          obtain ⟨ha, hrest⟩ := List.pairwise_cons.mp h
          rw [dropRepeats]
          split
          · exact ih hrest
          · rename_i hab
            -- what is kept is less than its successor, and so than everything behind it
            have hfirst : a < b := Nat.lt_of_le_of_ne (ha b List.mem_cons_self) hab
            refine List.pairwise_cons.mpr ⟨fun j hj => ?_, ih hrest⟩
            rcases List.mem_cons.mp (mem_dropRepeats.mp hj) with rfl | hj
            · exact hfirst
            · exact Nat.lt_of_lt_of_le hfirst ((List.pairwise_cons.mp hrest).1 j hj)

@[simp] theorem mem_sortedDistinct {j : Nat} {ns : List Nat} : j ∈ sortedDistinct ns ↔ j ∈ ns := by
  rw [sortedDistinct, mem_dropRepeats]
  exact (List.mergeSort_perm ns _).mem_iff

theorem pairwise_sortedDistinct (ns : List Nat) : (sortedDistinct ns).Pairwise (· < ·) :=
  pairwise_dropRepeats (pairwise_mergeSort_key id ns)

variable {K : Type} {e : Affine K}

/-- The variables are those of the elements. -/
theorem WellFormed.mem_support (h : e.WellFormed) {j : Nat} :
    j ∈ e.support ↔ j ≠ constantTerm ∧ ∃ ts ∈ e.elements, ∃ t ∈ ts, t.1 = j := by
  rw [support, mem_sortedDistinct, List.mem_filter, h.subj_eq]
  simp only [List.mem_map, List.mem_flatten, ne_eq, decide_eq_true_eq]
  constructor
  · rintro ⟨⟨t, ⟨ts, hts, ht⟩, rfl⟩, hj⟩
    exact ⟨hj, ts, hts, t, ht, rfl⟩
  · rintro ⟨hj, ts, hts, t, ht, rfl⟩
    exact ⟨⟨t, ⟨ts, hts, ht⟩, rfl⟩, hj⟩

/-! ## Normal forms -/

/-- Subscripts ascend strictly and no coefficient is zero. -/
structure NormalTerms [Scalar K] (ts : List (Term K)) : Prop where
  ascending : ts.Pairwise fun t u => t.1 < u.1
  nonzero : ∀ t ∈ ts, Scalar.isZero t.2 = false

theorem normalTerms_normalizeTerms [Scalar K] (ts : List (Term K)) :
    NormalTerms (normalizeTerms ts) where
  ascending := (Entry.pairwise_collect ts).filter _
  nonzero := fun _ ht => (Entry.mem_dropZeros_iff.mp ht).2

/-- The elements of a difference are in normal form, whatever those of its operands are. -/
theorem normalTerms_of_sub [Scalar K] {a b r : Affine K} (h : a.sub b = .ok r) :
    ∀ ts ∈ r.elements, NormalTerms ts := by
  unfold sub addScaled at h
  split at h
  · cases h
  rename_i s _
  cases ha : a.broadcast s with
  | error err => simp [ha, bind, Except.bind] at h
  | ok a' =>
      cases hb : b.broadcast s with
      | error err => simp [ha, hb, bind, Except.bind] at h
      | ok b' =>
          simp only [ha, hb, bind, Except.bind, pure, Except.pure, Except.ok.injEq] at h
          -- nothing is known of the operands: it is combining that normalizes
          subst h
          intro ts hts
          rw [elements_ofElements] at hts
          obtain ⟨_, -, rfl⟩ := List.mem_map.mp hts
          exact normalTerms_normalizeTerms _

end CoupledModels.Affine
