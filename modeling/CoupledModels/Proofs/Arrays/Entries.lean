import CoupledModels.Arrays.Entries
import Mathlib.Data.List.Pairwise

/-!
# Collected entries

Bringing entries into order invents no position, and leaves each position that occurs once, in
ascending order.
-/

namespace CoupledModels

section Keys

variable {α : Type} (key : α → Nat)

theorem keyLe_trans (a b c : α) (hab : decide (key a ≤ key b) = true)
    (hbc : decide (key b ≤ key c) = true) : decide (key a ≤ key c) = true := by
  simp only [decide_eq_true_eq] at hab hbc ⊢
  omega

theorem keyLe_total (a b : α) : (decide (key a ≤ key b) || decide (key b ≤ key a)) = true := by
  simp only [Bool.or_eq_true, decide_eq_true_eq]
  omega

/-- Sorting by a number leaves the numbers ascending. -/
theorem pairwise_mergeSort_key (xs : List α) :
    (xs.mergeSort fun a b => decide (key a ≤ key b)).Pairwise fun a b => key a ≤ key b :=
  (List.pairwise_mergeSort (keyLe_trans key) (keyLe_total key) xs).imp fun hab => by simpa using hab

/-- Sorting by a number keeps the order of the elements that have the same one. -/
theorem filter_mergeSort_key (n : Nat) (xs : List α) :
    ((xs.mergeSort fun a b => decide (key a ≤ key b)).filter fun a => key a = n) =
      xs.filter fun a => key a = n := by
  -- Elements of one number are ascending as they stand, so the sort keeps them as a sublist.
  have hequal : (xs.filter fun a => key a = n).Pairwise fun a b => decide (key a ≤ key b) = true := by
    refine List.pairwise_of_forall_mem_list fun a ha b hb => ?_
    simp only [List.mem_filter, decide_eq_true_eq] at ha hb
    simp [ha.2, hb.2]
  have hsub := (List.sublist_mergeSort (keyLe_trans key) (keyLe_total key) hequal
    List.filter_sublist).filter fun a => key a = n
  simp only [List.filter_filter, Bool.and_self] at hsub
  have hperm := List.mergeSort_perm xs fun a b => decide (key a ≤ key b)
  exact (hsub.eq_of_length (hperm.filter _).length_eq.symm).symm

end Keys

namespace Entry

variable {K : Type} [Scalar K]

theorem mem_mergeFrom {p : Nat} {acc : K} {es : List (Entry K)} {e : Entry K}
    (h : e ∈ mergeFrom p acc es) : e.1 = p ∨ ∃ e' ∈ es, e'.1 = e.1 := by
  induction es generalizing p acc with
  | nil =>
      obtain rfl : e = (p, acc) := by simpa [mergeFrom] using h
      exact .inl rfl
  | cons b es ih =>
      obtain ⟨q, v⟩ := b
      rw [mergeFrom] at h
      split at h
      · rcases ih h with hp | ⟨e', he', heq⟩
        · exact .inl hp
        · exact .inr ⟨e', List.mem_cons_of_mem _ he', heq⟩
      · rcases List.mem_cons.mp h with rfl | h
        · exact .inl rfl
        · rcases ih h with hq | ⟨e', he', heq⟩
          · exact .inr ⟨(q, v), List.mem_cons_self, hq.symm⟩
          · exact .inr ⟨e', List.mem_cons_of_mem _ he', heq⟩

/-- Adding up runs of an ascending list leaves no position twice. -/
theorem pairwise_mergeFrom {p : Nat} {acc : K} {es : List (Entry K)}
    (h : ((p, acc) :: es).Pairwise fun a b => a.1 ≤ b.1) :
    (mergeFrom p acc es).Pairwise fun a b => a.1 < b.1 := by
  induction es generalizing p acc with
  | nil => simp [mergeFrom]
  | cons b es ih =>
      obtain ⟨q, v⟩ := b
      obtain ⟨hp, hes⟩ := List.pairwise_cons.mp h
      have hpq : p ≤ q := hp (q, v) List.mem_cons_self
      rw [mergeFrom]
      split
      · rename_i hq
        subst hq
        refine ih (List.pairwise_cons.mpr ⟨fun e he => ?_, (List.pairwise_cons.mp hes).2⟩)
        exact hp e (List.mem_cons_of_mem _ he)
      · rename_i hq
        refine List.pairwise_cons.mpr ⟨fun e he => ?_, ih hes⟩
        -- a new run has begun, and whatever comes out of it is not before its position
        have hqe : q ≤ e.1 := by
          rcases mem_mergeFrom he with heq | ⟨e', he', heq⟩
          · exact Nat.le_of_eq heq.symm
          · exact heq ▸ (List.pairwise_cons.mp hes).1 e' he'
        exact Nat.lt_of_lt_of_le (Nat.lt_of_le_of_ne hpq (Ne.symm hq)) hqe

omit [Scalar K] in
theorem pairwise_sorted (es : List (Entry K)) :
    (es.mergeSort fun a b => decide (a.1 ≤ b.1)).Pairwise fun a b => a.1 ≤ b.1 :=
  pairwise_mergeSort_key (fun e : Entry K => e.1) es

/-- Every collected position is that of a given entry. -/
theorem mem_collect {es : List (Entry K)} {e : Entry K} (h : e ∈ collect es) :
    ∃ e' ∈ es, e'.1 = e.1 := by
  have hperm := List.mergeSort_perm es fun a b => decide (a.1 ≤ b.1)
  rw [collect] at h
  cases hsort : es.mergeSort fun a b => decide (a.1 ≤ b.1) with
  | nil => simp [hsort, merge] at h
  | cons b rest =>
      rw [hsort] at h hperm
      rcases mem_mergeFrom h with hp | ⟨e', he', heq⟩
      · exact ⟨b, hperm.mem_iff.mp List.mem_cons_self, hp.symm⟩
      · exact ⟨e', hperm.mem_iff.mp (List.mem_cons_of_mem _ he'), heq⟩

/-- Collected positions ascend strictly. -/
theorem pairwise_collect (es : List (Entry K)) :
    (collect es).Pairwise fun a b => a.1 < b.1 := by
  have hsorted := pairwise_sorted es
  rw [collect]
  cases hsort : es.mergeSort fun a b => decide (a.1 ≤ b.1) with
  | nil => exact .nil
  | cons b rest =>
      rw [hsort] at hsorted
      exact pairwise_mergeFrom hsorted

theorem mem_dropZeros_iff {es : List (Entry K)} {e : Entry K} :
    e ∈ dropZeros es ↔ e ∈ es ∧ Scalar.isZero e.2 = false := by
  simp [dropZeros]

end Entry

end CoupledModels
