import CoupledModels.Proofs.Arrays.Entries

/-!
# What collecting adds up

The number that a collected list has at a position is the sum of the numbers given for the position,
added in the order in which they are given; without such a number there is no entry.  This needs no
law of addition, so it holds of floating point as well.  A list whose positions ascend strictly is
collected already.
-/

namespace CoupledModels.Entry

variable {K : Type}

/-- The numbers given for a position, in order. -/
def numbersAt (p : Nat) (es : List (Entry K)) : List K :=
  (es.filter fun e => e.1 = p).map (·.2)

theorem numbersAt_cons_self (p : Nat) (v : K) (es : List (Entry K)) :
    numbersAt p ((p, v) :: es) = v :: numbersAt p es := by
  simp [numbersAt]

theorem numbersAt_cons_of_ne {p q : Nat} (h : q ≠ p) (v : K) (es : List (Entry K)) :
    numbersAt p ((q, v) :: es) = numbersAt p es := by
  simp [numbersAt, h]

theorem numbersAt_eq_nil_iff {p : Nat} {es : List (Entry K)} :
    numbersAt p es = [] ↔ ∀ e ∈ es, e.1 ≠ p := by
  simp [numbersAt]

/-- The sort keeps the order of the numbers of a position. -/
theorem numbersAt_mergeSort (p : Nat) (es : List (Entry K)) :
    numbersAt p (es.mergeSort fun a b => decide (a.1 ≤ b.1)) = numbersAt p es := by
  rw [numbersAt, filter_mergeSort_key fun e : Entry K => e.1, numbersAt]

variable [Scalar K]

/-- The sum of the numbers given for a position, from the first one on; `none` if there are none. -/
def sumAt? (p : Nat) (es : List (Entry K)) : Option K :=
  match numbersAt p es with
  | [] => none
  | v :: vs => some (vs.foldl (· + ·) v)

theorem sumAt?_cons_self (p : Nat) (v : K) (es : List (Entry K)) :
    sumAt? p ((p, v) :: es) = some ((numbersAt p es).foldl (· + ·) v) := by
  rw [sumAt?, numbersAt_cons_self]

theorem sumAt?_cons_of_ne {p q : Nat} (h : q ≠ p) (v : K) (es : List (Entry K)) :
    sumAt? p ((q, v) :: es) = sumAt? p es := by
  rw [sumAt?, numbersAt_cons_of_ne h, sumAt?]

theorem sumAt?_eq_none_iff {p : Nat} {es : List (Entry K)} :
    sumAt? p es = none ↔ ∀ e ∈ es, e.1 ≠ p := by
  rw [← numbersAt_eq_nil_iff, sumAt?]
  cases numbersAt p es <;> simp

/-- Two numbers of one position at the front count as their sum. -/
theorem sumAt?_add_front (p q : Nat) (v w : K) (es : List (Entry K)) :
    sumAt? p ((q, v) :: (q, w) :: es) = sumAt? p ((q, v + w) :: es) := by
  by_cases hq : q = p
  · subst hq
    rw [sumAt?_cons_self, sumAt?_cons_self, numbersAt_cons_self, List.foldl_cons]
  · rw [sumAt?_cons_of_ne hq, sumAt?_cons_of_ne hq, sumAt?_cons_of_ne hq]

theorem mem_mergeFrom_iff {p q : Nat} {acc v : K} {es : List (Entry K)}
    (h : ((p, acc) :: es).Pairwise fun a b => a.1 ≤ b.1) :
    (q, v) ∈ mergeFrom p acc es ↔ sumAt? q ((p, acc) :: es) = some v := by
  induction es generalizing p acc with
  | nil =>
      by_cases hq : p = q
      · subst hq
        simp [mergeFrom, sumAt?_cons_self, numbersAt, eq_comm]
      · simp [mergeFrom, sumAt?, numbersAt, hq, Ne.symm hq]
  | cons e es ih =>
      obtain ⟨r, w⟩ := e
      obtain ⟨hp, hes⟩ := List.pairwise_cons.mp h
      rw [mergeFrom]
      split
      · rename_i hr
        subst hr
        have hrest : ((r, acc + w) :: es).Pairwise fun a b => a.1 ≤ b.1 :=
          List.pairwise_cons.mpr
            ⟨fun e he => hp e (List.mem_cons_of_mem _ he), (List.pairwise_cons.mp hes).2⟩
        rw [ih hrest, sumAt?_add_front]
      · rename_i hr
        rw [List.mem_cons, ih hes]
        by_cases hq : p = q
        · -- Everything behind the run of `p` has a greater position.
          subst hq
          have hnone : ∀ e ∈ (r, w) :: es, e.1 ≠ p := by
            intro e he heq
            have hre : r ≤ e.1 := by
              rcases List.mem_cons.mp he with rfl | he
              · exact Nat.le_refl _
              · exact (List.pairwise_cons.mp hes).1 e he
            have hpr : p ≤ r := hp (r, w) List.mem_cons_self
            omega
          rw [sumAt?_eq_none_iff.mpr hnone, sumAt?_cons_self, numbersAt_eq_nil_iff.mpr hnone]
          simp [eq_comm]
        · rw [sumAt?_cons_of_ne hq]
          simp [Ne.symm hq]

/-- A collected list has at each position the sum of the numbers given for it. -/
theorem mem_collect_iff {p : Nat} {v : K} {es : List (Entry K)} :
    (p, v) ∈ collect es ↔ sumAt? p es = some v := by
  have hsum : sumAt? p (es.mergeSort fun a b => decide (a.1 ≤ b.1)) = sumAt? p es := by
    rw [sumAt?, numbersAt_mergeSort, sumAt?]
  have hsorted := pairwise_sorted es
  rw [collect, ← hsum]
  cases hsort : es.mergeSort fun a b => decide (a.1 ≤ b.1) with
  | nil => simp [merge, sumAt?, numbersAt]
  | cons e rest =>
      rw [hsort] at hsorted
      exact mem_mergeFrom_iff hsorted

theorem mergeFrom_eq_cons {p : Nat} {acc : K} {es : List (Entry K)}
    (h : ((p, acc) :: es).Pairwise fun a b => a.1 < b.1) :
    mergeFrom p acc es = (p, acc) :: es := by
  induction es generalizing p acc with
  | nil => rfl
  | cons e es ih =>
      obtain ⟨q, v⟩ := e
      obtain ⟨hp, hes⟩ := List.pairwise_cons.mp h
      have hpq : p < q := hp (q, v) List.mem_cons_self
      rw [mergeFrom, if_neg (Nat.ne_of_gt hpq), ih hes]

/-- Entries whose positions ascend strictly are collected already. -/
theorem collect_eq_self {es : List (Entry K)} (h : es.Pairwise fun a b => a.1 < b.1) :
    collect es = es := by
  have hsorted : es.Pairwise fun a b => decide (a.1 ≤ b.1) = true :=
    h.imp fun hab => by simpa using Nat.le_of_lt hab
  rw [collect, List.mergeSort_of_pairwise hsorted]
  cases es with
  | nil => rfl
  | cons e es => exact mergeFrom_eq_cons h

end CoupledModels.Entry
