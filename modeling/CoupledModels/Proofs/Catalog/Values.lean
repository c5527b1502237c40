import CoupledModels.Proofs.Catalog.Loading
import CoupledModels.Proofs.SortedMap

/-!
# Solution values

Recording solutions is a sequence of assignments to columns.  The last assignment to a column counts,
and assignments to numbers that are no columns do nothing; so a sequence that is made a second time
changes nothing.
-/

namespace CoupledModels

variable {K : Type}

/-- The values after some assignments, in order. -/
def assign (values : Array (Option K)) (es : List (Nat × K)) : Array (Option K) :=
  es.foldl (fun vs e => vs.setIfInBounds e.1 (some e.2)) values

theorem assign_append (values : Array (Option K)) (es fs : List (Nat × K)) :
    assign values (es ++ fs) = assign (assign values es) fs :=
  List.foldl_append

@[simp] theorem size_assign (values : Array (Option K)) (es : List (Nat × K)) :
    (assign values es).size = values.size := by
  induction es using List.reverseRecOn with
  | nil => rfl
  | append_singleton es e ih => simp [assign, ← ih]

/-- The last assignment to a column counts. -/
theorem getElem?_assign (values : Array (Option K)) (es : List (Nat × K)) (k : Nat) :
    (assign values es)[k]? =
      if k < values.size then (es.reverse.lookup k).elim values[k]? fun v => some (some v)
      else none := by
  induction es using List.reverseRecOn with
  | nil =>
      split
      · rfl
      · exact Array.getElem?_eq_none (Nat.not_lt.mp ‹_›)
  | append_singleton es e ih =>
      rw [assign_append, List.reverse_append, List.reverse_singleton, List.singleton_append,
        List.lookup_cons]
      simp only [assign, List.foldl_cons, List.foldl_nil] at ih ⊢
      rw [Array.getElem?_setIfInBounds, ih]
      have hsize : (es.foldl (fun vs e => vs.setIfInBounds e.1 (some e.2)) values).size =
          values.size := size_assign values es
      -- the last assignment is the first one of the reversed list
      by_cases hk : e.1 = k
      · simp [hk, hsize]
      · rw [if_neg hk, beq_false_of_ne (Ne.symm hk)]

/-- Assignments that are made a second time change nothing. -/
theorem assign_assign (values : Array (Option K)) (es : List (Nat × K)) :
    assign (assign values es) es = assign values es := by
  refine Array.ext_getElem? fun k => ?_
  rw [getElem?_assign (assign values es), size_assign, getElem?_assign values]
  split
  · cases es.reverse.lookup k <;> rfl
  · rfl

namespace Catalog

variable {c : Catalog K}

theorem setValues_eq (c : Catalog K) (columns : List Nat) (values : List K) :
    c.setValues columns values = c.withValues (assign c.values (columns.zip values)) := rfl

/-- A column has the value that it has been assigned last, or the one that it had. -/
theorem value?_assign (c : Catalog K) (es : List (Nat × K)) {column : Nat}
    (hcolumn : column < c.values.size) :
    (c.withValues (assign c.values es)).value? column =
      (es.reverse.lookup column).or (c.value? column) := by
  rw [value?, values_withValues, getElem?_assign, if_pos hcolumn]
  cases es.reverse.lookup column <;> rfl

/-- A column has a value if it had one or has been assigned one. -/
theorem isSome_value?_assign {es : List (Nat × K)} {column : Nat}
    (hcolumn : column < c.values.size) :
    ((c.withValues (assign c.values es)).value? column).isSome = true ↔
      column ∈ es.map Prod.fst ∨ (c.value? column).isSome = true := by
  have hmem : column ∈ es.map Prod.fst ↔ es.reverse.lookup column ≠ none := by
    rw [ne_eq, List.lookup_eq_none_iff]
    simp
  rw [value?_assign c es hcolumn, hmem]
  cases es.reverse.lookup column <;> simp

end Catalog

end CoupledModels
